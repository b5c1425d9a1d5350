import Equirec.Proofs.Acceptance
import Equirec.Proofs.Tracing

/-!
# What the readers take

What the readers take off the stream with a value is derived by the grammar, and what they have
taken when they refuse the next token can be completed to something that is derived
(`Parse.tracksTerms`). So only what the grammar derives is read as a program.
-/
namespace Equirec

open Parse

/-! ## Types -/

namespace Ty

variable {scope : Scope}

/-- The tokens of parameters with their parentheses. -/
def SpellsParameters (scope : Scope) (parameters : List (String × Ty)) (tokens : List Token) :
    Prop :=
  ∃ opening inside closing, tokens = opening :: (inside ++ [closing]) ∧
    opening.kind = .openParen ∧ Spells scope (.members .parameters parameters) inside ∧
      closing.kind = .closeParen

/-- An object type without properties. -/
theorem spells_object_nil :
    Spells scope (.type (.object [])) [.bare .openCurly "", .bare .closeCurly ""] :=
  .object rfl .nil rfl

/-- Every annotation, list of members and type can be spelled. -/
theorem exists_spelled : (∃ type tokens, Spells scope (.type type) tokens) ∧
    (∀ listing, ∃ members tokens, Spells scope (.members listing members) tokens) ∧
    (∃ parameters tokens, SpellsParameters scope parameters tokens) ∧
    ∃ declared tokens, Spells scope (.ascription declared) tokens :=
  ⟨⟨_, _, spells_object_nil⟩, fun _ => ⟨_, _, .nil⟩,
    ⟨[], _, .bare .openParen "", [], .bare .closeParen "", rfl, rfl, .nil, rfl⟩, ⟨_, _, .bare⟩⟩

end Ty

namespace Parse

variable {before : Parser} {scope : Scope} {fuel : Nat}

open Ty (Spells SpellsParameters)

/-- Tokens to which others are missing for a single one are none. -/
theorem nil_of_append_eq {taken more : List Token} {token : Token} (isMore : more ≠ [])
    (single : taken ++ more = [token]) : taken = [] := by
  obtain ⟨isNil, -⟩ | ⟨-, isNil⟩ := List.append_eq_singleton_iff.1 single
  · exact isNil
  · exact absurd isNil isMore

/-- The name of a type that is known is taken. -/
theorem fills_readTypeName (isScope : before.scope = scope) :
    readTypeName.Fills before (· = scope) fun type tokens =>
      Spells scope (.type type) tokens where
  inhabited := Ty.exists_spelled.1
  tracks := by
    rw [readTypeName]
    apply (Fills.of_expect isScope (by decide)).tracks.bind
    · rintro taken token more isMore ⟨-, single⟩
      rw [nil_of_append_eq isMore single]
      exact ⟨_, _, List.cons_ne_nil _ _, Ty.spells_object_nil⟩
    · rintro token _ after ⟨isName, rfl⟩ isScope
      have known : ∀ type, scope.meaning? token.value = some type →
          (pure type : Parse Ty).Tracks after (· = scope) fun type more =>
            Spells scope (.type type) ([token] ++ more) :=
        fun type known => .pure isScope (.name isName known)
      split
      · rename_i isNumber
        exact known .number (by rw [isNumber]; rfl)
      · rename_i isBoolean
        exact known .boolean (by rw [isBoolean]; rfl)
      · rename_i noNumber noBoolean
        have meaning : scope.meaning? token.value = after.scope.resolve? token.value := by
          rw [Scope.meaning?, if_neg noNumber, if_neg noBoolean, isScope]
        apply Tracks.get
        split
        · rename_i type resolved
          exact known type (meaning.trans resolved)
        · exact .fail rfl

/-- What all readers of types take with an allowance. -/
structure TracksTypes (fuel : Nat) : Prop where
  /-- A type. -/
  type : ∀ {before : Parser} {scope : Scope}, before.scope = scope →
    (readType .standard fuel).Fills before (· = scope) fun type tokens =>
      Spells scope (.type type) tokens
  /-- A type of a known form. -/
  form : ∀ {before : Parser} {scope : Scope} (form : TypeForm), before.scope = scope →
    (readTypeForm .standard fuel form).Fills before (· = scope) fun type tokens =>
      Spells scope (.type type) tokens
  /-- Members of a type. -/
  members : ∀ {before : Parser} {scope : Scope} (listing : Ty.Listing), before.scope = scope →
    (listing.read fuel).Fills before (· = scope) fun members tokens =>
      Spells scope (.members listing members) tokens
  /-- Parameters with their parentheses. -/
  parameters : ∀ {before : Parser} {scope : Scope}, before.scope = scope →
    (readParameters .standard fuel).Fills before (· = scope) fun parameters tokens =>
      SpellsParameters scope parameters tokens

namespace TracksTypes

/-- Without an allowance nothing is taken. -/
theorem zero : TracksTypes 0 where
  type _ := by
    rw [readType]
    exact .exhausted Ty.exists_spelled.1
  form _ _ := by
    rw [readTypeForm]
    exact .exhausted Ty.exists_spelled.1
  members listing _ := by
    rw [Ty.Listing.read_zero]
    exact .exhausted (Ty.exists_spelled.2.1 listing)
  parameters _ := by
    rw [readParameters]
    exact .exhausted Ty.exists_spelled.2.2.1

/-- A type, if nested readers take what they should. -/
theorem fills_readType (nested : TracksTypes fuel) (isScope : before.scope = scope) :
    (readType .standard (fuel + 1)).Fills before (· = scope) fun type tokens =>
      Spells scope (.type type) tokens := by
  rw [readType]
  apply Fills.current
  split
  · exact nested.form _ isScope
  · exact .unexpected ⟨_, _, List.cons_ne_nil _ _, Ty.spells_object_nil⟩

/-- A type of a known form, if nested readers take what they should. -/
theorem fills_readTypeForm (nested : TracksTypes fuel) (form : TypeForm)
    (isScope : before.scope = scope) :
    (readTypeForm .standard (fuel + 1) form).Fills before (· = scope) fun type tokens =>
      Spells scope (.type type) tokens := by
  cases form with
  | name =>
    rw [readTypeForm]
    exact fills_readTypeName isScope
  | function =>
    rw [readTypeForm]
    apply (nested.parameters isScope).bind
    rintro parameters _ parser ⟨opening, inside, closing, rfl, isOpening, inParameters, isClosing⟩
      isScope
    apply Fills.expectFor isScope (by decide)
    intro arrow parser isArrow isScope
    apply (nested.type isScope).bind
    intro result after parser inResult isScope
    refine .pure isScope ?_
    simpa using Spells.function isOpening inParameters isClosing isArrow inResult
  | object =>
    rw [readTypeForm]
    apply Fills.expect isScope (by decide)
    intro opening parser isOpening isScope
    apply (nested.members .properties isScope).bind
    intro properties inside parser inProperties isScope
    apply Fills.expect isScope (by decide)
    intro closing parser isClosing isScope
    exact .pure isScope (.object isOpening inProperties isClosing)

/-- Members of a type, if nested readers take what they should. -/
theorem fills_members (nested : TracksTypes fuel) (listing : Ty.Listing)
    (isScope : before.scope = scope) :
    (listing.read (fuel + 1)).Fills before (· = scope) fun members tokens =>
      Spells scope (.members listing members) tokens := by
  cases listing with
  | parameters =>
    rw [Ty.Listing.read, readParameterList]
    apply Fills.nextIs
    split
    · exact .pure isScope .nil
    · apply Fills.expectFor isScope (by decide)
      intro name parser isName isScope
      apply Fills.expectFor isScope (by decide)
      intro colon parser isColon isScope
      apply (nested.type isScope).bind
      intro type tokens parser inType isScope
      apply Fills.nextIs
      split
      · rename_i separates
        apply Fills.skip isScope (by rw [eq_of_beq separates]; decide)
        intro after isScope
        apply (nested.members .parameters isScope).bind
        intro others more after inOthers isScope
        refine .pure isScope ?_
        rw [List.append_nil]
        exact .cons isName isColon inType separates inOthers
      · refine .pure isScope ?_
        rw [List.append_nil]
        exact .last isName isColon inType
  | properties =>
    rw [Ty.Listing.read, readPropertyTypes]
    apply Fills.nextIs
    split
    · exact .pure isScope .nil
    · apply Fills.expectFor isScope (by decide)
      intro name parser isName isScope
      apply Fills.expect isScope (by decide)
      intro colon parser isColon isScope
      apply (nested.type isScope).bind
      intro type tokens parser inType isScope
      apply Fills.nextIs
      apply Fills.nextIs
      split
      · rename_i separates
        have more : parser.stream.current.kind ≠ .eof := by
          intro isEnd
          rw [isEnd] at separates
          cases separates
        apply Fills.skip isScope more
        intro after isScope
        apply (nested.members .properties isScope).bind
        intro others more after inOthers isScope
        refine .pure isScope ?_
        rw [List.append_nil]
        exact .cons isName isColon inType separates inOthers
      · refine .pure isScope ?_
        rw [List.append_nil]
        exact .last isName isColon inType

/-- Parameters with their parentheses, if nested readers take what they should. -/
theorem fills_readParameters (nested : TracksTypes fuel) (isScope : before.scope = scope) :
    (readParameters .standard (fuel + 1)).Fills before (· = scope) fun parameters tokens =>
      SpellsParameters scope parameters tokens := by
  rw [readParameters]
  apply Fills.expect isScope (by decide)
  intro opening parser isOpening isScope
  apply (nested.members .parameters isScope).bind
  intro parameters inside parser inParameters isScope
  apply Fills.expect isScope (by decide)
  intro closing parser isClosing isScope
  exact .pure isScope ⟨opening, inside, closing, rfl, isOpening, inParameters, isClosing⟩

end TracksTypes

/-- What readers of types take, with any allowance. -/
theorem tracksTypes (fuel : Nat) : TracksTypes fuel := by
  induction fuel with
  | zero => exact .zero
  | succ fuel nested =>
    exact {
      type := nested.fills_readType
      form := nested.fills_readTypeForm
      members := nested.fills_members
      parameters := nested.fills_readParameters }

end Parse

/-! ## Types in the grammar -/

/-- What tokens spell, as a phrase of the grammar. -/
def Ty.Spelled.phrase : Ty.Spelled → Phrase
  | .type _ => .type
  | .members listing _ => .list (.member listing)
  | .ascription _ => .ascription

/-- What tokens spell is derived by the grammar. -/
theorem Ty.Spells.derives {scope : Scope} {spelled : Ty.Spelled} {tokens : List Token}
    (spells : Ty.Spells scope spelled tokens) : Derives scope.names spelled.phrase tokens := by
  induction spells with
  | name isName known => exact .typeName isName (Scope.exists_meaning?_iff.1 ⟨_, known⟩)
  | function isOpening _ isClosing isArrow _ inParameters inResult =>
    exact .functionType isOpening inParameters isClosing isArrow inResult
  | object isOpening _ isClosing inProperties =>
    exact .objectType isOpening inProperties isClosing
  | nil => exact .nil
  | last isName isColon _ value => exact .single (.member isName isColon value)
  | cons isName isColon _ separates _ value others =>
    exact Derives.cons (.member isName isColon value) separates others
  | bare => exact .noAscription
  | annotated isColon _ value => exact .ascription isColon value

/-- The tokens of parameters with their parentheses, in the grammar. -/
theorem Ty.SpellsParameters.derives {scope : Scope} {parameters : List (String × Ty)}
    {tokens : List Token} (spells : Ty.SpellsParameters scope parameters tokens) :
    ∃ opening inside closing, tokens = opening :: (inside ++ [closing]) ∧
      opening.kind = .openParen ∧ Derives scope.names (.list (.member .parameters)) inside ∧
        closing.kind = .closeParen := by
  obtain ⟨opening, inside, closing, split, isOpening, inside', isClosing⟩ := spells
  exact ⟨opening, inside, closing, split, isOpening, inside'.derives, isClosing⟩

/-! ## Terms and sequences -/

namespace Derives

variable {known : List String}

/-- A name is a term. -/
theorem term_name : Derives known .term [.bare .identifier ""] :=
  .reference rfl

/-- The result of a block that is a name. -/
theorem result_name : Derives known (.sequence .result)
    [.bare .returnKeyword "", .bare .identifier "", .bare .semicolon ""] :=
  .result rfl term_name rfl

/-- Every phrase derives some tokens. -/
theorem exists_derives (known : List String) (phrase : Phrase) :
    ∃ tokens, Derives known phrase tokens := by
  have type : Derives known .type [.bare .openCurly "", .bare .closeCurly ""] :=
    .objectType rfl .nil rfl
  have isName : (Token.bare .identifier "").kind = .identifier := rfl
  have isColon : (Token.bare .colon "").kind = .colon := rfl
  match phrase with
  | .type => exact ⟨_, type⟩
  | .ascription => exact ⟨_, .noAscription⟩
  | .item (.member _) => exact ⟨_, .member isName isColon type⟩
  | .item .argument => exact ⟨_, .argument term_name⟩
  | .item .property => exact ⟨_, .property isName isColon term_name⟩
  | .list _ => exact ⟨_, .nil⟩
  | .term => exact ⟨_, term_name⟩
  | .block =>
    exact ⟨.bare .openCurly "" :: (_ ++ [.bare .closeCurly ""]), .block rfl result_name rfl⟩
  | .sequence .source => exact ⟨_, .last term_name⟩
  | .sequence .result => exact ⟨_, result_name⟩

end Derives

namespace Parse

variable {before : Parser} {scope : Scope} {fuel : Nat} {tokens : List Token}

/-- Whether an action takes the tokens of a phrase, and leaves the names of types as they are. -/
def FillsPhrase {α : Type} (action : Parse α) (before : Parser) (scope : Scope) (phrase : Phrase) :
    Prop :=
  action.Fills before (· = scope) fun _ tokens => Derives scope.names phrase tokens

/-- Whether an action takes the tokens of a sequence. -/
def FillsSequence (action : Parse Term) (before : Parser) (scope : Scope) (ending : Ending) :
    Prop :=
  action.Fills before (·.pending = []) fun _ tokens => Derives scope.names (.sequence ending) tokens

/-- Whether an action takes tokens that go on a term. -/
def FillsTail (action : Parse Term) (before : Parser) (scope : Scope) (tokens : List Token) :
    Prop :=
  action.Fills before (· = scope) fun _ more => Derives scope.names .term (tokens ++ more)

/-- What all readers of terms take with an allowance, where no name is being declared. -/
structure TracksTerms (fuel : Nat) : Prop where
  /-- A term. -/
  term : ∀ {before : Parser} {scope : Scope} (power : Power), before.scope = scope →
    scope.pending = [] → (readTerm .standard fuel power).FillsPhrase before scope .term
  /-- What follows a term. -/
  trailing : ∀ {before : Parser} {scope : Scope} {tokens : List Token} (power : Power)
    (left : Term), before.scope = scope → scope.pending = [] → Derives scope.names .term tokens →
      (readTrailing .standard fuel power left).FillsTail before scope tokens
  /-- A term of a leading form, as the next token says. -/
  leading : ∀ {before : Parser} {scope : Scope} (form : LeadingForm), before.scope = scope →
    scope.pending = [] →
      (form ≠ .arrow → Grammar.standard.leading before.stream.current.kind = some form) →
        (readLeading .standard fuel form).FillsPhrase before scope .term
  /-- The annotation of a function or a constant. -/
  ascription : ∀ {before : Parser} {scope : Scope}, before.scope = scope →
    (readDeclaredResult .standard fuel).FillsPhrase before scope .ascription
  /-- The properties of an object literal. -/
  properties : ∀ {before : Parser} {scope : Scope}, before.scope = scope → scope.pending = [] →
    (readPropertyList .standard fuel).FillsPhrase before scope (.list .property)
  /-- A term of a trailing form, as the next token says. -/
  trailingForm : ∀ {before : Parser} {scope : Scope} {tokens : List Token} {form : TrailingForm}
    {binding : Power} (left : Term), before.scope = scope → scope.pending = [] →
      Derives scope.names .term tokens →
        Grammar.standard.trailing before.stream.current.kind = some (form, binding) →
          (readTrailingForm .standard fuel form binding left).FillsTail before scope tokens
  /-- The arguments of a call. -/
  arguments : ∀ {before : Parser} {scope : Scope}, before.scope = scope → scope.pending = [] →
    (readArguments .standard fuel).FillsPhrase before scope (.list .argument)
  /-- The body of a function. -/
  block : ∀ {before : Parser} {scope : Scope}, before.scope = scope → scope.pending = [] →
    (readBlock .standard fuel).FillsPhrase before scope .block
  /-- A sequence. -/
  sequence : ∀ {before : Parser} {scope : Scope} (ending : Ending), before.scope = scope →
    scope.pending = [] → (readSequence .standard fuel ending).FillsSequence before scope ending
  /-- What follows a declaration. -/
  rest : ∀ {before : Parser} {scope : Scope} (ending : Ending), before.scope = scope →
    scope.pending = [] → (readRest .standard fuel ending).FillsSequence before scope ending
  /-- A declaration and what follows it, as the next token says. -/
  declaration : ∀ {before : Parser} {scope : Scope} (form : DeclarationForm) (ending : Ending),
    before.scope = scope → scope.pending = [] →
      Grammar.standard.declarations before.stream.current.kind = some form →
        (readDeclaration .standard fuel form ending).FillsSequence before scope ending

/-- A literal or a name is taken. -/
theorem fills_readPrimary (isScope : before.scope = scope) :
    readPrimary.FillsPhrase before scope .term := by
  rw [readPrimary]
  apply Fills.current
  split
  · rename_i isNumber
    split
    · rename_i value isValue
      apply Fills.skip isScope (by rw [isNumber]; decide)
      exact fun after isScope => .pure isScope (.number isNumber (by rw [isValue]; rfl))
    · exact .fail rfl ⟨default, _, Derives.term_name⟩
  · rename_i isName
    apply Fills.skip isScope (by rw [isName]; decide)
    exact fun after isScope => .pure isScope (.reference isName)
  · rename_i isTrue
    apply Fills.skip isScope (by rw [isTrue]; decide)
    exact fun after isScope => .pure isScope (.boolean (.inl isTrue))
  · rename_i isFalse
    apply Fills.skip isScope (by rw [isFalse]; decide)
    exact fun after isScope => .pure isScope (.boolean (.inr isFalse))
  · exact .unexpected ⟨default, _, List.cons_ne_nil _ _, Derives.term_name⟩

/-- Where the next token is no brace, a term is taken that does not start with one. -/
theorem FillsPhrase.noBrace {action : Parse Term} (fills : action.FillsPhrase before scope .term)
    (noBrace : before.stream.current.kind ≠ .openCurly) :
    action.Fills before (· = scope) fun _ tokens => ∃ first rest, tokens = first :: rest ∧
      first.kind ≠ .openCurly ∧ Derives scope.names .term (first :: rest) where
  inhabited := ⟨default, _, .bare .identifier "", [], rfl, by decide, Derives.term_name⟩
  tracks := by
    have starts : ∀ {taken after}, Takes before taken after → ∀ first rest,
        taken = first :: rest → first.kind ≠ .openCurly := by
      rintro taken after takes first rest rfl
      rw [takes.head_eq rfl]
      exact noBrace
    intro closed
    apply (fills.tracks closed).imp
    · rintro term after ⟨taken, takes, isScope, derives⟩
      obtain ⟨first, rest, rfl, -⟩ := derives.starts.exists_cons
      exact ⟨first :: rest, takes, isScope, first, rest, rfl, starts takes first rest rfl, derives⟩
    · rintro fault after refused isUnexpected
      obtain ⟨taken, takes, place, term, more, isMore, derives⟩ := refused isUnexpected
      refine ⟨taken, takes, place, ?_⟩
      obtain _ | ⟨first, rest⟩ := taken
      · exact ⟨default, _, List.cons_ne_nil _ _, .bare .identifier "", [], rfl, by decide,
          Derives.term_name⟩
      · exact ⟨term, more, isMore, first, rest ++ more, rfl, starts takes first rest rfl, derives⟩

/-- The token that begins what follows a term. -/
def sign : TrailingForm → Token.Kind
  | .add => .plus
  | .conditional => .question
  | .call => .openParen
  | .property => .dot

/-- What follows a term begins with its sign. -/
theorem eq_sign_of_trailing {kind : Token.Kind} {form : TrailingForm} {binding : Power}
    (isForm : Grammar.standard.trailing kind = some (form, binding)) : kind = sign form := by
  revert isForm
  cases kind <;> rintro ⟨⟩ <;> rfl

/-- The keyword that begins a declaration. -/
def keyword : DeclarationForm → Token.Kind
  | .constant => .constKeyword
  | .function => .functionKeyword
  | .alias => .typeKeyword

/-- A declaration begins with its keyword. -/
theorem eq_keyword_of_declarations {kind : Token.Kind} {form : DeclarationForm}
    (isForm : Grammar.standard.declarations kind = some form) : kind = keyword form := by
  revert isForm
  cases kind <;> rintro ⟨⟩ <;> rfl

/-- Only a parenthesis begins what may be a term in parentheses or an arrow function. -/
theorem eq_openParen_of_leading {kind : Token.Kind}
    (isForm : Grammar.standard.leading kind = some .parenthesis) : kind = .openParen := by
  revert isForm
  cases kind <;> rintro ⟨⟩
  rfl

/-- Only a brace begins an object literal. -/
theorem eq_openCurly_of_leading {kind : Token.Kind}
    (isForm : Grammar.standard.leading kind = some .object) : kind = .openCurly := by
  revert isForm
  cases kind <;> rintro ⟨⟩
  rfl

namespace TracksTerms

/-- Without an allowance nothing is taken. -/
theorem zero : TracksTerms 0 where
  term _ _ _ := by
    rw [readTerm]
    exact .exhausted ⟨default, _, Derives.term_name⟩
  trailing _ left _ _ derives := by
    rw [readTrailing]
    exact .exhausted ⟨left, [], by rw [List.append_nil]; exact derives⟩
  leading form _ _ _ := by
    rw [readLeading]
    exact .exhausted ⟨default, _, Derives.term_name⟩
  ascription _ := by
    rw [readDeclaredResult]
    exact .exhausted ⟨none, _, .noAscription⟩
  properties _ _ := by
    rw [readPropertyList]
    exact .exhausted ⟨[], _, .nil⟩
  trailingForm left _ _ derives _ := by
    rw [readTrailingForm]
    exact .exhausted ⟨left, [], by rw [List.append_nil]; exact derives⟩
  arguments _ _ := by
    rw [readArguments]
    exact .exhausted ⟨[], _, .nil⟩
  block {_ scope} _ _ := by
    rw [readBlock]
    obtain ⟨tokens, derives⟩ := Derives.exists_derives scope.names .block
    exact .exhausted ⟨default, tokens, derives⟩
  sequence {_ scope} ending _ _ := by
    rw [readSequence]
    obtain ⟨tokens, derives⟩ := Derives.exists_derives scope.names (.sequence ending)
    exact .exhausted ⟨default, tokens, derives⟩
  rest {_ scope} ending _ _ := by
    rw [readRest]
    obtain ⟨tokens, derives⟩ := Derives.exists_derives scope.names (.sequence ending)
    exact .exhausted ⟨default, tokens, derives⟩
  declaration {_ scope} _ ending _ _ _ := by
    rw [readDeclaration]
    obtain ⟨tokens, derives⟩ := Derives.exists_derives scope.names (.sequence ending)
    exact .exhausted ⟨default, tokens, derives⟩

/-- A term, if nested readers take what they should. -/
theorem fills_readTerm (nested : TracksTerms fuel) (power : Power) (isScope : before.scope = scope)
    (idle : scope.pending = []) :
    (readTerm .standard (fuel + 1) power).FillsPhrase before scope .term := by
  rw [readTerm]
  apply Fills.current
  split
  · rename_i form isForm
    apply (nested.leading form isScope idle fun _ => isForm).bind
    intro left tokens parser derives isScope
    exact nested.trailing power left isScope idle derives
  · exact .unexpected ⟨default, _, List.cons_ne_nil _ _, Derives.term_name⟩

/-- What follows a term, if nested readers take what they should. -/
theorem fills_readTrailing (nested : TracksTerms fuel) (power : Power) (left : Term)
    (isScope : before.scope = scope) (idle : scope.pending = [])
    (derives : Derives scope.names .term tokens) :
    (readTrailing .standard (fuel + 1) power left).FillsTail before scope tokens := by
  have ended : (pure left : Parse Term).FillsTail before scope tokens :=
    .pure isScope (by rw [List.append_nil]; exact derives)
  rw [readTrailing]
  apply Fills.current
  split
  · rename_i form binding isForm
    split
    · apply (nested.trailingForm left isScope idle derives isForm).bind
      intro longer more parser derives isScope
      apply (nested.trailing power longer isScope idle derives).imp
      intro term rest derives
      rw [← List.append_assoc]
      exact derives
    · exact ended
  · exact ended

/-- An arrow function, if nested readers take what they should. -/
theorem fills_arrow (nested : TracksTerms fuel) (isScope : before.scope = scope)
    (idle : scope.pending = []) :
    (readLeading .standard (fuel + 1) .arrow).FillsPhrase before scope .term := by
  rw [readLeading]
  apply Fills.current
  apply ((tracksTypes fuel).parameters isScope).bind
  rintro parameters _ parser spells isScope
  obtain ⟨opening, inside, closing, rfl, isOpening, inParameters, isClosing⟩ := spells.derives
  apply (nested.ascription isScope).bind
  intro declared between parser inAscription isScope
  apply Fills.expectFor isScope (by decide)
  intro arrow parser isArrow isScope
  apply Fills.nextIs
  dsimp only
  split
  · apply (nested.block isScope idle).bind
    intro body tokens parser inBody isScope
    apply Fills.spanFrom
    refine .pure isScope ?_
    simpa using
      Derives.functionBlock isOpening inParameters isClosing inAscription isArrow inBody
  · rename_i noBrace
    have noBrace : parser.stream.current.kind ≠ .openCurly :=
      fun isBrace => noBrace (beq_iff_eq.2 isBrace)
    apply ((nested.term .lowest isScope idle).noBrace noBrace).bind
    rintro body _ parser ⟨first, rest, rfl, noBrace, inBody⟩ isScope
    apply Fills.spanFrom
    refine .pure isScope ?_
    simpa using
      Derives.function isOpening inParameters isClosing inAscription isArrow noBrace inBody

/-- A term of a leading form, if nested readers take what they should. -/
theorem fills_readLeading (nested : TracksTerms fuel) (form : LeadingForm)
    (isScope : before.scope = scope) (idle : scope.pending = [])
    (isForm : form ≠ .arrow → Grammar.standard.leading before.stream.current.kind = some form) :
    (readLeading .standard (fuel + 1) form).FillsPhrase before scope .term := by
  cases form with
  | primary =>
    rw [readLeading]
    exact fills_readPrimary isScope
  | parenthesis =>
    have isOpening := eq_openParen_of_leading (isForm (by decide))
    rw [readLeading]
    apply Fills.peekKind
    apply Fills.peekKind
    split
    · exact nested.leading .arrow isScope idle fun noArrow => absurd rfl noArrow
    · apply Fills.skip isScope (by rw [isOpening]; decide)
      intro parser isScope
      apply (nested.term .lowest isScope idle).bind
      intro term tokens parser derives isScope
      apply Fills.expect isScope (by decide)
      intro closing parser isClosing isScope
      exact .pure isScope (.group isOpening derives isClosing)
  | object =>
    have isOpening := eq_openCurly_of_leading (isForm (by decide))
    rw [readLeading]
    apply Fills.advance isScope (by rw [isOpening]; decide)
    intro parser isScope
    apply (nested.properties isScope idle).bind
    intro properties tokens parser derives isScope
    apply Fills.expect isScope (by decide)
    intro closing parser isClosing isScope
    apply Fills.spanFrom
    exact .pure isScope (.object isOpening derives isClosing)
  | arrow => exact nested.fills_arrow isScope idle

/-- An annotation, if nested readers take what they should. -/
theorem fills_readDeclaredResult (isScope : before.scope = scope) :
    (readDeclaredResult .standard (fuel + 1)).FillsPhrase before scope .ascription := by
  rw [readDeclaredResult]
  apply Fills.nextIs
  split
  · rename_i isColon
    apply Fills.skip isScope (by rw [eq_of_beq isColon]; decide)
    intro parser isScope
    apply ((tracksTypes fuel).type isScope).bind
    intro type tokens parser spells isScope
    refine .pure isScope ?_
    rw [List.append_nil]
    exact .ascription (eq_of_beq isColon) spells.derives
  · exact .pure isScope .noAscription

/-- The properties of an object literal, if nested readers take what they should. -/
theorem fills_readPropertyList (nested : TracksTerms fuel) (isScope : before.scope = scope)
    (idle : scope.pending = []) :
    (readPropertyList .standard (fuel + 1)).FillsPhrase before scope (.list .property) := by
  rw [readPropertyList]
  apply Fills.nextIs
  split
  · exact .pure isScope .nil
  · apply Fills.expectFor isScope (by decide)
    intro name parser isName isScope
    apply Fills.expect isScope (by decide)
    intro colon parser isColon isScope
    apply (nested.term .lowest isScope idle).bind
    intro value tokens parser derives isScope
    have item := Derives.property isName isColon derives
    apply Fills.nextIs
    split
    · rename_i isComma
      apply Fills.skip isScope (by rw [eq_of_beq isComma]; decide)
      intro after isScope
      apply (nested.properties isScope idle).bind
      intro others more after inOthers isScope
      refine .pure isScope ?_
      rw [List.append_nil]
      exact Derives.cons item isComma inOthers
    · refine .pure isScope ?_
      rw [List.append_nil]
      exact .single item

/-- The arguments of a call, if nested readers take what they should. -/
theorem fills_readArguments (nested : TracksTerms fuel) (isScope : before.scope = scope)
    (idle : scope.pending = []) :
    (readArguments .standard (fuel + 1)).FillsPhrase before scope (.list .argument) := by
  rw [readArguments]
  apply Fills.nextIs
  split
  · exact .pure isScope .nil
  · apply (nested.term .lowest isScope idle).bind
    intro argument tokens parser derives isScope
    have item := Derives.argument derives
    apply Fills.nextIs
    split
    · rename_i isComma
      apply Fills.skip isScope (by rw [eq_of_beq isComma]; decide)
      intro after isScope
      apply (nested.arguments isScope idle).bind
      intro others more after inOthers isScope
      refine .pure isScope ?_
      rw [List.append_nil]
      exact Derives.cons item isComma inOthers
    · refine .pure isScope ?_
      rw [List.append_nil]
      exact .single item

/-- A term of a trailing form, if nested readers take what they should. -/
theorem fills_readTrailingForm (nested : TracksTerms fuel) {form : TrailingForm} {binding : Power}
    (left : Term) (isScope : before.scope = scope) (idle : scope.pending = [])
    (derives : Derives scope.names .term tokens)
    (isForm : Grammar.standard.trailing before.stream.current.kind = some (form, binding)) :
    (readTrailingForm .standard (fuel + 1) form binding left).FillsTail before scope tokens := by
  have more : before.stream.current.kind ≠ .eof :=
    Grammar.ne_eof_of_entry Grammar.standard_stopsAtEnd.trailing isForm
  cases form with
  | add =>
    have isPlus : before.stream.current.kind = .plus := eq_sign_of_trailing isForm
    rw [readTrailingForm]
    apply Fills.skip isScope more
    intro parser isScope
    apply (nested.term binding isScope idle).bind
    intro right tokens parser inRight isScope
    refine .pure isScope ?_
    rw [List.append_nil]
    exact .add derives isPlus inRight
  | conditional =>
    have isQuestion : before.stream.current.kind = .question := eq_sign_of_trailing isForm
    rw [readTrailingForm]
    apply Fills.skip isScope more
    intro parser isScope
    apply (nested.term .lowest isScope idle).bind
    intro positive inside parser holds isScope
    apply Fills.expectFor isScope (by decide)
    intro colon parser isColon isScope
    apply (nested.term .lowest isScope idle).bind
    intro negative after parser fails isScope
    refine .pure isScope ?_
    rw [List.append_nil]
    exact .conditional derives isQuestion holds isColon fails
  | call =>
    have isOpening : before.stream.current.kind = .openParen := eq_sign_of_trailing isForm
    rw [readTrailingForm]
    apply Fills.skip isScope more
    intro parser isScope
    apply (nested.arguments isScope idle).bind
    intro arguments inside parser values isScope
    apply Fills.expect isScope (by decide)
    intro closing parser isClosing isScope
    apply Fills.spanFrom
    exact .pure isScope (.call derives isOpening values isClosing)
  | property =>
    have isDot : before.stream.current.kind = .dot := eq_sign_of_trailing isForm
    rw [readTrailingForm, readProperty]
    apply Fills.skip isScope more
    intro parser isScope
    apply Fills.expectFor isScope (by decide)
    intro name parser isName isScope
    apply Fills.spanFrom
    exact .pure isScope (.access derives isDot isName)

/-- The body of a function, if nested readers take what they should. -/
theorem fills_readBlock (nested : TracksTerms fuel) (isScope : before.scope = scope)
    (idle : scope.pending = []) :
    (readBlock .standard (fuel + 1)).FillsPhrase before scope .block := by
  rw [readBlock]
  apply Fills.expectFor isScope (by decide)
  intro opening parser isOpening isScope
  have inner := nested.sequence .result isScope idle
  rw [FillsSequence, ← idle] at inner
  apply (Fills.locally isScope inner).bind
  intro body tokens parser derives isScope
  apply Fills.expect isScope (by decide)
  intro closing parser isClosing isScope
  exact .pure isScope (.block isOpening derives isClosing)

/-- What follows a declaration, if nested readers take what they should. -/
theorem fills_readRest (nested : TracksTerms fuel) (ending : Ending)
    (isScope : before.scope = scope) (idle : scope.pending = []) :
    (readRest .standard (fuel + 1) ending).FillsSequence before scope ending := by
  rw [readRest]
  apply Fills.nextIs
  split
  · obtain ⟨tokens, derives⟩ := Derives.exists_derives scope.names (.sequence ending)
    obtain ⟨first, rest, rfl, -⟩ := derives.starts
    exact .unexpectedFor ⟨default, _, List.cons_ne_nil _ _, derives⟩
  · exact nested.sequence ending isScope idle

/-- What follows a term and its semicolon, if nested readers take what they should. -/
theorem fills_followed (nested : TracksTerms fuel) {ending : Ending} {semicolon : Token}
    (first : Term) (inTerm : Derives scope.names .term tokens)
    (isSemicolon : semicolon.kind = .semicolon) (isScope : before.scope = scope)
    (idle : scope.pending = []) :
    Fills (readSequence .standard fuel ending >>= fun rest =>
      pure (Term.sequence (first.span.through rest.span) first rest)) before (·.pending = [])
      fun _ more => Derives scope.names (.sequence ending) (tokens ++ semicolon :: more) :=
  (nested.sequence ending isScope idle).map fun _ _ inRest =>
    .sequence inTerm isSemicolon inRest

/-- A sequence, if nested readers take what they should. -/
theorem fills_readSequence (nested : TracksTerms fuel) (ending : Ending)
    (isScope : before.scope = scope) (idle : scope.pending = []) :
    (readSequence .standard (fuel + 1) ending).FillsSequence before scope ending := by
  rw [readSequence]
  apply Fills.current
  split
  · rename_i form isForm
    exact nested.declaration form _ isScope idle isForm
  · apply Fills.nextIs
    split
    · rename_i isReturn
      apply Fills.skip isScope (by rw [eq_of_beq isReturn]; decide)
      intro parser isScope
      apply (nested.term .lowest isScope idle).bind
      intro value tokens parser inTerm isScope
      apply Fills.expect isScope (by decide)
      intro semicolon parser isSemicolon isScope
      exact .pure (isScope ▸ idle) (.result (eq_of_beq isReturn) inTerm isSemicolon)
    · apply (nested.term .lowest isScope idle).bind
      intro first tokens parser inTerm isScope
      apply Fills.expect isScope (by decide)
      intro semicolon parser isSemicolon isScope
      exact nested.fills_followed first inTerm isSemicolon isScope idle
  · apply (nested.term .lowest isScope idle).bind
    intro first tokens parser inTerm isScope
    apply Fills.nextIs
    split
    · rename_i isSemicolon
      apply Fills.skip isScope (by rw [eq_of_beq isSemicolon]; decide)
      intro after isScope
      apply Fills.nextIs
      split
      · exact .pure (isScope ▸ idle) (.lastSemicolon inTerm (eq_of_beq isSemicolon))
      · exact nested.fills_followed first inTerm (eq_of_beq isSemicolon) isScope idle
    · refine .pure (isScope ▸ idle) ?_
      rw [List.append_nil]
      exact .last inTerm

/-- The declaration of a constant, if nested readers take what they should. -/
theorem fills_constant (nested : TracksTerms fuel) (ending : Ending)
    (isScope : before.scope = scope) (idle : scope.pending = [])
    (isConst : before.stream.current.kind = .constKeyword) :
    (readDeclaration .standard (fuel + 1) .constant ending).FillsSequence before scope ending := by
  rw [readDeclaration]
  apply Fills.advance isScope (by rw [isConst]; decide)
  intro parser isScope
  apply Fills.expectFor isScope (by decide)
  intro name parser isName isScope
  apply (nested.ascription isScope).bind
  intro declared between parser inAscription isScope
  apply Fills.expectFor isScope (by decide)
  intro assignment parser isAssignment isScope
  apply (nested.term .lowest isScope idle).bind
  intro value tokens parser inValue isScope
  apply Fills.expect isScope (by decide)
  intro semicolon parser isSemicolon isScope
  apply (nested.rest ending isScope idle).map
  exact fun rest more inRest =>
    .constant isConst isName inAscription isAssignment inValue isSemicolon inRest

/-- The declaration of a function, if nested readers take what they should. -/
theorem fills_functionDeclaration (nested : TracksTerms fuel) (ending : Ending)
    (isScope : before.scope = scope) (idle : scope.pending = [])
    (isFunction : before.stream.current.kind = .functionKeyword) :
    (readDeclaration .standard (fuel + 1) .function ending).FillsSequence before scope ending := by
  rw [readDeclaration]
  apply Fills.advance isScope (by rw [isFunction]; decide)
  intro parser isScope
  apply Fills.expectFor isScope (by decide)
  intro name parser isName isScope
  apply ((tracksTypes fuel).parameters isScope).bind
  rintro parameters _ parser spells isScope
  obtain ⟨opening, inside, closing, rfl, isOpening, inParameters, isClosing⟩ := spells.derives
  apply Fills.expectFor isScope (by decide)
  intro colon parser isColon isScope
  apply ((tracksTypes fuel).type isScope).bind
  intro declared result parser inResult isScope
  apply (nested.block isScope idle).bind
  intro body tokens parser inBody isScope
  apply (nested.rest ending isScope idle).map
  intro rest more inRest
  simpa using Derives.declaration isFunction isName isOpening inParameters isClosing isColon
    inResult.derives inBody inRest

/-- A type that is declared with a first layer is not just its own name, unless it is a type of the
language. -/
theorem notItself_of_isGuarded {name : String} {body : Ty}
    (spells : Ty.Spells (scope.begin name) (.type body) tokens)
    (guards : body.isGuarded name = true) (token : Token) (single : tokens = [token])
    (itself : token.value = name) : name = "number" ∨ name = "boolean" := by
  by_cases isNumber : name = "number"
  · exact .inl isNumber
  by_cases isBoolean : name = "boolean"
  · exact .inr isBoolean
  cases spells with
  | name _ known =>
    cases single
    rw [itself, Scope.meaning?, if_neg isNumber, if_neg isBoolean, Scope.resolve?, Scope.begin,
      if_pos List.mem_cons_self] at known
    cases known
    simp [Ty.isGuarded] at guards
  | function => simp at single
  | object => simp at single

/-- What has been taken of a type that is being declared can be completed to the declaration of a
type that is not just its own name. -/
theorem exists_typeDeclaration {type name assignment : Token} (ending : Ending)
    (isType : type.kind = .typeKeyword) (isName : name.kind = .identifier)
    (isAssignment : assignment.kind = .assignment) {taken more : List Token} (isMore : more ≠ [])
    (derives : Derives (name.value :: scope.names) .type (taken ++ more)) :
    ∃ rest, rest ≠ [] ∧ Derives scope.names (.sequence ending)
      (type :: name :: assignment :: (taken ++ rest)) := by
  obtain ⟨others, inRest⟩ := Derives.exists_derives (name.value :: scope.names) (.sequence ending)
  have isSemicolon : (Token.bare .semicolon "").kind = .semicolon := rfl
  -- A single token is missing as a whole, so that another type may stand in its place.
  by_cases single : ∃ token, taken ++ more = [token]
  · obtain ⟨token, single⟩ := single
    rw [nil_of_append_eq isMore single]
    have body : Derives (name.value :: scope.names) .type
        [.bare .openCurly "", .bare .closeCurly ""] := .objectType rfl .nil rfl
    have declared := Derives.typeDeclaration isType isName isAssignment body (by simp) isSemicolon
      inRest
    exact ⟨[.bare .openCurly "", .bare .closeCurly ""] ++ .bare .semicolon "" :: others, by simp,
      declared⟩
  · refine ⟨more ++ .bare .semicolon "" :: others, by simp, ?_⟩
    rw [← List.append_assoc]
    exact .typeDeclaration isType isName isAssignment derives
      (fun token isSingle => absurd ⟨token, isSingle⟩ single) isSemicolon inRest

/-- The declaration of a name for a type, if nested readers take what they should. -/
theorem fills_typeDeclaration (nested : TracksTerms fuel) (ending : Ending)
    (isScope : before.scope = scope) (idle : scope.pending = [])
    (isType : before.stream.current.kind = .typeKeyword) :
    (readDeclaration .standard (fuel + 1) .alias ending).FillsSequence before scope ending := by
  rw [readDeclaration]
  apply Fills.skip isScope (by rw [isType]; decide)
  intro parser isScope
  apply Fills.expect isScope (by decide)
  intro name parser isName isScope
  apply Fills.expect isScope (by decide)
  intro assignment parser isAssignment isScope
  apply Fills.changeScope rfl
  have begun : Parser.scope { parser with scope := parser.scope.begin name.value } =
      scope.begin name.value := by rw [← isScope]
  have finish : ∀ {taken more : List Token}, more ≠ [] →
      Derives (name.value :: scope.names) .type (taken ++ more) →
        ∃ (_ : Term) (rest : List Token), rest ≠ [] ∧ Derives scope.names (.sequence ending)
          (before.stream.current :: name :: assignment :: (taken ++ rest)) := by
    intro taken more isMore derives
    exact ⟨default, exists_typeDeclaration ending isType isName isAssignment isMore derives⟩
  constructor
  · have body : Derives (name.value :: scope.names) .type
        ([] ++ [.bare .openCurly "", .bare .closeCurly ""]) := .objectType rfl .nil rfl
    obtain ⟨term, rest, -, derives⟩ := finish (List.cons_ne_nil _ _) body
    exact ⟨term, rest, derives⟩
  · apply ((tracksTypes fuel).type begun).tracks.bind
    · exact fun taken type more isMore spells => finish isMore spells.derives
    · intro body tokens parser spells isScope
      dsimp only
      split
      · exact (Tracks.fail rfl).of_run rfl
      · rename_i guards
        have guards : body.isGuarded name.value = true := by simpa using guards
        apply Fills.tracks
        apply Fills.changeScope rfl
        apply Fills.expect rfl (by decide)
        intro semicolon after isSemicolon declared
        dsimp only at declared
        rw [isScope] at declared
        apply (nested.rest ending declared idle).imp
        intro term more inRest
        rw [Scope.names_finish idle] at inRest
        exact .typeDeclaration isType isName isAssignment spells.derives
          (notItself_of_isGuarded spells guards) isSemicolon inRest

/-- A declaration, if nested readers take what they should. -/
theorem fills_readDeclaration (nested : TracksTerms fuel) (form : DeclarationForm)
    (ending : Ending) (isScope : before.scope = scope) (idle : scope.pending = [])
    (isForm : Grammar.standard.declarations before.stream.current.kind = some form) :
    (readDeclaration .standard (fuel + 1) form ending).FillsSequence before scope ending := by
  have isKeyword := eq_keyword_of_declarations isForm
  cases form with
  | constant => exact nested.fills_constant ending isScope idle isKeyword
  | function => exact nested.fills_functionDeclaration ending isScope idle isKeyword
  | _ => exact nested.fills_typeDeclaration ending isScope idle isKeyword

end TracksTerms

/-- What readers of terms take, with any allowance. -/
theorem tracksTerms (fuel : Nat) : TracksTerms fuel := by
  induction fuel with
  | zero => exact .zero
  | succ fuel nested =>
    exact {
      term := nested.fills_readTerm
      trailing := nested.fills_readTrailing
      leading := nested.fills_readLeading
      ascription := TracksTerms.fills_readDeclaredResult
      properties := nested.fills_readPropertyList
      trailingForm := nested.fills_readTrailingForm
      arguments := nested.fills_readArguments
      block := nested.fills_readBlock
      sequence := nested.fills_readSequence
      rest := nested.fills_readRest
      declaration := nested.fills_readDeclaration }

/-! ## Programs -/

/-- What a reader of programs takes: with a term, tokens that the grammar derives, and the mark of
the end after them; and where it refuses the next token, tokens that can be completed. -/
theorem ends_readProgram {stream : TokenStream} (closed : Parser.Closed { stream }) (fuel : Nat) :
    (readProgram .standard fuel).Ends { stream }
      (fun _ _ => ∃ taken stop rest, stream.upcoming = taken ++ stop :: rest ∧
        stop.kind = .eof ∧ Derives [] (.sequence .source) taken)
      fun fault after => fault.cause.isUnexpected = true → ∃ taken more,
        stream.upcoming = taken ++ after.stream.upcoming ∧ after.Closed ∧
          fault.offset = after.stream.current.span.start ∧
            Derives [] (.sequence .source) (taken ++ more) := by
  have read := ((tracksTerms fuel).sequence .source rfl rfl).tracks closed
  apply read.bind
  · rintro fault after refused isUnexpected
    obtain ⟨taken, takes, place, term, more, -, derives⟩ := refused isUnexpected
    exact ⟨taken, more, takes.upcoming, takes.closed, place, derives⟩
  · rintro term parser ⟨taken, takes, -, derives⟩
    obtain ⟨rest, upcoming, -⟩ := takes.closed.exists_cons
    apply Ends.expect
    · intro _
      exact ⟨taken, [], takes.upcoming, takes.closed, rfl, by rw [List.append_nil]; exact derives⟩
    · intro isEnd
      exact .pure ⟨taken, _, rest, upcoming ▸ takes.upcoming, isEnd, derives⟩

end Parse

/-- The tokens before a mark of the end are all tokens, where no other mark stands. -/
theorem Token.eq_of_append_eq {tokens taken rest : List Token} {stop mark : Token}
    (noEnd : ∀ token ∈ tokens, token.kind ≠ .eof) (isEnd : mark.kind = .eof)
    (same : tokens ++ [stop] = taken ++ mark :: rest) : taken = tokens := by
  obtain ⟨more, rfl, split⟩ | ⟨more, rfl, split⟩ := List.append_eq_append_iff.1 same
  · obtain _ | ⟨first, more⟩ := more
    · exact List.append_nil tokens
    · simp at split
  · obtain _ | ⟨first, more⟩ := more
    · exact (List.append_nil taken).symm
    · cases split
      exact absurd isEnd (noEnd mark (by simp))

/-- A list of tokens whose only mark of the end is its last token is read as a program exactly if
the grammar derives what stands before the mark. -/
theorem Term.ofTokens_iff_derives {tokens : List Token} {stop : Token}
    (noEnd : ∀ token ∈ tokens, token.kind ≠ .eof) (isEnd : stop.kind = .eof) :
    (∃ term, ofTokens (tokens ++ [stop]) = .ok term) ↔ Derives [] (.sequence .source) tokens := by
  constructor
  · rintro ⟨term, isRead⟩
    have isLast : (tokens ++ [stop]).getLast? = some stop := List.getLast?_concat
    have closed : Parser.Closed { stream := { upcoming := tokens ++ [stop], last := stop } } :=
      ⟨tokens, stop, rfl, isEnd⟩
    have ends := Parse.ends_readProgram closed (16 * ((tokens ++ [stop]).length + 4))
    rw [ofTokens_eq isLast] at isRead
    obtain ⟨taken, mark, rest, same, isMark, derives⟩ :=
      ends.gives term _ (Prod.ext isRead rfl)
    rw [Token.eq_of_append_eq noEnd isMark same] at derives
    exact derives
  · exact exists_ofTokens isEnd

/-- The tokens of a function type that is declared under a name in terms of itself, with a comma
after its last parameter, and of a use of a name. -/
def namedFunction : List Token :=
  [.bare .typeKeyword "type", .bare .identifier "a", .bare .assignment "=", .bare .openParen "(",
    .bare .identifier "x", .bare .colon ":", .bare .identifier "a", .bare .comma ",",
    .bare .closeParen ")", .bare .arrow "=>", .bare .identifier "a", .bare .semicolon ";",
    .bare .identifier "x"]

/-- The tokens of a type that is declared as itself, and of a use of a name. -/
def namedItself : List Token :=
  [.bare .typeKeyword "type", .bare .identifier "a", .bare .assignment "=", .bare .identifier "a",
    .bare .semicolon ";", .bare .identifier "x"]

/-- The grammar derives the function type, which is read, and not the type that is declared as
itself, which is refused. -/
theorem Term.ofTokens_iff_derives_alias :
    Derives [] (.sequence .source) namedFunction ∧
      ¬ Derives [] (.sequence .source) namedItself := by
  have isEnd : (Token.bare .eof "EOF").kind = .eof := rfl
  have isRead : (ofTokens (namedFunction ++ [.bare .eof "EOF"])).toOption.isSome = true := rfl
  have refused : ofTokens (namedItself ++ [.bare .eof "EOF"]) =
      .error (.fault ⟨.nonContractiveType "a", 0⟩) := rfl
  constructor
  · apply (ofTokens_iff_derives (by decide) isEnd).1
    cases read : ofTokens (namedFunction ++ [.bare .eof "EOF"]) with
    | ok term => exact ⟨term, rfl⟩
    | error => simp [read, Except.toOption] at isRead
  · intro derives
    obtain ⟨term, read⟩ := (ofTokens_iff_derives (by decide) isEnd).2 derives
    rw [refused] at read
    cases read

end Equirec
