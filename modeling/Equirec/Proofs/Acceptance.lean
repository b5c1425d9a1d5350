import Equirec.Proofs.Derivation
import Equirec.Proofs.Members

/-!
# What the grammar derives is read

Whatever the grammar derives, the readers read to its end, although they look ahead by two tokens at
most and never go back (`Parse.accepts`). A term is followed from left to right: a reader of terms
that stops early leaves tokens that still go on a term, and the reader around it goes on with them.
-/
namespace Equirec

open Token (OpensTerm)
open Parse

/-! ## Names of types -/

namespace Scope

variable {scope : Scope} {name : String}

/-- The names of types that a scope knows. -/
def names (scope : Scope) : List String :=
  scope.pending ++ scope.aliases.map Prod.fst

/-- The names that stand for a type are those of the language and those that are known. -/
theorem exists_meaning?_iff : (∃ type, scope.meaning? name = some type) ↔
    name = "number" ∨ name = "boolean" ∨ name ∈ scope.names := by
  by_cases isNumber : name = "number"
  · simp [meaning?, isNumber]
  by_cases isBoolean : name = "boolean"
  · simp [meaning?, isBoolean]
  simp only [meaning?, isNumber, isBoolean, if_false, false_or, resolve?, names, List.mem_append]
  by_cases isPending : name ∈ scope.pending
  · simp [isPending]
  · simp only [isPending, if_false, false_or]
    constructor
    · rintro ⟨type, found⟩
      exact List.mem_map_of_mem (Members.mem_of_lookup found)
    · exact Members.exists_lookup_of_mem_names

/-- A scope in which no name is being declared, and every declared type has a first layer. -/
structure Settled (scope : Scope) : Prop where
  /-- No name is being declared. -/
  pending : scope.pending = []
  /-- No declared type is a mere variable. -/
  guarded : ∀ member ∈ scope.aliases, ∀ name, member.2.isGuarded name = true

end Scope

/-- A spelled type has a first layer, unless it is just a name that is being declared. -/
theorem Ty.Spells.isGuarded_or {scope : Scope}
    (guarded : ∀ member ∈ scope.aliases, ∀ name, member.2.isGuarded name = true) {type : Ty}
    {tokens : List Token} (spells : Spells scope (.type type) tokens) :
    (∀ name, type.isGuarded name = true) ∨
      ∃ token, tokens = [token] ∧ type = .var token.value ∧ token.value ∈ scope.pending ∧
        token.value ≠ "number" ∧ token.value ≠ "boolean" := by
  cases spells with
  | @name token _ _ known =>
    rw [Scope.meaning?] at known
    split at known
    · cases known
      exact .inl fun _ => rfl
    · rename_i noNumber
      split at known
      · cases known
        exact .inl fun _ => rfl
      · rename_i noBoolean
        rw [Scope.resolve?] at known
        split at known
        · rename_i isPending
          cases known
          exact .inr ⟨token, rfl, rfl, isPending, noNumber, noBoolean⟩
        · exact .inl (guarded _ (Members.mem_of_lookup known))
  | function => exact .inl fun _ => rfl
  | object => exact .inl fun _ => rfl

namespace Scope.Settled

variable {scope : Scope} {name : String} {body type : Ty} {tokens : List Token}

/-- In the beginning no types are declared. -/
theorem empty : Settled {} :=
  ⟨rfl, fun _ isMember => nomatch isMember⟩

/-- A type that is being declared has a first layer, unless it is just its own name. -/
theorem isGuarded_or (settled : scope.Settled)
    (spells : Ty.Spells (scope.begin name) (.type body) tokens) :
    (∀ other, body.isGuarded other = true) ∨
      ∃ token, tokens = [token] ∧ token.value = name ∧ body = .var name ∧
        name ≠ "number" ∧ name ≠ "boolean" := by
  have older : ∀ member ∈ (scope.begin name).aliases, ∀ name, member.2.isGuarded name = true :=
    settled.guarded
  obtain guarded | ⟨token, single, isVariable, isPending, others⟩ := spells.isGuarded_or older
  · exact .inl guarded
  · rw [begin, settled.pending, List.mem_singleton] at isPending
    subst isPending
    exact .inr ⟨token, single, rfl, isVariable, others⟩

/-- A type that is declared has a first layer. -/
theorem isGuarded_of_spells (settled : scope.Settled)
    (spells : Ty.Spells (scope.begin name) (.type body) tokens)
    (guards : body.isGuarded name = true) (other : String) : body.isGuarded other = true := by
  obtain guarded | ⟨_, _, _, rfl, _⟩ := settled.isGuarded_or spells
  · exact guarded other
  · simp [Ty.isGuarded] at guards

/-- A type that is not declared as just its own name has a first layer. -/
theorem isGuarded_of_notItself (settled : scope.Settled)
    (spells : Ty.Spells (scope.begin name) (.type body) tokens)
    (notItself : ∀ token, tokens = [token] → token.value = name →
      name = "number" ∨ name = "boolean") : body.isGuarded name = true := by
  obtain guarded | ⟨token, single, isName, _, noNumber, noBoolean⟩ := settled.isGuarded_or spells
  · exact guarded name
  · obtain isNumber | isBoolean := notItself token single isName
    · exact absurd isNumber noNumber
    · exact absurd isBoolean noBoolean

/-- A declaration leaves a scope settled. -/
theorem finish (settled : scope.Settled)
    (spells : Ty.Spells (scope.begin name) (.type body) tokens)
    (guards : body.isGuarded name = true)
    (declared : type = if body.occurs name then .mu name body else body) :
    ((scope.begin name).finish name type).Settled := by
  have guarded := settled.isGuarded_of_spells spells guards
  refine ⟨settled.pending, ?_⟩
  rintro member isMember other
  obtain rfl | isMember := List.mem_cons.1 isMember
  · rw [declared]
    split
    · simp [Ty.isGuarded, guarded]
    · exact guarded other
  · exact settled.guarded member isMember other

end Scope.Settled

/-- After a declaration its name is known. -/
theorem Scope.names_finish {scope : Scope} (idle : scope.pending = []) (name : String) (type : Ty) :
    ((scope.begin name).finish name type).names = name :: scope.names := by
  simp [names, begin, finish, idle]

/-! ## Types -/

/-- How types, and lists of their members, are spelled where certain names are known. -/
def Phrase.IsSpelled (scope : Scope) : Phrase → List Token → Prop
  | .type, tokens => ∃ type, Ty.Spells scope (.type type) tokens
  | .ascription, tokens => ∃ declared, Ty.Spells scope (.ascription declared) tokens
  | .item (.member _), tokens => ∃ name colon type rest, tokens = name :: colon :: rest ∧
    name.kind = .identifier ∧ colon.kind = .colon ∧ Ty.Spells scope (.type type) rest
  | .list (.member listing), tokens => ∃ members, Ty.Spells scope (.members listing members) tokens
  | _, _ => True

/-- What the grammar derives as a type is spelled. -/
theorem Derives.isSpelled {known : List String} {phrase : Phrase} {tokens : List Token}
    (derives : Derives known phrase tokens) {scope : Scope} (names : scope.names = known) :
    phrase.IsSpelled scope tokens := by
  induction derives with
  | typeName isName isKnown =>
    subst names
    obtain ⟨type, known⟩ := Scope.exists_meaning?_iff.2 isKnown
    exact ⟨type, .name isName known⟩
  | functionType isOpening _ isClosing isArrow _ inParameters inResult =>
    obtain ⟨parameters, inParameters⟩ := inParameters names
    obtain ⟨result, inResult⟩ := inResult names
    exact ⟨_, .function isOpening inParameters isClosing isArrow inResult⟩
  | objectType isOpening _ isClosing inProperties =>
    obtain ⟨properties, inProperties⟩ := inProperties names
    exact ⟨_, .object isOpening inProperties isClosing⟩
  | noAscription => exact ⟨none, .bare⟩
  | ascription isColon _ inType =>
    obtain ⟨type, inType⟩ := inType names
    exact ⟨some type, .annotated isColon inType⟩
  | member isName isColon _ inType =>
    obtain ⟨type, inType⟩ := inType names
    exact ⟨_, _, type, _, rfl, isName, isColon, inType⟩
  | @nil _ item =>
    cases item with
    | member => exact ⟨[], .nil⟩
    | _ => trivial
  | @single _ item _ _ inItem =>
    cases item with
    | member =>
      obtain ⟨_, _, _, _, rfl, isName, isColon, inType⟩ := inItem names
      exact ⟨_, .last isName isColon inType⟩
    | _ => trivial
  | @cons _ item _ _ _ _ separates _ inItem inRest =>
    cases item with
    | member =>
      obtain ⟨_, _, _, _, rfl, isName, isColon, inType⟩ := inItem names
      obtain ⟨others, inRest⟩ := inRest names
      exact ⟨_, .cons isName isColon inType separates inRest⟩
    | _ => trivial
  | _ => trivial

/-! ## Terms and sequences -/

/-- How a phrase is read with an allowance. -/
def Phrase.IsRead (fuel : Nat) (scope : Scope) : Phrase → List Token → Prop
  | .term, tokens => ∀ next rest, Grammar.standard.trailing next.kind = none →
    (readTerm .standard fuel .lowest).Gets (tokens ++ next :: rest) scope
      (Leaves (fun _ => True) (next :: rest) scope)
  | .list .argument, tokens => ∀ closing rest, closing.kind = .closeParen →
    (readArguments .standard fuel).Gets (tokens ++ closing :: rest) scope
      (Leaves (fun _ => True) (closing :: rest) scope)
  | .list .property, tokens => ∀ closing rest, closing.kind = .closeCurly →
    (readPropertyList .standard fuel).Gets (tokens ++ closing :: rest) scope
      (Leaves (fun _ => True) (closing :: rest) scope)
  | .block, tokens => ∀ rest,
    (readBlock .standard fuel).Gets (tokens ++ rest) scope (Leaves (fun _ => True) rest scope)
  | .sequence ending, tokens => ∀ next rest, (ending = .source → next.kind = .eof) →
    (readSequence .standard fuel ending).Gets (tokens ++ next :: rest) scope
      fun _ left names => left = next :: rest ∧ names.pending = []
  | .type, _ | .ascription, _ | .item _, _ | .list (.member _), _ => True

/-- What a reader of terms may leave: tokens that go on a term and what stands after them. If the
term is read as a whole, nothing is left that goes on it. -/
def Rests (scope : Scope) (whole : Prop) (next : Token) (rest : List Token) (_ : Term)
    (left : List Token) (names : Scope) : Prop :=
  names = scope ∧ ∃ tail, left = tail ++ next :: rest ∧ Tail scope.names tail ∧
    (whole → tail = [])

/-- What holds of all readers with an allowance. -/
structure Accepts (fuel : Nat) : Prop where
  /-- What the grammar derives is read. -/
  phrase : ∀ {scope phrase tokens}, scope.Settled → Derives scope.names phrase tokens →
    phrase.IsRead fuel scope tokens
  /-- A term is read, as far as a power allows. -/
  operand : ∀ {scope lead tail next rest} (power : Power), scope.Settled →
    Lead scope.names lead → Tail scope.names tail → Grammar.standard.trailing next.kind = none →
      (readTerm .standard fuel power).Gets (lead ++ (tail ++ next :: rest)) scope
        (Rests scope (power = .lowest) next rest)
  /-- What the first token of a term leads is read. -/
  leading : ∀ {scope first lead tail next rest form}, scope.Settled →
    Lead scope.names (first :: lead) → Grammar.standard.leading first.kind = some form →
      Tail scope.names tail → Grammar.standard.trailing next.kind = none →
        (readLeading .standard fuel form).Gets (first :: (lead ++ (tail ++ next :: rest))) scope
          (Rests scope False next rest)
  /-- What goes on a term is read, as far as a power allows. -/
  trailing : ∀ {scope tail next rest} (power : Power) (left : Term), scope.Settled →
    Tail scope.names tail → Grammar.standard.trailing next.kind = none →
      (readTrailing .standard fuel power left).Gets (tail ++ next :: rest) scope
        (Rests scope (power = .lowest) next rest)

namespace Accepts

variable {fuel : Nat} {scope : Scope} {tokens lead tail rest : List Token} {first next : Token}

/-- What holds of smaller allowances than one holds of smaller ones than a smaller one. -/
theorem below (smaller : ∀ less < fuel, Accepts less) {less : Nat} (isLess : less < fuel) :
    ∀ less' < less, Accepts less' :=
  fun less' isLess' => smaller less' (Nat.lt_trans isLess' isLess)

/-- An action that leaves exactly what stands after a term leaves no more than that. -/
theorem rests_of_leaves {action : Parse Term} {holds : Term → Prop} {left : List Token}
    (reads : action.Gets left scope (Leaves holds (tail ++ next :: rest) scope))
    (isTail : Tail scope.names tail) : action.Gets left scope (Rests scope False next rest) := by
  apply reads.imp
  rintro term _ _ ⟨-, rfl, rfl⟩
  exact ⟨rfl, tail, rfl, isTail, False.elim⟩

/-- A term is read as a whole, in whatever way it is taken apart. -/
theorem term_of_lead (accepts : Accepts fuel) (settled : scope.Settled)
    (isLead : Lead scope.names lead) (isTail : Tail scope.names tail)
    (ends : Grammar.standard.trailing next.kind = none) :
    (readTerm .standard fuel .lowest).Gets (lead ++ (tail ++ next :: rest)) scope
      (Leaves (fun _ => True) (next :: rest) scope) := by
  apply (accepts.operand .lowest settled isLead isTail ends).imp
  rintro term _ _ ⟨rfl, _, rfl, -, whole⟩
  rw [whole rfl]
  exact ⟨trivial, rfl, rfl⟩

/-- What a sign begins goes on a term if the sign binds strongly enough. -/
theorem trailing_of_form (smaller : ∀ less < fuel, Accepts less) {form : TrailingForm}
    {power binding : Power} {left : Term} {sign : Token} (settled : scope.Settled)
    (isTail : Tail scope.names (sign :: tail))
    (ends : Grammar.standard.trailing next.kind = none)
    (isForm : Grammar.standard.trailing sign.kind = some (form, binding))
    (longer : ∀ less < fuel, (readTrailingForm .standard less form binding left).Gets
      (sign :: (tail ++ next :: rest)) scope (Rests scope False next rest)) :
    (readTrailing .standard fuel power left).Gets (sign :: (tail ++ next :: rest)) scope
      (Rests scope (power = .lowest) next rest) := by
  by_cases binds : power.isBelow binding = true
  · apply gets_readTrailing_of_binds isForm binds longer
    rintro less isLess left _ _ ⟨rfl, tail, rfl, isTail, -⟩
    exact (smaller less isLess).trailing power left settled isTail ends
  · apply gets_readTrailing_of_loose isForm (Bool.eq_false_iff.2 binds)
    refine ⟨rfl, sign :: tail, rfl, isTail, ?_⟩
    rintro rfl
    revert isForm binds
    cases sign.kind <;> rintro ⟨⟩ <;> exact fun binds => absurd rfl binds

/-- What goes on a term is read, if smaller allowances suffice for its parts. -/
theorem gets_trailing (smaller : ∀ less < fuel, Accepts less) (power : Power) (left : Term)
    (settled : scope.Settled) (isTail : Tail scope.names tail)
    (ends : Grammar.standard.trailing next.kind = none) :
    (readTrailing .standard fuel power left).Gets (tail ++ next :: rest) scope
      (Rests scope (power = .lowest) next rest) := by
  have whole := isTail
  cases isTail with
  | nil =>
    apply gets_readTrailing_of_ends ends
    exact ⟨rfl, [], rfl, .nil, fun _ => rfl⟩
  | add isPlus inRight inMore =>
    apply trailing_of_form smaller settled whole ends
    · rw [isPlus]
      rfl
    · intro less isLess
      have smaller := below smaller isLess
      rw [List.append_assoc]
      apply gets_add fun less isLess =>
        (smaller less isLess).operand .additive settled inRight inMore ends
      rintro span right _ _ ⟨rfl, tail, rfl, isTail, -⟩
      exact ⟨rfl, tail, rfl, isTail, False.elim⟩
  | @conditional _ colon _ _ _ isQuestion holds isColon fails inMore =>
    have between : Grammar.standard.trailing colon.kind = none := by
      rw [isColon]
      rfl
    apply trailing_of_form smaller settled whole ends
    · rw [isQuestion]
      rfl
    · intro less isLess
      have smaller := below smaller isLess
      simp only [List.append_assoc, List.cons_append]
      apply gets_conditional isColon
        (fun less isLess => (smaller less isLess).phrase settled holds colon _ between)
        fun less isLess => (smaller less isLess).operand .lowest settled fails inMore ends
      rintro span positive negative _ _ - ⟨rfl, tail, rfl, isTail, -⟩
      exact ⟨rfl, tail, rfl, isTail, False.elim⟩
  | @call _ closing _ _ isOpening values isClosing inMore =>
    apply trailing_of_form smaller settled whole ends
    · rw [isOpening]
      rfl
    · intro less isLess
      have smaller := below smaller isLess
      rw [List.append_assoc]
      apply rests_of_leaves _ inMore
      · exact fun _ => True
      · exact gets_call isClosing (fun less isLess =>
          (smaller less isLess).phrase settled values closing _ isClosing) fun _ _ _ => trivial
  | access isDot isName inMore =>
    apply trailing_of_form smaller settled whole ends
    · rw [isDot]
      rfl
    · intro less _
      apply rests_of_leaves _ inMore
      · exact fun _ => True
      · exact gets_property isName fun _ => trivial

/-- What the first token of a term leads is read, if smaller allowances suffice for its parts. -/
theorem gets_leading (smaller : ∀ less < fuel, Accepts less) {form : LeadingForm}
    (settled : scope.Settled) (isLead : Lead scope.names (first :: lead))
    (isForm : Grammar.standard.leading first.kind = some form) (isTail : Tail scope.names tail)
    (ends : Grammar.standard.trailing next.kind = none) :
    (readLeading .standard fuel form).Gets (first :: (lead ++ (tail ++ next :: rest))) scope
      (Rests scope False next rest) := by
  cases isLead with
  | literal isLiteral =>
    rw [leading_of_literal? isLiteral] at isForm
    cases isForm
    exact rests_of_leaves (gets_literal isLiteral) isTail
  | @group _ closing _ isOpening inner isClosing =>
    have closes : Grammar.standard.trailing closing.kind = none := by
      rw [isClosing]
      rfl
    rw [isOpening] at isForm
    cases isForm
    rw [List.append_assoc]
    exact rests_of_leaves (gets_group inner.starts isClosing fun less isLess =>
      (smaller less isLess).phrase settled inner closing _ closes) isTail
  | @object _ closing _ isOpening inProperties isClosing =>
    rw [isOpening] at isForm
    cases isForm
    rw [List.append_assoc]
    apply rests_of_leaves _ isTail
    · exact fun _ => True
    · exact gets_object isClosing (fun less isLess =>
        (smaller less isLess).phrase settled inProperties closing _ isClosing) fun _ _ _ => trivial
  | @function _ _ _ second _ _ body isOpening inParameters isClosing inAscription isArrow noBrace
      inBody =>
    obtain ⟨parameters, inParameters⟩ := inParameters.isSpelled rfl
    obtain ⟨declared, inAscription⟩ := inAscription.isSpelled rfl
    obtain ⟨lead, more, split, isLead, isMore⟩ := inBody.exists_lead rfl
    rw [isOpening] at isForm
    cases isForm
    simp only [List.append_assoc, List.cons_append]
    -- What goes on the function literal is taken to go on its body.
    have read : ∀ less < fuel, (readTerm .standard less .lowest).Gets
        (second :: body ++ (tail ++ next :: rest)) scope
        (Leaves (fun _ => True) (next :: rest) scope) := by
      intro less isLess
      rw [split, List.append_assoc, ← List.append_assoc more]
      exact (smaller less isLess).term_of_lead settled isLead (isMore.append isTail) ends
    apply gets_function isOpening inParameters isClosing inAscription isArrow
      (fun isBrace => absurd isBrace noBrace) fun _ => read
    rintro span body _ _ ⟨-, rfl, rfl⟩
    exact ⟨rfl, [], rfl, .nil, False.elim⟩
  | functionBlock isOpening inParameters isClosing inAscription isArrow inBody =>
    obtain ⟨parameters, inParameters⟩ := inParameters.isSpelled rfl
    obtain ⟨declared, inAscription⟩ := inAscription.isSpelled rfl
    obtain ⟨brace, body, rfl, isBrace⟩ := inBody.starts
    rw [isOpening] at isForm
    cases isForm
    simp only [List.append_assoc, List.cons_append]
    apply gets_function isOpening inParameters isClosing inAscription isArrow
      (fun _ less isLess => (smaller less isLess).phrase settled inBody _)
      fun noBrace => absurd isBrace noBrace
    rintro span body _ _ ⟨-, rfl, rfl⟩
    exact ⟨rfl, tail, rfl, isTail, False.elim⟩

/-- A term is read as far as a power allows, if smaller allowances suffice for its parts. -/
theorem gets_operand (smaller : ∀ less < fuel, Accepts less) (power : Power)
    (settled : scope.Settled) (isLead : Lead scope.names lead) (isTail : Tail scope.names tail)
    (ends : Grammar.standard.trailing next.kind = none) :
    (readTerm .standard fuel power).Gets (lead ++ (tail ++ next :: rest)) scope
      (Rests scope (power = .lowest) next rest) := by
  obtain ⟨first, lead, rfl, form, isForm⟩ := isLead.exists_form
  apply gets_readTerm isForm fun less isLess =>
    (smaller less isLess).leading settled isLead isForm isTail ends
  rintro less isLess left _ _ ⟨rfl, tail, rfl, isTail, -⟩
  exact (smaller less isLess).trailing power left settled isTail ends

/-- What follows a declaration is read. -/
theorem gets_rest (smaller : ∀ less < fuel, Accepts less) {ending : Ending}
    (settled : scope.Settled) (inRest : Derives scope.names (.sequence ending) tokens)
    (isEnd : ending = .source → next.kind = .eof) :
    (readRest .standard fuel ending).Gets (tokens ++ next :: rest) scope
      fun _ left names => left = next :: rest ∧ names.pending = [] := by
  obtain ⟨first, more, rfl, noEnd⟩ := inRest.starts
  exact gets_readRest noEnd fun less isLess =>
    (smaller less isLess).phrase settled inRest next rest isEnd

/-- A declaration of a name for a type is read, and what follows it is read with the name known. -/
theorem gets_typeDeclaration (smaller : ∀ less < fuel, Accepts less) {ending : Ending}
    {type name assignment semicolon : Token} {body : List Token} (settled : scope.Settled)
    (isType : type.kind = .typeKeyword) (isName : name.kind = .identifier)
    (isAssignment : assignment.kind = .assignment)
    (inBody : Derives (name.value :: scope.names) .type body)
    (notItself : ∀ token, body = [token] → token.value = name.value →
      name.value = "number" ∨ name.value = "boolean")
    (isSemicolon : semicolon.kind = .semicolon)
    (inRest : Derives (name.value :: scope.names) (.sequence ending) tokens)
    (isEnd : ending = .source → next.kind = .eof) :
    (readSequence .standard fuel ending).Gets
      (type :: name :: assignment :: (body ++ semicolon :: (tokens ++ next :: rest))) scope
        fun _ left names => left = next :: rest ∧ names.pending = [] := by
  have isForm : Grammar.standard.declarations type.kind = some .alias := by
    rw [isType]
    rfl
  have known : (scope.begin name.value).names = name.value :: scope.names := rfl
  obtain ⟨body, inBody⟩ := inBody.isSpelled known
  have guards := settled.isGuarded_of_notItself inBody notItself
  have settled' := settled.finish inBody guards rfl
  rw [← Scope.names_finish settled.pending] at inRest
  apply gets_declaration isForm
  intro less isLess
  apply gets_alias isName isAssignment inBody guards rfl isSemicolon
  intro less' isLess'
  exact gets_rest (below (below smaller isLess) isLess') settled' inRest isEnd

/-- Arguments are read, if smaller allowances suffice for them. -/
theorem isRead_arguments (smaller : ∀ less < fuel, Accepts less) (settled : scope.Settled)
    (derives : Derives scope.names (.list .argument) tokens) :
    (Phrase.list .argument).IsRead fuel scope tokens := by
  intro closing rest isClosing
  have closes : Grammar.standard.trailing closing.kind = none := by
    rw [isClosing]
    rfl
  cases derives with
  | nil => exact gets_arguments_nil isClosing trivial
  | single inItem =>
    cases inItem with
    | argument inTerm =>
      apply gets_arguments_cons inTerm.starts fun less isLess =>
        (smaller less isLess).phrase settled inTerm closing rest closes
      · intro less _ isComma
        rw [isClosing] at isComma
        cases isComma
      · exact fun _ _ _ => ⟨trivial, rfl, rfl⟩
  | @cons _ _ separator _ _ inItem separates inRest =>
    have isComma : separator.kind = .comma := eq_of_beq separates
    have closes : Grammar.standard.trailing separator.kind = none := by
      rw [isComma]
      rfl
    cases inItem with
    | argument inTerm =>
      rw [List.append_assoc]
      apply gets_arguments_cons inTerm.starts fun less isLess =>
        (smaller less isLess).phrase settled inTerm separator _ closes
      · intro less isLess _ argument _
        apply ((smaller less isLess).phrase settled inRest closing rest isClosing).bind
        exact fun _ _ => .pure ⟨trivial, rfl, rfl⟩
      · exact fun noComma => absurd isComma noComma

/-- The properties of an object literal are read, if smaller allowances suffice for them. -/
theorem isRead_properties (smaller : ∀ less < fuel, Accepts less) (settled : scope.Settled)
    (derives : Derives scope.names (.list .property) tokens) :
    (Phrase.list .property).IsRead fuel scope tokens := by
  intro closing rest isClosing
  have closes : Grammar.standard.trailing closing.kind = none := by
    rw [isClosing]
    rfl
  cases derives with
  | nil => exact gets_properties_nil isClosing trivial
  | single inItem =>
    cases inItem with
    | property isName isColon inTerm =>
      apply gets_properties_cons isName isColon fun less isLess =>
        (smaller less isLess).phrase settled inTerm closing rest closes
      · intro less _ isComma
        rw [isClosing] at isComma
        cases isComma
      · exact fun _ _ _ => ⟨trivial, rfl, rfl⟩
  | @cons _ _ separator _ _ inItem separates inRest =>
    have isComma : separator.kind = .comma := eq_of_beq separates
    have closes : Grammar.standard.trailing separator.kind = none := by
      rw [isComma]
      rfl
    cases inItem with
    | property isName isColon inTerm =>
      simp only [List.append_assoc, List.cons_append]
      apply gets_properties_cons isName isColon fun less isLess =>
        (smaller less isLess).phrase settled inTerm separator _ closes
      · intro less isLess _ value _
        apply ((smaller less isLess).phrase settled inRest closing rest isClosing).bind
        exact fun _ _ => .pure ⟨trivial, rfl, rfl⟩
      · exact fun noComma => absurd isComma noComma

/-- A sequence is read, if smaller allowances suffice for its parts. -/
theorem isRead_sequence (smaller : ∀ less < fuel, Accepts less) {ending : Ending}
    (settled : scope.Settled) (derives : Derives scope.names (.sequence ending) tokens) :
    (Phrase.sequence ending).IsRead fuel scope tokens := by
  intro next rest isEnd
  have semicolonEnds : ∀ {semicolon : Token}, semicolon.kind = .semicolon →
      Grammar.standard.trailing semicolon.kind = none := by
    intro semicolon isSemicolon
    rw [isSemicolon]
    rfl
  cases derives with
  | result isReturn inTerm isSemicolon =>
    rw [List.cons_append, List.append_assoc]
    apply (gets_return isReturn isSemicolon fun less isLess => (smaller less isLess).phrase settled
      inTerm _ _ (semicolonEnds isSemicolon)).imp
    rintro _ _ _ ⟨-, rfl, rfl⟩
    exact ⟨rfl, settled.pending⟩
  | last inTerm =>
    have isEnd := isEnd rfl
    have ends : Grammar.standard.trailing next.kind = none := by
      rw [isEnd]
      rfl
    have noSemicolon : next.kind ≠ .semicolon := by
      rw [isEnd]
      decide
    apply (gets_last inTerm.starts noSemicolon fun less isLess =>
      (smaller less isLess).phrase settled inTerm next rest ends).imp
    rintro _ _ _ ⟨-, rfl, rfl⟩
    exact ⟨rfl, settled.pending⟩
  | lastSemicolon inTerm isSemicolon =>
    rw [List.append_assoc]
    apply (gets_last_semicolon inTerm.starts isSemicolon (isEnd rfl) fun less isLess =>
      (smaller less isLess).phrase settled inTerm _ _ (semicolonEnds isSemicolon)).imp
    rintro _ _ _ ⟨-, rfl, rfl⟩
    exact ⟨rfl, settled.pending⟩
  | sequence inTerm isSemicolon inRest =>
    obtain ⟨first, more, rfl, noEnd⟩ := inRest.starts
    rw [List.append_assoc]
    apply gets_sequence inTerm.starts isSemicolon noEnd
      (fun less isLess => (smaller less isLess).phrase settled inTerm _ _
        (semicolonEnds isSemicolon))
      fun less isLess => (smaller less isLess).phrase settled inRest next rest isEnd
    exact fun _ _ _ _ _ _ isRead => isRead
  | @constant _ _ const _ _ _ _ _ _ isConst isName inAscription isAssignment inValue isSemicolon
      inRest =>
    have isForm : Grammar.standard.declarations const.kind = some .constant := by
      rw [isConst]
      rfl
    obtain ⟨declared, inAscription⟩ := inAscription.isSpelled rfl
    simp only [List.append_assoc, List.cons_append]
    apply gets_declaration isForm
    intro less isLess
    have smaller := below smaller isLess
    apply gets_constant isName inAscription isAssignment isSemicolon
      (fun less isLess => (smaller less isLess).phrase settled inValue _ _
        (semicolonEnds isSemicolon))
      fun less isLess => gets_rest (below smaller isLess) settled inRest isEnd
    exact fun _ _ _ _ _ _ isRead => isRead
  | @declaration _ _ function _ _ _ _ _ _ _ _ isFunction isName isOpening inParameters isClosing
      isColon inResult inBody inRest =>
    have isForm : Grammar.standard.declarations function.kind = some .function := by
      rw [isFunction]
      rfl
    obtain ⟨parameters, inParameters⟩ := inParameters.isSpelled rfl
    obtain ⟨result, inResult⟩ := inResult.isSpelled rfl
    simp only [List.append_assoc, List.cons_append]
    apply gets_declaration isForm
    intro less isLess
    have smaller := below smaller isLess
    apply gets_functionDeclaration isName isOpening inParameters isClosing isColon inResult
      (fun less isLess => (smaller less isLess).phrase settled inBody _)
      fun less isLess => gets_rest (below smaller isLess) settled inRest isEnd
    exact fun _ _ _ _ _ _ isRead => isRead
  | typeDeclaration isType isName isAssignment inBody notItself isSemicolon inRest =>
    simp only [List.append_assoc, List.cons_append]
    exact gets_typeDeclaration smaller settled isType isName isAssignment inBody notItself
      isSemicolon inRest isEnd

/-- All phrases are read, if smaller allowances suffice for their parts. -/
theorem isRead_phrase (smaller : ∀ less < fuel, Accepts less) {phrase : Phrase}
    (settled : scope.Settled) (derives : Derives scope.names phrase tokens) :
    phrase.IsRead fuel scope tokens := by
  match phrase with
  | .term =>
    intro next rest ends
    obtain ⟨lead, tail, rfl, isLead, isTail⟩ := derives.exists_lead rfl
    rw [List.append_assoc]
    apply (gets_operand smaller .lowest settled isLead isTail ends).imp
    rintro term _ _ ⟨rfl, _, rfl, -, whole⟩
    rw [whole rfl]
    exact ⟨trivial, rfl, rfl⟩
  | .list .argument => exact isRead_arguments smaller settled derives
  | .list .property => exact isRead_properties smaller settled derives
  | .block =>
    intro rest
    cases derives with
    | @block _ _ closing _ isOpening inner isClosing =>
      rw [List.cons_append, List.append_assoc]
      apply gets_block isOpening isClosing
      intro less isLess
      apply ((smaller less isLess).phrase settled inner closing rest (by simp)).imp
      rintro body _ names ⟨rfl, pending⟩
      exact ⟨trivial, rfl, pending.trans settled.pending.symm⟩
  | .sequence ending => exact isRead_sequence smaller settled derives
  | .type | .ascription | .item _ | .list (.member _) => trivial

end Accepts

/-- What the grammar derives is read, with any allowance that is not used up. -/
theorem accepts (fuel : Nat) : Accepts fuel := by
  induction fuel using Nat.strongRecOn with
  | ind fuel smaller =>
    exact {
      phrase := Accepts.isRead_phrase smaller
      operand := Accepts.gets_operand smaller
      leading := Accepts.gets_leading smaller
      trailing := Accepts.gets_trailing smaller }

/-- A program that the grammar derives is read. -/
theorem Term.exists_ofTokens {tokens : List Token} {stop : Token} (isEnd : stop.kind = .eof)
    (derives : Derives [] (.sequence .source) tokens) :
    ∃ term, ofTokens (tokens ++ [stop]) = .ok term := by
  have read : ∃ term, ofTokens (tokens ++ [stop]) = .ok term ∧ True := by
    apply ofTokens_of_gets isEnd
    intro fuel
    apply ((accepts fuel).phrase Scope.Settled.empty derives stop [] fun _ => isEnd).imp
    exact fun _ _ _ isRead => ⟨trivial, isRead.1⟩
  obtain ⟨term, isRead, -⟩ := read
  exact ⟨term, isRead⟩

end Equirec
