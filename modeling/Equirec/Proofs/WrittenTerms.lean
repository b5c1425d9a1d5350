import Equirec.Parser.Terms
import Equirec.Proofs.Annotations
import Equirec.Proofs.WrittenTypes

/-!
# Terms as they are read

A program that is read is annotated with proper types only, and reading a term leaves the names of
types as they are. A list of tokens that ends in the mark of the end is always read to its end or to
a fault: the allowance of the parser is never used up (`Term.ofTokens_ne_exhausted`).
-/
namespace Equirec

/-- A grammar in which nothing starts or goes on with the mark of the end. -/
structure Grammar.StopsAtEnd (grammar : Grammar) : Prop where
  /-- No term starts with it. -/
  leading : grammar.leading .eof = none
  /-- No term goes on with it. -/
  trailing : grammar.trailing .eof = none
  /-- No declaration starts with it. -/
  declarations : grammar.declarations .eof = none

/-- Nothing starts or goes on with the mark of the end in programs. -/
theorem Grammar.standard_stopsAtEnd : standard.StopsAtEnd :=
  ⟨rfl, rfl, rfl⟩

/-- A kind of token that a table knows is not the mark of the end, if the table does not know that.
-/
theorem Grammar.ne_eof_of_entry {α : Type} {table : Token.Kind → Option α}
    (noEntry : table .eof = none) {kind : Token.Kind} {entry : α}
    (isEntry : table kind = some entry) : kind ≠ .eof := by
  intro isEnd
  rw [isEnd, noEntry] at isEntry
  cases isEntry

/-- In the beginning no types are declared. -/
theorem Scope.formed_empty : Scope.Formed {} :=
  fun _ _ found => nomatch found

/-- Declaring a proper type keeps all declared types proper. -/
theorem Scope.Formed.finish {scope : Scope} (formed : scope.Formed) (name : String) {type : Ty}
    (proper : type.Proper) : (scope.finish name type).Formed := by
  intro other found isFound
  rw [Scope.finish, List.lookup_cons] at isFound
  split at isFound
  · cases isFound
    exact proper
  · exact formed other found isFound

/-- A term that is read while no name is being declared is annotated with proper types. -/
def Term.Written (pending : List String) (term : Term) : Prop :=
  pending = [] → ∀ type ∈ term.annotations, type.Proper

namespace Term.Written

variable {pending : List String} {span : Span}

/-- A term without annotations. -/
theorem bare {term : Term} (none : term.annotations = []) : term.Written pending := by
  intro _
  rw [none]
  exact List.forall_mem_nil _

/-- A sum. -/
theorem add {left right : Term} (first : left.Written pending) (second : right.Written pending) :
    (Term.add span left right).Written pending := by
  intro empty
  simp only [annotations, List.forall_mem_append]
  exact ⟨first empty, second empty⟩

/-- A conditional. -/
theorem conditional {condition positive negative : Term} (test : condition.Written pending)
    (holds : positive.Written pending) (fails : negative.Written pending) :
    (Term.conditional span condition positive negative).Written pending := by
  intro empty
  simp only [annotations, List.forall_mem_append]
  exact ⟨⟨test empty, holds empty⟩, fails empty⟩

/-- A function literal. -/
theorem function {parameters : List (String × Ty)} {declared : Option Ty} {body : Term}
    (inParameters : ∀ member ∈ parameters, member.2.Written pending)
    (inResult : ∀ type ∈ declared, type.Written pending) (inner : body.Written pending) :
    (Term.function span parameters declared body).Written pending := by
  rintro rfl
  simp only [annotations, List.forall_mem_append, List.forall_mem_map, Option.mem_toList]
  exact ⟨⟨fun member isMember => (inParameters member isMember).proper,
    fun type isDeclared => (inResult type isDeclared).proper⟩, inner rfl⟩

/-- A call. -/
theorem call {callee : Term} {arguments : List Term} (function : callee.Written pending)
    (values : ∀ argument ∈ arguments, argument.Written pending) :
    (Term.call span callee arguments).Written pending := by
  intro empty
  simp only [annotations, annotationsOf_eq_flatMap, List.forall_mem_append,
    List.forall_mem_flatMap]
  exact ⟨function empty, fun argument isMember => values argument isMember empty⟩

/-- A sequence. -/
theorem sequence {first rest : Term} (head : first.Written pending) (tail : rest.Written pending) :
    (Term.sequence span first rest).Written pending := by
  intro empty
  simp only [annotations, List.forall_mem_append]
  exact ⟨head empty, tail empty⟩

/-- A constant. -/
theorem constant {name : String} {value rest : Term} (inner : value.Written pending)
    (tail : rest.Written pending) : (Term.constant span name value rest).Written pending := by
  intro empty
  simp only [annotations, List.forall_mem_append]
  exact ⟨inner empty, tail empty⟩

/-- An object literal. -/
theorem object {properties : List (String × Term)}
    (values : ∀ member ∈ properties, member.2.Written pending) :
    (Term.object span properties).Written pending := by
  intro empty
  simp only [annotations, annotationsIn_eq_flatMap, List.forall_mem_flatMap]
  exact fun member isMember => values member isMember empty

/-- A property access. -/
theorem property {whole : Term} {name : String} (inner : whole.Written pending) :
    (Term.property span whole name).Written pending :=
  inner

/-- A function declaration. -/
theorem declaration {name : String} {parameters : List (String × Ty)} {declared : Ty}
    {body rest : Term} (inParameters : ∀ member ∈ parameters, member.2.Written pending)
    (inResult : declared.Written pending) (inner : body.Written pending)
    (tail : rest.Written pending) :
    (Term.declaration span name parameters declared body rest).Written pending := by
  rintro rfl
  simp only [annotations, List.forall_mem_append, List.forall_mem_map, List.forall_mem_singleton]
  exact ⟨⟨⟨fun member isMember => (inParameters member isMember).proper, inResult.proper⟩,
    inner rfl⟩, tail rfl⟩

end Term.Written

namespace Parse

/-- Results whose type, if there is one, may be written. -/
def WrittenResult (pending : List String) (declared : Option Ty) : Prop :=
  ∀ type ∈ declared, type.Written pending

/-- Arguments that may be written. -/
def WrittenArguments (pending : List String) (arguments : List Term) : Prop :=
  ∀ argument ∈ arguments, argument.Written pending

/-- Properties whose values may be written. -/
def WrittenProperties (pending : List String) (properties : List (String × Term)) : Prop :=
  ∀ member ∈ properties, member.2.Written pending

/-- What holds when a program has been read to its end. -/
structure Completes (before : Parser) (term : Term) (after : Parser) : Prop where
  /-- Tokens are taken off the stream. -/
  reads : before.Reads 0 after
  /-- No name is left half declared. -/
  pending : after.scope.pending = before.scope.pending
  /-- The term is annotated with proper types, when the declared types are proper. -/
  written : before.scope.Formed → term.Written before.scope.pending

/-- Whether an action reads a program to its end. -/
def Runs (action : Parse Term) (before : Parser) (cut : Prop) : Prop :=
  action.Meets before cut (Completes before)

/-- Whether an action goes on a term by at least one token. -/
def Extends (action : Parse Term) (before : Parser) (cut : Prop) : Prop :=
  action.Meets before cut fun term after =>
    before.Passes 1 after ∧ (before.scope.Formed → term.Written before.scope.pending)

variable {cut : Prop}

/-- A term that is given at the end, after steps that have only taken tokens off the stream. -/
theorem Completes.of_passes {before after : Parser} {count : Nat} {term : Term}
    (passes : before.Passes count after)
    (written : before.scope.Formed → term.Written before.scope.pending) :
    Completes before term after :=
  ⟨passes.toReads.less (Nat.zero_le _), by rw [passes.scope], written⟩

/-- A reader of a program among other steps, of which the earlier ones have only taken tokens off
the stream. -/
theorem Runs.bind {action : Parse Term} {next : Term → Parse Term} {before parser : Parser}
    {count : Nat} (first : action.Runs parser cut) (passes : before.Passes count parser)
    {meets : Term → Parser → Prop}
    (second : ∀ term after, before.Reads count after →
      after.scope.pending = before.scope.pending →
        (before.scope.Formed → term.Written before.scope.pending) →
          (next term).Meets after cut meets) :
    Meets (action >>= next) parser cut meets := by
  apply Ends.bind first fun _ _ => id
  intro term after ⟨reads, pending, written⟩
  rw [passes.scope] at pending written
  exact second term after (passes.toReads.trans reads) pending written

/-- A literal or a name. -/
theorem gives_readPrimary (before : Parser) : readPrimary.Gives Term.Written before cut := by
  have passes := Parser.Passes.refl before
  rw [readPrimary]
  apply Ends.current
  split
  · rename_i isNumber
    split
    · apply Meets.skip passes (by rw [isNumber]; decide)
      intro parser passes
      exact Gives.pure passes fun _ => .bare rfl
    · exact .fail trivial
  · rename_i isName
    apply Meets.skip passes (by rw [isName]; decide)
    intro parser passes
    exact Gives.pure passes fun _ => .bare rfl
  · rename_i isTrue
    apply Meets.skip passes (by rw [isTrue]; decide)
    intro parser passes
    exact Gives.pure passes fun _ => .bare rfl
  · rename_i isFalse
    apply Meets.skip passes (by rw [isFalse]; decide)
    intro parser passes
    exact Gives.pure passes fun _ => .bare rfl
  · exact .unexpected trivial

/-- What a leading form needs of an allowance: an arrow function is what a parenthesis may turn out
to be. -/
def leadingRank : LeadingForm → Nat
  | .arrow => 2
  | .primary | .parenthesis | .object => 3

/-- What all readers of terms meet with an allowance. The rank of a reader says how many calls can
be nested in it before a token is taken. -/
structure ReadTerms (grammar : Grammar) (cut : Prop) (fuel : Nat) : Prop where
  /-- A term. -/
  term : ∀ {before : Parser} (power : Power), before.Affords cut fuel 4 →
    (readTerm grammar fuel power).Gives Term.Written before cut
  /-- What follows a term. -/
  trailing : ∀ {before : Parser} (power : Power) {left : Term}, before.Affords cut fuel 2 →
    (before.scope.Formed → left.Written before.scope.pending) →
      (readTrailing grammar fuel power left).Gives Term.Written before cut
  /-- A term of a known leading form. -/
  leading : ∀ {before : Parser} (form : LeadingForm), before.Affords cut fuel (leadingRank form) →
    before.stream.current.kind ≠ .eof →
      (readLeading grammar fuel form).Gives Term.Written before cut
  /-- The declared result type of an arrow function. -/
  declaredResult : ∀ {before : Parser}, before.Affords cut fuel 1 →
    (readDeclaredResult grammar fuel).Gives WrittenResult before cut
  /-- The properties of an object literal. -/
  propertyList : ∀ {before : Parser}, before.Affords cut fuel 1 →
    (readPropertyList grammar fuel).Gives WrittenProperties before cut
  /-- A term of a known trailing form. -/
  trailingForm : ∀ {before : Parser} (form : TrailingForm) (power : Power) {left : Term},
    before.Affords cut fuel 1 → before.stream.current.kind ≠ .eof →
      (before.scope.Formed → left.Written before.scope.pending) →
        (readTrailingForm grammar fuel form power left).Extends before cut
  /-- The arguments of a call. -/
  arguments : ∀ {before : Parser}, before.Affords cut fuel 5 →
    (readArguments grammar fuel).Gives WrittenArguments before cut
  /-- The body of a function. -/
  block : ∀ {before : Parser}, before.Affords cut fuel 1 →
    (readBlock grammar fuel).Gives Term.Written before cut
  /-- A sequence. -/
  sequence : ∀ {before : Parser} (ending : Ending), before.Affords cut fuel 5 →
    (readSequence grammar fuel ending).Runs before cut
  /-- What follows a declaration. -/
  rest : ∀ {before : Parser} (ending : Ending), before.Affords cut fuel 6 →
    (readRest grammar fuel ending).Runs before cut
  /-- A declaration and what follows it. -/
  declaration : ∀ {before : Parser} (form : DeclarationForm) (ending : Ending),
    before.Affords cut fuel 1 → before.stream.current.kind ≠ .eof →
      (readDeclaration grammar fuel form ending).Runs before cut

namespace ReadTerms

variable {grammar : Grammar} {fuel : Nat} {before : Parser}

/-- Without an allowance all readers are cut short. -/
theorem zero (grammar : Grammar) (cut : Prop) : ReadTerms grammar cut 0 where
  term _ affords := by
    rw [readTerm]
    exact Ends.exhausted affords.allowed
  trailing _ _ affords _ := by
    rw [readTrailing]
    exact Ends.exhausted affords.allowed
  leading form affords _ := by
    rw [readLeading]
    cases form <;> exact Ends.exhausted affords.allowed
  declaredResult affords := by
    rw [readDeclaredResult]
    exact Ends.exhausted affords.allowed
  propertyList affords := by
    rw [readPropertyList]
    exact Ends.exhausted affords.allowed
  trailingForm _ _ _ affords _ _ := by
    rw [readTrailingForm]
    exact Ends.exhausted affords.allowed
  arguments affords := by
    rw [readArguments]
    exact Ends.exhausted affords.allowed
  block affords := by
    rw [readBlock]
    exact Ends.exhausted affords.allowed
  sequence _ affords := by
    rw [readSequence]
    exact Ends.exhausted affords.allowed
  rest _ affords := by
    rw [readRest]
    exact Ends.exhausted affords.allowed
  declaration _ _ affords _ := by
    rw [readDeclaration]
    exact Ends.exhausted affords.allowed

/-- A term, if nested readers meet their conditions. -/
theorem gives_readTerm (stops : grammar.StopsAtEnd) (nested : ReadTerms grammar cut fuel)
    (power : Power) (affords : before.Affords cut (fuel + 1) 4) :
    (readTerm grammar (fuel + 1) power).Gives Term.Written before cut := by
  have passes := Parser.Passes.refl before
  rw [readTerm]
  apply Ends.current
  split
  · rename_i form isLeading
    have more := Grammar.ne_eof_of_entry stops.leading isLeading
    have lower : before.Affords cut fuel (leadingRank form) := by
      apply affords.step passes.toReads
      cases form <;> decide
    apply (nested.leading form lower more).bind passes
    intro left parser passes written
    rw [← passes.scope] at written
    exact (nested.trailing power (affords.step passes.toReads (by decide)) written).after passes
  · exact .unexpected trivial

/-- What follows a term, if nested readers meet their conditions. -/
theorem gives_readTrailing (stops : grammar.StopsAtEnd) (nested : ReadTerms grammar cut fuel)
    (power : Power) {left : Term} (affords : before.Affords cut (fuel + 1) 2)
    (written : before.scope.Formed → left.Written before.scope.pending) :
    (readTrailing grammar (fuel + 1) power left).Gives Term.Written before cut := by
  have passes := Parser.Passes.refl before
  rw [readTrailing]
  apply Ends.current
  split
  · rename_i form binding isTrailing
    have more := Grammar.ne_eof_of_entry stops.trailing isTrailing
    split
    · have lower := affords.step passes.toReads (by decide : 1 < 2 + 16 * 0)
      apply (nested.trailingForm form binding lower more written).bind fun _ _ => id
      intro longer parser ⟨passes, written⟩
      rw [← passes.scope] at written
      exact (nested.trailing power (affords.step passes.toReads (by decide)) written).after passes
    · exact Gives.pure passes written
  · exact Gives.pure passes written

/-- A term of a known leading form, if nested readers meet their conditions. -/
theorem gives_readLeading (types : ReadTypes grammar cut fuel)
    (nested : ReadTerms grammar cut fuel) (form : LeadingForm)
    (affords : before.Affords cut (fuel + 1) (leadingRank form))
    (more : before.stream.current.kind ≠ .eof) :
    (readLeading grammar (fuel + 1) form).Gives Term.Written before cut := by
  have passes := Parser.Passes.refl before
  cases form with
  | primary =>
    rw [readLeading]
    exact gives_readPrimary before
  | parenthesis =>
    rw [readLeading]
    apply Ends.peekKind
    apply Ends.peekKind
    split
    · exact nested.leading .arrow (affords.step passes.toReads (by decide)) more
    · apply Meets.skip passes more
      intro parser passes
      apply (nested.term .lowest (affords.step passes.toReads (by decide))).bind passes
      intro term parser passes written
      apply Meets.expect (by decide) passes
      intro _ parser passes
      exact Gives.pure passes written
  | object =>
    rw [readLeading]
    apply Meets.advance passes more
    intro parser passes
    apply (nested.propertyList (affords.step passes.toReads (by decide))).bind passes
    intro properties parser passes written
    apply Meets.expect (by decide) passes
    intro _ parser passes
    apply Ends.spanFrom
    exact Gives.pure passes fun formed => .object (written formed)
  | arrow =>
    rw [readLeading]
    apply Ends.current
    apply (types.parameters (affords.step passes.toReads (by decide))).bind passes
    intro parameters parser passes inParameters
    apply (nested.declaredResult (affords.step passes.toReads (by decide))).bind passes
    intro declared parser passes inResult
    apply Meets.expectFor (by decide) passes
    intro _ parser passes
    apply Ends.nextIs
    dsimp only
    split
    · apply (nested.block (affords.step passes.toReads (by decide))).bind passes
      intro body parser passes inBody
      apply Ends.spanFrom
      exact Gives.pure passes fun formed =>
        .function (inParameters formed) (inResult formed) (inBody formed)
    · apply (nested.term .lowest (affords.step passes.toReads (by decide))).bind passes
      intro body parser passes inBody
      apply Ends.spanFrom
      exact Gives.pure passes fun formed =>
        .function (inParameters formed) (inResult formed) (inBody formed)

/-- The declared result type of an arrow function, if nested readers meet their conditions. -/
theorem gives_readDeclaredResult (types : ReadTypes grammar cut fuel)
    (affords : before.Affords cut (fuel + 1) 1) :
    (readDeclaredResult grammar (fuel + 1)).Gives WrittenResult before cut := by
  have passes := Parser.Passes.refl before
  rw [readDeclaredResult]
  apply Ends.nextIs
  split
  · rename_i isColon
    apply Meets.skip passes (TokenStream.more_of_isKind isColon (by decide))
    intro parser passes
    apply (types.type (affords.step passes.toReads (by decide))).bind passes
    intro type parser passes written
    refine Gives.pure passes fun formed type' isDeclared => ?_
    cases isDeclared
    exact written formed
  · exact Gives.pure passes fun _ _ isDeclared => nomatch isDeclared

/-- The properties of an object literal, if nested readers meet their conditions. -/
theorem gives_readPropertyList (nested : ReadTerms grammar cut fuel)
    (affords : before.Affords cut (fuel + 1) 1) :
    (readPropertyList grammar (fuel + 1)).Gives WrittenProperties before cut := by
  have passes := Parser.Passes.refl before
  rw [readPropertyList]
  apply Ends.nextIs
  split
  · exact Gives.pure passes fun _ => List.forall_mem_nil _
  · apply Meets.expectFor (by decide) passes
    intro name parser passes
    apply Meets.expect (by decide) passes
    intro _ parser passes
    apply (nested.term .lowest (affords.step passes.toReads (by decide))).bind passes
    intro value parser passes inValue
    apply Ends.nextIs
    split
    · rename_i isComma
      apply Meets.skip passes (TokenStream.more_of_isKind isComma (by decide))
      intro parser passes
      apply (nested.propertyList (affords.step passes.toReads (by decide))).bind passes
      intro rest parser passes inRest
      exact Gives.pure passes fun formed => List.forall_mem_cons.2 ⟨inValue formed, inRest formed⟩
    · exact Gives.pure passes fun formed => List.forall_mem_singleton.2 (inValue formed)

/-- The arguments of a call, if nested readers meet their conditions. -/
theorem gives_readArguments (nested : ReadTerms grammar cut fuel)
    (affords : before.Affords cut (fuel + 1) 5) :
    (readArguments grammar (fuel + 1)).Gives WrittenArguments before cut := by
  have passes := Parser.Passes.refl before
  rw [readArguments]
  apply Ends.nextIs
  split
  · exact Gives.pure passes fun _ => List.forall_mem_nil _
  · apply (nested.term .lowest (affords.step passes.toReads (by decide))).bind passes
    intro argument parser passes inArgument
    apply Ends.nextIs
    split
    · rename_i isComma
      apply Meets.skip passes (TokenStream.more_of_isKind isComma (by decide))
      intro parser passes
      apply (nested.arguments (affords.step passes.toReads (by decide))).bind passes
      intro rest parser passes inRest
      exact Gives.pure passes fun formed =>
        List.forall_mem_cons.2 ⟨inArgument formed, inRest formed⟩
    · exact Gives.pure passes fun formed => List.forall_mem_singleton.2 (inArgument formed)

/-- A term of a known trailing form, if nested readers meet their conditions. -/
theorem extends_readTrailingForm (nested : ReadTerms grammar cut fuel) (form : TrailingForm)
    (power : Power) {left : Term} (affords : before.Affords cut (fuel + 1) 1)
    (more : before.stream.current.kind ≠ .eof)
    (written : before.scope.Formed → left.Written before.scope.pending) :
    (readTrailingForm grammar (fuel + 1) form power left).Extends before cut := by
  have passes := Parser.Passes.refl before
  cases form with
  | add =>
    rw [readTrailingForm]
    apply Meets.skip passes more
    intro parser passes
    apply (nested.term power (affords.step passes.toReads (by decide))).bind passes
    intro right parser passes inRight
    exact .pure ⟨passes, fun formed => .add (written formed) (inRight formed)⟩
  | conditional =>
    rw [readTrailingForm]
    apply Meets.skip passes more
    intro parser passes
    apply (nested.term .lowest (affords.step passes.toReads (by decide))).bind passes
    intro positive parser passes inPositive
    apply Meets.expectFor (by decide) passes
    intro _ parser passes
    apply (nested.term .lowest (affords.step passes.toReads (by decide))).bind passes
    intro negative parser passes inNegative
    exact .pure ⟨passes.less (by decide), fun formed =>
      .conditional (written formed) (inPositive formed) (inNegative formed)⟩
  | call =>
    rw [readTrailingForm]
    apply Meets.skip passes more
    intro parser passes
    apply (nested.arguments (affords.step passes.toReads (by decide))).bind passes
    intro arguments parser passes inArguments
    apply Meets.expect (by decide) passes
    intro _ parser passes
    apply Ends.spanFrom
    exact .pure
      ⟨passes.less (by decide), fun formed => .call (written formed) (inArguments formed)⟩
  | property =>
    rw [readTrailingForm, readProperty]
    apply Meets.skip passes more
    intro parser passes
    apply Meets.expectFor (by decide) passes
    intro name parser passes
    apply Ends.spanFrom
    exact .pure ⟨passes.less (by decide), fun formed => .property (written formed)⟩

/-- The body of a function, if nested readers meet their conditions. What is declared in it is
forgotten after it, so that all names of types are as before. -/
theorem gives_readBlock (nested : ReadTerms grammar cut fuel)
    (affords : before.Affords cut (fuel + 1) 1) :
    (readBlock grammar (fuel + 1)).Gives Term.Written before cut := by
  rw [readBlock]
  apply Meets.expectFor (by decide) (.refl before)
  intro _ parser passes
  have body : (locally (readSequence grammar fuel .result)).Gives Term.Written parser cut := by
    apply Ends.locally
    apply (nested.sequence .result (affords.step passes.toReads (by decide))).imp _ fun _ _ => id
    intro term after ⟨reads, pending, written⟩
    have restored : after.scope.leave parser.scope.aliases = parser.scope := by
      rw [Scope.leave, pending]
    exact ⟨⟨⟨reads.last, reads.shorter⟩, restored⟩, written⟩
  apply body.bind passes
  intro body parser passes inBody
  apply Meets.expect (by decide) passes
  intro _ parser passes
  exact Gives.pure passes inBody

/-- A sequence, if nested readers meet their conditions. -/
theorem runs_readSequence (stops : grammar.StopsAtEnd) (nested : ReadTerms grammar cut fuel)
    (ending : Ending) (affords : before.Affords cut (fuel + 1) 5) :
    (readSequence grammar (fuel + 1) ending).Runs before cut := by
  have passes := Parser.Passes.refl before
  -- After a first term and its semicolon the sequence goes on.
  have followed : ∀ {first : Term} {parser : Parser} {count : Nat},
      before.Passes (count + 1) parser →
        (before.scope.Formed → first.Written before.scope.pending) →
          Meets (readSequence grammar fuel ending >>= fun rest =>
            Pure.pure (.sequence (first.span.through rest.span) first rest)) parser cut
            (Completes before) := by
    intro first parser count passes inFirst
    have lower : parser.Affords cut fuel 5 := affords.step passes.toReads (by omega)
    apply (nested.sequence ending lower).bind passes
    intro rest after reads pending inRest
    exact .pure ⟨reads.less (Nat.zero_le _), pending, fun formed =>
      .sequence (inFirst formed) (inRest formed)⟩
  rw [readSequence]
  apply Ends.current
  split
  · rename_i form isDeclaration
    have more := Grammar.ne_eof_of_entry stops.declarations isDeclaration
    exact nested.declaration form _ (affords.step passes.toReads (by decide)) more
  · apply Ends.nextIs
    split
    · rename_i isReturn
      apply Meets.skip passes (TokenStream.more_of_isKind isReturn (by decide))
      intro parser passes
      apply (nested.term .lowest (affords.step passes.toReads (by decide))).bind passes
      intro value parser passes inValue
      apply Meets.expect (by decide) passes
      intro _ parser passes
      exact .pure (.of_passes passes inValue)
    · apply (nested.term .lowest (affords.step passes.toReads (by decide))).bind passes
      intro first parser passes inFirst
      apply Meets.expect (by decide) passes
      intro _ parser passes
      exact followed passes inFirst
  · apply (nested.term .lowest (affords.step passes.toReads (by decide))).bind passes
    intro first parser passes inFirst
    apply Ends.nextIs
    split
    · rename_i isSemicolon
      apply Meets.skip passes (TokenStream.more_of_isKind isSemicolon (by decide))
      intro parser passes
      apply Ends.nextIs
      split
      · exact .pure (.of_passes passes inFirst)
      · exact followed passes inFirst
    · exact .pure (.of_passes passes inFirst)

/-- What follows a declaration, if nested readers meet their conditions. -/
theorem runs_readRest (nested : ReadTerms grammar cut fuel) (ending : Ending)
    (affords : before.Affords cut (fuel + 1) 6) :
    (readRest grammar (fuel + 1) ending).Runs before cut := by
  rw [readRest]
  apply Ends.nextIs
  split
  · exact .unexpectedFor trivial
  · exact nested.sequence ending (affords.step (Parser.Passes.refl before).toReads (by decide))

/-- A declaration of a name for a type, if nested readers meet their conditions. -/
theorem runs_readDeclaration_alias (types : ReadTypes grammar cut fuel)
    (nested : ReadTerms grammar cut fuel) (ending : Ending)
    (affords : before.Affords cut (fuel + 1) 1) (more : before.stream.current.kind ≠ .eof) :
    (readDeclaration grammar (fuel + 1) .alias ending).Runs before cut := by
  rw [readDeclaration]
  apply Meets.skip (.refl before) more
  intro parser passes
  apply Meets.expect (by decide) passes
  intro name parser passes
  apply Meets.expect (by decide) passes
  intro _ parser passes
  apply Ends.change
  have begun : before.Reads 3 { parser with scope := parser.scope.begin name.value } :=
    ⟨passes.last, passes.shorter⟩
  apply Ends.bind (types.type (affords.step begun (by decide))) fun _ _ => id
  intro body reading ⟨inner, inBody⟩
  have scope : reading.scope = before.scope.begin name.value := by
    rw [inner.scope, passes.scope]
  dsimp only
  split
  · exact .fail trivial
  · rename_i guards
    apply Ends.change
    apply Meets.expect (by decide) (.refl _)
    intro _ parser ended
    have reads : before.Reads 4 parser := by
      have declared := ended.toReads
      exact (begun.trans inner.toReads).trans ⟨declared.last, declared.shorter⟩
    apply (nested.rest ending (affords.step reads (by decide))).imp _ fun _ _ => id
    intro term after completes
    have known := ended.scope
    dsimp only at known
    rw [scope] at known
    refine ⟨(reads.trans completes.reads).less (Nat.zero_le _), ?_, fun formed empty => ?_⟩
    · rw [completes.pending, known]
      rfl
    · rw [passes.scope] at inBody
      have inBody : body.Written (name.value :: before.scope.pending) := inBody formed
      rw [empty] at inBody
      have proper := inBody.declared (by simpa using guards)
      apply completes.written
      · rw [known]
        have begun : (before.scope.begin name.value).Formed := formed
        exact begun.finish name.value proper
      · rw [known]
        exact empty

/-- A declaration, if nested readers meet their conditions. -/
theorem runs_readDeclaration (types : ReadTypes grammar cut fuel)
    (nested : ReadTerms grammar cut fuel) (form : DeclarationForm) (ending : Ending)
    (affords : before.Affords cut (fuel + 1) 1) (more : before.stream.current.kind ≠ .eof) :
    (readDeclaration grammar (fuel + 1) form ending).Runs before cut := by
  have passes := Parser.Passes.refl before
  cases form with
  | constant =>
    rw [readDeclaration]
    apply Meets.advance passes more
    intro parser passes
    apply Meets.expectFor (by decide) passes
    intro name parser passes
    apply (nested.declaredResult (affords.step passes.toReads (by decide))).bind passes
    intro _ parser passes _
    apply Meets.expectFor (by decide) passes
    intro _ parser passes
    apply (nested.term .lowest (affords.step passes.toReads (by decide))).bind passes
    intro value parser passes inValue
    apply Meets.expect (by decide) passes
    intro _ parser passes
    apply (nested.rest ending (affords.step passes.toReads (by decide))).bind passes
    intro rest parser reads pending inRest
    exact .pure ⟨reads.less (Nat.zero_le _), pending, fun formed =>
      .constant (inValue formed) (inRest formed)⟩
  | function =>
    rw [readDeclaration]
    apply Meets.advance passes more
    intro parser passes
    apply Meets.expectFor (by decide) passes
    intro name parser passes
    apply (types.parameters (affords.step passes.toReads (by decide))).bind passes
    intro parameters parser passes inParameters
    apply Meets.expectFor (by decide) passes
    intro _ parser passes
    apply (types.type (affords.step passes.toReads (by decide))).bind passes
    intro declared parser passes inResult
    apply (nested.block (affords.step passes.toReads (by decide))).bind passes
    intro body parser passes inBody
    apply (nested.rest ending (affords.step passes.toReads (by decide))).bind passes
    intro rest parser reads pending inRest
    exact .pure ⟨reads.less (Nat.zero_le _), pending, fun formed =>
      .declaration (inParameters formed) (inResult formed) (inBody formed) (inRest formed)⟩
  | _ => exact nested.runs_readDeclaration_alias types ending affords more

end ReadTerms

/-- Readers of terms meet their conditions, with any allowance. -/
theorem readTerms {grammar : Grammar} (stops : grammar.StopsAtEnd) (cut : Prop) (fuel : Nat) :
    ReadTerms grammar cut fuel := by
  induction fuel with
  | zero => exact .zero grammar cut
  | succ fuel nested =>
    have types := readTypes grammar cut fuel
    exact {
      term := nested.gives_readTerm stops
      trailing := nested.gives_readTrailing stops
      leading := nested.gives_readLeading types
      declaredResult := ReadTerms.gives_readDeclaredResult types
      propertyList := nested.gives_readPropertyList
      trailingForm := nested.extends_readTrailingForm
      arguments := nested.gives_readArguments
      block := nested.gives_readBlock
      sequence := nested.runs_readSequence stops
      rest := nested.runs_readRest
      declaration := nested.runs_readDeclaration types }

/-- A whole program is annotated with proper types only. -/
theorem meets_readProgram {grammar : Grammar} (stops : grammar.StopsAtEnd) {before : Parser}
    {cut : Prop} {fuel : Nat} (affords : before.Affords cut fuel 5) (formed : before.scope.Formed) :
    (readProgram grammar fuel).Meets before cut fun term _ =>
      term.Written before.scope.pending := by
  apply Ends.bind ((readTerms stops cut fuel).sequence .source affords) fun _ _ => id
  intro term parser completes
  exact Ends.expect trivial fun _ => .pure (completes.written formed)

end Parse

namespace Term

/-- The parser of a list of tokens whose last one is known. -/
theorem ofTokens_eq {tokens : List Token} {last : Token} (isLast : tokens.getLast? = some last) :
    ofTokens tokens = ((Parse.readProgram .standard (16 * (tokens.length + 4))).run.run
      { stream := { upcoming := tokens, last } }).1 := by
  rw [ofTokens, TokenStream.ofTokens?, isLast]
  rfl

/-- A list of tokens that ends in the mark of the end is read to its end or to a fault. -/
theorem ofTokens_ne_exhausted {tokens : List Token}
    (ends : ∀ last ∈ tokens.getLast?, last.kind = .eof) :
    ofTokens tokens ≠ .error .exhausted := by
  cases isLast : tokens.getLast? with
  | none =>
    rw [ofTokens, TokenStream.ofTokens?, isLast]
    exact fun exhausted => nomatch exhausted
  | some last =>
    rw [ofTokens_eq isLast]
    have affords : Parser.Affords { stream := { upcoming := tokens, last } } False
        (16 * (tokens.length + 4)) 5 := by
      refine .inr ⟨ends last isLast, ?_⟩
      dsimp only
      omega
    have meets := Parse.meets_readProgram Grammar.standard_stopsAtEnd affords Scope.formed_empty
    exact meets.ne_exhausted

/-- A program that is read is annotated with proper types only. -/
theorem proper_of_ofTokens {tokens : List Token} {term : Term} (read : ofTokens tokens = .ok term) :
    ∀ type ∈ term.annotations, type.Proper := by
  cases isLast : tokens.getLast? with
  | none =>
    rw [ofTokens, TokenStream.ofTokens?, isLast] at read
    cases read
  | some last =>
    rw [ofTokens_eq isLast] at read
    have affords : Parser.Affords { stream := { upcoming := tokens, last } } True
        (16 * (tokens.length + 4)) 5 := .inl trivial
    have meets := Parse.meets_readProgram Grammar.standard_stopsAtEnd affords Scope.formed_empty
    exact meets.gives term _ (Prod.ext read rfl) rfl

end Term

end Equirec
