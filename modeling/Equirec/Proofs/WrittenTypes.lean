import Equirec.Parser.Types
import Equirec.Proofs.Layered
import Equirec.Proofs.Outcomes

/-!
# Types as they are read

Two things are followed through the readers of types, each reader through its steps once. A reader
leaves the names of types as they are, and gives types as programs declare them (`Ty.Written`). And
every few nested calls take a token off the stream, so that the allowance of a parser is never used
up on a stream that ends in the mark of the end: what is left of the allowance stays above sixteen
times what is left of the stream (`Parser.Affords`).
-/
namespace Equirec

/-! ## Tokens taken off the stream -/

namespace Parser

/-- Whether one parser comes from another by taking tokens off the stream: at least so many, if the
stream ends in the mark of the end. -/
structure Reads (count : Nat) (before after : Parser) : Prop where
  /-- The stream ends as before. -/
  last : after.stream.last = before.stream.last
  /-- The stream is shorter. -/
  shorter : before.stream.last.kind = .eof →
    after.stream.upcoming.length + count ≤ before.stream.upcoming.length

/-- Whether one parser comes from another by taking tokens off the stream only. -/
structure Passes (count : Nat) (before after : Parser) : Prop extends Reads count before after where
  /-- The names of types are as before. -/
  scope : after.scope = before.scope

namespace Reads

variable {count count' : Nat} {first second third : Parser}

/-- Tokens taken one after the other add up. -/
theorem trans (reads : Reads count first second) (reads' : Reads count' second third) :
    Reads (count + count') first third := by
  refine ⟨reads'.last.trans reads.last, ?_⟩
  intro isEnd
  have some := reads.shorter isEnd
  have more := reads'.shorter (reads.last ▸ isEnd)
  omega

/-- Fewer tokens may be claimed. -/
theorem less (reads : Reads count first second) (fewer : count' ≤ count) :
    Reads count' first second := by
  refine ⟨reads.last, ?_⟩
  intro isEnd
  have some := reads.shorter isEnd
  omega

end Reads

namespace Passes

variable {count count' : Nat} {first second third : Parser}

/-- No token has to be taken. -/
theorem refl (parser : Parser) : Passes 0 parser parser :=
  ⟨⟨rfl, fun _ => Nat.le_refl _⟩, rfl⟩

/-- Tokens taken one after the other add up. -/
theorem trans (passes : Passes count first second) (passes' : Passes count' second third) :
    Passes (count + count') first third :=
  ⟨passes.toReads.trans passes'.toReads, passes'.scope.trans passes.scope⟩

/-- Fewer tokens may be claimed. -/
theorem less (passes : Passes count first second) (fewer : count' ≤ count) :
    Passes count' first second :=
  ⟨passes.toReads.less fewer, passes.scope⟩

end Passes

/-- Taking the next token, if it is not the mark of the end. -/
theorem passes_advanced (parser : Parser) (more : parser.stream.current.kind ≠ .eof) :
    Passes 1 parser parser.advanced := by
  obtain ⟨⟨upcoming, last, passed⟩, scope⟩ := parser
  cases upcoming with
  | nil =>
    -- An empty stream shows its last token, which is then not the mark of the end.
    exact ⟨⟨rfl, fun isEnd => absurd isEnd more⟩, rfl⟩
  | cons token rest => exact ⟨⟨rfl, fun _ => Nat.le_refl _⟩, rfl⟩

/-- Whether an allowance is enough for calls of a rank: sixteen for each token that is left, and the
rank. It need not be enough where an action may be cut short. -/
def Affords (parser : Parser) (cut : Prop) (fuel rank : Nat) : Prop :=
  cut ∨ (parser.stream.last.kind = .eof ∧ 16 * parser.stream.upcoming.length + rank ≤ fuel)

namespace Affords

variable {before after : Parser} {cut : Prop} {fuel rank rank' count : Nat}

/-- A nested call may be of a lower rank, or of a higher one when tokens were taken. -/
theorem step (affords : before.Affords cut (fuel + 1) rank) (reads : before.Reads count after)
    (lower : rank' < rank + 16 * count) : after.Affords cut fuel rank' := by
  rcases affords with allowed | ⟨isEnd, enough⟩
  · exact .inl allowed
  · have shorter := reads.shorter isEnd
    exact .inr ⟨reads.last ▸ isEnd, by omega⟩

/-- Without an allowance no call is possible. -/
theorem allowed (affords : before.Affords cut 0 (rank + 1)) : cut := by
  rcases affords with allowed | ⟨_, enough⟩
  · exact allowed
  · omega

end Affords

end Parser

/-- A next token of a kind other than the mark of the end is not that mark. -/
theorem TokenStream.more_of_isKind {stream : TokenStream} {kind : Token.Kind}
    (isKind : (stream.current.kind == kind) = true) (differs : kind ≠ .eof) :
    stream.current.kind ≠ .eof := by
  rw [eq_of_beq isKind]
  exact differs

namespace Parse

variable {α β : Type} {before parser : Parser} {cut : Prop} {count : Nat}
  {meets : β → Parser → Prop}

/-- Whether an action that gives a value meets a condition, with the parser that it leaves, and uses
up its allowance only if it may be cut short. Nothing is said of its faults. -/
abbrev Meets (action : Parse α) (before : Parser) (cut : Prop) (meets : α → Parser → Prop) : Prop :=
  action.Ends before meets (fun _ _ => True) cut

namespace Meets

/-- Taking the next token, which is not the mark of the end. -/
theorem advance {next : Token → Parse β} (passes : before.Passes count parser)
    (more : parser.stream.current.kind ≠ .eof)
    (second : ∀ after, before.Passes (count + 1) after →
      (next parser.stream.current).Meets after cut meets) :
    Meets (Parse.advance >>= next) parser cut meets :=
  Ends.advance (second _ (passes.trans (parser.passes_advanced more)))

/-- Dropping the next token, which is not the mark of the end. -/
theorem skip {next : Unit → Parse β} (passes : before.Passes count parser)
    (more : parser.stream.current.kind ≠ .eof)
    (second : ∀ after, before.Passes (count + 1) after → (next ()).Meets after cut meets) :
    Meets (Parse.skip >>= next) parser cut meets :=
  Ends.skip (second _ (passes.trans (parser.passes_advanced more)))

/-- Taking the next token, which must be of a kind other than the mark of the end, whatever is
refused otherwise. -/
theorem takeOr {kind : Token.Kind} {otherwise : Parse Token} {next : Token → Parse β}
    (refused : otherwise.Meets parser cut fun _ _ => False) (differs : kind ≠ .eof)
    (passes : before.Passes count parser)
    (second : ∀ token after, before.Passes (count + 1) after →
      (next token).Meets after cut meets) :
    Meets (Parse.takeOr kind otherwise >>= next) parser cut meets := by
  refine Ends.takeOr refused fun isKind => second _ _ (passes.trans (parser.passes_advanced ?_))
  rw [isKind]
  exact differs

/-- Taking the next token, which must be of a kind other than the mark of the end. -/
theorem expect {kind : Token.Kind} {next : Token → Parse β} (differs : kind ≠ .eof)
    (passes : before.Passes count parser)
    (second : ∀ token after, before.Passes (count + 1) after →
      (next token).Meets after cut meets) :
    Meets (Parse.expect kind >>= next) parser cut meets :=
  takeOr (.unexpected trivial) differs passes second

/-- Taking the next token, which must be of a kind other than the mark of the end, or saying what is
needed. -/
theorem expectFor {kind : Token.Kind} {detail : String} {next : Token → Parse β}
    (differs : kind ≠ .eof) (passes : before.Passes count parser)
    (second : ∀ token after, before.Passes (count + 1) after →
      (next token).Meets after cut meets) :
    Meets (Parse.expectFor kind detail >>= next) parser cut meets :=
  takeOr (.unexpectedFor trivial) differs passes second

end Meets

end Parse

/-! ## Types that are read -/

/-- Whether all declared types are proper. -/
def Scope.Formed (scope : Scope) : Prop :=
  ∀ name type, scope.aliases.lookup name = some type → type.Proper

/-- A type as it is read while names are being declared: these may occur free in it, but a recursive
type at the top is one that was declared before, and closed. -/
structure Ty.Written (pending : List String) (type : Ty) : Prop where
  /-- Only names that are being declared occur free. -/
  closed : type.isClosedUnder pending = true
  /-- Every recursive type is a function or an object that mentions itself. -/
  layered : type.isLayered = true
  /-- A recursive type at the top is closed. -/
  top : type.unfolding? ≠ none → type.isClosed = true

namespace Ty.Written

variable {pending : List String}

/-- A proper type may be written anywhere. -/
theorem of_proper {type : Ty} (proper : type.Proper) : type.Written pending := by
  refine ⟨?_, proper.layered, fun _ => proper.closed⟩
  rw [isClosedUnder_iff]
  intro name free
  rw [(isClosed_iff type).1 proper.closed name] at free
  cases free

/-- While nothing is being declared, a type that is read is proper. -/
theorem proper {type : Ty} (written : type.Written []) : type.Proper :=
  ⟨written.closed, written.layered⟩

/-- A function type that is read. -/
theorem function {parameters : List (String × Ty)} {result : Ty}
    (inParameters : ∀ member ∈ parameters, member.2.Written pending)
    (inResult : result.Written pending) : (Ty.function parameters result).Written pending where
  closed := by
    simp only [isClosedUnder, isClosedUnderIn_eq_all, Bool.and_eq_true, List.all_eq_true]
    exact ⟨fun member isMember => (inParameters member isMember).closed, inResult.closed⟩
  layered := by
    simp only [isLayered, isLayeredIn_eq_all, Bool.and_eq_true, List.all_eq_true]
    exact ⟨fun member isMember => (inParameters member isMember).layered, inResult.layered⟩
  top := fun recursive => absurd rfl recursive

/-- An object type that is read. -/
theorem object {properties : List (String × Ty)}
    (inProperties : ∀ member ∈ properties, member.2.Written pending) :
    (Ty.object properties).Written pending where
  closed := by
    simp only [isClosedUnder, isClosedUnderIn_eq_all, List.all_eq_true]
    exact fun member isMember => (inProperties member isMember).closed
  layered := by
    simp only [isLayered, isLayeredIn_eq_all, List.all_eq_true]
    exact fun member isMember => (inProperties member isMember).layered
  top := fun recursive => absurd rfl recursive

/-- A type that is written where one name is being declared, and guards it, is recursive in that
name or does not mention it. Either way the declared type is proper. -/
theorem declared {name : String} {body : Ty} (written : body.Written [name])
    (guarded : body.isGuarded name = true) :
    (if body.occurs name = true then mu name body else body).Proper := by
  have names := (isClosedUnder_iff body [name]).1 written.closed
  split
  · rename_i mentions
    have layer : body.isLayer = true := by
      cases body with
      | number => cases mentions
      | boolean => cases mentions
      | function => rfl
      | object => rfl
      | var other =>
        simp only [occurs, beq_iff_eq] at mentions
        simp [isGuarded, mentions] at guarded
      | mu bound rest =>
        have closed := written.top (Option.some_ne_none _)
        rw [(isClosed_iff _).1 closed name] at mentions
        cases mentions
    exact ⟨written.closed, isLayered_mu.2 ⟨layer, mentions, written.layered⟩⟩
  · rename_i absent
    refine ⟨?_, written.layered⟩
    rw [isClosed_iff]
    intro other
    rw [Bool.eq_false_iff]
    intro free
    have same := List.mem_singleton.1 (names other free)
    exact absent (same ▸ free)

end Ty.Written

namespace Parse

variable {α β : Type} {cut : Prop}

/-- Whether an action takes tokens off the stream only, and what it gives is as it should be under
the names that are being declared, when the declared types are proper. -/
def Gives (action : Parse α) (holds : List String → α → Prop) (before : Parser) (cut : Prop) :
    Prop :=
  action.Meets before cut fun value after =>
    before.Passes 0 after ∧ (before.scope.Formed → holds before.scope.pending value)

/-- A reader among other steps, of which the earlier ones have only taken tokens off the stream. -/
theorem Gives.bind {action : Parse α} {next : α → Parse β} {holds : List String → α → Prop}
    {meets : β → Parser → Prop} {before parser : Parser} {count : Nat}
    (first : action.Gives holds parser cut) (passes : before.Passes count parser)
    (second : ∀ value after, before.Passes count after →
      (before.scope.Formed → holds before.scope.pending value) →
        (next value).Meets after cut meets) :
    Meets (action >>= next) parser cut meets := by
  apply Ends.bind first fun _ _ => id
  intro value after ⟨passes', given⟩
  rw [passes.scope] at given
  exact second value after (passes.trans passes') given

/-- A reader as the last step, after steps that have only taken tokens off the stream. -/
theorem Gives.after {action : Parse α} {holds : List String → α → Prop} {before parser : Parser}
    {count : Nat} (last : action.Gives holds parser cut) (passes : before.Passes count parser) :
    action.Meets parser cut fun value after =>
      before.Passes 0 after ∧ (before.scope.Formed → holds before.scope.pending value) := by
  apply Ends.imp last _ fun _ _ => id
  intro value after ⟨passes', given⟩
  rw [passes.scope] at given
  exact ⟨(passes.trans passes').less (Nat.zero_le _), given⟩

/-- A value that is given at the end, after steps that have only taken tokens off the stream. -/
theorem Gives.pure {value : α} {holds : List String → α → Prop} {before parser : Parser}
    {count : Nat} (passes : before.Passes count parser)
    (given : before.scope.Formed → holds before.scope.pending value) :
    Meets (Pure.pure value) parser cut fun value after =>
      before.Passes 0 after ∧ (before.scope.Formed → holds before.scope.pending value) :=
  Ends.pure ⟨passes.less (Nat.zero_le _), given⟩

/-- Members whose types may be written while names are being declared. -/
def WrittenMembers (pending : List String) (members : List (String × Ty)) : Prop :=
  ∀ member ∈ members, member.2.Written pending

/-- A name stands for a type that may be written there. -/
theorem written_of_resolve? {scope : Scope} (formed : scope.Formed) {name : String} {type : Ty}
    (found : scope.resolve? name = some type) : type.Written scope.pending := by
  unfold Scope.resolve? at found
  split at found
  · rename_i isPending
    cases found
    exact ⟨by simpa [Ty.isClosedUnder] using isPending, rfl, fun recursive => absurd rfl recursive⟩
  · exact .of_proper (formed name type found)

/-- The name of a type. -/
theorem gives_readTypeName (before : Parser) : readTypeName.Gives Ty.Written before cut := by
  apply Meets.expect (by decide) (.refl before)
  intro token parser passes
  split
  · exact Gives.pure passes fun _ => .of_proper ⟨rfl, rfl⟩
  · exact Gives.pure passes fun _ => .of_proper ⟨rfl, rfl⟩
  · apply Ends.get
    split
    · rename_i type found
      rw [passes.scope] at found
      exact Gives.pure passes fun formed => written_of_resolve? formed found
    · exact .fail trivial

/-- What all readers of types meet with an allowance. The rank of a reader says how many calls can
be nested in it before a token is taken. -/
structure ReadTypes (grammar : Grammar) (cut : Prop) (fuel : Nat) : Prop where
  /-- A type. -/
  type : ∀ {before : Parser}, before.Affords cut fuel 3 →
    (readType grammar fuel).Gives Ty.Written before cut
  /-- A type of a known form. -/
  form : ∀ {before : Parser} (form : TypeForm), before.Affords cut fuel 2 →
    (readTypeForm grammar fuel form).Gives Ty.Written before cut
  /-- The properties of an object type. -/
  properties : ∀ {before : Parser}, before.Affords cut fuel 1 →
    (readPropertyTypes grammar fuel).Gives WrittenMembers before cut
  /-- Parameters between parentheses. -/
  parameters : ∀ {before : Parser}, before.Affords cut fuel 1 →
    (readParameters grammar fuel).Gives WrittenMembers before cut
  /-- Parameters up to the closing parenthesis. -/
  parameterList : ∀ {before : Parser}, before.Affords cut fuel 1 →
    (readParameterList grammar fuel).Gives WrittenMembers before cut

namespace ReadTypes

variable {grammar : Grammar} {fuel : Nat} {before : Parser}

/-- Without an allowance all readers are cut short. -/
theorem zero (grammar : Grammar) (cut : Prop) : ReadTypes grammar cut 0 where
  type affords := by
    rw [readType]
    exact Ends.exhausted affords.allowed
  form _ affords := by
    rw [readTypeForm]
    exact Ends.exhausted affords.allowed
  properties affords := by
    rw [readPropertyTypes]
    exact Ends.exhausted affords.allowed
  parameters affords := by
    rw [readParameters]
    exact Ends.exhausted affords.allowed
  parameterList affords := by
    rw [readParameterList]
    exact Ends.exhausted affords.allowed

/-- A type, if nested readers meet their conditions. -/
theorem gives_readType (nested : ReadTypes grammar cut fuel)
    (affords : before.Affords cut (fuel + 1) 3) :
    (readType grammar (fuel + 1)).Gives Ty.Written before cut := by
  have passes := Parser.Passes.refl before
  rw [readType]
  apply Ends.current
  split
  · exact nested.form _ (affords.step passes.toReads (by decide))
  · exact .unexpected trivial

/-- A type of a known form, if nested readers meet their conditions. -/
theorem gives_readTypeForm (nested : ReadTypes grammar cut fuel) (form : TypeForm)
    (affords : before.Affords cut (fuel + 1) 2) :
    (readTypeForm grammar (fuel + 1) form).Gives Ty.Written before cut := by
  have passes := Parser.Passes.refl before
  cases form with
  | name =>
    rw [readTypeForm]
    exact gives_readTypeName before
  | function =>
    rw [readTypeForm]
    apply (nested.parameters (affords.step passes.toReads (by decide))).bind passes
    intro parameters parser passes inParameters
    apply Meets.expectFor (by decide) passes
    intro _ parser passes
    apply (nested.type (affords.step passes.toReads (by decide))).bind passes
    intro result parser passes inResult
    exact Gives.pure passes fun formed => .function (inParameters formed) (inResult formed)
  | object =>
    rw [readTypeForm]
    apply Meets.expect (by decide) passes
    intro _ parser passes
    apply (nested.properties (affords.step passes.toReads (by decide))).bind passes
    intro properties parser passes inProperties
    apply Meets.expect (by decide) passes
    intro _ parser passes
    exact Gives.pure passes fun formed => .object (inProperties formed)

/-- The properties of an object type, if nested readers meet their conditions. -/
theorem gives_readPropertyTypes (nested : ReadTypes grammar cut fuel)
    (affords : before.Affords cut (fuel + 1) 1) :
    (readPropertyTypes grammar (fuel + 1)).Gives WrittenMembers before cut := by
  have passes := Parser.Passes.refl before
  rw [readPropertyTypes]
  apply Ends.nextIs
  split
  · exact Gives.pure passes fun _ => List.forall_mem_nil _
  · apply Meets.expectFor (by decide) passes
    intro name parser passes
    apply Meets.expect (by decide) passes
    intro _ parser passes
    apply (nested.type (affords.step passes.toReads (by decide))).bind passes
    intro type parser passes inType
    apply Ends.nextIs
    apply Ends.nextIs
    split
    · rename_i isSeparator
      have more : parser.stream.current.kind ≠ .eof := by
        intro isEnd
        rw [isEnd] at isSeparator
        cases isSeparator
      apply Meets.skip passes more
      intro parser passes
      apply (nested.properties (affords.step passes.toReads (by decide))).bind passes
      intro rest parser passes inRest
      exact Gives.pure passes fun formed => List.forall_mem_cons.2 ⟨inType formed, inRest formed⟩
    · exact Gives.pure passes fun formed => List.forall_mem_singleton.2 (inType formed)

/-- Parameters between parentheses, if nested readers meet their conditions. -/
theorem gives_readParameters (nested : ReadTypes grammar cut fuel)
    (affords : before.Affords cut (fuel + 1) 1) :
    (readParameters grammar (fuel + 1)).Gives WrittenMembers before cut := by
  have passes := Parser.Passes.refl before
  rw [readParameters]
  apply Meets.expect (by decide) passes
  intro _ parser passes
  apply (nested.parameterList (affords.step passes.toReads (by decide))).bind passes
  intro parameters parser passes inParameters
  apply Meets.expect (by decide) passes
  intro _ parser passes
  exact Gives.pure passes inParameters

/-- Parameters up to the closing parenthesis, if nested readers meet their conditions. -/
theorem gives_readParameterList (nested : ReadTypes grammar cut fuel)
    (affords : before.Affords cut (fuel + 1) 1) :
    (readParameterList grammar (fuel + 1)).Gives WrittenMembers before cut := by
  have passes := Parser.Passes.refl before
  rw [readParameterList]
  apply Ends.nextIs
  split
  · exact Gives.pure passes fun _ => List.forall_mem_nil _
  · apply Meets.expectFor (by decide) passes
    intro name parser passes
    apply Meets.expectFor (by decide) passes
    intro _ parser passes
    apply (nested.type (affords.step passes.toReads (by decide))).bind passes
    intro type parser passes inType
    apply Ends.nextIs
    split
    · rename_i isComma
      apply Meets.skip passes (TokenStream.more_of_isKind isComma (by decide))
      intro parser passes
      apply (nested.parameterList (affords.step passes.toReads (by decide))).bind passes
      intro rest parser passes inRest
      exact Gives.pure passes fun formed => List.forall_mem_cons.2 ⟨inType formed, inRest formed⟩
    · exact Gives.pure passes fun formed => List.forall_mem_singleton.2 (inType formed)

end ReadTypes

/-- Readers of types meet their conditions, with any allowance. -/
theorem readTypes (grammar : Grammar) (cut : Prop) (fuel : Nat) : ReadTypes grammar cut fuel := by
  induction fuel with
  | zero => exact .zero grammar cut
  | succ fuel nested =>
    exact ⟨nested.gives_readType, nested.gives_readTypeForm, nested.gives_readPropertyTypes,
      nested.gives_readParameters, nested.gives_readParameterList⟩

end Parse

end Equirec
