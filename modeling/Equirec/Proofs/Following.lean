import Equirec.Proofs.Tracing

/-!
# Two runs that share tokens

Two parsers may share their next tokens and differ in what follows them. An action that stays within
the shared tokens on one of them is followed by one on the other if that does the same there
(`Parse.Follows`). This is passed along from action to action (`Parse.Follows.bind`), because no
action puts tokens back on the stream: once an action has left the shared tokens, nothing is said of
those after it.
-/
namespace Equirec

/-! ## Parsers that share tokens -/

/-- Whether two parsers have the same tokens to read up to a rest of each, at least one, and know
the same types. -/
structure Parser.Shares (rest rest' : List Token) (left right : Parser) : Prop where
  /-- The tokens that are shared. -/
  upcoming : ∃ token shared, left.stream.upcoming = token :: (shared ++ rest) ∧
    right.stream.upcoming = token :: (shared ++ rest')
  /-- The token taken last ended at the same place. -/
  passed : right.stream.passed = left.stream.passed
  /-- The types. -/
  scope : right.scope = left.scope

/-- Taking a token puts none on the stream. -/
theorem Parser.length_advanced_le (parser : Parser) :
    parser.advanced.stream.upcoming.length ≤ parser.stream.upcoming.length := by
  rw [advanced, TokenStream.advance]
  split
  · exact Nat.le_refl _
  · rename_i upcoming
    rw [upcoming]
    exact Nat.le_succ _

namespace Parser.Shares

variable {rest rest' : List Token} {left right : Parser}

/-- The next token is shared. -/
theorem current_eq (shares : left.Shares rest rest' right) :
    right.stream.current = left.stream.current := by
  obtain ⟨token, shared, upcoming, upcoming'⟩ := shares.upcoming
  rw [Parse.Gets.current_eq upcoming, Parse.Gets.current_eq upcoming']

/-- After the next token is taken others are shared, unless it was the last one. -/
theorem advanced (shares : left.Shares rest rest' right)
    (more : rest.length < left.advanced.stream.upcoming.length) :
    left.advanced.Shares rest rest' right.advanced := by
  obtain ⟨token, shared, upcoming, upcoming'⟩ := shares.upcoming
  have taken : left.stream.advance = ⟨shared ++ rest, left.stream.last, token.span.stop⟩ := by
    rw [TokenStream.advance, upcoming]
  have taken' : right.stream.advance = ⟨shared ++ rest', right.stream.last, token.span.stop⟩ := by
    rw [TokenStream.advance, upcoming']
  rw [Parser.advanced, taken] at more ⊢
  rw [Parser.advanced, taken']
  obtain _ | ⟨next, shared⟩ := shared
  · exact absurd more (Nat.lt_irrefl _)
  · exact ⟨⟨next, shared, rfl, rfl⟩, rfl, shares.scope⟩

/-- The types may be changed in the same way. -/
theorem changeScope (shares : left.Shares rest rest' right) {scope scope' : Scope}
    (same : scope' = scope) :
    Shares rest rest' { left with scope } { right with scope := scope' } :=
  ⟨shares.upcoming, shares.passed, same⟩

end Parser.Shares

namespace Parse

variable {α β : Type} {action action' : Parse α} {next next' : α → Parse β} {left : Parser}
  {rest rest' : List Token} {count fuel : Nat}

/-! ## Tokens left on the stream -/

/-- Whether an action leaves no more than so many tokens on the stream. -/
def LeavesAtMost (count : Nat) (action : Parse α) (before : Parser) : Prop :=
  action.Ends before (fun _ after => after.stream.upcoming.length ≤ count)
    fun _ after => after.stream.upcoming.length ≤ count

/-- Whether an action puts no tokens on the stream. -/
abbrev Shrinks (action : Parse α) (before : Parser) : Prop :=
  LeavesAtMost before.stream.upcoming.length action before

namespace LeavesAtMost

/-- More tokens may be left. -/
theorem mono {more : Nat} (leaves : LeavesAtMost count action left) (fewer : count ≤ more) :
    LeavesAtMost more action left :=
  leaves.imp (fun _ _ few => Nat.le_trans few fewer) fun _ _ few => Nat.le_trans few fewer

/-- One action that leaves few tokens, and then another. -/
theorem bind (first : LeavesAtMost count action left)
    (second : ∀ value middle, Shrinks (next value) middle) :
    LeavesAtMost count (action >>= next) left :=
  Ends.bind first (fun _ _ few => few) fun value middle few => (second value middle).mono few

end LeavesAtMost

/-! ## Following an action -/

/-- Whether an action ends as it did on another parser, unless it uses up its allowance. -/
def Mirrors (rest rest' : List Token) (action : Parse α) (before : Parser)
    (result : Except (Stop Fault) α) (other : Parser) : Prop :=
  (∃ after, action.run.run before = (.error .exhausted, after)) ∨
    ∃ after, action.run.run before = (result, after) ∧ other.Shares rest rest' after

/-- Whether an action that stays within the tokens that a parser shares with any other one is
followed by what another action does there. -/
structure Follows (rest rest' : List Token) (action action' : Parse α) (left : Parser) : Prop where
  /-- No tokens are put on the stream. -/
  shrinks : Shrinks action left
  /-- The other action ends in the same way. -/
  mirrors : ∀ right, left.Shares rest rest' right → action.Ends left
    (fun value after => rest.length < after.stream.upcoming.length →
      Mirrors rest rest' action' right (.ok value) after)
    fun fault after => rest.length < after.stream.upcoming.length →
      Mirrors rest rest' action' right (.error (.fault fault)) after

/-- An action that is not come to after the same fault. -/
theorem Mirrors.bind_of_fault {fault : Fault} {right after : Parser}
    (first : Mirrors rest rest' action right (.error (.fault fault)) after) :
    Mirrors rest rest' (action >>= next) right (.error (.fault fault)) after := by
  obtain ⟨stopped, ended⟩ | ⟨after', ended, shares⟩ := first
  · exact .inl ⟨stopped, run_bind_of_error ended⟩
  · exact .inr ⟨after', run_bind_of_error ended, shares⟩

namespace Follows

/-- One action and then another. -/
theorem bind (first : Follows rest rest' action action' left)
    (second : ∀ value middle, Follows rest rest' (next value) (next' value) middle) :
    Follows rest rest' (action >>= next) (action' >>= next') left where
  shrinks := first.shrinks.bind fun value middle => (second value middle).shrinks
  mirrors right shares := by
    apply (first.mirrors right shares).bind
    · exact fun fault after mirrored more => (mirrored more).bind_of_fault
    · intro value middle mirrored
      have shrinks := (second value middle).shrinks
      -- Where the first action has left the shared tokens, so has the second one.
      by_cases more : rest.length < middle.stream.upcoming.length
      · obtain ⟨stopped, ended⟩ | ⟨middle', ended, shares'⟩ := mirrored more
        · have stops : (action' >>= next').run.run right = (.error .exhausted, stopped) :=
            run_bind_of_error ended
          exact shrinks.imp (fun _ _ _ _ => .inl ⟨stopped, stops⟩)
            fun _ _ _ _ => .inl ⟨stopped, stops⟩
        · have goesOn : (action' >>= next').run.run right = (next' value).run.run middle' :=
            run_bind_of_ok ended
          unfold Mirrors
          rw [goesOn]
          exact (second value middle).mirrors middle' shares'
      · exact shrinks.imp (fun _ _ few more' => absurd (Nat.lt_of_lt_of_le more' few) more)
          fun _ _ few more' => absurd (Nat.lt_of_lt_of_le more' few) more

/-- Actions that behave as others do. -/
theorem of_runs {other other' : Parse α} (follows : Follows rest rest' other other' left)
    (same : action.run.run left = other.run.run left)
    (same' : ∀ right, left.Shares rest rest' right →
      action'.run.run right = other'.run.run right) :
    Follows rest rest' action action' left where
  shrinks := Ends.of_run follows.shrinks same
  mirrors right shares := by
    unfold Mirrors
    rw [same' right shares]
    exact (follows.mirrors right shares).of_run same

/-- An action of which it is known what it gives. -/
theorem of_ok {value : α} {after : Parser} (ended : action.run.run left = (.ok value, after))
    (shorter : after.stream.upcoming.length ≤ left.stream.upcoming.length)
    (mirrored : ∀ right, left.Shares rest rest' right →
      rest.length < after.stream.upcoming.length → ∃ after',
        action'.run.run right = (.ok value, after') ∧ after.Shares rest rest' after') :
    Follows rest rest' action action' left where
  shrinks := .of_ok ended shorter
  mirrors right shares := .of_ok ended fun more => .inr (mirrored right shares more)

/-- A value at once. -/
theorem pure {value : α} : Follows rest rest' (Pure.pure value) (Pure.pure value) left :=
  .of_ok rfl (Nat.le_refl _) fun right shares _ => ⟨right, rfl, shares⟩

/-- A fault at once. -/
theorem fail {cause : Cause} {offset : Offset} :
    Follows rest rest' (Parse.fail cause offset : Parse α) (Parse.fail cause offset) left where
  shrinks := .fail (Nat.le_refl _)
  mirrors right shares := .fail fun _ => .inr ⟨right, rfl, shares⟩

/-- An action whose allowance is used up. -/
theorem exhausted : Follows rest rest' Parse.exhausted action' left where
  shrinks := .exhausted trivial
  mirrors _ _ := .exhausted trivial

/-- An action is followed with any allowance if it is with every allowance but none. -/
theorem of_succ {reader : Nat → Parse α} (none : reader 0 = Parse.exhausted)
    (more : ∀ fuel', Follows rest rest' action (reader (fuel' + 1)) left) (fuel' : Nat) :
    Follows rest rest' action (reader fuel') left := by
  cases fuel' with
  | succ fuel' => exact more fuel'
  | zero =>
    -- The other action stops at once, so only the first one is to be looked at.
    have stops : ∀ right, (reader 0).run.run right = (.error .exhausted, right) := by
      rw [none]
      exact fun _ => rfl
    refine ⟨(more 0).shrinks, fun right _ => ?_⟩
    exact (more 0).shrinks.imp (fun _ _ _ _ => .inl ⟨right, stops right⟩)
      fun _ _ _ _ => .inl ⟨right, stops right⟩

/-- Looking at the next token. -/
theorem current {next next' : Token → Parse α}
    (second : Follows rest rest' (next left.stream.current) (next' left.stream.current) left) :
    Follows rest rest' (Parse.current >>= next) (Parse.current >>= next') left := by
  refine .of_runs second rfl fun right shares => ?_
  rw [← shares.current_eq]
  rfl

/-- Asking for the kind of the next token. -/
theorem nextIs {kind : Token.Kind} {next next' : Bool → Parse α}
    (second : Follows rest rest' (next (left.stream.current.kind == kind))
      (next' (left.stream.current.kind == kind)) left) :
    Follows rest rest' (Parse.nextIs kind >>= next) (Parse.nextIs kind >>= next') left := by
  refine .of_runs second rfl fun right shares => ?_
  rw [← shares.current_eq]
  rfl

/-- Looking at the names of types. -/
theorem get {next next' : Parser → Parse α}
    (second : Follows rest rest' (next left) (next' left) left)
    (same : ∀ right : Parser, right.scope = left.scope → next' right = next' left) :
    Follows rest rest' (MonadState.get >>= next) (MonadState.get >>= next') left := by
  refine .of_runs second rfl fun right shares => ?_
  rw [← same right shares.scope]
  rfl

/-- Looking where the token taken last ended. -/
theorem spanFrom {start : Offset} :
    Follows rest rest' (Parse.spanFrom start) (Parse.spanFrom start) left := by
  refine .of_ok rfl (Nat.le_refl _) fun right shares _ => ⟨right, ?_, shares⟩
  rw [← shares.passed]
  rfl

/-- Taking the next token. -/
theorem advance : Follows rest rest' Parse.advance Parse.advance left := by
  have ended : ∀ parser : Parser,
      Parse.advance.run.run parser = (.ok parser.stream.current, parser.advanced) := fun _ => rfl
  refine .of_ok (ended left) left.length_advanced_le fun right shares more =>
    ⟨right.advanced, ?_, shares.advanced more⟩
  rw [ended, shares.current_eq]

/-- Dropping the next token. -/
theorem skip : Follows rest rest' Parse.skip Parse.skip left :=
  (advance.bind fun _ _ => pure).of_runs rfl fun _ _ => rfl

/-- Refusing the next token. -/
theorem unexpected : Follows rest rest' (Parse.unexpected : Parse α) Parse.unexpected left :=
  .current .fail

/-- Refusing the next token with a detail. -/
theorem unexpectedFor {detail : String} :
    Follows rest rest' (Parse.unexpectedFor detail : Parse α) (Parse.unexpectedFor detail) left :=
  .current .fail

/-- Taking the next token, which must be of a kind, if what is done otherwise is followed. -/
theorem takeOr {kind : Token.Kind} {otherwise : Parse Token}
    (refuses : Follows rest rest' otherwise otherwise left) :
    Follows rest rest' (Parse.takeOr kind otherwise) (Parse.takeOr kind otherwise) left := by
  apply nextIs
  split
  · exact advance
  · exact refuses

/-- Taking the next token, which must be of a kind. -/
theorem expect {kind : Token.Kind} :
    Follows rest rest' (Parse.expect kind) (Parse.expect kind) left :=
  takeOr unexpected

/-- Taking the next token, which must be of a kind, where a detail is at hand. -/
theorem expectFor {kind : Token.Kind} {detail : String} :
    Follows rest rest' (Parse.expectFor kind detail) (Parse.expectFor kind detail) left :=
  takeOr unexpectedFor

/-- Changing the names of types. -/
theorem changeScope {change : Parser → Parser} (renew : Scope → Scope)
    (changed : ∀ parser, change parser = { parser with scope := renew parser.scope }) :
    Follows rest rest' (modify change) (modify change) left := by
  have ended : ∀ parser, (modify change : Parse Unit).run.run parser = (.ok (), change parser) :=
    fun _ => rfl
  simp only [changed] at ended
  refine .of_ok (ended left) (Nat.le_refl _) fun right shares _ => ⟨_, ended right, ?_⟩
  exact shares.changeScope (by rw [shares.scope])

/-- Types declared in an action are forgotten after it. -/
theorem locally (inner : Follows rest rest' action action' left) :
    Follows rest rest' (Parse.locally action) (Parse.locally action') left where
  shrinks := .locally inner.shrinks
  mirrors right shares := by
    have restored : ∀ parser, (Parse.locally action').run.run parser =
        ((action'.run.run parser).1, { (action'.run.run parser).2 with
          scope := (action'.run.run parser).2.scope.leave parser.scope.aliases }) := fun _ => rfl
    have mirrored : ∀ result after, Mirrors rest rest' action' right result after →
        Mirrors rest rest' (Parse.locally action') right result
          { after with scope := after.scope.leave left.scope.aliases } := by
      rintro result after (⟨stopped, ended⟩ | ⟨after', ended, shares'⟩)
      · exact .inl ⟨_, by rw [restored, ended]⟩
      · refine .inr ⟨_, by rw [restored, ended], shares'.changeScope ?_⟩
        rw [shares.scope, shares'.scope]
    apply Ends.locally
    exact (inner.mirrors right shares).imp
      (fun value after mirror more => mirrored (.ok value) after (mirror more))
      fun fault after mirror more => mirrored (.error (.fault fault)) after (mirror more)

end Follows

end Parse

end Equirec
