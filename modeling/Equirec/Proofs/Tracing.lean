import Equirec.Proofs.Outcomes

/-!
# What actions take off the stream

An action takes tokens off a stream that ends in the mark of the end, and never the mark itself.
`Parse.Tracks` says what it takes: with a value, tokens of a certain language; with a fault that
refuses the next token, tokens that can be completed to some of the language, and not without at
least one more token. Such languages are passed along from action to action by what is still missing
(`Parse.Fills.bind`).
-/
namespace Equirec

/-- Whether a cause refuses the next token. -/
def Cause.isUnexpected : Cause → Bool
  | .unexpectedToken _ | .unexpectedTokenDetailed .. => true
  | _ => false

namespace Parser

/-- Whether the tokens of a parser end in the mark of the end. -/
def Closed (parser : Parser) : Prop :=
  ∃ front stop, parser.stream.upcoming = front ++ [stop] ∧ stop.kind = .eof

/-- A parser whose tokens end in the mark of the end has a next token, and when that is something
else it may be taken. -/
theorem Closed.exists_cons {parser : Parser} (closed : parser.Closed) :
    ∃ rest, parser.stream.upcoming = parser.stream.current :: rest ∧
      (parser.stream.current.kind ≠ .eof →
        parser.advanced.stream.upcoming = rest ∧ parser.advanced.Closed) := by
  obtain ⟨front, stop, upcoming, isEnd⟩ := closed
  obtain _ | ⟨token, rest⟩ := front
  · have isCurrent : parser.stream.current = stop := Parse.Gets.current_eq upcoming
    exact ⟨[], isCurrent ▸ upcoming, fun more => absurd (isCurrent ▸ isEnd) more⟩
  · have isCurrent : parser.stream.current = token := Parse.Gets.current_eq upcoming
    have taken := Parse.Gets.upcoming_advanced upcoming
    exact ⟨rest ++ [stop], isCurrent ▸ upcoming, fun _ => ⟨taken, rest, stop, taken, isEnd⟩⟩

end Parser

namespace Parse

variable {α β : Type} {action : Parse α} {next : α → Parse β} {before : Parser} {scope : Scope}
  {kept kept' : Scope → Prop}

/-- What an action takes off the stream, together with its value. -/
structure Takes (before : Parser) (taken : List Token) (after : Parser) : Prop where
  /-- The tokens that are taken. -/
  upcoming : before.stream.upcoming = taken ++ after.stream.upcoming
  /-- The stream still ends in the mark of the end. -/
  closed : after.Closed

/-- Whether an action takes tokens of a language off a stream that ends in the mark of the end, and
leaves the names of types as they should be. Where it refuses the next token, what it has taken can
be completed, but is not complete. -/
def Tracks (action : Parse α) (before : Parser) (kept : Scope → Prop)
    (phrase : α → List Token → Prop) : Prop :=
  before.Closed → action.Ends before
    (fun value after => ∃ taken, Takes before taken after ∧ kept after.scope ∧
      phrase value taken)
    fun fault after => fault.cause.isUnexpected = true → ∃ taken, Takes before taken after ∧
      fault.offset = after.stream.current.span.start ∧
        ∃ value more, more ≠ [] ∧ phrase value (taken ++ more)

/-- Whether an action takes tokens of a language off the stream that is not empty. -/
structure Fills (action : Parse α) (before : Parser) (kept : Scope → Prop)
    (phrase : α → List Token → Prop) : Prop where
  /-- There are tokens of the language. -/
  inhabited : ∃ value tokens, phrase value tokens
  /-- The action takes such tokens. -/
  tracks : action.Tracks before kept phrase

namespace Takes

variable {first second third : Parser} {taken more : List Token}

/-- No tokens are taken. -/
theorem refl (closed : first.Closed) : Takes first [] first :=
  ⟨rfl, closed⟩

/-- Tokens are taken one after the other. -/
theorem trans (takes : Takes first taken second) (takes' : Takes second more third) :
    Takes first (taken ++ more) third :=
  ⟨by rw [takes.upcoming, takes'.upcoming, List.append_assoc], takes'.closed⟩

/-- The first of the tokens that are taken is the next one. -/
theorem head_eq (takes : Takes first taken second) {token : Token} (isHead : token ∈ taken.head?) :
    token = first.stream.current := by
  obtain _ | ⟨head, rest⟩ := taken
  · cases isHead
  · cases isHead
    exact (Gets.current_eq takes.upcoming).symm

end Takes

namespace Tracks

variable {phrase : α → List Token → Prop}

/-- A language may be replaced by a larger one. -/
theorem imp {phrase' : α → List Token → Prop} (tracks : action.Tracks before kept phrase)
    (larger : ∀ value tokens, phrase value tokens → phrase' value tokens) :
    action.Tracks before kept phrase' := by
  intro closed
  apply (tracks closed).imp
  · rintro value after ⟨taken, takes, isKept, isPhrase⟩
    exact ⟨taken, takes, isKept, larger value taken isPhrase⟩
  · rintro fault after refused isUnexpected
    obtain ⟨taken, takes, place, value, more, isMore, isPhrase⟩ := refused isUnexpected
    exact ⟨taken, takes, place, value, more, isMore, larger value _ isPhrase⟩

/-- One action and then another, which takes what is missing after the first. What the first one
leaves unfinished must be possible to finish. -/
theorem bind {phrase' : β → List Token → Prop}
    (first : action.Tracks before kept phrase)
    (finish : ∀ taken value more, more ≠ [] → phrase value (taken ++ more) →
      ∃ value' more', more' ≠ [] ∧ phrase' value' (taken ++ more'))
    (second : ∀ value taken after, phrase value taken → kept after.scope →
      (next value).Tracks after kept' fun value' more => phrase' value' (taken ++ more)) :
    Tracks (action >>= next) before kept' phrase' := by
  intro closed
  apply (first closed).bind
  · rintro fault after refused isUnexpected
    obtain ⟨taken, takes, place, value, more, isMore, isPhrase⟩ := refused isUnexpected
    exact ⟨taken, takes, place, finish taken value more isMore isPhrase⟩
  · rintro value middle ⟨taken, takes, isScope, isPhrase⟩
    apply (second value taken middle isPhrase isScope takes.closed).imp
    · rintro value' after ⟨more, takes', isKept, isPhrase'⟩
      exact ⟨taken ++ more, takes.trans takes', isKept, isPhrase'⟩
    · rintro fault after refused isUnexpected
      obtain ⟨more, takes', place, value', rest, isRest, isPhrase'⟩ := refused isUnexpected
      refine ⟨taken ++ more, takes.trans takes', place, value', rest, isRest, ?_⟩
      rw [List.append_assoc]
      exact isPhrase'

/-- A value at once. -/
theorem pure {value : α} (isKept : kept before.scope) (isPhrase : phrase value []) :
    Tracks (Pure.pure value) before kept phrase :=
  fun closed => .pure ⟨[], .refl closed, isKept, isPhrase⟩

/-- An action that behaves as another does. -/
theorem of_run {other : Parse α} (tracks : other.Tracks before kept phrase)
    (same : action.run.run before = other.run.run before) : action.Tracks before kept phrase :=
  fun closed => (tracks closed).of_run same

/-- Looking at the whole parser. -/
theorem get {next : Parser → Parse α} (second : (next before).Tracks before kept phrase) :
    Tracks (MonadState.get >>= next) before kept phrase :=
  second.of_run rfl

/-- A fault that does not refuse the next token. -/
theorem fail {cause : Cause} {offset : Offset} (other : cause.isUnexpected = false) :
    Tracks (Parse.fail cause offset) before kept phrase := by
  intro closed
  apply Ends.fail
  intro isUnexpected
  rw [other] at isUnexpected
  cases isUnexpected

end Tracks

namespace Fills

variable {phrase : α → List Token → Prop} {phrase' : β → List Token → Prop}

/-- A language may be replaced by a larger one. -/
theorem imp {larger : α → List Token → Prop} (fills : action.Fills before kept phrase)
    (given : ∀ value tokens, phrase value tokens → larger value tokens) :
    action.Fills before kept larger := by
  obtain ⟨⟨value, tokens, isPhrase⟩, tracks⟩ := fills
  exact ⟨⟨value, tokens, given value tokens isPhrase⟩, tracks.imp given⟩

/-- One action and then another, which takes what is missing after the first. -/
theorem bind (first : action.Fills before (· = scope) phrase)
    (second : ∀ value taken after, phrase value taken → after.scope = scope →
      (next value).Fills after kept fun value' more => phrase' value' (taken ++ more)) :
    Fills (action >>= next) before kept phrase' where
  inhabited := by
    obtain ⟨value, taken, isPhrase⟩ := first.inhabited
    obtain ⟨value', more, isPhrase'⟩ :=
      (second value taken { before with scope := scope } isPhrase rfl).inhabited
    exact ⟨value', taken ++ more, isPhrase'⟩
  tracks := by
    refine first.tracks.bind ?_ fun value taken after isPhrase isScope =>
      (second value taken after isPhrase isScope).tracks
    intro taken value more isMore isPhrase
    obtain ⟨value', rest, isPhrase'⟩ :=
      (second value _ { before with scope := scope } isPhrase rfl).inhabited
    refine ⟨value', more ++ rest, by simp [isMore], ?_⟩
    rw [← List.append_assoc]
    exact isPhrase'

/-- A value at once. -/
theorem pure {value : α} (isKept : kept before.scope) (isPhrase : phrase value []) :
    Fills (Pure.pure value) before kept phrase where
  inhabited := ⟨value, [], isPhrase⟩
  tracks := .pure isKept isPhrase

/-- An action whose value is made into another. -/
theorem map {change : α → β} (first : action.Fills before kept phrase)
    (given : ∀ value tokens, phrase value tokens → phrase' (change value) tokens) :
    Fills (action >>= fun value => Pure.pure (change value)) before kept phrase' where
  inhabited := by
    obtain ⟨value, tokens, isPhrase⟩ := first.inhabited
    exact ⟨change value, tokens, given value tokens isPhrase⟩
  tracks := by
    apply first.tracks.bind
    · intro taken value more isMore isPhrase
      exact ⟨change value, more, isMore, given value _ isPhrase⟩
    · intro value taken after isPhrase isKept
      refine .pure isKept ?_
      rw [List.append_nil]
      exact given value taken isPhrase

/-- An action whose allowance is used up. -/
theorem exhausted (inhabited : ∃ value tokens, phrase value tokens) :
    Fills Parse.exhausted before kept phrase :=
  ⟨inhabited, fun _ => .exhausted trivial⟩

/-- An action that behaves as another does. -/
theorem of_run {other : Parse α} (fills : other.Fills before kept phrase)
    (same : action.run.run before = other.run.run before) : action.Fills before kept phrase :=
  ⟨fills.inhabited, fills.tracks.of_run same⟩

/-- A fault at the next token, where some tokens are missing. -/
theorem refuse {cause : Cause} (missing : ∃ value tokens, tokens ≠ [] ∧ phrase value tokens) :
    Fills (Parse.fail cause before.stream.current.span.start) before kept phrase where
  inhabited := by
    obtain ⟨value, tokens, -, isPhrase⟩ := missing
    exact ⟨value, tokens, isPhrase⟩
  tracks closed := .fail fun _ => ⟨[], .refl closed, rfl, missing⟩

/-- Refusing the next token, where some tokens are missing. -/
theorem unexpected (missing : ∃ value tokens, tokens ≠ [] ∧ phrase value tokens) :
    Fills Parse.unexpected before kept phrase :=
  (refuse missing).of_run rfl

/-- Refusing the next token with a detail, where some tokens are missing. -/
theorem unexpectedFor {detail : String}
    (missing : ∃ value tokens, tokens ≠ [] ∧ phrase value tokens) :
    Fills (Parse.unexpectedFor detail) before kept phrase :=
  (refuse missing).of_run rfl

/-- A fault that does not refuse the next token. -/
theorem fail {cause : Cause} {offset : Offset} (other : cause.isUnexpected = false)
    (inhabited : ∃ value tokens, phrase value tokens) :
    Fills (Parse.fail cause offset) before kept phrase :=
  ⟨inhabited, .fail other⟩

/-- Looking at the next token. -/
theorem current {next : Token → Parse β}
    (second : (next before.stream.current).Fills before kept phrase') :
    Fills (Parse.current >>= next) before kept phrase' :=
  second.of_run rfl

/-- Asking for the kind of the next token. -/
theorem nextIs {kind : Token.Kind} {next : Bool → Parse β}
    (second : (next (before.stream.current.kind == kind)).Fills before kept phrase') :
    Fills (Parse.nextIs kind >>= next) before kept phrase' :=
  second.of_run rfl

/-- Looking further ahead. -/
theorem peekKind {ahead : Nat} {next : Token.Kind → Parse β}
    (second : (next (before.stream.peek ahead).kind).Fills before kept phrase') :
    Fills (Parse.peekKind ahead >>= next) before kept phrase' :=
  second.of_run rfl

/-- Looking where the token taken last ended. -/
theorem spanFrom {start : Offset} {next : Span → Parse β}
    (second : (next ⟨start, before.stream.passed⟩).Fills before kept phrase') :
    Fills (Parse.spanFrom start >>= next) before kept phrase' :=
  second.of_run rfl

/-- Taking the next token, which is not the mark of the end. -/
theorem advance_of_more (isScope : before.scope = scope)
    (more : before.stream.current.kind ≠ .eof) :
    Parse.advance.Fills before (· = scope) fun token taken =>
      token = before.stream.current ∧ taken = [token] where
  inhabited := ⟨_, _, rfl, rfl⟩
  tracks closed := by
    obtain ⟨rest, upcoming, taken⟩ := closed.exists_cons
    obtain ⟨taken, closed⟩ := taken more
    have takes : Takes before [before.stream.current] before.advanced :=
      ⟨by rw [upcoming, taken]; rfl, closed⟩
    exact .of_ok rfl ⟨[before.stream.current], takes, isScope, rfl, rfl⟩

/-- Taking the next token, where it is not the mark of the end. -/
theorem advance {next : Token → Parse β} (isScope : before.scope = scope)
    (more : before.stream.current.kind ≠ .eof)
    (second : ∀ after, after.scope = scope →
      (next before.stream.current).Fills after kept fun value rest =>
        phrase' value (before.stream.current :: rest)) :
    Fills (Parse.advance >>= next) before kept phrase' := by
  apply (advance_of_more isScope more).bind
  rintro _ _ after ⟨rfl, rfl⟩ isScope
  exact second after isScope

/-- Dropping the next token, where it is not the mark of the end. -/
theorem skip {next : Unit → Parse β} (isScope : before.scope = scope)
    (more : before.stream.current.kind ≠ .eof)
    (second : ∀ after, after.scope = scope →
      (next ()).Fills after kept fun value rest =>
        phrase' value (before.stream.current :: rest)) :
    Fills (Parse.skip >>= next) before kept phrase' := by
  have dropped : Fills (Parse.advance >>= fun _ => next ()) before kept phrase' :=
    advance isScope more second
  exact dropped.of_run rfl

/-- The token that is taken when it must be of a kind, if something is missing otherwise. -/
theorem takeOr {kind : Token.Kind} {otherwise : Parse Token} (isScope : before.scope = scope)
    (noEnd : kind ≠ .eof)
    (refuses : otherwise.Fills before (· = scope) fun token taken =>
      token.kind = kind ∧ taken = [token]) :
    (Parse.takeOr kind otherwise).Fills before (· = scope) fun token taken =>
      token.kind = kind ∧ taken = [token] := by
  apply nextIs
  split
  · rename_i isKind
    apply (advance_of_more isScope (by rw [eq_of_beq isKind]; exact noEnd)).imp
    rintro _ _ ⟨rfl, rfl⟩
    exact ⟨eq_of_beq isKind, rfl⟩
  · exact refuses

/-- The token that is taken when it must be of a kind. -/
theorem of_expect {kind : Token.Kind} (isScope : before.scope = scope) (noEnd : kind ≠ .eof) :
    (Parse.expect kind).Fills before (· = scope) fun token taken =>
      token.kind = kind ∧ taken = [token] :=
  takeOr isScope noEnd (unexpected ⟨⟨kind, "", default⟩, _, List.cons_ne_nil _ _, rfl, rfl⟩)

/-- Taking the next token, which must be of a kind. -/
theorem expect {kind : Token.Kind} {next : Token → Parse β} (isScope : before.scope = scope)
    (noEnd : kind ≠ .eof)
    (second : ∀ token after, token.kind = kind → after.scope = scope →
      (next token).Fills after kept fun value rest => phrase' value (token :: rest)) :
    Fills (Parse.expect kind >>= next) before kept phrase' := by
  apply (of_expect isScope noEnd).bind
  rintro token _ after ⟨isKind, rfl⟩ isScope
  exact second token after isKind isScope

/-- Taking the next token, which must be of a kind, where a detail is at hand. -/
theorem expectFor {kind : Token.Kind} {detail : String} {next : Token → Parse β}
    (isScope : before.scope = scope) (noEnd : kind ≠ .eof)
    (second : ∀ token after, token.kind = kind → after.scope = scope →
      (next token).Fills after kept fun value rest => phrase' value (token :: rest)) :
    Fills (Parse.expectFor kind detail >>= next) before kept phrase' := by
  have taken : (Parse.expectFor kind detail).Fills before (· = scope) fun token taken =>
      token.kind = kind ∧ taken = [token] :=
    takeOr isScope noEnd (unexpectedFor ⟨⟨kind, "", default⟩, _, List.cons_ne_nil _ _, rfl, rfl⟩)
  apply taken.bind
  rintro token _ after ⟨isKind, rfl⟩ isScope
  exact second token after isKind isScope

/-- Changing the names of types. -/
theorem changeScope {change : Parser → Parser} {next : Unit → Parse β}
    (same : (change before).stream = before.stream)
    (second : (next ()).Fills (change before) kept phrase') :
    Fills (modify change >>= next) before kept phrase' where
  inhabited := second.inhabited
  tracks := by
    have closed_iff : (change before).Closed ↔ before.Closed := by
      rw [Parser.Closed, same, Parser.Closed]
    have takes_of : ∀ {taken after}, Takes (change before) taken after →
        Takes before taken after := fun takes => ⟨same ▸ takes.upcoming, takes.closed⟩
    intro closed
    apply Ends.change
    apply (second.tracks (closed_iff.2 closed)).imp
    · rintro value after ⟨taken, takes, given⟩
      exact ⟨taken, takes_of takes, given⟩
    · rintro fault after refused isUnexpected
      obtain ⟨taken, takes, given⟩ := refused isUnexpected
      exact ⟨taken, takes_of takes, given⟩

/-- Types declared in an action are forgotten after it. -/
theorem locally (isScope : before.scope = scope)
    (inner : action.Fills before (·.pending = scope.pending) phrase) :
    (Parse.locally action).Fills before (· = scope) phrase where
  inhabited := inner.inhabited
  tracks closed := by
    apply Ends.locally
    apply (inner.tracks closed).imp
    · rintro value after ⟨taken, takes, same, isPhrase⟩
      have restored : after.scope.leave before.scope.aliases = scope := by
        rw [Scope.leave, isScope, same]
      exact ⟨taken, ⟨takes.upcoming, takes.closed⟩, restored, isPhrase⟩
    · rintro fault after refused isUnexpected
      obtain ⟨taken, takes, place, missing⟩ := refused isUnexpected
      exact ⟨taken, ⟨takes.upcoming, takes.closed⟩, place, missing⟩

end Fills

end Parse

end Equirec
