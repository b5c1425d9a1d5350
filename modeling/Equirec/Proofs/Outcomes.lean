import Equirec.Parser

/-!
# How actions of a parser end

An action of a parser gives a value, refuses its input with a fault, or uses up its allowance. A
condition on how it ends says what holds in the first two cases and whether the third one may come
about (`Parse.Ends`), and is passed along from action to action (`Parse.Ends.bind`). All that is
said of readers in this library is said by such conditions.

Where the tokens that are to be read are known, an action is followed through them by
`Parse.Gets`: it does not fault, and it leaves certain tokens and names of types.
-/
namespace Equirec

/-- The parser that has taken the next token. -/
def Parser.advanced (parser : Parser) : Parser :=
  { parser with stream := parser.stream.advance }

namespace Parse

variable {α β : Type} {action : Parse α} {next : α → Parse β} {before : Parser}

/-- Takes the next token, which must be of a kind, and does something else where it is not. This is
what `expect` and `expectFor` have in common. -/
def takeOr (kind : Token.Kind) (otherwise : Parse Token) : Parse Token := do
  if ← nextIs kind then advance else otherwise

/-! ## Conditions on how an action ends -/

/-- After a value of the first action the second one goes on. -/
theorem run_bind_of_ok {value : α} {middle : Parser}
    (ended : action.run.run before = (.ok value, middle)) :
    (action >>= next).run.run before = (next value).run.run middle := by
  have sequenced : (action >>= next).run.run before =
      (ExceptT.bindCont next (action.run.run before).1 : StateM Parser _)
        (action.run.run before).2 := rfl
  rw [sequenced, ended]
  rfl

/-- A stop of the first action is one of both. -/
theorem run_bind_of_error {stop : Stop Fault} {middle : Parser}
    (ended : action.run.run before = (.error stop, middle)) :
    (action >>= next).run.run before = (.error stop, middle) := by
  have sequenced : (action >>= next).run.run before =
      (ExceptT.bindCont next (action.run.run before).1 : StateM Parser _)
        (action.run.run before).2 := rfl
  rw [sequenced, ended]
  rfl

/-- An action that gives a value after another has gone on from the value of that. -/
theorem bind_eq_ok {value : β} {after : Parser}
    (ended : (action >>= next).run.run before = (.ok value, after)) :
    ∃ middle parser, action.run.run before = (.ok middle, parser) ∧
      (next middle).run.run parser = (.ok value, after) := by
  rcases whole : action.run.run before with ⟨stop | middle, parser⟩
  · rw [run_bind_of_error whole] at ended
    cases ended
  · rw [run_bind_of_ok whole] at ended
    exact ⟨middle, parser, rfl, ended⟩

/-- An action that faults after another does so by itself, or has gone on from a value. -/
theorem bind_eq_error {stop : Stop Fault} {after : Parser}
    (ended : (action >>= next).run.run before = (.error stop, after)) :
    action.run.run before = (.error stop, after) ∨
      ∃ middle parser, action.run.run before = (.ok middle, parser) ∧
        (next middle).run.run parser = (.error stop, after) := by
  rcases whole : action.run.run before with ⟨stop | middle, parser⟩
  · rw [run_bind_of_error whole] at ended
    cases ended
    exact .inl rfl
  · rw [run_bind_of_ok whole] at ended
    exact .inr ⟨middle, parser, rfl, ended⟩

/-- Taking the next token where it is of a kind, and doing something else where it is not. -/
theorem run_takeOr (kind : Token.Kind) (otherwise : Parse Token) (before : Parser) :
    (takeOr kind otherwise).run.run before =
      if before.stream.current.kind = kind then (.ok before.stream.current, before.advanced)
      else otherwise.run.run before := by
  have same : (takeOr kind otherwise).run.run before =
      (if (before.stream.current.kind == kind) = true then advance
        else otherwise : Parse Token).run.run before := rfl
  rw [same]
  by_cases isKind : before.stream.current.kind = kind
  · rw [if_pos isKind, if_pos (beq_iff_eq.2 isKind)]
    rfl
  · rw [if_neg isKind, if_neg (mt eq_of_beq isKind)]

/-- What holds of the value that an action gives, and of its fault, with the parser that it leaves.
The action may use up its allowance only where it may be cut short; nothing more is said then. -/
structure Ends (action : Parse α) (before : Parser) (gives : α → Parser → Prop)
    (refuses : Fault → Parser → Prop) (cut : Prop := True) : Prop where
  /-- What holds of a value. -/
  gives : ∀ value after, action.run.run before = (.ok value, after) → gives value after
  /-- What holds of a fault. -/
  refuses : ∀ fault after, action.run.run before = (.error (.fault fault), after) →
    refuses fault after
  /-- Where the allowance is used up, that may be so. -/
  exhausts : ∀ after, action.run.run before = (.error .exhausted, after) → cut

namespace Ends

variable {gives : α → Parser → Prop} {gives' : β → Parser → Prop}
  {refuses refuses' : Fault → Parser → Prop} {cut : Prop}

/-! ### Rules for all actions -/

/-- One action and then another, which may rely on what the first one gives. -/
theorem bind (first : action.Ends before gives refuses cut)
    (refused : ∀ fault after, refuses fault after → refuses' fault after)
    (second : ∀ value after, gives value after → (next value).Ends after gives' refuses' cut) :
    Ends (action >>= next) before gives' refuses' cut where
  gives value after ended := by
    obtain ⟨middle, parser, ended, ended'⟩ := bind_eq_ok ended
    exact (second middle parser (first.gives middle parser ended)).gives value after ended'
  refuses fault after ended := by
    rcases bind_eq_error ended with ended | ⟨middle, parser, ended, ended'⟩
    · exact refused fault after (first.refuses fault after ended)
    · exact (second middle parser (first.gives middle parser ended)).refuses fault after ended'
  exhausts after ended := by
    rcases bind_eq_error ended with ended | ⟨middle, parser, ended, ended'⟩
    · exact first.exhausts after ended
    · exact (second middle parser (first.gives middle parser ended)).exhausts after ended'

/-- Conditions may be replaced by weaker ones. -/
theorem imp {weaker : α → Parser → Prop} (ends : action.Ends before gives refuses cut)
    (given : ∀ value after, gives value after → weaker value after)
    (refused : ∀ fault after, refuses fault after → refuses' fault after) :
    action.Ends before weaker refuses' cut where
  gives value after ended := given value after (ends.gives value after ended)
  refuses fault after ended := refused fault after (ends.refuses fault after ended)
  exhausts := ends.exhausts

/-- An action that behaves as another does. -/
theorem of_run {other : Parse α} (ends : other.Ends before gives refuses cut)
    (same : action.run.run before = other.run.run before) :
    action.Ends before gives refuses cut where
  gives value after ended := ends.gives value after (same ▸ ended)
  refuses fault after ended := ends.refuses fault after (same ▸ ended)
  exhausts after ended := ends.exhausts after (same ▸ ended)

/-- An action of which it is known what it gives. -/
theorem of_ok {value : α} {after : Parser} (ended : action.run.run before = (.ok value, after))
    (given : gives value after) : action.Ends before gives refuses cut where
  gives _ _ ended' := by
    cases ended.symm.trans ended'
    exact given
  refuses _ _ ended' := by cases ended.symm.trans ended'
  exhausts _ ended' := by cases ended.symm.trans ended'

/-- An action of which it is known what it gives, and then another. -/
theorem bind_of_ok {value : α} {middle : Parser}
    (ended : action.run.run before = (.ok value, middle))
    (second : (next value).Ends middle gives' refuses cut) :
    Ends (action >>= next) before gives' refuses cut where
  gives result after ended' := second.gives result after (run_bind_of_ok ended ▸ ended')
  refuses fault after ended' := second.refuses fault after (run_bind_of_ok ended ▸ ended')
  exhausts after ended' := second.exhausts after (run_bind_of_ok ended ▸ ended')

/-- What holds of the end of an action may mention how it came to that end. -/
theorem withRun (ends : action.Ends before gives refuses cut) :
    action.Ends before
      (fun value after => action.run.run before = (.ok value, after) ∧ gives value after)
      (fun fault after =>
        action.run.run before = (.error (.fault fault), after) ∧ refuses fault after) cut where
  gives value after ended := ⟨ended, ends.gives value after ended⟩
  refuses fault after ended := ⟨ended, ends.refuses fault after ended⟩
  exhausts := ends.exhausts

/-- An action that may not be cut short does not use up its allowance. -/
theorem ne_exhausted (ends : action.Ends before gives refuses False) :
    (action.run.run before).1 ≠ .error .exhausted :=
  fun stopped => ends.exhausts _ (Prod.ext stopped rfl)

/-! ### Actions of a parser -/

/-- A value at once. -/
theorem pure {value : α} (given : gives value before) :
    Ends (Pure.pure value) before gives refuses cut :=
  .of_ok rfl given

/-- A fault at once. -/
theorem fail {cause : Cause} {offset : Offset} (refused : refuses ⟨cause, offset⟩ before) :
    Ends (Parse.fail cause offset) before gives refuses cut where
  gives _ _ ended := by cases ended
  refuses _ _ ended := by
    cases ended
    exact refused
  exhausts _ ended := by cases ended

/-- An action whose allowance is used up. -/
theorem exhausted (allowed : cut) : Ends Parse.exhausted before gives refuses cut where
  gives _ _ ended := by cases ended
  refuses _ _ ended := by cases ended
  exhausts _ _ := allowed

/-- Refusing the next token. -/
theorem unexpected
    (refused : refuses ⟨.unexpectedToken before.stream.current.value,
      before.stream.current.span.start⟩ before) :
    Ends Parse.unexpected before gives refuses cut :=
  (Ends.fail refused).of_run rfl

/-- Refusing the next token and saying what is needed instead. -/
theorem unexpectedFor {detail : String}
    (refused : refuses ⟨.unexpectedTokenDetailed before.stream.current.value detail,
      before.stream.current.span.start⟩ before) :
    Ends (Parse.unexpectedFor detail) before gives refuses cut :=
  (Ends.fail refused).of_run rfl

/-- Looking at the next token. -/
theorem current {next : Token → Parse β}
    (second : (next before.stream.current).Ends before gives' refuses cut) :
    Ends (Parse.current >>= next) before gives' refuses cut :=
  second.of_run rfl

/-- Looking further ahead. -/
theorem peekKind {ahead : Nat} {next : Token.Kind → Parse β}
    (second : (next (before.stream.peek ahead).kind).Ends before gives' refuses cut) :
    Ends (Parse.peekKind ahead >>= next) before gives' refuses cut :=
  second.of_run rfl

/-- Asking for the kind of the next token. -/
theorem nextIs {kind : Token.Kind} {next : Bool → Parse β}
    (second : (next (before.stream.current.kind == kind)).Ends before gives' refuses cut) :
    Ends (Parse.nextIs kind >>= next) before gives' refuses cut :=
  second.of_run rfl

/-- Looking where the token taken last ended. -/
theorem spanFrom {start : Offset} {next : Span → Parse β}
    (second : (next ⟨start, before.stream.passed⟩).Ends before gives' refuses cut) :
    Ends (Parse.spanFrom start >>= next) before gives' refuses cut :=
  second.of_run rfl

/-- Looking at the whole parser. -/
theorem get {next : Parser → Parse β} (second : (next before).Ends before gives' refuses cut) :
    Ends (MonadState.get >>= next) before gives' refuses cut :=
  second.of_run rfl

/-- Changing the parser. -/
theorem change {change : Parser → Parser} {next : Unit → Parse β}
    (second : (next ()).Ends (change before) gives' refuses cut) :
    Ends (modify change >>= next) before gives' refuses cut := by
  have changed : (modify change : Parse Unit).run.run before = (.ok (), change before) := rfl
  exact .bind_of_ok changed second

/-- Taking the next token. -/
theorem advance {next : Token → Parse β}
    (second : (next before.stream.current).Ends before.advanced gives' refuses cut) :
    Ends (Parse.advance >>= next) before gives' refuses cut := by
  have taken : Parse.advance.run.run before = (.ok before.stream.current, before.advanced) := rfl
  exact .bind_of_ok taken second

/-- Dropping the next token. -/
theorem skip {next : Unit → Parse β}
    (second : (next ()).Ends before.advanced gives' refuses cut) :
    Ends (Parse.skip >>= next) before gives' refuses cut := by
  have dropped : Parse.skip.run.run before = (.ok (), before.advanced) := rfl
  exact .bind_of_ok dropped second

/-- Taking the next token, which must be of a kind, whatever is done otherwise. -/
theorem takeOr {kind : Token.Kind} {otherwise : Parse Token} {next : Token → Parse β}
    (refused : otherwise.Ends before (fun _ _ => False) refuses cut)
    (second : before.stream.current.kind = kind →
      (next before.stream.current).Ends before.advanced gives' refuses cut) :
    Ends (Parse.takeOr kind otherwise >>= next) before gives' refuses cut := by
  have ended := run_takeOr kind otherwise before
  by_cases isKind : before.stream.current.kind = kind
  · rw [if_pos isKind] at ended
    exact .bind_of_ok ended (second isKind)
  · rw [if_neg isKind] at ended
    apply (refused.of_run ended).bind fun _ _ => id
    exact fun _ _ impossible => impossible.elim

/-- Taking the next token, which must be of a kind, or refusing it. -/
theorem expect {kind : Token.Kind} {next : Token → Parse β}
    (refused : refuses ⟨.unexpectedToken before.stream.current.value,
      before.stream.current.span.start⟩ before)
    (second : before.stream.current.kind = kind →
      (next before.stream.current).Ends before.advanced gives' refuses cut) :
    Ends (Parse.expect kind >>= next) before gives' refuses cut :=
  takeOr (unexpected refused) second

/-- Taking the next token, which must be of a kind, or refusing it and saying what is needed. -/
theorem expectFor {kind : Token.Kind} {detail : String} {next : Token → Parse β}
    (refused : refuses ⟨.unexpectedTokenDetailed before.stream.current.value detail,
      before.stream.current.span.start⟩ before)
    (second : before.stream.current.kind = kind →
      (next before.stream.current).Ends before.advanced gives' refuses cut) :
    Ends (Parse.expectFor kind detail >>= next) before gives' refuses cut :=
  takeOr (unexpectedFor refused) second

/-- Types declared in an action are forgotten after it. -/
theorem locally
    (inner : action.Ends before
      (fun value after =>
        gives value { after with scope := after.scope.leave before.scope.aliases })
      (fun fault after =>
        refuses fault { after with scope := after.scope.leave before.scope.aliases }) cut) :
    (Parse.locally action).Ends before gives refuses cut := by
  have restored : (Parse.locally action).run.run before =
      ((action.run.run before).1, { (action.run.run before).2 with
        scope := (action.run.run before).2.scope.leave before.scope.aliases }) := rfl
  rcases whole : action.run.run before with ⟨result, parser⟩
  rw [whole] at restored
  constructor
  · intro value after ended
    cases restored.symm.trans ended
    exact inner.gives value parser whole
  · intro fault after ended
    cases restored.symm.trans ended
    exact inner.refuses fault parser whole
  · intro after ended
    cases restored.symm.trans ended
    exact inner.exhausts parser whole

end Ends

/-! ## Actions on known tokens -/

/-- Whether an action does not fault on a parser with these tokens to read and these names of types,
and what it gives, leaves to read and leaves of the names is as it should be. -/
def Gets (action : Parse α) (tokens : List Token) (scope : Scope)
    (gets : α → List Token → Scope → Prop) : Prop :=
  ∀ before : Parser, before.stream.upcoming = tokens → before.scope = scope →
    action.Ends before (fun value after => gets value after.stream.upcoming after.scope)
      fun _ _ => False

/-- What an action gives, when it leaves certain tokens and names of types. -/
def Leaves (holds : α → Prop) (rest : List Token) (scope : Scope) (value : α)
    (tokens : List Token) (after : Scope) : Prop :=
  holds value ∧ tokens = rest ∧ after = scope

namespace Gets

variable {tokens rest : List Token} {token : Token} {scope : Scope}
  {gets : α → List Token → Scope → Prop} {gets' : β → List Token → Scope → Prop}

/-- One action and then another, which may rely on what the first one leaves. -/
theorem bindWith (first : action.Gets tokens scope gets)
    (second : ∀ value left names, gets value left names → (next value).Gets left names gets') :
    Gets (action >>= next) tokens scope gets' := by
  intro before upcoming isScope
  apply (first before upcoming isScope).bind fun _ _ impossible => impossible
  intro value after given
  exact second value _ _ given after rfl rfl

/-- One action and then another, where it is known what the first one leaves. -/
theorem bind {holds : α → Prop} {scope' : Scope}
    (first : action.Gets tokens scope (Leaves holds rest scope'))
    (second : ∀ value, holds value → (next value).Gets rest scope' gets') :
    Gets (action >>= next) tokens scope gets' := by
  apply first.bindWith
  rintro value left names ⟨given, rfl, rfl⟩
  exact second value given

/-- A condition may be replaced by a weaker one. -/
theorem imp {weaker : α → List Token → Scope → Prop} (first : action.Gets tokens scope gets)
    (given : ∀ value left names, gets value left names → weaker value left names) :
    action.Gets tokens scope weaker := by
  intro before upcoming isScope
  exact (first before upcoming isScope).imp (fun value after => given value _ _) fun _ _ => id

/-- A value at once. -/
theorem pure {value : α} (given : gets value tokens scope) :
    Gets (Pure.pure value) tokens scope gets := by
  rintro before rfl rfl
  exact .pure given

/-- An action whose allowance is used up. -/
theorem exhausted : Gets Parse.exhausted tokens scope gets :=
  fun _ _ _ => .exhausted trivial

/-- The next token of a parser. -/
theorem current_eq (upcoming : before.stream.upcoming = token :: rest) :
    before.stream.current = token := by
  rw [TokenStream.current, TokenStream.peek, upcoming]
  rfl

/-- The tokens that follow the next token of a parser. -/
theorem upcoming_advanced (upcoming : before.stream.upcoming = token :: rest) :
    before.advanced.stream.upcoming = rest := by
  rw [Parser.advanced, TokenStream.advance, upcoming]

/-- Looking at the next token. -/
theorem current {next : Token → Parse β} (second : (next token).Gets (token :: rest) scope gets') :
    Gets (Parse.current >>= next) (token :: rest) scope gets' := by
  intro before upcoming isScope
  apply Ends.current
  rw [current_eq upcoming]
  exact second before upcoming isScope

/-- Asking for the kind of the next token. -/
theorem nextIs {kind : Token.Kind} {next : Bool → Parse β}
    (second : (next (token.kind == kind)).Gets (token :: rest) scope gets') :
    Gets (Parse.nextIs kind >>= next) (token :: rest) scope gets' := by
  intro before upcoming isScope
  apply Ends.nextIs
  rw [current_eq upcoming]
  exact second before upcoming isScope

/-- Taking the next token. -/
theorem advance {next : Token → Parse β} (second : (next token).Gets rest scope gets') :
    Gets (Parse.advance >>= next) (token :: rest) scope gets' := by
  intro before upcoming isScope
  apply Ends.advance
  rw [current_eq upcoming]
  exact second before.advanced (upcoming_advanced upcoming) isScope

/-- Dropping the next token. -/
theorem skip {next : Unit → Parse β} (second : (next ()).Gets rest scope gets') :
    Gets (Parse.skip >>= next) (token :: rest) scope gets' := by
  intro before upcoming isScope
  exact .skip (second before.advanced (upcoming_advanced upcoming) isScope)

/-- Taking the next token, which is of the kind that is needed, whatever is done otherwise. -/
theorem takeOr {kind : Token.Kind} {otherwise : Parse Token} {next : Token → Parse β}
    (isKind : token.kind = kind) (second : (next token).Gets rest scope gets') :
    Gets (Parse.takeOr kind otherwise >>= next) (token :: rest) scope gets' := by
  have taken : (Parse.takeOr kind otherwise).Gets (token :: rest) scope
      (Leaves (· = token) rest scope) := by
    apply nextIs
    rw [isKind, beq_self_eq_true, if_pos rfl, ← bind_pure Parse.advance]
    exact advance (.pure ⟨rfl, rfl, rfl⟩)
  apply taken.bind
  rintro _ rfl
  exact second

/-- Taking the next token, which is of the kind that is needed. -/
theorem expect {kind : Token.Kind} {next : Token → Parse β} (isKind : token.kind = kind)
    (second : (next token).Gets rest scope gets') :
    Gets (Parse.expect kind >>= next) (token :: rest) scope gets' :=
  takeOr isKind second

/-- Taking the next token, which is of the kind that is needed, where a detail is at hand. -/
theorem expectFor {kind : Token.Kind} {detail : String} {next : Token → Parse β}
    (isKind : token.kind = kind) (second : (next token).Gets rest scope gets') :
    Gets (Parse.expectFor kind detail >>= next) (token :: rest) scope gets' :=
  takeOr isKind second

/-- Looking where the token taken last ended. -/
theorem spanFrom {start : Offset} {next : Span → Parse β}
    (second : ∀ span, (next span).Gets tokens scope gets') :
    Gets (Parse.spanFrom start >>= next) tokens scope gets' := by
  intro before upcoming isScope
  exact .spanFrom (second ⟨start, before.stream.passed⟩ before upcoming isScope)

/-- Looking further ahead at a token that is there. -/
theorem peekKind {ahead : Nat} {next : Token.Kind → Parse β} (isAhead : tokens[ahead]? = some token)
    (second : (next token.kind).Gets tokens scope gets') :
    Gets (Parse.peekKind ahead >>= next) tokens scope gets' := by
  intro before upcoming isScope
  have isPeeked : before.stream.peek ahead = token := by
    rw [TokenStream.peek, upcoming, List.getD_eq_getElem?_getD, isAhead]
    rfl
  apply Ends.peekKind
  rw [isPeeked]
  exact second before upcoming isScope

/-- Looking at the names of types. -/
theorem get {next : Parser → Parse β}
    (second : ∀ parser : Parser, parser.scope = scope → (next parser).Gets tokens scope gets') :
    Gets (MonadState.get >>= next) tokens scope gets' := by
  intro before upcoming isScope
  exact .get (second before isScope before upcoming isScope)

/-- Changing the names of types. -/
theorem changeScope {change : Parser → Parser} {next : Unit → Parse β} (scope' : Scope)
    (changed : ∀ parser : Parser, parser.scope = scope →
      change parser = { parser with scope := scope' })
    (second : (next ()).Gets tokens scope' gets') :
    Gets (modify change >>= next) tokens scope gets' := by
  intro before upcoming isScope
  apply Ends.change
  rw [changed before isScope]
  exact second { before with scope := scope' } upcoming rfl

/-- Types declared in an action are forgotten after it. -/
theorem locally
    (inner : action.Gets tokens scope fun value left names =>
      gets value left (names.leave scope.aliases)) :
    (Parse.locally action).Gets tokens scope gets := by
  rintro before upcoming rfl
  exact .locally (inner before upcoming rfl)

end Gets

end Parse

end Equirec
