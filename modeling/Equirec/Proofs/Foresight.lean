import Equirec.Proofs.Following
import Equirec.Proofs.Scanning
import Equirec.Proofs.Viability

/-!
# What the readers look at

A reader that stays within the tokens that two streams share does the same on both, whatever follows
them and whatever the allowances are (`Parse.followsTerms`): no decision depends on tokens after the
one that is refused. The only place where a reader looks further ahead is an opening parenthesis,
and what is looked at there is taken whichever way is chosen.

So an unexpected token is found as early as possible: what stands before it can be completed, and
with it no list of tokens is read as a program (`Term.exists_refused`).
-/
namespace Equirec

namespace Parse

variable {left : Parser} {rest rest' : List Token} {fuel : Nat}

/-! ## Types -/

/-- The name of a type. -/
theorem follows_readTypeName : Follows rest rest' readTypeName readTypeName left := by
  apply Follows.expect.bind
  intro token middle
  split
  · exact .pure
  · exact .pure
  · apply Follows.get
    · split
      · exact .pure
      · exact .fail
    · intro right isScope
      rw [isScope]

/-- A parameter after its name, and those that follow it. -/
def readAfterName (fuel : Nat) (name : Token) : Parse (List (String × Ty)) := do
  let _ ← expectFor .colon "parameters require a type annotation"
  let type ← readType .standard fuel
  if ← nextIs .comma then
    skip
    let rest ← readParameterList .standard fuel
    return (name.value, type) :: rest
  else return [(name.value, type)]

/-- Parameters start with a name. -/
theorem readParameterList_succ (fuel : Nat) : readParameterList .standard (fuel + 1) =
    (nextIs .closeParen >>= fun closes => if closes then pure [] else
      expectFor .identifier "expected parameter name" >>= readAfterName fuel) := by
  rw [readParameterList]
  rfl

/-- What all readers of types look at with an allowance, whatever the other allowance is. -/
structure FollowsTypes (rest rest' : List Token) (fuel : Nat) : Prop where
  /-- A type. -/
  type : ∀ left fuel', Follows rest rest' (readType .standard fuel) (readType .standard fuel') left
  /-- A type of a known form. -/
  form : ∀ form left fuel',
    Follows rest rest' (readTypeForm .standard fuel form) (readTypeForm .standard fuel' form) left
  /-- Members of a type. -/
  members : ∀ (listing : Ty.Listing) left fuel',
    Follows rest rest' (listing.read fuel) (listing.read fuel') left
  /-- Parameters with their parentheses. -/
  parameters : ∀ left fuel',
    Follows rest rest' (readParameters .standard fuel) (readParameters .standard fuel') left

namespace FollowsTypes

/-- Without an allowance nothing is looked at. -/
theorem zero : FollowsTypes rest rest' 0 where
  type _ _ := by
    rw [readType]
    exact .exhausted
  form _ _ _ := by
    rw [readTypeForm]
    exact .exhausted
  members listing _ _ := by
    rw [Ty.Listing.read_zero]
    exact .exhausted
  parameters _ _ := by
    rw [readParameters]
    exact .exhausted

/-- A type, if nested readers are followed. -/
theorem follows_readType (nested : FollowsTypes rest rest' fuel) (left : Parser) : ∀ fuel',
    Follows rest rest' (readType .standard (fuel + 1)) (readType .standard fuel') left := by
  refine .of_succ (by rw [readType]) fun fuel' => ?_
  rw [readType, readType]
  apply Follows.current
  cases Grammar.standard.types left.stream.current.kind with
  | none => exact .unexpected
  | some form => exact nested.form form left fuel'

/-- A type of a known form, if nested readers are followed. -/
theorem follows_readTypeForm (nested : FollowsTypes rest rest' fuel) (form : TypeForm)
    (left : Parser) : ∀ fuel', Follows rest rest' (readTypeForm .standard (fuel + 1) form)
      (readTypeForm .standard fuel' form) left := by
  refine .of_succ (by rw [readTypeForm]) fun fuel' => ?_
  cases form with
  | name =>
    rw [readTypeForm, readTypeForm]
    exact follows_readTypeName
  | function =>
    rw [readTypeForm, readTypeForm]
    apply (nested.parameters left fuel').bind
    intro parameters middle
    apply Follows.expectFor.bind
    intro _ middle
    apply (nested.type middle fuel').bind
    exact fun _ _ => .pure
  | object =>
    rw [readTypeForm, readTypeForm]
    apply Follows.expect.bind
    intro _ middle
    apply (nested.members .properties middle fuel').bind
    intro properties middle
    exact Follows.expect.bind fun _ _ => .pure

/-- A parameter after its name, if nested readers are followed. -/
theorem follows_readAfterName (nested : FollowsTypes rest rest' fuel) (name : Token)
    (left : Parser) (fuel' : Nat) :
    Follows rest rest' (readAfterName fuel name) (readAfterName fuel' name) left := by
  apply Follows.expectFor.bind
  intro _ middle
  apply (nested.type middle fuel').bind
  intro type middle
  apply Follows.nextIs
  split
  · apply Follows.skip.bind
    intro _ middle
    apply (nested.members .parameters middle fuel').bind
    exact fun _ _ => .pure
  · exact .pure

/-- Members of a type, if nested readers are followed. -/
theorem follows_readMembers (nested : FollowsTypes rest rest' fuel) (listing : Ty.Listing)
    (left : Parser) : ∀ fuel', Follows rest rest' (listing.read (fuel + 1)) (listing.read fuel')
      left := by
  refine .of_succ listing.read_zero fun fuel' => ?_
  cases listing with
  | parameters =>
    rw [Ty.Listing.read, Ty.Listing.read, readParameterList_succ, readParameterList_succ]
    apply Follows.nextIs
    split
    · exact .pure
    · apply Follows.expectFor.bind
      exact fun name middle => nested.follows_readAfterName name middle fuel'
  | properties =>
    rw [Ty.Listing.read, Ty.Listing.read, readPropertyTypes, readPropertyTypes]
    apply Follows.nextIs
    split
    · exact .pure
    · apply Follows.expectFor.bind
      intro name middle
      apply Follows.expect.bind
      intro _ middle
      apply (nested.type middle fuel').bind
      intro type middle
      apply Follows.nextIs
      apply Follows.nextIs
      split
      · apply Follows.skip.bind
        intro _ middle
        apply (nested.members .properties middle fuel').bind
        exact fun _ _ => .pure
      · exact .pure

/-- Parameters, if nested readers are followed. -/
theorem follows_readParameters (nested : FollowsTypes rest rest' fuel) (left : Parser) :
    ∀ fuel', Follows rest rest' (readParameters .standard (fuel + 1))
      (readParameters .standard fuel') left := by
  refine .of_succ (by rw [readParameters]) fun fuel' => ?_
  rw [readParameters, readParameters]
  apply Follows.expect.bind
  intro _ middle
  apply (nested.members .parameters middle fuel').bind
  intro parameters middle
  exact Follows.expect.bind fun _ _ => .pure

end FollowsTypes

/-- What readers of types look at, with any allowance. -/
theorem followsTypes (rest rest' : List Token) (fuel : Nat) : FollowsTypes rest rest' fuel := by
  induction fuel with
  | zero => exact .zero
  | succ fuel nested =>
    exact {
      type := nested.follows_readType
      form := nested.follows_readTypeForm
      members := nested.follows_readMembers
      parameters := nested.follows_readParameters }

/-! ## Parentheses -/

/-- Whether an opening parenthesis is read as that of an arrow function. -/
def opensArrow (stream : TokenStream) : Bool :=
  (stream.peek 1).kind == .closeParen ||
    ((stream.peek 1).kind == .identifier && (stream.peek 2).kind == .colon)

/-- A term between parentheses. -/
def readGroup (fuel : Nat) : Parse Term := do
  skip
  let term ← readTerm .standard fuel .lowest
  let _ ← expect .closeParen
  return term

/-- After an opening parenthesis there is an arrow function or a term. -/
theorem run_readLeading_parenthesis (fuel : Nat) (parser : Parser) :
    (readLeading .standard (fuel + 1) .parenthesis).run.run parser =
      (if opensArrow parser.stream then readLeading .standard fuel .arrow
        else readGroup fuel).run.run parser := by
  rw [readLeading]
  rfl

/-- An arrow function after its parameters. -/
def readAfterParameters (fuel : Nat) (first : Token) (parameters : List (String × Ty)) :
    Parse Term := do
  let declared ← readDeclaredResult .standard fuel
  let _ ← expectFor .arrow "expected `=>` after arrow function parameters"
  let body ← if ← nextIs .openCurly then readBlock .standard fuel
    else readTerm .standard fuel .lowest
  return .function (← spanFrom first.span.start) parameters declared body

/-- An arrow function starts with parameters. -/
theorem readLeading_arrow (fuel : Nat) : readLeading .standard (fuel + 1) .arrow =
    (current >>= fun first =>
      readParameters .standard fuel >>= readAfterParameters fuel first) := by
  rw [readLeading]
  rfl

/-- What is taken after an opening parenthesis, whichever way it is read: nothing, or a name. -/
def IsLookedAt (taken : List Token) : Prop :=
  ∀ token ∈ taken, taken = [token] ∧ token.kind = .identifier

/-- Two parsers that read an opening parenthesis differently share no more than what is taken after
it. -/
theorem isLookedAt_of_opensArrow_ne {right : Parser} (shares : left.Shares rest rest' right)
    (differ : opensArrow right.stream ≠ opensArrow left.stream) :
    ∃ opening taken, left.stream.upcoming = opening :: (taken ++ rest) ∧ IsLookedAt taken := by
  obtain ⟨opening, taken, upcoming, upcoming'⟩ := shares.upcoming
  refine ⟨opening, taken, upcoming, ?_⟩
  rw [opensArrow, opensArrow, TokenStream.peek, TokenStream.peek, TokenStream.peek,
    TokenStream.peek, upcoming, upcoming'] at differ
  -- The second token after the parenthesis matters only where the first one is a name.
  obtain _ | ⟨first, _ | ⟨second, taken⟩⟩ := taken
  · exact List.forall_mem_nil _
  · rw [IsLookedAt, List.forall_mem_singleton]
    refine ⟨rfl, ?_⟩
    by_contra other
    have noName : (first.kind == .identifier) = false := beq_eq_false_iff_ne.2 other
    simp [noName] at differ
  · exact absurd rfl differ

/-- A list of parameters takes the name that it starts with. -/
theorem leavesAtMost_readParameterList {taken : List Token} (isLookedAt : IsLookedAt taken)
    (upcoming : left.stream.upcoming = taken ++ rest) (fuel : Nat) :
    LeavesAtMost rest.length (readParameterList .standard fuel) left := by
  obtain _ | ⟨name, taken⟩ := taken
  · have shrinks := ((followsTypes [] [] fuel).members .parameters left 0).shrinks
    rw [Shrinks, upcoming] at shrinks
    exact shrinks
  · obtain ⟨single, isName⟩ := isLookedAt name List.mem_cons_self
    rw [single] at upcoming
    have isCurrent := Gets.current_eq upcoming
    have noClosing : (left.stream.current.kind == .closeParen) = false := by
      rw [isCurrent, isName]
      rfl
    have taken : left.advanced.stream.upcoming = rest := Gets.upcoming_advanced upcoming
    cases fuel with
    | zero =>
      rw [readParameterList]
      exact Ends.exhausted trivial
    | succ fuel =>
      rw [readParameterList_succ]
      apply Ends.nextIs
      rw [noClosing, if_neg Bool.false_ne_true]
      apply Ends.bind_of_ok ((run_takeOr _ _ _).trans (if_pos (isCurrent ▸ isName)))
      have shrinks := ((followsTypes [] [] fuel).follows_readAfterName left.stream.current
        left.advanced 0).shrinks
      rw [Shrinks, taken] at shrinks
      exact shrinks

/-- Parameters take the name that they start with. -/
theorem leavesAtMost_readParameters {opening : Token} {taken : List Token}
    (isLookedAt : IsLookedAt taken) (isOpening : opening.kind = .openParen)
    (upcoming : left.stream.upcoming = opening :: (taken ++ rest)) (fuel : Nat) :
    LeavesAtMost rest.length (readParameters .standard fuel) left := by
  have isCurrent := Gets.current_eq upcoming
  have advanced := Gets.upcoming_advanced upcoming
  have closes : ∀ (parameters : List (String × Ty)) middle,
      Follows [] [] (expect .closeParen >>= fun _ => pure parameters)
        (expect .closeParen >>= fun _ => pure parameters) middle :=
    fun _ _ => Follows.expect.bind fun _ _ => .pure
  cases fuel with
  | zero =>
    rw [readParameters]
    exact Ends.exhausted trivial
  | succ fuel =>
    rw [readParameters]
    apply Ends.bind_of_ok ((run_takeOr _ _ _).trans (if_pos (isCurrent ▸ isOpening)))
    apply (leavesAtMost_readParameterList isLookedAt advanced fuel).bind
    exact fun parameters middle => (closes parameters middle).shrinks

/-! ## Terms -/

/-- What all readers of terms look at with an allowance, whatever the other allowance is. -/
structure FollowsTerms (rest rest' : List Token) (fuel : Nat) : Prop where
  /-- A term. -/
  term : ∀ power left fuel',
    Follows rest rest' (readTerm .standard fuel power) (readTerm .standard fuel' power) left
  /-- What follows a term. -/
  trailing : ∀ power term left fuel', Follows rest rest' (readTrailing .standard fuel power term)
    (readTrailing .standard fuel' power term) left
  /-- A term of a known leading form. -/
  leading : ∀ form left, (form = .parenthesis → left.stream.current.kind = .openParen) → ∀ fuel',
    Follows rest rest' (readLeading .standard fuel form) (readLeading .standard fuel' form) left
  /-- The declared result type of a function. -/
  ascription : ∀ left fuel', Follows rest rest' (readDeclaredResult .standard fuel)
    (readDeclaredResult .standard fuel') left
  /-- The properties of an object literal. -/
  properties : ∀ left fuel', Follows rest rest' (readPropertyList .standard fuel)
    (readPropertyList .standard fuel') left
  /-- A term of a known trailing form. -/
  trailingForm : ∀ form power term left fuel',
    Follows rest rest' (readTrailingForm .standard fuel form power term)
      (readTrailingForm .standard fuel' form power term) left
  /-- The arguments of a call. -/
  arguments : ∀ left fuel',
    Follows rest rest' (readArguments .standard fuel) (readArguments .standard fuel') left
  /-- The body of a function. -/
  block : ∀ left fuel',
    Follows rest rest' (readBlock .standard fuel) (readBlock .standard fuel') left
  /-- A sequence. -/
  sequence : ∀ ending left fuel', Follows rest rest' (readSequence .standard fuel ending)
    (readSequence .standard fuel' ending) left
  /-- What follows a declaration. -/
  following : ∀ ending left fuel', Follows rest rest' (readRest .standard fuel ending)
    (readRest .standard fuel' ending) left
  /-- A declaration and what follows it. -/
  declaration : ∀ form ending left fuel',
    Follows rest rest' (readDeclaration .standard fuel form ending)
      (readDeclaration .standard fuel' form ending) left
  /-- A term that starts with a name takes the name. -/
  name : ∀ power left token tokens, left.stream.upcoming = token :: tokens →
    token.kind = .identifier → LeavesAtMost tokens.length (readTerm .standard fuel power) left
  /-- An arrow function takes what its parameters take. -/
  arrow : ∀ left count,
    (∀ fuel, LeavesAtMost count (readParameters .standard fuel) left) →
      LeavesAtMost count (readLeading .standard fuel .arrow) left

namespace FollowsTerms

/-- Without an allowance nothing is looked at. -/
theorem zero : FollowsTerms rest rest' 0 where
  term _ _ _ := by
    rw [readTerm]
    exact .exhausted
  trailing _ _ _ _ := by
    rw [readTrailing]
    exact .exhausted
  leading form _ _ _ := by
    rw [readLeading]
    exact .exhausted
  ascription _ _ := by
    rw [readDeclaredResult]
    exact .exhausted
  properties _ _ := by
    rw [readPropertyList]
    exact .exhausted
  trailingForm _ _ _ _ _ := by
    rw [readTrailingForm]
    exact .exhausted
  arguments _ _ := by
    rw [readArguments]
    exact .exhausted
  block _ _ := by
    rw [readBlock]
    exact .exhausted
  sequence _ _ _ := by
    rw [readSequence]
    exact .exhausted
  following _ _ _ := by
    rw [readRest]
    exact .exhausted
  declaration _ _ _ _ := by
    rw [readDeclaration]
    exact .exhausted
  name _ _ _ _ _ _ := by
    rw [readTerm]
    exact Ends.exhausted trivial
  arrow _ _ _ := by
    rw [readLeading]
    exact Ends.exhausted trivial

/-- A term, if nested readers are followed. -/
theorem follows_readTerm (nested : FollowsTerms rest rest' fuel) (power : Power) (left : Parser) :
    ∀ fuel', Follows rest rest' (readTerm .standard (fuel + 1) power)
      (readTerm .standard fuel' power) left := by
  refine .of_succ (by rw [readTerm]) fun fuel' => ?_
  rw [readTerm, readTerm]
  apply Follows.current
  cases found : Grammar.standard.leading left.stream.current.kind with
  | none => exact .unexpected
  | some form =>
    refine (nested.leading form left ?_ fuel').bind fun term middle =>
      nested.trailing power term middle fuel'
    rintro rfl
    exact eq_openParen_of_leading found

/-- What follows a term, if nested readers are followed. -/
theorem follows_readTrailing (nested : FollowsTerms rest rest' fuel) (power : Power) (term : Term)
    (left : Parser) : ∀ fuel', Follows rest rest' (readTrailing .standard (fuel + 1) power term)
      (readTrailing .standard fuel' power term) left := by
  refine .of_succ (by rw [readTrailing]) fun fuel' => ?_
  rw [readTrailing, readTrailing]
  apply Follows.current
  cases Grammar.standard.trailing left.stream.current.kind with
  | none => exact .pure
  | some entry =>
    dsimp only
    split
    · apply (nested.trailingForm entry.1 entry.2 term left fuel').bind
      exact fun longer middle => nested.trailing power longer middle fuel'
    · exact .pure

/-- A literal or a name. -/
theorem follows_readPrimary : Follows rest rest' readPrimary readPrimary left := by
  rw [readPrimary]
  apply Follows.current
  split
  · split
    · exact Follows.skip.bind fun _ _ => .pure
    · exact .fail
  · exact Follows.skip.bind fun _ _ => .pure
  · exact Follows.skip.bind fun _ _ => .pure
  · exact Follows.skip.bind fun _ _ => .pure
  · exact .unexpected

/-- A term between parentheses, if nested readers are followed. -/
theorem follows_readGroup (nested : FollowsTerms rest rest' fuel) (left : Parser) (fuel' : Nat) :
    Follows rest rest' (readGroup fuel) (readGroup fuel') left := by
  apply Follows.skip.bind
  intro _ middle
  apply (nested.term .lowest middle fuel').bind
  intro term middle
  exact Follows.expect.bind fun _ _ => .pure

/-- An arrow function after its parameters, if nested readers are followed. -/
theorem follows_readAfterParameters (nested : FollowsTerms rest rest' fuel) (first : Token)
    (parameters : List (String × Ty)) (left : Parser) (fuel' : Nat) :
    Follows rest rest' (readAfterParameters fuel first parameters)
      (readAfterParameters fuel' first parameters) left := by
  apply (nested.ascription left fuel').bind
  intro declared middle
  apply Follows.expectFor.bind
  intro _ middle
  apply Follows.nextIs
  split
  · apply (nested.block middle fuel').bind
    intro body middle
    exact Follows.spanFrom.bind fun _ _ => .pure
  · apply (nested.term .lowest middle fuel').bind
    intro body middle
    exact Follows.spanFrom.bind fun _ _ => .pure

/-- An arrow function takes what its parameters take, if nested readers are followed. -/
theorem leavesAtMost_arrow (nested : FollowsTerms rest rest' fuel) (left : Parser) (count : Nat)
    (leaves : ∀ fuel, LeavesAtMost count (readParameters .standard fuel) left) :
    LeavesAtMost count (readLeading .standard (fuel + 1) .arrow) left := by
  rw [readLeading_arrow]
  apply Ends.current
  apply (leaves fuel).bind
  exact fun parameters middle => (nested.follows_readAfterParameters _ parameters middle 0).shrinks

/-- A term that starts with a name takes the name, if nested readers are followed. -/
theorem leavesAtMost_readTerm (nested : FollowsTerms rest rest' fuel) (power : Power)
    (left : Parser) (token : Token) (tokens : List Token)
    (upcoming : left.stream.upcoming = token :: tokens) (isName : token.kind = .identifier) :
    LeavesAtMost tokens.length (readTerm .standard (fuel + 1) power) left := by
  have isCurrent : left.stream.current.kind = .identifier := by
    rw [Gets.current_eq upcoming, isName]
  have taken := Gets.upcoming_advanced upcoming
  have primary : LeavesAtMost tokens.length (readLeading .standard fuel .primary) left := by
    cases fuel with
    | zero =>
      rw [readLeading]
      exact Ends.exhausted trivial
    | succ fuel =>
      rw [readLeading, readPrimary]
      apply Ends.current
      rw [isCurrent]
      exact Ends.skip (Ends.pure (Nat.le_of_eq (congrArg List.length taken)))
  rw [readTerm]
  apply Ends.current
  rw [isCurrent]
  exact primary.bind fun term middle => (nested.trailing power term middle 0).shrinks

/-- After an opening parenthesis that two parsers read differently no shared token is left, if
nested readers are followed. -/
theorem leavesAtMost_parenthesis (nested : FollowsTerms rest rest' fuel) {left right : Parser}
    (isOpening : left.stream.current.kind = .openParen) (shares : left.Shares rest rest' right)
    (differ : opensArrow right.stream ≠ opensArrow left.stream) :
    LeavesAtMost rest.length (readLeading .standard fuel .arrow) left ∧
      LeavesAtMost rest.length (readGroup fuel) left := by
  obtain ⟨opening, taken, upcoming, isLookedAt⟩ := isLookedAt_of_opensArrow_ne shares differ
  rw [Gets.current_eq upcoming] at isOpening
  have advanced := Gets.upcoming_advanced upcoming
  have term : LeavesAtMost rest.length (readTerm .standard fuel .lowest) left.advanced := by
    obtain _ | ⟨name, taken⟩ := taken
    · have shrinks := (nested.term .lowest left.advanced 0).shrinks
      rw [Shrinks, advanced] at shrinks
      exact shrinks
    · obtain ⟨single, isName⟩ := isLookedAt name List.mem_cons_self
      rw [single] at advanced
      exact nested.name .lowest left.advanced name rest advanced isName
  have closes : ∀ (term : Term) middle, Follows rest rest'
      (expect .closeParen >>= fun _ => pure term) (expect .closeParen >>= fun _ => pure term)
        middle := fun _ _ => Follows.expect.bind fun _ _ => .pure
  constructor
  · exact nested.arrow left rest.length (leavesAtMost_readParameters isLookedAt isOpening upcoming)
  · exact .skip (term.bind fun term middle => (closes term middle).shrinks)

/-- A term or an arrow function between parentheses, if nested readers are followed. -/
theorem follows_parenthesis (nested : FollowsTerms rest rest' fuel) (left : Parser) (fuel' : Nat)
    (isOpening : left.stream.current.kind = .openParen) :
    Follows rest rest' (readLeading .standard (fuel + 1) .parenthesis)
      (readLeading .standard (fuel' + 1) .parenthesis) left := by
  have chosen : Follows rest rest'
      (if opensArrow left.stream then readLeading .standard fuel .arrow else readGroup fuel)
      (if opensArrow left.stream then readLeading .standard fuel' .arrow else readGroup fuel')
        left := by
    split
    · exact nested.leading .arrow left (by rintro ⟨⟩) fuel'
    · exact nested.follows_readGroup left fuel'
  have same := run_readLeading_parenthesis fuel left
  refine ⟨Ends.of_run chosen.shrinks same, fun right shares => ?_⟩
  -- Parsers that choose differently share so little that the first one leaves nothing of it, and
  -- then nothing is to be shown.
  by_cases agree : opensArrow right.stream = opensArrow left.stream
  · have same' := run_readLeading_parenthesis fuel' right
    rw [agree] at same'
    unfold Mirrors
    rw [same']
    exact (chosen.mirrors right shares).of_run same
  · have few : LeavesAtMost rest.length
        (if opensArrow left.stream then readLeading .standard fuel .arrow else readGroup fuel)
          left := by
      obtain ⟨arrow, group⟩ := nested.leavesAtMost_parenthesis isOpening shares agree
      split
      · exact arrow
      · exact group
    exact (few.imp (fun _ _ few more => absurd few (Nat.not_le.2 more))
      fun _ _ few more => absurd few (Nat.not_le.2 more)).of_run same

/-- A term of a known leading form, if nested readers are followed. -/
theorem follows_readLeading (nested : FollowsTerms rest rest' fuel) (form : LeadingForm)
    (left : Parser) (opens : form = .parenthesis → left.stream.current.kind = .openParen) :
    ∀ fuel', Follows rest rest' (readLeading .standard (fuel + 1) form)
      (readLeading .standard fuel' form) left := by
  refine .of_succ (by rw [readLeading]) fun fuel' => ?_
  cases form with
  | primary =>
    rw [readLeading, readLeading]
    exact follows_readPrimary
  | parenthesis => exact nested.follows_parenthesis left fuel' (opens rfl)
  | object =>
    rw [readLeading, readLeading]
    apply Follows.advance.bind
    intro first middle
    apply (nested.properties middle fuel').bind
    intro properties middle
    apply Follows.expect.bind
    intro _ middle
    exact Follows.spanFrom.bind fun _ _ => .pure
  | arrow =>
    rw [readLeading_arrow, readLeading_arrow]
    apply Follows.current
    apply ((followsTypes rest rest' fuel).parameters left fuel').bind
    exact fun parameters middle => nested.follows_readAfterParameters _ parameters middle fuel'

/-- The declared result type of a function. -/
theorem follows_readDeclaredResult (left : Parser) : ∀ fuel',
    Follows rest rest' (readDeclaredResult .standard (fuel + 1))
      (readDeclaredResult .standard fuel') left := by
  refine .of_succ (by rw [readDeclaredResult]) fun fuel' => ?_
  rw [readDeclaredResult, readDeclaredResult]
  apply Follows.nextIs
  split
  · apply Follows.skip.bind
    intro _ middle
    apply ((followsTypes rest rest' fuel).type middle fuel').bind
    exact fun _ _ => .pure
  · exact .pure

/-- The properties of an object literal, if nested readers are followed. -/
theorem follows_readPropertyList (nested : FollowsTerms rest rest' fuel) (left : Parser) :
    ∀ fuel', Follows rest rest' (readPropertyList .standard (fuel + 1))
      (readPropertyList .standard fuel') left := by
  refine .of_succ (by rw [readPropertyList]) fun fuel' => ?_
  rw [readPropertyList, readPropertyList]
  apply Follows.nextIs
  split
  · exact .pure
  · apply Follows.expectFor.bind
    intro name middle
    apply Follows.expect.bind
    intro _ middle
    apply (nested.term .lowest middle fuel').bind
    intro value middle
    apply Follows.nextIs
    split
    · apply Follows.skip.bind
      intro _ middle
      apply (nested.properties middle fuel').bind
      exact fun _ _ => .pure
    · exact .pure

/-- A term of a known trailing form, if nested readers are followed. -/
theorem follows_readTrailingForm (nested : FollowsTerms rest rest' fuel) (form : TrailingForm)
    (power : Power) (term : Term) (left : Parser) : ∀ fuel',
    Follows rest rest' (readTrailingForm .standard (fuel + 1) form power term)
      (readTrailingForm .standard fuel' form power term) left := by
  refine .of_succ (by rw [readTrailingForm]) fun fuel' => ?_
  cases form with
  | add =>
    rw [readTrailingForm, readTrailingForm]
    apply Follows.skip.bind
    intro _ middle
    apply (nested.term power middle fuel').bind
    exact fun _ _ => .pure
  | conditional =>
    rw [readTrailingForm, readTrailingForm]
    apply Follows.skip.bind
    intro _ middle
    apply (nested.term .lowest middle fuel').bind
    intro positive middle
    apply Follows.expectFor.bind
    intro _ middle
    apply (nested.term .lowest middle fuel').bind
    exact fun _ _ => .pure
  | call =>
    rw [readTrailingForm, readTrailingForm]
    apply Follows.skip.bind
    intro _ middle
    apply (nested.arguments middle fuel').bind
    intro arguments middle
    apply Follows.expect.bind
    intro _ middle
    exact Follows.spanFrom.bind fun _ _ => .pure
  | property =>
    rw [readTrailingForm, readTrailingForm]
    apply Follows.skip.bind
    intro _ middle
    apply Follows.expectFor.bind
    intro name middle
    exact Follows.spanFrom.bind fun _ _ => .pure

/-- The arguments of a call, if nested readers are followed. -/
theorem follows_readArguments (nested : FollowsTerms rest rest' fuel) (left : Parser) :
    ∀ fuel', Follows rest rest' (readArguments .standard (fuel + 1))
      (readArguments .standard fuel') left := by
  refine .of_succ (by rw [readArguments]) fun fuel' => ?_
  rw [readArguments, readArguments]
  apply Follows.nextIs
  split
  · exact .pure
  · apply (nested.term .lowest left fuel').bind
    intro argument middle
    apply Follows.nextIs
    split
    · apply Follows.skip.bind
      intro _ middle
      apply (nested.arguments middle fuel').bind
      exact fun _ _ => .pure
    · exact .pure

/-- The body of a function, if nested readers are followed. -/
theorem follows_readBlock (nested : FollowsTerms rest rest' fuel) (left : Parser) :
    ∀ fuel', Follows rest rest' (readBlock .standard (fuel + 1)) (readBlock .standard fuel')
      left := by
  refine .of_succ (by rw [readBlock]) fun fuel' => ?_
  rw [readBlock, readBlock]
  apply Follows.expectFor.bind
  intro _ middle
  apply (nested.sequence .result middle fuel').locally.bind
  intro body middle
  exact Follows.expect.bind fun _ _ => .pure

/-- A sequence, if nested readers are followed. -/
theorem follows_readSequence (nested : FollowsTerms rest rest' fuel) (ending : Ending)
    (left : Parser) : ∀ fuel', Follows rest rest' (readSequence .standard (fuel + 1) ending)
      (readSequence .standard fuel' ending) left := by
  refine .of_succ (by rw [readSequence]) fun fuel' => ?_
  have goesOn : ∀ (first : Term) middle, Follows rest rest'
      (readSequence .standard fuel ending >>= fun rest =>
        pure (Term.sequence (first.span.through rest.span) first rest))
      (readSequence .standard fuel' ending >>= fun rest =>
        pure (Term.sequence (first.span.through rest.span) first rest)) middle :=
    fun first middle => (nested.sequence ending middle fuel').bind fun _ _ => .pure
  rw [readSequence, readSequence]
  apply Follows.current
  cases Grammar.standard.declarations left.stream.current.kind with
  | some form => exact nested.declaration form ending left fuel'
  | none =>
    cases ending with
    | result =>
      apply Follows.nextIs
      split
      · apply Follows.skip.bind
        intro _ middle
        apply (nested.term .lowest middle fuel').bind
        intro value middle
        exact Follows.expect.bind fun _ _ => .pure
      · apply (nested.term .lowest left fuel').bind
        intro first middle
        apply Follows.expect.bind
        exact fun _ middle => goesOn first middle
    | source =>
      apply (nested.term .lowest left fuel').bind
      intro first middle
      apply Follows.nextIs
      split
      · apply Follows.skip.bind
        intro _ middle
        apply Follows.nextIs
        split
        · exact .pure
        · exact goesOn first middle
      · exact .pure

/-- What follows a declaration, if nested readers are followed. -/
theorem follows_readRest (nested : FollowsTerms rest rest' fuel) (ending : Ending)
    (left : Parser) : ∀ fuel', Follows rest rest' (readRest .standard (fuel + 1) ending)
      (readRest .standard fuel' ending) left := by
  refine .of_succ (by rw [readRest]) fun fuel' => ?_
  rw [readRest, readRest]
  apply Follows.nextIs
  split
  · exact .unexpectedFor
  · exact nested.sequence ending left fuel'

/-- The declaration of a constant, if nested readers are followed. -/
theorem follows_constant (nested : FollowsTerms rest rest' fuel) (ending : Ending) (left : Parser)
    (fuel' : Nat) : Follows rest rest' (readDeclaration .standard (fuel + 1) .constant ending)
      (readDeclaration .standard (fuel' + 1) .constant ending) left := by
  rw [readDeclaration, readDeclaration]
  apply Follows.advance.bind
  intro first middle
  apply Follows.expectFor.bind
  intro name middle
  apply (nested.ascription middle fuel').bind
  intro _ middle
  apply Follows.expectFor.bind
  intro _ middle
  apply (nested.term .lowest middle fuel').bind
  intro value middle
  apply Follows.expect.bind
  intro _ middle
  apply (nested.following ending middle fuel').bind
  exact fun _ _ => .pure

/-- The declaration of a function, if nested readers are followed. -/
theorem follows_functionDeclaration (nested : FollowsTerms rest rest' fuel) (ending : Ending)
    (left : Parser) (fuel' : Nat) :
    Follows rest rest' (readDeclaration .standard (fuel + 1) .function ending)
      (readDeclaration .standard (fuel' + 1) .function ending) left := by
  have types := followsTypes rest rest' fuel
  rw [readDeclaration, readDeclaration]
  apply Follows.advance.bind
  intro first middle
  apply Follows.expectFor.bind
  intro name middle
  apply (types.parameters middle fuel').bind
  intro parameters middle
  apply Follows.expectFor.bind
  intro _ middle
  apply (types.type middle fuel').bind
  intro declared middle
  apply (nested.block middle fuel').bind
  intro body middle
  apply (nested.following ending middle fuel').bind
  exact fun _ _ => .pure

/-- The declaration of a name for a type, if nested readers are followed. -/
theorem follows_typeDeclaration (nested : FollowsTerms rest rest' fuel) (ending : Ending)
    (left : Parser) (fuel' : Nat) :
    Follows rest rest' (readDeclaration .standard (fuel + 1) .alias ending)
      (readDeclaration .standard (fuel' + 1) .alias ending) left := by
  rw [readDeclaration, readDeclaration]
  apply Follows.skip.bind
  intro _ middle
  apply Follows.expect.bind
  intro name middle
  apply Follows.expect.bind
  intro _ middle
  apply (Follows.changeScope (·.begin name.value) fun _ => rfl).bind
  intro _ middle
  apply ((followsTypes rest rest' fuel).type middle fuel').bind
  intro body middle
  dsimp only
  split
  · exact .of_runs .fail rfl fun _ _ => rfl
  · apply (Follows.changeScope (·.finish name.value _) fun _ => rfl).bind
    intro _ middle
    apply Follows.expect.bind
    exact fun _ middle => nested.following ending middle fuel'

/-- A declaration, if nested readers are followed. -/
theorem follows_readDeclaration (nested : FollowsTerms rest rest' fuel) (form : DeclarationForm)
    (ending : Ending) (left : Parser) : ∀ fuel',
    Follows rest rest' (readDeclaration .standard (fuel + 1) form ending)
      (readDeclaration .standard fuel' form ending) left := by
  refine .of_succ (by rw [readDeclaration]) fun fuel' => ?_
  cases form with
  | constant => exact nested.follows_constant ending left fuel'
  | function => exact nested.follows_functionDeclaration ending left fuel'
  | _ => exact nested.follows_typeDeclaration ending left fuel'

end FollowsTerms

/-- What readers of terms look at, with any allowance. -/
theorem followsTerms (rest rest' : List Token) (fuel : Nat) : FollowsTerms rest rest' fuel := by
  induction fuel with
  | zero => exact .zero
  | succ fuel nested =>
    exact {
      term := nested.follows_readTerm
      trailing := nested.follows_readTrailing
      leading := nested.follows_readLeading
      ascription := FollowsTerms.follows_readDeclaredResult
      properties := nested.follows_readPropertyList
      trailingForm := nested.follows_readTrailingForm
      arguments := nested.follows_readArguments
      block := nested.follows_readBlock
      sequence := nested.follows_readSequence
      following := nested.follows_readRest
      declaration := nested.follows_readDeclaration
      name := nested.leavesAtMost_readTerm
      arrow := nested.leavesAtMost_arrow }

/-- What a reader of programs looks at. -/
theorem follows_readProgram (rest rest' : List Token) (fuel fuel' : Nat) (left : Parser) :
    Follows rest rest' (readProgram .standard fuel) (readProgram .standard fuel') left := by
  apply ((followsTerms rest rest' fuel).sequence .source left fuel').bind
  intro term middle
  exact Follows.expect.bind fun _ _ => .pure

end Parse

/-! ## Sources -/

namespace Token

variable {source : String} {tokens : List Token}

/-- The tokens of a source start one after the other. -/
theorem pairwise_start_lt (scanned : scan source = .ok tokens)
    (short : Text.byteLength source.toList < UInt32.size) :
    tokens.Pairwise fun left right => left.span.start < right.span.start := by
  obtain ⟨body, rfl, cut⟩ := cut_of_scanFrom scanned
  have splits := cut.splits short
  rw [List.pairwise_append]
  refine ⟨?_, List.pairwise_singleton _ _, ?_⟩
  · apply splits.ordered.imp_of_mem
    intro left right isMember _ ordered
    exact UInt32.lt_of_lt_of_le (splits.writes left isMember).1 ordered
  · intro token isMember last isLast
    rw [List.mem_singleton.1 isLast, UInt32.lt_iff_toNat_lt]
    obtain ⟨after, ⟨before, whole, _, stop⟩, _⟩ := splits.stands token isMember
    have starts := UInt32.lt_iff_toNat_lt.1 (splits.writes token isMember).1
    have inside := congrArg Text.byteLength whole
    rw [Text.byteLength_append, stop] at inside
    have isEnd : (endMark (0 + Text.byteLength source.toList)).span.start.toNat =
        Text.byteLength source.toList := by
      rw [Nat.zero_add]
      exact UInt32.toNat_ofNat_of_lt' short
    omega

/-- No two tokens of a source start at the same place. -/
theorem index_eq_of_start_eq (scanned : scan source = .ok tokens)
    (short : Text.byteLength source.toList < UInt32.size) {first second : Nat} {left right : Token}
    (isLeft : tokens[first]? = some left) (isRight : tokens[second]? = some right)
    (same : left.span.start = right.span.start) : first = second := by
  obtain ⟨inFirst, rfl⟩ := List.getElem?_eq_some_iff.1 isLeft
  obtain ⟨inSecond, rfl⟩ := List.getElem?_eq_some_iff.1 isRight
  have increases := List.pairwise_iff_getElem.1 (pairwise_start_lt scanned short)
  rcases Nat.lt_trichotomy first second with less | equal | more
  · exact absurd same (UInt32.ne_of_lt (increases first second inFirst inSecond less))
  · exact equal
  · exact absurd same.symm (UInt32.ne_of_lt (increases second first inSecond inFirst more))

end Token

namespace Term

/-- Where a token is refused after others, it is refused whatever follows it. -/
theorem ofTokens_ne_ok_of_refused {taken rest : List Token} {token stop : Token} {fault : Fault}
    {after : Parser} {fuel : Nat}
    (refused : (Parse.readProgram .standard fuel).run.run
      { stream := { upcoming := taken ++ token :: rest, last := stop } } =
        (.error (.fault fault), after))
    (isLeft : after.stream.upcoming = token :: rest) (more : List Token) (term : Term) :
    ofTokens (taken ++ token :: more) ≠ .ok term := by
  have some : taken ++ token :: more ≠ [] := List.append_ne_nil_of_right_ne_nil _ (by simp)
  have shares : ∀ last, Parser.Shares rest more
      { stream := { upcoming := taken ++ token :: rest, last := stop } }
      { stream := { upcoming := taken ++ token :: more, last } } := by
    refine fun last => ⟨?_, rfl, rfl⟩
    obtain _ | ⟨first, taken⟩ := taken
    · exact ⟨token, [], rfl, rfl⟩
    · exact ⟨first, taken ++ [token], by simp, by simp⟩
  rw [ofTokens_eq (List.getLast?_eq_some_getLast some)]
  have follows := Parse.follows_readProgram rest more fuel
    (16 * ((taken ++ token :: more).length + 4))
    { stream := { upcoming := taken ++ token :: rest, last := stop } }
  have within : rest.length < after.stream.upcoming.length := by
    rw [isLeft]
    exact Nat.lt_succ_self _
  intro isRead
  obtain ⟨_, ended⟩ | ⟨_, ended, -⟩ :=
    (follows.mirrors _ (shares _)).refuses fault after refused within
  · rw [ended] at isRead
    cases isRead
  · rw [ended] at isRead
    cases isRead

/-- A token that is refused is one of the list, those before it can be completed, and it is refused
whatever follows it. -/
theorem exists_refused {front : List Token} {stop : Token} {fault : Fault}
    (isEnd : stop.kind = .eof) (refused : ofTokens (front ++ [stop]) = .error (.fault fault))
    (isUnexpected : fault.cause.isUnexpected = true) :
    ∃ taken token rest, front ++ [stop] = taken ++ token :: rest ∧
      token.span.start = fault.offset ∧ (∃ more term, ofTokens (taken ++ more) = .ok term) ∧
        ∀ more term, ofTokens (taken ++ token :: more) ≠ .ok term := by
  have closed : Parser.Closed { stream := { upcoming := front ++ [stop], last := stop } } :=
    ⟨front, stop, rfl, isEnd⟩
  rw [ofTokens_eq List.getLast?_concat] at refused
  rcases ended : (Parse.readProgram .standard (16 * ((front ++ [stop]).length + 4))).run.run
    { stream := { upcoming := front ++ [stop], last := stop } } with ⟨result, after⟩
  rw [ended] at refused
  cases refused
  obtain ⟨taken, more, split, closed', place, derives⟩ :=
    (Parse.ends_readProgram closed _).refuses fault after ended isUnexpected
  obtain ⟨rest, upcoming, -⟩ := closed'.exists_cons
  dsimp only at split
  rw [upcoming] at split
  rw [split] at ended
  have isMark : (Token.endMark 0).kind = .eof := rfl
  obtain ⟨term, isRead⟩ := exists_ofTokens isMark derives
  refine ⟨taken, _, rest, split, place.symm, ⟨more ++ [Token.endMark 0], term, ?_⟩,
    ofTokens_ne_ok_of_refused ended upcoming⟩
  rw [← List.append_assoc]
  exact isRead

/-- Unexpected tokens are found as early as possible. Where a source is refused at a token, which is
the only one at this place, the tokens before it can be continued to a list that is read, and no
list that starts with these tokens and this one is read. -/
theorem ofTokens_fault_earliest {source : String} {tokens : List Token} {fault : Fault}
    (scanned : Token.scan source = .ok tokens)
    (refused : ofTokens tokens = .error (.fault fault))
    (isUnexpected : fault.cause.isUnexpected = true) :
    ∃ index token, tokens[index]? = some token ∧ token.span.start = fault.offset ∧
      (Text.byteLength source.toList < UInt32.size → ∀ other token, tokens[other]? = some token →
        token.span.start = fault.offset → other = index) ∧
      (∃ more term, ofTokens (tokens.take index ++ more) = .ok term) ∧
      ∀ more term, ofTokens (tokens.take (index + 1) ++ more) ≠ .ok term := by
  obtain ⟨front, rfl, -⟩ := Token.cut_of_scanFrom scanned
  obtain ⟨taken, token, rest, split, place, continued, never⟩ :=
    exists_refused rfl refused isUnexpected
  have found : (front ++ [Token.endMark (0 + Text.byteLength source.toList)])[taken.length]? =
      some token := by
    rw [split]
    simp
  refine ⟨taken.length, token, found, place, ?_, ?_, ?_⟩
  · intro short other token' found' place'
    exact Token.index_eq_of_start_eq scanned short found' found (place'.trans place.symm)
  · rw [split, List.take_left]
    exact continued
  · have isTake : (taken ++ token :: rest).take (taken.length + 1) = taken ++ [token] := by
      simp [List.take_append]
    rw [split, isTake]
    intro more term
    rw [List.append_assoc]
    exact never more term

/-- The tokens of an arrow function whose parameters have no types. -/
def untypedParameters : List Token :=
  [⟨.openParen, "(", ⟨0, 1⟩⟩, ⟨.identifier, "x", ⟨1, 2⟩⟩, ⟨.comma, ",", ⟨2, 3⟩⟩,
    ⟨.identifier, "y", ⟨4, 5⟩⟩, ⟨.closeParen, ")", ⟨5, 6⟩⟩, ⟨.arrow, "=>", ⟨7, 9⟩⟩,
    ⟨.identifier, "x", ⟨10, 11⟩⟩, ⟨.eof, "EOF", ⟨11, 11⟩⟩]

/-- Parameters without types are refused at the comma, because what stands before it may be a term
between parentheses. -/
theorem ofTokens_fault_earliest_comma :
    ∃ tokens, Token.scan "(x, y) => x" = .ok tokens ∧
      ofTokens tokens = .error (.fault ⟨.unexpectedToken ",", 2⟩) ∧
      (∃ more term, ofTokens (tokens.take 2 ++ more) = .ok term) ∧
      ∀ more term, ofTokens (tokens.take 3 ++ more) ≠ .ok term := by
  have short : Text.byteLength "(x, y) => x".toList < UInt32.size := by decide
  have scanned : Token.scan "(x, y) => x" = .ok untypedParameters := by decide +kernel
  have refused : ofTokens untypedParameters = .error (.fault ⟨.unexpectedToken ",", 2⟩) := rfl
  obtain ⟨index, token, -, -, unique, continued, never⟩ :=
    ofTokens_fault_earliest scanned refused rfl
  obtain rfl := unique short 2 _ rfl rfl
  exact ⟨untypedParameters, scanned, refused, continued, never⟩

end Term

end Equirec
