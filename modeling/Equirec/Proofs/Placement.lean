import Equirec.Proofs.Outcomes
import Equirec.Proofs.Scanning
import Equirec.Proofs.WrittenTerms

/-!
# Where terms stand

A term that is read starts where a token starts and ends where a token ends, and its parts stand
inside it, one after the other (`Term.Nested`). The span of a term is made in three ways: it is that
of a token, it goes from the first part to the last, or it goes from a token to the token that was
taken last. All readers are therefore followed with the place up to which tokens have been taken:
what is read next lies after that place, and what has been read before it (`Parse.Places`). Where a
reader refuses its input, it names the start of a token.
-/
namespace Equirec

/-! ## Terms that stand on tokens -/

/-- Whether a token other than the mark of the end starts at a place. -/
def Token.StartsAt (tokens : List Token) (offset : Offset) : Prop :=
  ∃ token ∈ tokens, token.kind ≠ .eof ∧ token.span.start = offset

/-- Whether a token other than the mark of the end ends at a place. -/
def Token.EndsAt (tokens : List Token) (offset : Offset) : Prop :=
  ∃ token ∈ tokens, token.kind ≠ .eof ∧ token.span.stop = offset

namespace Term

/-- Whether a term stands properly on tokens. -/
structure Nested (tokens : List Token) (term : Term) : Prop where
  /-- It starts where a token starts. -/
  starts : Token.StartsAt tokens term.span.start
  /-- It ends where a token ends. -/
  ends : Token.EndsAt tokens term.span.stop
  /-- It is not empty. -/
  proper : term.span.start < term.span.stop
  /-- Its parts stand inside it. -/
  inside : ∀ part ∈ term.parts,
    term.span.start ≤ part.span.start ∧ part.span.stop ≤ term.span.stop
  /-- Its parts stand one after the other. -/
  ordered : term.parts.Pairwise fun left right => left.span.stop ≤ right.span.start

/-- Whether a term lies between two places, with all its subterms properly on tokens. -/
structure Lies (tokens : List Token) (low high : Nat) (term : Term) : Prop where
  /-- The subterms. -/
  nested : ∀ subterm ∈ term.subterms, subterm.Nested tokens
  /-- It starts after the first place. -/
  low_le : low ≤ term.span.start.toNat
  /-- It ends before the second place. -/
  le_high : term.span.stop.toNat ≤ high

namespace Lies

variable {tokens : List Token} {low low' high high' : Nat} {term : Term}

/-- The places may be further apart. -/
theorem widen (lies : term.Lies tokens low high) (lower : low' ≤ low) (higher : high ≤ high') :
    term.Lies tokens low' high' :=
  ⟨lies.nested, lower.trans lies.low_le, lies.le_high.trans higher⟩

/-- A term lies where its own span starts. -/
theorem fromStart (lies : term.Lies tokens low high) :
    term.Lies tokens term.span.start.toNat high :=
  ⟨lies.nested, Nat.le_refl _, lies.le_high⟩

/-- A term lies where its own span ends. -/
theorem toStop (lies : term.Lies tokens low high) :
    term.Lies tokens low term.span.stop.toNat :=
  ⟨lies.nested, lies.low_le, Nat.le_refl _⟩

/-- The term itself stands properly on tokens. -/
theorem self (lies : term.Lies tokens low high) : term.Nested tokens :=
  lies.nested term term.self_mem_subterms

/-- A term has some text, so the places differ. -/
theorem low_lt_high (lies : term.Lies tokens low high) : low < high :=
  lies.low_le.trans_lt ((UInt32.lt_iff_toNat_lt.1 lies.self.proper).trans_le lies.le_high)

end Lies

/-- Whether terms lie between two places one after the other. -/
inductive Row (tokens : List Token) : Nat → Nat → List Term → Prop where
  /-- No terms. -/
  | nil {low high : Nat} (ordered : low ≤ high) : Row tokens low high []
  /-- One term, and others after it. -/
  | cons {low middle high : Nat} {term : Term} {rest : List Term}
    (lies : term.Lies tokens low middle) (after : Row tokens middle high rest) :
    Row tokens low high (term :: rest)

namespace Row

variable {tokens : List Token} {low low' high high' : Nat} {terms : List Term}

/-- The places of a row are in order. -/
theorem low_le_high (row : Row tokens low high terms) : low ≤ high := by
  induction row with
  | nil ordered => exact ordered
  | cons lies _ ih => exact lies.low_lt_high.le.trans ih

/-- The places of a row that is not empty differ. -/
theorem low_lt_high {term : Term} (row : Row tokens low high (term :: terms)) : low < high := by
  cases row with
  | cons lies after => exact lies.low_lt_high.trans_le after.low_le_high

/-- The places may be further apart. -/
theorem widen (row : Row tokens low high terms) (lower : low' ≤ low) (higher : high ≤ high') :
    Row tokens low' high' terms := by
  induction row generalizing low' with
  | nil ordered => exact .nil ((lower.trans ordered).trans higher)
  | cons lies _ ih => exact .cons (lies.widen lower (Nat.le_refl _)) (ih (Nat.le_refl _) higher)

/-- A row of one term. -/
theorem single {term : Term} (lies : term.Lies tokens low high) : Row tokens low high [term] :=
  .cons lies (.nil (Nat.le_refl _))

/-- Each term of a row lies between its places. -/
theorem lies (row : Row tokens low high terms) : ∀ term ∈ terms, term.Lies tokens low high := by
  induction row with
  | nil => exact List.forall_mem_nil _
  | @cons low middle high term rest first after ih =>
    rw [List.forall_mem_cons]
    refine ⟨first.widen (Nat.le_refl _) after.low_le_high, ?_⟩
    intro term isMember
    exact (ih term isMember).widen first.low_lt_high.le (Nat.le_refl _)

/-- The terms of a row stand one after the other. -/
theorem pairwise (row : Row tokens low high terms) :
    terms.Pairwise fun left right => left.span.stop ≤ right.span.start := by
  induction row with
  | nil => exact .nil
  | cons first after ih =>
    refine .cons ?_ ih
    intro term isMember
    rw [UInt32.le_iff_toNat_le]
    exact first.le_high.trans (after.lies term isMember).low_le

/-- A term whose parts are a row within its span lies where its span does, if that starts and ends
where tokens do. -/
theorem node {term : Term} {start stop : Offset} {low high : Nat}
    (isSpan : term.span = ⟨start, stop⟩)
    (row : Row tokens start.toNat stop.toNat term.parts) (starts : Token.StartsAt tokens start)
    (ends : Token.EndsAt tokens stop) (proper : start.toNat < stop.toNat)
    (low_le : low ≤ start.toNat) (le_high : stop.toNat ≤ high) : term.Lies tokens low high := by
  refine ⟨?_, by rwa [isSpan], by rwa [isSpan]⟩
  rw [subterms_eq_cons, List.forall_mem_cons, List.forall_mem_flatMap]
  refine ⟨⟨by rwa [isSpan], by rwa [isSpan], ?_, ?_, row.pairwise⟩, ?_⟩
  · rw [isSpan]
    exact UInt32.lt_iff_toNat_lt.2 proper
  · intro part isPart
    have lies := row.lies part isPart
    rw [isSpan]
    exact ⟨UInt32.le_iff_toNat_le.2 lies.low_le, UInt32.le_iff_toNat_le.2 lies.le_high⟩
  · intro part isPart
    exact (row.lies part isPart).nested

end Row

end Term

/-! ## Streams of tokens in order -/

/-- Whether a stream shows tokens of a list, in order and after all that it has given away. -/
structure TokenStream.Stands (tokens : List Token) (stream : TokenStream) : Prop where
  /-- The tokens are of the list. -/
  shown : ∀ token ∈ stream.upcoming, token ∈ tokens
  /-- So is the last one, which is the mark of the end. -/
  last : stream.last ∈ tokens ∧ stream.last.kind = .eof
  /-- All but the mark of the end have some text. -/
  proper : ∀ token ∈ stream.upcoming, token.kind ≠ .eof →
    token.span.start.toNat < token.span.stop.toNat
  /-- They come in order. -/
  ordered : stream.upcoming.Pairwise fun left right => left.span.stop ≤ right.span.start
  /-- They come after what has been given away. -/
  ahead : ∀ token ∈ stream.upcoming, stream.passed.toNat ≤ token.span.start.toNat
  /-- What has been given away last, if anything, was a token of the list. -/
  passed : 0 < stream.passed.toNat → Token.EndsAt tokens stream.passed

/-- Whether a parser takes its next token, which is not the mark of the end. -/
structure Parser.Took (tokens : List Token) (before : Parser) (token : Token) (after : Parser) :
    Prop where
  /-- It is the next token. -/
  next : token = before.stream.current
  /-- It is of the list. -/
  isMember : token ∈ tokens
  /-- It is not the mark of the end. -/
  noEnd : token.kind ≠ .eof
  /-- It comes after what was taken before. -/
  ahead : before.stream.passed.toNat ≤ token.span.start.toNat
  /-- It has some text. -/
  proper : token.span.start.toNat < token.span.stop.toNat
  /-- It is now what was taken last. -/
  passed : after.stream.passed = token.span.stop

namespace Parser.Took

variable {tokens : List Token} {before after : Parser} {token : Token}

/-- Taking a token goes forward. -/
theorem passed_lt (took : before.Took tokens token after) :
    before.stream.passed.toNat < after.stream.passed.toNat := by
  rw [took.passed]
  exact took.ahead.trans_lt took.proper

/-- A term may start with a token that is taken. -/
theorem starts (took : before.Took tokens token after) :
    Token.StartsAt tokens token.span.start :=
  ⟨token, took.isMember, took.noEnd, rfl⟩

/-- A term may end where a token that is taken ends. -/
theorem ends (took : before.Took tokens token after) :
    Token.EndsAt tokens after.stream.passed :=
  ⟨token, took.isMember, took.noEnd, took.passed.symm⟩

end Parser.Took

namespace TokenStream.Stands

variable {tokens : List Token} {stream : TokenStream}

/-- The next token is of the list. -/
theorem current_mem (stands : stream.Stands tokens) : stream.current ∈ tokens := by
  rcases shown : stream.upcoming with _ | ⟨token, rest⟩
  · rw [current, peek, shown]
    exact stands.last.1
  · rw [current, peek, shown]
    exact stands.shown token (by simp [shown])

/-- A stream whose next token is not the mark of the end still has tokens. -/
theorem exists_cons (stands : stream.Stands tokens) (more : stream.current.kind ≠ .eof) :
    ∃ rest, stream.upcoming = stream.current :: rest := by
  rcases shown : stream.upcoming with _ | ⟨token, rest⟩
  · rw [current, peek, shown] at more
    exact absurd stands.last.2 more
  · rw [current, peek, shown]
    exact ⟨rest, rfl⟩

/-- The next token starts after what has been given away. -/
theorem passed_le_current (stands : stream.Stands tokens) (more : stream.current.kind ≠ .eof) :
    stream.passed.toNat ≤ stream.current.span.start.toNat := by
  obtain ⟨rest, shown⟩ := stands.exists_cons more
  exact stands.ahead stream.current (by rw [shown]; exact List.mem_cons_self)

/-- The next token starts where a token does. -/
theorem startsAt_current (stands : stream.Stands tokens) (more : stream.current.kind ≠ .eof) :
    Token.StartsAt tokens stream.current.span.start :=
  ⟨stream.current, stands.current_mem, more, rfl⟩

/-- A stream stays in order when its next token is taken. -/
theorem advance (stands : stream.Stands tokens) (more : stream.current.kind ≠ .eof) :
    stream.advance.Stands tokens ∧ stream.advance.passed = stream.current.span.stop := by
  obtain ⟨rest, shown⟩ := stands.exists_cons more
  have ordered := stands.ordered
  have proper := stands.proper
  rw [shown, List.pairwise_cons] at ordered
  rw [shown] at proper
  rw [TokenStream.advance, shown]
  refine ⟨⟨?_, stands.last, ?_, ordered.2, ?_, ?_⟩, rfl⟩
  · intro token isMember
    exact stands.shown token (by rw [shown]; exact List.mem_cons_of_mem _ isMember)
  · intro token isMember
    exact proper token (List.mem_cons_of_mem _ isMember)
  · intro token isMember
    exact UInt32.le_iff_toNat_le.1 (ordered.1 token isMember)
  · intro _
    exact ⟨stream.current, stands.current_mem, more, rfl⟩

/-- Taking the next token. -/
theorem took {parser : Parser} (stands : parser.stream.Stands tokens)
    (more : parser.stream.current.kind ≠ .eof) :
    parser.Took tokens parser.stream.current parser.advanced := by
  obtain ⟨rest, shown⟩ := stands.exists_cons more
  exact ⟨rfl, stands.current_mem, more, stands.passed_le_current more,
    stands.proper parser.stream.current (by rw [shown]; exact List.mem_cons_self) more,
    (stands.advance more).2⟩

end TokenStream.Stands

/-! ## Actions that keep places in order -/

namespace Parse

variable {α β : Type} {tokens : List Token} {action : Parse α} {next : α → Parse β}
  {before : Parser} {gives : α → Parser → Prop} {gives' : β → Parser → Prop}

/-- Whether an action on tokens in order leaves them so and goes forward, and its value is as it
should be where the parser then stands. If it refuses them, it does so at the start of a token. -/
def Places (tokens : List Token) (action : Parse α) (before : Parser)
    (gives : α → Parser → Prop) : Prop :=
  before.stream.Stands tokens → action.Ends before
    (fun value after => after.stream.Stands tokens ∧
      before.stream.passed.toNat ≤ after.stream.passed.toNat ∧ gives value after)
    fun fault _ => ∃ token ∈ tokens, token.span.start = fault.offset

namespace Places

/-- One action and then another, which may rely on what the first one gives. -/
theorem bind (first : action.Places tokens before gives)
    (second : ∀ value after, before.stream.passed.toNat ≤ after.stream.passed.toNat →
      gives value after → (next value).Places tokens after gives') :
    (action >>= next).Places tokens before gives' := by
  intro stands
  apply (first stands).bind fun _ _ => id
  rintro value after ⟨stands', later, given⟩
  refine (second value after later given stands').imp ?_ fun _ _ => id
  rintro result final ⟨stands, later', given'⟩
  exact ⟨stands, later.trans later', given'⟩

/-- A condition may be replaced by a weaker one. -/
theorem imp {weaker : α → Parser → Prop} (places : action.Places tokens before gives)
    (given : ∀ value after, before.stream.passed.toNat ≤ after.stream.passed.toNat →
      gives value after → weaker value after) : action.Places tokens before weaker := by
  intro stands
  refine (places stands).imp ?_ fun _ _ => id
  rintro value after ⟨stands', later, isGiven⟩
  exact ⟨stands', later, given value after later isGiven⟩

/-- What is to be shown of tokens in order may rely on that. -/
theorem ofStands (places : before.stream.Stands tokens → action.Places tokens before gives) :
    action.Places tokens before gives :=
  fun stands => places stands stands

/-- A value at once. -/
theorem pure {value : α} (given : gives value before) :
    Places tokens (Pure.pure value) before gives :=
  fun stands => .pure ⟨stands, Nat.le_refl _, given⟩

/-- An action whose allowance is used up. -/
theorem exhausted : Places tokens Parse.exhausted before gives :=
  fun _ => .exhausted trivial

/-- A fault at the start of a token. -/
theorem fail {cause : Cause} {token : Token} (isMember : token ∈ tokens) :
    Places tokens (Parse.fail cause token.span.start) before gives :=
  fun _ => .fail ⟨token, isMember, rfl⟩

/-- Refusing the next token. -/
theorem unexpected : Places tokens Parse.unexpected before gives :=
  fun stands => .unexpected ⟨before.stream.current, stands.current_mem, rfl⟩

/-- Refusing the next token with a detail. -/
theorem unexpectedFor {detail : String} :
    Places tokens (Parse.unexpectedFor detail) before gives :=
  fun stands => .unexpectedFor ⟨before.stream.current, stands.current_mem, rfl⟩

/-- Looking at the next token. -/
theorem current {next : Token → Parse β}
    (second : (next before.stream.current).Places tokens before gives') :
    Places tokens (Parse.current >>= next) before gives' :=
  fun stands => .current (second stands)

/-- Looking ahead. -/
theorem peekKind {ahead : Nat} {next : Token.Kind → Parse β}
    (second : (next (before.stream.peek ahead).kind).Places tokens before gives') :
    Places tokens (Parse.peekKind ahead >>= next) before gives' :=
  fun stands => .peekKind (second stands)

/-- Asking for the kind of the next token. -/
theorem nextIs {kind : Token.Kind} {next : Bool → Parse β}
    (second : (next (before.stream.current.kind == kind)).Places tokens before gives') :
    Places tokens (Parse.nextIs kind >>= next) before gives' :=
  fun stands => .nextIs (second stands)

/-- Looking where the token taken last ended. -/
theorem spanFrom {start : Offset} {next : Span → Parse β}
    (second : (next ⟨start, before.stream.passed⟩).Places tokens before gives') :
    Places tokens (Parse.spanFrom start >>= next) before gives' :=
  fun stands => .spanFrom (second stands)

/-- Looking at the names of types. -/
theorem get {next : Parser → Parse β} (second : (next before).Places tokens before gives') :
    Places tokens (MonadState.get >>= next) before gives' :=
  fun stands => .get (second stands)

/-- Changing the names of types. -/
theorem changeScope {change : Parser → Parser} {next : Unit → Parse β}
    (same : (change before).stream = before.stream)
    (second : (next ()).Places tokens (change before) gives') :
    Places tokens (modify change >>= next) before gives' := by
  intro stands
  rw [← same] at stands
  have ended := second stands
  rw [same] at ended
  exact .change ended

/-- Taking the next token, which is not the mark of the end. -/
theorem advance {next : Token → Parse β} (more : before.stream.current.kind ≠ .eof)
    (second : ∀ after, before.Took tokens before.stream.current after →
      (next before.stream.current).Places tokens after gives') :
    Places tokens (Parse.advance >>= next) before gives' := by
  have taken : Parse.advance.Places tokens before fun token after =>
      token = before.stream.current ∧ before.Took tokens before.stream.current after := by
    intro stands
    have took := stands.took more
    have later := took.ahead.trans took.proper.le
    rw [← took.passed] at later
    exact .of_ok rfl ⟨(stands.advance more).1, later, rfl, took⟩
  apply taken.bind
  rintro _ after _ ⟨rfl, took⟩
  exact second after took

/-- Dropping the next token, which is not the mark of the end. -/
theorem skip {next : Unit → Parse β} (more : before.stream.current.kind ≠ .eof)
    (second : ∀ after, before.Took tokens before.stream.current after →
      (next ()).Places tokens after gives') :
    Places tokens (Parse.skip >>= next) before gives' := by
  have dropped : Places tokens (Parse.advance >>= fun _ => next ()) before gives' :=
    advance more second
  exact fun stands => (dropped stands).of_run rfl

/-- Taking the next token, which must be of a kind other than the mark of the end, where it is
refused otherwise. -/
theorem takeOr {kind : Token.Kind} {otherwise : Parse Token} {next : Token → Parse β}
    (differs : kind ≠ .eof) (refused : otherwise.Places tokens before fun _ _ => False)
    (second : ∀ token after, before.Took tokens token after →
      (next token).Places tokens after gives') :
    Places tokens (Parse.takeOr kind otherwise >>= next) before gives' := by
  have taken : (Parse.takeOr kind otherwise).Places tokens before (before.Took tokens) := by
    apply nextIs
    split
    · rename_i isKind
      rw [← bind_pure Parse.advance]
      apply advance (TokenStream.more_of_isKind isKind differs)
      intro after took
      exact .pure took
    · exact refused.imp fun _ _ _ impossible => impossible.elim
  apply taken.bind
  intro token after _ took
  exact second token after took

/-- Taking the next token, which must be of a kind. -/
theorem expect {kind : Token.Kind} {next : Token → Parse β} (differs : kind ≠ .eof)
    (second : ∀ token after, before.Took tokens token after →
      (next token).Places tokens after gives') :
    Places tokens (Parse.expect kind >>= next) before gives' :=
  takeOr differs unexpected second

/-- Taking the next token, which must be of a kind, where a detail is at hand. -/
theorem expectFor {kind : Token.Kind} {detail : String} {next : Token → Parse β}
    (differs : kind ≠ .eof)
    (second : ∀ token after, before.Took tokens token after →
      (next token).Places tokens after gives') :
    Places tokens (Parse.expectFor kind detail >>= next) before gives' :=
  takeOr differs unexpectedFor second

/-- Types declared in an action are forgotten after it. -/
theorem locally
    (inner : action.Places tokens before fun value after =>
      gives value { after with scope := after.scope.leave before.scope.aliases }) :
    (Parse.locally action).Places tokens before gives :=
  fun stands => .locally (inner stands)

end Places

/-! ## Reading types -/

/-- The name of a type. -/
theorem places_readTypeName (before : Parser) :
    readTypeName.Places tokens before fun _ _ => True := by
  apply Places.expect (by decide)
  intro token parser took
  split
  · exact .pure trivial
  · exact .pure trivial
  · apply Places.get
    split
    · exact .pure trivial
    · exact .fail took.isMember

/-- How all readers of types go on with an allowance. -/
structure PlaceTypes (tokens : List Token) (grammar : Grammar) (fuel : Nat) : Prop where
  /-- A type. -/
  type : ∀ before, (readType grammar fuel).Places tokens before fun _ _ => True
  /-- A type of a known form. -/
  form : ∀ before form, (readTypeForm grammar fuel form).Places tokens before fun _ _ => True
  /-- The properties of an object type. -/
  properties : ∀ before, (readPropertyTypes grammar fuel).Places tokens before fun _ _ => True
  /-- Parameters between parentheses. They take the next token. -/
  parameters : ∀ before, (readParameters grammar fuel).Places tokens before fun _ after =>
    before.stream.current.span.start.toNat < after.stream.passed.toNat
  /-- Parameters up to the closing parenthesis. -/
  parameterList : ∀ before, (readParameterList grammar fuel).Places tokens before fun _ _ => True

namespace PlaceTypes

variable {grammar : Grammar} {fuel : Nat}

/-- Without an allowance all readers are cut short. -/
theorem zero (tokens : List Token) (grammar : Grammar) : PlaceTypes tokens grammar 0 where
  type _ := by
    rw [readType]
    exact .exhausted
  form _ _ := by
    rw [readTypeForm]
    exact .exhausted
  properties _ := by
    rw [readPropertyTypes]
    exact .exhausted
  parameters _ := by
    rw [readParameters]
    exact .exhausted
  parameterList _ := by
    rw [readParameterList]
    exact .exhausted

/-- A type, if nested readers go on properly. -/
theorem places_readType (nested : PlaceTypes tokens grammar fuel) (before : Parser) :
    (readType grammar (fuel + 1)).Places tokens before fun _ _ => True := by
  rw [readType]
  apply Places.current
  split
  · exact nested.form before _
  · exact .unexpected

/-- A type of a known form, if nested readers go on properly. -/
theorem places_readTypeForm (nested : PlaceTypes tokens grammar fuel) (before : Parser)
    (form : TypeForm) :
    (readTypeForm grammar (fuel + 1) form).Places tokens before fun _ _ => True := by
  cases form with
  | name =>
    rw [readTypeForm]
    exact places_readTypeName before
  | function =>
    rw [readTypeForm]
    apply (nested.parameters before).bind
    intro _ parser _ _
    apply Places.expectFor (by decide)
    intro _ parser _
    apply (nested.type parser).bind
    intro _ parser _ _
    exact .pure trivial
  | object =>
    rw [readTypeForm]
    apply Places.expect (by decide)
    intro _ parser _
    apply (nested.properties parser).bind
    intro _ parser _ _
    apply Places.expect (by decide)
    intro _ parser _
    exact .pure trivial

/-- The properties of an object type, if nested readers go on properly. -/
theorem places_readPropertyTypes (nested : PlaceTypes tokens grammar fuel) (before : Parser) :
    (readPropertyTypes grammar (fuel + 1)).Places tokens before fun _ _ => True := by
  rw [readPropertyTypes]
  apply Places.nextIs
  split
  · exact .pure trivial
  · apply Places.expectFor (by decide)
    intro _ parser _
    apply Places.expect (by decide)
    intro _ parser _
    apply (nested.type parser).bind
    intro _ parser _ _
    apply Places.nextIs
    apply Places.nextIs
    split
    · rename_i isSeparator
      have more : parser.stream.current.kind ≠ .eof := by
        intro isEnd
        rw [isEnd] at isSeparator
        cases isSeparator
      apply Places.skip more
      intro parser _
      apply (nested.properties parser).bind
      intro _ parser _ _
      exact .pure trivial
    · exact .pure trivial

/-- Parameters between parentheses, if nested readers go on properly. -/
theorem places_readParameters (nested : PlaceTypes tokens grammar fuel) (before : Parser) :
    (readParameters grammar (fuel + 1)).Places tokens before fun _ after =>
      before.stream.current.span.start.toNat < after.stream.passed.toNat := by
  rw [readParameters]
  apply Places.expect (by decide)
  intro open' parser took
  apply (nested.parameterList parser).bind
  intro _ parser' later _
  apply Places.expect (by decide)
  intro close parser'' took'
  refine .pure ?_
  rw [← took.next, took'.passed]
  have opened := took.passed ▸ later
  exact ((took.proper.trans_le opened).trans_le took'.ahead).trans took'.proper

/-- Parameters up to the closing parenthesis, if nested readers go on properly. -/
theorem places_readParameterList (nested : PlaceTypes tokens grammar fuel) (before : Parser) :
    (readParameterList grammar (fuel + 1)).Places tokens before fun _ _ => True := by
  rw [readParameterList]
  apply Places.nextIs
  split
  · exact .pure trivial
  · apply Places.expectFor (by decide)
    intro _ parser _
    apply Places.expectFor (by decide)
    intro _ parser _
    apply (nested.type parser).bind
    intro _ parser _ _
    apply Places.nextIs
    split
    · rename_i isComma
      apply Places.skip (TokenStream.more_of_isKind isComma (by decide))
      intro parser _
      apply (nested.parameterList parser).bind
      intro _ parser _ _
      exact .pure trivial
    · exact .pure trivial

end PlaceTypes

/-- Readers of types go on properly, with any allowance. -/
theorem placeTypes (tokens : List Token) (grammar : Grammar) (fuel : Nat) :
    PlaceTypes tokens grammar fuel := by
  induction fuel with
  | zero => exact .zero tokens grammar
  | succ fuel nested =>
    exact ⟨nested.places_readType, nested.places_readTypeForm, nested.places_readPropertyTypes,
      nested.places_readParameters, nested.places_readParameterList⟩

end Parse

end Equirec
