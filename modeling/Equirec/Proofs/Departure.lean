import Equirec.Proofs.Viability
import Equirec.Proofs.WrittenTerms

/-!
# How readers leave a parser

However a reader ends, with a value or with a fault, it has only taken tokens off the stream, and
never the mark of the end (`TokenStream.Leads`). What becomes of the names of types depends on where
it stopped. A reader that ends with a value leaves no name half declared, and neither does one that
refuses its input, with one exception: where the type in a declaration is refused, the declared name
is still being declared afterwards (`Parser.BreaksOff`).

So a function body that is refused leaves the declared types as they were, and every name stands for
what it stood for before, except for a name whose declaration was broken off: that name stands for
a variable from then on.
-/
namespace Equirec

/-! ## Tokens taken off a stream -/

namespace TokenStream

/-- The stream without so many of its next tokens. -/
def drop (stream : TokenStream) : Nat → TokenStream
  | 0 => stream
  | count + 1 => drop stream.advance count

/-- Tokens are taken one after the other. -/
theorem drop_drop (stream : TokenStream) (first second : Nat) :
    (stream.drop first).drop second = stream.drop (first + second) := by
  induction first generalizing stream with
  | zero => rw [drop, Nat.zero_add]
  | succ first ih => rw [Nat.succ_add, drop, ih, drop]

/-- Whether a stream comes from another by taking tokens other than the mark of the end. -/
def Leads (before after : TokenStream) : Prop :=
  ∃ count, after = before.drop count ∧
    ∀ earlier < count, (before.drop earlier).current.kind ≠ .eof

namespace Leads

variable {first second third : TokenStream}

/-- No token has to be taken. -/
theorem refl (stream : TokenStream) : stream.Leads stream :=
  ⟨0, rfl, fun _ early => absurd early (Nat.not_lt_zero _)⟩

/-- Tokens are taken one after the other. -/
theorem trans (leads : first.Leads second) (leads' : second.Leads third) : first.Leads third := by
  obtain ⟨count, rfl, noEnd⟩ := leads
  obtain ⟨more, rfl, noEnd'⟩ := leads'
  refine ⟨count + more, drop_drop first count more, fun earlier early => ?_⟩
  by_cases isFirst : earlier < count
  · exact noEnd earlier isFirst
  · have later := noEnd' (earlier - count) (by omega)
    rwa [drop_drop, Nat.add_sub_cancel' (Nat.not_lt.1 isFirst)] at later

/-- The next token may be taken where it is not the mark of the end. -/
theorem advance {stream : TokenStream} (more : stream.current.kind ≠ .eof) :
    stream.Leads stream.advance := by
  refine ⟨1, rfl, fun earlier early => ?_⟩
  rw [Nat.lt_one_iff.1 early]
  exact more

end Leads

end TokenStream

/-! ## What is left of a declaration -/

/-- A name that is being declared stands for a variable. -/
theorem Scope.resolve?_begin_self (scope : Scope) (name : String) :
    (scope.begin name).resolve? name = some (.var name) := by
  simp [begin, resolve?]

/-- Every other name stands for the same type as before. -/
theorem Scope.resolve?_begin_of_ne (scope : Scope) {name other : String} (differ : other ≠ name) :
    (scope.begin name).resolve? other = scope.resolve? other := by
  simp [begin, resolve?, differ]

namespace Parser

/-- Whether a parser comes from another by taking tokens other than the mark of the end, and the
same names are being declared. -/
structure Keeps (before after : Parser) : Prop where
  /-- The tokens. -/
  stream : before.stream.Leads after.stream
  /-- The names being declared. -/
  pending : after.scope.pending = before.scope.pending

/-- Whether a fault breaks off the declaration of a name: after some tokens come the keyword `type`,
the name and the sign `=`, and what follows cannot be read as a type, or is read as one that does
not guard the name. -/
def BreaksOff (before : Parser) (name : String) (fault : Fault) (after : Parser) : Prop :=
  ∃ (count : Nat) (scope : Scope) (fuel : Nat) (result : Except (Stop Fault) Ty) (reached : Parser),
    (before.stream.drop count).current.kind = .typeKeyword ∧
    (before.stream.drop (count + 1)).current.kind = .identifier ∧
    (before.stream.drop (count + 1)).current.value = name ∧
    (before.stream.drop (count + 2)).current.kind = .assignment ∧
    scope.pending = before.scope.pending ∧
    (Parse.readType .standard fuel).run.run
      { stream := before.stream.drop (count + 3), scope := scope.begin name } = (result, reached) ∧
    reached.stream = after.stream ∧
    (result = .error (.fault fault) ∨ ∃ body, result = .ok body ∧ body.isGuarded name = false ∧
      fault = ⟨.nonContractiveType name, (before.stream.drop (count + 1)).current.span.start⟩)

/-- Whether a parser comes from another by taking tokens up to a fault, and the same names are being
declared, or one more where the fault breaks off its declaration. -/
structure Halts (declares : Prop) (before : Parser) (fault : Fault) (after : Parser) : Prop where
  /-- The tokens. -/
  stream : before.stream.Leads after.stream
  /-- The names being declared. -/
  pending : after.scope.pending = before.scope.pending ∨ (declares ∧ ∃ name,
    before.BreaksOff name fault after ∧ after.scope.pending = name :: before.scope.pending)

variable {first second third : Parser} {declares : Prop} {fault : Fault}

namespace Keeps

/-- Nothing has to change. -/
theorem refl (parser : Parser) : parser.Keeps parser :=
  ⟨.refl _, rfl⟩

/-- What is kept is kept further. -/
theorem trans (keeps : first.Keeps second) (keeps' : second.Keeps third) : first.Keeps third :=
  ⟨keeps.stream.trans keeps'.stream, keeps'.pending.trans keeps.pending⟩

/-- Taking the next token, where it is not the mark of the end. -/
theorem advanced {parser : Parser} (more : parser.stream.current.kind ≠ .eof) :
    parser.Keeps parser.advanced :=
  ⟨.advance more, rfl⟩

/-- A fault may come after what is kept. -/
theorem halts (keeps : first.Keeps second) : first.Halts declares fault second :=
  ⟨keeps.stream, .inl keeps.pending⟩

/-- A declaration that is broken off after some tokens is broken off before them. -/
theorem breaksOff {name : String} (keeps : first.Keeps second)
    (breaksOff : second.BreaksOff name fault third) : first.BreaksOff name fault third := by
  obtain ⟨before, same, -⟩ := keeps.stream
  obtain ⟨count, scope, fuel, result, reached, stands⟩ := breaksOff
  simp only [same, TokenStream.drop_drop, keeps.pending] at stands
  exact ⟨before + count, scope, fuel, result, reached, stands⟩

/-- A fault after some tokens is one before them. -/
theorem then_halts (keeps : first.Keeps second) (halts : second.Halts declares fault third) :
    first.Halts declares fault third := by
  refine ⟨keeps.stream.trans halts.stream, ?_⟩
  obtain same | ⟨allowed, name, breaksOff, pending⟩ := halts.pending
  · exact .inl (same.trans keeps.pending)
  · rw [keeps.pending] at pending
    exact .inr ⟨allowed, name, keeps.breaksOff breaksOff, pending⟩

end Keeps

end Parser

/-! ## Actions that leave a parser so -/

namespace Parse

variable {α β : Type} {action : Parse α} {next : α → Parse β} {before : Parser} {declares : Prop}
  {fuel : Nat}

/-- Whether an action leaves a parser from which it has only taken tokens, and no name half declared
unless it breaks off a declaration, which not every action can do. -/
def Departs (action : Parse α) (declares : Prop) (before : Parser) : Prop :=
  action.Ends before (fun _ after => before.Keeps after) fun fault after =>
    before.Halts declares fault after

namespace Departs

/-- A fault at once. -/
theorem fail {cause : Cause} {offset : Offset} :
    Departs (Parse.fail cause offset : Parse α) declares before :=
  Ends.fail (Parser.Keeps.refl before).halts

/-- Refusing the next token. -/
theorem unexpected : Departs (Parse.unexpected : Parse α) declares before :=
  Ends.unexpected (Parser.Keeps.refl before).halts

/-- Refusing the next token with a detail. -/
theorem unexpectedFor {detail : String} :
    Departs (Parse.unexpectedFor detail : Parse α) declares before :=
  Ends.unexpectedFor (Parser.Keeps.refl before).halts

/-- An action whose allowance is used up. -/
theorem exhausted : Departs (Parse.exhausted : Parse α) declares before :=
  Ends.exhausted trivial

/-- A value at once. -/
theorem pure {value : α} : Departs (Pure.pure value) declares before :=
  Ends.pure (.refl before)

/-- An action after others have taken tokens. -/
theorem after {parser : Parser} (departs : action.Departs declares parser)
    (keeps : before.Keeps parser) :
    action.Ends parser (fun _ after => before.Keeps after) fun fault after =>
      before.Halts declares fault after :=
  departs.imp (fun _ _ => keeps.trans) fun _ _ => keeps.then_halts

/-- One action and then another. -/
theorem bind (first : action.Departs declares before)
    (second : ∀ value middle, (next value).Departs declares middle) :
    Departs (action >>= next) declares before :=
  Ends.bind first (fun _ _ => id) fun value middle => (second value middle).after

/-- An action that breaks off no declaration may stand where one may be broken off. -/
theorem widen (departs : action.Departs False before) : action.Departs declares before := by
  refine departs.imp (fun _ _ => id) fun _ _ halts => ⟨halts.stream, .inl ?_⟩
  obtain same | ⟨impossible, -⟩ := halts.pending
  · exact same
  · exact impossible.elim

/-- Looking at the next token. -/
theorem current {next : Token → Parse β}
    (second : (next before.stream.current).Departs declares before) :
    Departs (Parse.current >>= next) declares before :=
  Ends.current second

/-- Looking further ahead. -/
theorem peekKind {ahead : Nat} {next : Token.Kind → Parse β}
    (second : (next (before.stream.peek ahead).kind).Departs declares before) :
    Departs (Parse.peekKind ahead >>= next) declares before :=
  Ends.peekKind second

/-- Asking for the kind of the next token. -/
theorem nextIs {kind : Token.Kind} {next : Bool → Parse β}
    (second : (next (before.stream.current.kind == kind)).Departs declares before) :
    Departs (Parse.nextIs kind >>= next) declares before :=
  Ends.nextIs second

/-- Looking at the whole parser. -/
theorem get {next : Parser → Parse β} (second : (next before).Departs declares before) :
    Departs (MonadState.get >>= next) declares before :=
  Ends.get second

/-- Looking where the token taken last ended. -/
theorem spanFrom {start : Offset} {next : Span → Parse β}
    (second : ∀ span, (next span).Departs declares before) :
    Departs (Parse.spanFrom start >>= next) declares before :=
  Ends.spanFrom (second ⟨start, before.stream.passed⟩)

/-- Taking the next token, where it is not the mark of the end. -/
theorem advance {next : Token → Parse β} (more : before.stream.current.kind ≠ .eof)
    (second : (next before.stream.current).Departs declares before.advanced) :
    Departs (Parse.advance >>= next) declares before :=
  Ends.advance (second.after (.advanced more))

/-- Dropping the next token, where it is not the mark of the end. -/
theorem skip {next : Unit → Parse β} (more : before.stream.current.kind ≠ .eof)
    (second : (next ()).Departs declares before.advanced) :
    Departs (Parse.skip >>= next) declares before :=
  Ends.skip (second.after (.advanced more))

/-- Dropping the next token, which is of a kind other than the mark of the end. -/
theorem skipKind {kind : Token.Kind} {next : Unit → Parse β}
    (isKind : (before.stream.current.kind == kind) = true) (differs : kind ≠ .eof)
    (second : ∀ middle, (next ()).Departs declares middle) :
    Departs (Parse.skip >>= next) declares before :=
  skip (TokenStream.more_of_isKind isKind differs) (second _)

/-- Taking the next token, which must be of a kind other than the mark of the end. -/
theorem takeOr {kind : Token.Kind} {otherwise : Parse Token} {next : Token → Parse β}
    (refused : otherwise.Ends before (fun _ _ => False) fun fault after =>
      before.Halts declares fault after)
    (differs : kind ≠ .eof) (second : ∀ token middle, (next token).Departs declares middle) :
    Departs (Parse.takeOr kind otherwise >>= next) declares before := by
  refine Ends.takeOr refused fun isKind => (second _ _).after (.advanced ?_)
  rw [isKind]
  exact differs

/-- Taking the next token, which must be of a kind other than the mark of the end. -/
theorem expect {kind : Token.Kind} {next : Token → Parse β} (differs : kind ≠ .eof)
    (second : ∀ token middle, (next token).Departs declares middle) :
    Departs (Parse.expect kind >>= next) declares before :=
  takeOr (.unexpected (Parser.Keeps.refl before).halts) differs second

/-- Taking the next token, which must be of a kind other than the mark of the end, where a detail is
at hand. -/
theorem expectFor {kind : Token.Kind} {detail : String} {next : Token → Parse β}
    (differs : kind ≠ .eof) (second : ∀ token middle, (next token).Departs declares middle) :
    Departs (Parse.expectFor kind detail >>= next) declares before :=
  takeOr (.unexpectedFor (Parser.Keeps.refl before).halts) differs second

/-- Types declared in an action are forgotten after it. -/
theorem locally (inner : action.Departs declares before) :
    (Parse.locally action).Departs declares before := by
  apply Ends.locally
  apply inner.imp
  · exact fun _ _ keeps => ⟨keeps.stream, keeps.pending⟩
  · exact fun _ _ halts => ⟨halts.stream, halts.pending⟩

end Departs

/-! ## Types -/

/-- The name of a type. -/
theorem departs_readTypeName : readTypeName.Departs False before := by
  apply Departs.expect (by decide)
  intro token middle
  split
  · exact .pure
  · exact .pure
  · apply Departs.get
    split
    · exact .pure
    · exact .fail

/-- How all readers of types leave a parser, with an allowance. They break off no declaration. -/
structure DepartTypes (fuel : Nat) : Prop where
  /-- A type. -/
  type : ∀ before, (readType .standard fuel).Departs False before
  /-- A type of a known form. -/
  form : ∀ form before, (readTypeForm .standard fuel form).Departs False before
  /-- Members of a type. -/
  members : ∀ (listing : Ty.Listing) before, (listing.read fuel).Departs False before
  /-- Parameters with their parentheses. -/
  parameters : ∀ before, (readParameters .standard fuel).Departs False before

namespace DepartTypes

/-- Without an allowance the parser is left as it is. -/
theorem zero : DepartTypes 0 where
  type _ := by
    rw [readType]
    exact .exhausted
  form _ _ := by
    rw [readTypeForm]
    exact .exhausted
  members listing _ := by
    rw [Ty.Listing.read_zero]
    exact .exhausted
  parameters _ := by
    rw [readParameters]
    exact .exhausted

/-- A type, if nested readers leave a parser so. -/
theorem departs_readType (nested : DepartTypes fuel) (before : Parser) :
    (readType .standard (fuel + 1)).Departs False before := by
  rw [readType]
  apply Departs.current
  split
  · rename_i form _
    exact nested.form form before
  · exact .unexpected

/-- A type of a known form, if nested readers leave a parser so. -/
theorem departs_readTypeForm (nested : DepartTypes fuel) (form : TypeForm) (before : Parser) :
    (readTypeForm .standard (fuel + 1) form).Departs False before := by
  cases form with
  | name =>
    rw [readTypeForm]
    exact departs_readTypeName
  | function =>
    rw [readTypeForm]
    apply (nested.parameters before).bind
    intro parameters middle
    apply Departs.expectFor (by decide)
    intro _ middle
    exact (nested.type middle).bind fun _ _ => .pure
  | object =>
    rw [readTypeForm]
    apply Departs.expect (by decide)
    intro _ middle
    apply (nested.members .properties middle).bind
    intro properties middle
    exact Departs.expect (by decide) fun _ _ => .pure

/-- Members of a type, if nested readers leave a parser so. -/
theorem departs_readMembers (nested : DepartTypes fuel) (listing : Ty.Listing) (before : Parser) :
    (listing.read (fuel + 1)).Departs False before := by
  cases listing with
  | parameters =>
    rw [Ty.Listing.read, readParameterList]
    apply Departs.nextIs
    split
    · exact .pure
    · apply Departs.expectFor (by decide)
      intro name middle
      apply Departs.expectFor (by decide)
      intro _ middle
      apply (nested.type middle).bind
      intro type middle
      apply Departs.nextIs
      split
      · rename_i isComma
        apply Departs.skipKind isComma (by decide)
        exact fun middle => (nested.members .parameters middle).bind fun _ _ => .pure
      · exact .pure
  | properties =>
    rw [Ty.Listing.read, readPropertyTypes]
    apply Departs.nextIs
    split
    · exact .pure
    · apply Departs.expectFor (by decide)
      intro name middle
      apply Departs.expect (by decide)
      intro _ middle
      apply (nested.type middle).bind
      intro type middle
      apply Departs.nextIs
      apply Departs.nextIs
      have goesOn : ∀ middle, Departs (Ty.Listing.properties.read fuel >>= fun rest =>
          pure ((name.value, type) :: rest)) False middle :=
        fun middle => (nested.members .properties middle).bind fun _ _ => .pure
      split
      · rename_i separates
        obtain isSemicolon | isComma := Bool.or_eq_true_iff.1 separates
        · exact .skipKind isSemicolon (by decide) goesOn
        · exact .skipKind isComma (by decide) goesOn
      · exact .pure

/-- Parameters, if nested readers leave a parser so. -/
theorem departs_readParameters (nested : DepartTypes fuel) (before : Parser) :
    (readParameters .standard (fuel + 1)).Departs False before := by
  rw [readParameters]
  apply Departs.expect (by decide)
  intro _ middle
  apply (nested.members .parameters middle).bind
  intro parameters middle
  exact Departs.expect (by decide) fun _ _ => .pure

end DepartTypes

/-- How readers of types leave a parser, with any allowance. -/
theorem departTypes (fuel : Nat) : DepartTypes fuel := by
  induction fuel with
  | zero => exact .zero
  | succ fuel nested =>
    exact {
      type := nested.departs_readType
      form := nested.departs_readTypeForm
      members := nested.departs_readMembers
      parameters := nested.departs_readParameters }

/-! ## Terms -/

/-- How all readers of terms leave a parser, with an allowance. -/
structure DepartTerms (fuel : Nat) : Prop where
  /-- A term. -/
  term : ∀ power before, (readTerm .standard fuel power).Departs True before
  /-- What follows a term. -/
  trailing : ∀ power left before, (readTrailing .standard fuel power left).Departs True before
  /-- A term of a known leading form. -/
  leading : ∀ form before, before.stream.current.kind ≠ .eof →
    (readLeading .standard fuel form).Departs True before
  /-- The declared result type of a function. -/
  ascription : ∀ before, (readDeclaredResult .standard fuel).Departs True before
  /-- The properties of an object literal. -/
  properties : ∀ before, (readPropertyList .standard fuel).Departs True before
  /-- A term of a known trailing form. -/
  trailingForm : ∀ form power left before, before.stream.current.kind ≠ .eof →
    (readTrailingForm .standard fuel form power left).Departs True before
  /-- The arguments of a call. -/
  arguments : ∀ before, (readArguments .standard fuel).Departs True before
  /-- The body of a function. -/
  block : ∀ before, (readBlock .standard fuel).Departs True before
  /-- A sequence. -/
  sequence : ∀ ending before, (readSequence .standard fuel ending).Departs True before
  /-- What follows a declaration. -/
  following : ∀ ending before, (readRest .standard fuel ending).Departs True before
  /-- A declaration and what follows it. -/
  declaration : ∀ form ending before,
    Grammar.standard.declarations before.stream.current.kind = some form →
      (readDeclaration .standard fuel form ending).Departs True before

namespace DepartTerms

/-- Without an allowance the parser is left as it is. -/
theorem zero : DepartTerms 0 where
  term _ _ := by
    rw [readTerm]
    exact .exhausted
  trailing _ _ _ := by
    rw [readTrailing]
    exact .exhausted
  leading _ _ _ := by
    rw [readLeading]
    exact .exhausted
  ascription _ := by
    rw [readDeclaredResult]
    exact .exhausted
  properties _ := by
    rw [readPropertyList]
    exact .exhausted
  trailingForm _ _ _ _ _ := by
    rw [readTrailingForm]
    exact .exhausted
  arguments _ := by
    rw [readArguments]
    exact .exhausted
  block _ := by
    rw [readBlock]
    exact .exhausted
  sequence _ _ := by
    rw [readSequence]
    exact .exhausted
  following _ _ := by
    rw [readRest]
    exact .exhausted
  declaration _ _ _ _ := by
    rw [readDeclaration]
    exact .exhausted

/-- A term, if nested readers leave a parser so. -/
theorem departs_readTerm (nested : DepartTerms fuel) (power : Power) (before : Parser) :
    (readTerm .standard (fuel + 1) power).Departs True before := by
  rw [readTerm]
  apply Departs.current
  split
  · rename_i form isLeading
    have more := Grammar.ne_eof_of_entry Grammar.standard_stopsAtEnd.leading isLeading
    exact (nested.leading form before more).bind (nested.trailing power)
  · exact .unexpected

/-- What follows a term, if nested readers leave a parser so. -/
theorem departs_readTrailing (nested : DepartTerms fuel) (power : Power) (left : Term)
    (before : Parser) : (readTrailing .standard (fuel + 1) power left).Departs True before := by
  rw [readTrailing]
  apply Departs.current
  split
  · rename_i form binding isTrailing
    have more := Grammar.ne_eof_of_entry Grammar.standard_stopsAtEnd.trailing isTrailing
    split
    · exact (nested.trailingForm form binding left before more).bind (nested.trailing power)
    · exact .pure
  · exact .pure

/-- A literal or a name. -/
theorem departs_readPrimary (more : before.stream.current.kind ≠ .eof) :
    readPrimary.Departs True before := by
  rw [readPrimary]
  apply Departs.current
  split
  · split
    · exact .skip more .pure
    · exact .fail
  · exact .skip more .pure
  · exact .skip more .pure
  · exact .skip more .pure
  · exact .unexpected

/-- A term of a known leading form, if nested readers leave a parser so. -/
theorem departs_readLeading (nested : DepartTerms fuel) (form : LeadingForm) (before : Parser)
    (more : before.stream.current.kind ≠ .eof) :
    (readLeading .standard (fuel + 1) form).Departs True before := by
  cases form with
  | primary =>
    rw [readLeading]
    exact departs_readPrimary more
  | parenthesis =>
    rw [readLeading]
    apply Departs.peekKind
    apply Departs.peekKind
    split
    · exact nested.leading .arrow before more
    · apply Departs.skip more
      apply (nested.term .lowest before.advanced).bind
      intro term middle
      exact Departs.expect (by decide) fun _ _ => .pure
  | object =>
    rw [readLeading]
    apply Departs.advance more
    apply (nested.properties before.advanced).bind
    intro properties middle
    apply Departs.expect (by decide)
    exact fun _ middle => .spanFrom fun _ => .pure
  | arrow =>
    rw [readLeading]
    apply Departs.current
    apply ((departTypes fuel).parameters before).widen.bind
    intro parameters middle
    apply (nested.ascription middle).bind
    intro declared middle
    apply Departs.expectFor (by decide)
    intro _ middle
    apply Departs.nextIs
    dsimp only
    split
    · exact (nested.block middle).bind fun _ _ => .spanFrom fun _ => .pure
    · exact (nested.term .lowest middle).bind fun _ _ => .spanFrom fun _ => .pure

/-- The declared result type of a function. -/
theorem departs_readDeclaredResult (before : Parser) :
    (readDeclaredResult .standard (fuel + 1)).Departs True before := by
  rw [readDeclaredResult]
  apply Departs.nextIs
  split
  · rename_i isColon
    apply Departs.skipKind isColon (by decide)
    exact fun middle => ((departTypes fuel).type middle).widen.bind fun _ _ => .pure
  · exact .pure

/-- The properties of an object literal, if nested readers leave a parser so. -/
theorem departs_readPropertyList (nested : DepartTerms fuel) (before : Parser) :
    (readPropertyList .standard (fuel + 1)).Departs True before := by
  rw [readPropertyList]
  apply Departs.nextIs
  split
  · exact .pure
  · apply Departs.expectFor (by decide)
    intro name middle
    apply Departs.expect (by decide)
    intro _ middle
    apply (nested.term .lowest middle).bind
    intro value middle
    apply Departs.nextIs
    split
    · rename_i isComma
      apply Departs.skipKind isComma (by decide)
      exact fun middle => (nested.properties middle).bind fun _ _ => .pure
    · exact .pure

/-- A term of a known trailing form, if nested readers leave a parser so. -/
theorem departs_readTrailingForm (nested : DepartTerms fuel) (form : TrailingForm) (power : Power)
    (left : Term) (before : Parser) (more : before.stream.current.kind ≠ .eof) :
    (readTrailingForm .standard (fuel + 1) form power left).Departs True before := by
  cases form with
  | add =>
    rw [readTrailingForm]
    apply Departs.skip more
    exact (nested.term power before.advanced).bind fun _ _ => .pure
  | conditional =>
    rw [readTrailingForm]
    apply Departs.skip more
    apply (nested.term .lowest before.advanced).bind
    intro positive middle
    apply Departs.expectFor (by decide)
    intro _ middle
    exact (nested.term .lowest middle).bind fun _ _ => .pure
  | call =>
    rw [readTrailingForm]
    apply Departs.skip more
    apply (nested.arguments before.advanced).bind
    intro arguments middle
    apply Departs.expect (by decide)
    exact fun _ _ => .spanFrom fun _ => .pure
  | property =>
    rw [readTrailingForm, readProperty]
    apply Departs.skip more
    apply Departs.expectFor (by decide)
    exact fun _ _ => .spanFrom fun _ => .pure

/-- The arguments of a call, if nested readers leave a parser so. -/
theorem departs_readArguments (nested : DepartTerms fuel) (before : Parser) :
    (readArguments .standard (fuel + 1)).Departs True before := by
  rw [readArguments]
  apply Departs.nextIs
  split
  · exact .pure
  · apply (nested.term .lowest before).bind
    intro argument middle
    apply Departs.nextIs
    split
    · rename_i isComma
      apply Departs.skipKind isComma (by decide)
      exact fun middle => (nested.arguments middle).bind fun _ _ => .pure
    · exact .pure

/-- The body of a function, if nested readers leave a parser so. -/
theorem departs_readBlock (nested : DepartTerms fuel) (before : Parser) :
    (readBlock .standard (fuel + 1)).Departs True before := by
  rw [readBlock]
  apply Departs.expectFor (by decide)
  intro _ middle
  apply (nested.sequence .result middle).locally.bind
  intro body middle
  exact Departs.expect (by decide) fun _ _ => .pure

/-- A sequence, if nested readers leave a parser so. -/
theorem departs_readSequence (nested : DepartTerms fuel) (ending : Ending) (before : Parser) :
    (readSequence .standard (fuel + 1) ending).Departs True before := by
  have goesOn : ∀ (first : Term) middle, Departs (readSequence .standard fuel ending >>= fun rest =>
      pure (Term.sequence (first.span.through rest.span) first rest)) True middle :=
    fun first middle => (nested.sequence ending middle).bind fun _ _ => .pure
  rw [readSequence]
  apply Departs.current
  split
  · rename_i form isDeclaration
    exact nested.declaration form _ before isDeclaration
  · apply Departs.nextIs
    split
    · rename_i isReturn
      apply Departs.skipKind isReturn (by decide)
      intro middle
      apply (nested.term .lowest middle).bind
      intro value middle
      exact Departs.expect (by decide) fun _ _ => .pure
    · apply (nested.term .lowest before).bind
      intro first middle
      exact Departs.expect (by decide) fun _ => goesOn first
  · apply (nested.term .lowest before).bind
    intro first middle
    apply Departs.nextIs
    split
    · rename_i isSemicolon
      apply Departs.skipKind isSemicolon (by decide)
      intro middle
      apply Departs.nextIs
      split
      · exact .pure
      · exact goesOn first middle
    · exact .pure

/-- What follows a declaration, if nested readers leave a parser so. -/
theorem departs_readRest (nested : DepartTerms fuel) (ending : Ending) (before : Parser) :
    (readRest .standard (fuel + 1) ending).Departs True before := by
  rw [readRest]
  apply Departs.nextIs
  split
  · exact .unexpectedFor
  · exact nested.sequence ending before

/-- The declaration of a name for a type, if nested readers leave a parser so. Where the type is
refused, or does not guard the name, the declaration is broken off. -/
theorem departs_typeDeclaration (nested : DepartTerms fuel) (ending : Ending) (before : Parser)
    (isType : before.stream.current.kind = .typeKeyword) :
    (readDeclaration .standard (fuel + 1) .alias ending).Departs True before := by
  have more : before.stream.current.kind ≠ .eof := by rw [isType]; decide
  have first := Parser.Keeps.advanced more
  rw [readDeclaration]
  apply Ends.skip
  refine Ends.expect first.halts fun isName => ?_
  have second := first.trans (.advanced (by rw [isName]; decide))
  refine Ends.expect second.halts fun isAssignment => ?_
  have third := second.trans (.advanced (by rw [isAssignment]; decide))
  set name := before.advanced.stream.current
  apply Ends.change
  -- While the type is read the name is being declared, and so it is where this ends with a fault.
  apply ((departTypes fuel).type _).withRun.bind
  · rintro fault after ⟨ended, halts⟩
    obtain same | ⟨impossible, -⟩ := halts.pending
    · have brokenOff : before.BreaksOff name.value fault after :=
        ⟨0, before.scope, fuel, _, _, isType, isName, rfl, isAssignment, rfl, ended, rfl, .inl rfl⟩
      exact ⟨third.stream.trans halts.stream, .inr ⟨trivial, name.value, brokenOff, same⟩⟩
    · exact impossible.elim
  · rintro body after ⟨ended, keeps⟩
    dsimp only
    split
    · rename_i unguarded
      rw [Bool.not_eq_true'] at unguarded
      have brokenOff : before.BreaksOff name.value
          ⟨.nonContractiveType name.value, name.span.start⟩ after :=
        ⟨0, before.scope, fuel, _, _, isType, isName, rfl, isAssignment, rfl, ended, rfl,
          .inr ⟨body, rfl, unguarded, rfl⟩⟩
      apply Ends.fail
      exact ⟨third.stream.trans keeps.stream, .inr ⟨trivial, name.value, brokenOff, keeps.pending⟩⟩
    · apply Ends.change
      have finished : before.Keeps { after with
          scope := after.scope.finish name.value
            (if body.occurs name.value = true then .mu name.value body else body) } :=
        ⟨third.stream.trans keeps.stream, congrArg List.tail keeps.pending⟩
      have rest : ∀ middle, Departs (expect .semicolon >>= fun _ =>
          readRest .standard fuel ending) True middle :=
        fun _ => Departs.expect (by decide) fun _ => nested.following ending
      exact (rest _).after finished

/-- A declaration, if nested readers leave a parser so. -/
theorem departs_readDeclaration (nested : DepartTerms fuel) (form : DeclarationForm)
    (ending : Ending) (before : Parser)
    (isForm : Grammar.standard.declarations before.stream.current.kind = some form) :
    (readDeclaration .standard (fuel + 1) form ending).Departs True before := by
  have more := Grammar.ne_eof_of_entry Grammar.standard_stopsAtEnd.declarations isForm
  have types := departTypes fuel
  cases form with
  | constant =>
    rw [readDeclaration]
    apply Departs.advance more
    apply Departs.expectFor (by decide)
    intro name middle
    apply (nested.ascription middle).bind
    intro _ middle
    apply Departs.expectFor (by decide)
    intro _ middle
    apply (nested.term .lowest middle).bind
    intro value middle
    apply Departs.expect (by decide)
    intro _ middle
    exact (nested.following ending middle).bind fun _ _ => .pure
  | function =>
    rw [readDeclaration]
    apply Departs.advance more
    apply Departs.expectFor (by decide)
    intro name middle
    apply (types.parameters middle).widen.bind
    intro parameters middle
    apply Departs.expectFor (by decide)
    intro _ middle
    apply (types.type middle).widen.bind
    intro declared middle
    apply (nested.block middle).bind
    intro body middle
    exact (nested.following ending middle).bind fun _ _ => .pure
  | _ => exact nested.departs_typeDeclaration ending before (eq_keyword_of_declarations isForm)

end DepartTerms

/-- How readers of terms leave a parser, with any allowance. -/
theorem departTerms (fuel : Nat) : DepartTerms fuel := by
  induction fuel with
  | zero => exact .zero
  | succ fuel nested =>
    exact {
      term := nested.departs_readTerm
      trailing := nested.departs_readTrailing
      leading := nested.departs_readLeading
      ascription := DepartTerms.departs_readDeclaredResult
      properties := nested.departs_readPropertyList
      trailingForm := nested.departs_readTrailingForm
      arguments := nested.departs_readArguments
      block := nested.departs_readBlock
      sequence := nested.departs_readSequence
      following := nested.departs_readRest
      declaration := nested.departs_readDeclaration }

/-! ## Function bodies that are refused -/

/-- A function body that is refused leaves the declared types as they were. -/
theorem aliases_of_readBlock (fuel : Nat) (before : Parser) :
    (readBlock .standard fuel).Ends before (fun _ _ => True) fun _ after =>
      after.scope.aliases = before.scope.aliases := by
  cases fuel with
  | zero =>
    rw [readBlock]
    exact .exhausted trivial
  | succ fuel =>
    have body : (locally (readSequence .standard fuel .result)).Ends before.advanced
        (fun _ after => after.scope.aliases = before.scope.aliases)
        fun _ after => after.scope.aliases = before.scope.aliases :=
      .locally ⟨fun _ _ _ => rfl, fun _ _ _ => rfl, fun _ _ => trivial⟩
    rw [readBlock]
    refine Ends.expectFor rfl fun _ => ?_
    apply body.bind fun _ _ => id
    intro term after restored
    exact Ends.expect restored fun _ => .pure trivial

/-- A function body that is refused leaves the declared types as they were. No name is being
declared that was not before, except for one whose declaration the fault breaks off, and every other
name stands for what it stood for. -/
theorem block_fault_scope {before after : Parser} {fault : Fault} {fuel : Nat}
    (refused : (readBlock .standard fuel).run.run before = (.error (.fault fault), after)) :
    after.scope.aliases = before.scope.aliases ∧
      (after.scope.pending = before.scope.pending ∨ ∃ name, before.BreaksOff name fault after ∧
        after.scope.pending = name :: before.scope.pending) ∧
      ∀ name, after.scope.resolve? name = before.scope.resolve? name ∨
        (before.BreaksOff name fault after ∧ after.scope.resolve? name = some (.var name)) := by
  have aliases := (aliases_of_readBlock fuel before).refuses fault after refused
  have halts := ((departTerms fuel).block before).refuses fault after refused
  obtain same | ⟨-, name, brokenOff, pending⟩ := halts.pending
  · refine ⟨aliases, .inl same, fun name => .inl ?_⟩
    rw [Scope.resolve?, Scope.resolve?, aliases, same]
  · refine ⟨aliases, .inr ⟨name, brokenOff, pending⟩, fun other => ?_⟩
    have scope : after.scope = before.scope.begin name := by
      rw [Scope.begin, ← aliases, ← pending]
    by_cases isName : other = name
    · rw [isName, scope]
      exact .inr ⟨brokenOff, Scope.resolve?_begin_self _ name⟩
    · rw [scope]
      exact .inl (Scope.resolve?_begin_of_ne _ isName)

/-- The tokens of a function body that declares a name and gives no type for it. -/
def brokenBody : List Token :=
  [.bare .openCurly "\x7b", .bare .typeKeyword "type", .bare .identifier "a",
    .bare .assignment "=", .bare .semicolon ";", .bare .returnKeyword "return",
    .bare .trueKeyword "true", .bare .semicolon ";", .bare .closeCurly "\x7d", .bare .eof "EOF"]

/-- The parser of that body where two names stand for types, and a third is being declared. -/
def brokenBodyParser : Parser where
  stream := ⟨brokenBody, .bare .eof "EOF", 0⟩
  scope := { aliases := [("a", .number), ("b", .boolean)], pending := ["c"] }

/-- The body is refused where the type is missing. -/
theorem readBlock_brokenBody : (readBlock .standard 40).run.run brokenBodyParser =
    (.error (.fault ⟨.unexpectedToken ";", 0⟩),
      { stream := ⟨brokenBody.drop 4, .bare .eof "EOF", 0⟩
        scope := brokenBodyParser.scope.begin "a" }) := by
  rfl

/-- Where the declaration in a body is broken off, the name stands for a variable afterwards, and
the others for what they stood for. -/
theorem block_fault_scope_brokenBody :
    ∃ fault after, (readBlock .standard 40).run.run brokenBodyParser =
        (.error (.fault fault), after) ∧
      after.scope.aliases = [("a", .number), ("b", .boolean)] ∧
      brokenBodyParser.BreaksOff "a" fault after ∧
      after.scope.resolve? "a" = some (.var "a") ∧ after.scope.resolve? "b" = some .boolean := by
  obtain ⟨aliases, -, names⟩ := block_fault_scope readBlock_brokenBody
  refine ⟨_, _, readBlock_brokenBody, aliases, ?_, rfl, rfl⟩
  obtain same | ⟨brokenOff, -⟩ := names "a"
  · cases same
  · exact brokenOff

/-- Not every function body that is refused leaves all names as they were. -/
theorem block_fault_changes_name :
    ¬ ∀ (before after : Parser) (fault : Fault) (fuel : Nat),
      (readBlock .standard fuel).run.run before = (.error (.fault fault), after) →
        ∀ name, after.scope.resolve? name = before.scope.resolve? name := by
  intro unchanged
  cases unchanged _ _ _ _ readBlock_brokenBody "a"

end Parse

end Equirec
