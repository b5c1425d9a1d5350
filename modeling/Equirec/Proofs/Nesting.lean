import Equirec.Proofs.Placement

/-!
# Spans of terms nest

Every subterm of a program that is read stands properly on the tokens of the source
(`Term.nested_of_ofTokens`): the parentheses around a term and the declarations of types between
terms leave gaps, but nothing overlaps, and nothing sticks out of what it is a part of.
-/
namespace Equirec

namespace Parse

variable {tokens : List Token}

/-- A term that is a single token. -/
theorem lies_of_took {before parser : Parser} {token : Token}
    (took : before.Took tokens token parser) {term : Term} (isSpan : term.span = token.span)
    (noParts : term.parts = []) :
    term.Lies tokens before.stream.passed.toNat parser.stream.passed.toNat := by
  have row : Term.Row tokens token.span.start.toNat token.span.stop.toNat term.parts := by
    rw [noParts]
    exact .nil took.proper.le
  rw [← took.passed] at row
  exact row.node (by rw [isSpan, took.passed]) took.starts took.ends
    (took.proper.trans_eq (congrArg _ took.passed.symm)) took.ahead (Nat.le_refl _)

/-- A literal or a name. -/
theorem places_readPrimary (before : Parser) :
    readPrimary.Places tokens before fun term after =>
      term.Lies tokens before.stream.passed.toNat after.stream.passed.toNat := by
  rw [readPrimary]
  apply Places.ofStands
  intro stands
  apply Places.current
  split
  · rename_i isNumber
    split
    · apply Places.skip (by rw [isNumber]; decide)
      intro parser took
      exact .pure (lies_of_took took rfl rfl)
    · exact .fail stands.current_mem
  · rename_i isName
    apply Places.skip (by rw [isName]; decide)
    intro parser took
    exact .pure (lies_of_took took rfl rfl)
  · rename_i isTrue
    apply Places.skip (by rw [isTrue]; decide)
    intro parser took
    exact .pure (lies_of_took took rfl rfl)
  · rename_i isFalse
    apply Places.skip (by rw [isFalse]; decide)
    intro parser took
    exact .pure (lies_of_took took rfl rfl)
  · exact .unexpected

/-- Whether an action reads a term that lies between where the parser stood and where it then
stands. -/
def PlacesTerm (tokens : List Token) (action : Parse Term) (before : Parser) : Prop :=
  action.Places tokens before fun term after =>
    term.Lies tokens before.stream.passed.toNat after.stream.passed.toNat

/-- How all readers of terms go on with an allowance. -/
structure PlaceTerms (tokens : List Token) (grammar : Grammar) (fuel : Nat) : Prop where
  /-- A term. -/
  term : ∀ before power, (readTerm grammar fuel power).PlacesTerm tokens before
  /-- What follows a term, which then lies where that started. -/
  trailing : ∀ (before : Parser) (power : Power) (left : Term) (low : Nat),
    left.Lies tokens low before.stream.passed.toNat →
      (readTrailing grammar fuel power left).Places tokens before fun term after =>
        term.Lies tokens low after.stream.passed.toNat
  /-- A term of a known leading form. -/
  leading : ∀ (before : Parser) (form : LeadingForm), before.stream.current.kind ≠ .eof →
    (readLeading grammar fuel form).PlacesTerm tokens before
  /-- The declared result type of an arrow function. -/
  declaredResult : ∀ before, (readDeclaredResult grammar fuel).Places tokens before fun _ _ => True
  /-- The properties of an object literal. -/
  propertyList : ∀ before, (readPropertyList grammar fuel).Places tokens before
    fun properties after => Term.Row tokens before.stream.passed.toNat
      after.stream.passed.toNat (properties.map Prod.snd)
  /-- A term of a known trailing form, which lies where the term before it started. -/
  trailingForm : ∀ (before : Parser) (form : TrailingForm) (power : Power) (left : Term)
    (low : Nat), before.stream.current.kind ≠ .eof →
      left.Lies tokens low before.stream.passed.toNat →
        (readTrailingForm grammar fuel form power left).Places tokens before fun term after =>
          term.Lies tokens low after.stream.passed.toNat
  /-- The arguments of a call. -/
  arguments : ∀ before, (readArguments grammar fuel).Places tokens before fun arguments after =>
    Term.Row tokens before.stream.passed.toNat after.stream.passed.toNat arguments
  /-- The body of a function. -/
  block : ∀ before, (readBlock grammar fuel).PlacesTerm tokens before
  /-- A sequence. -/
  sequence : ∀ before ending, (readSequence grammar fuel ending).PlacesTerm tokens before
  /-- What follows a declaration. -/
  rest : ∀ before ending, (readRest grammar fuel ending).PlacesTerm tokens before
  /-- A declaration and what follows it. -/
  declaration : ∀ (before : Parser) (form : DeclarationForm) (ending : Ending),
    before.stream.current.kind ≠ .eof →
      (readDeclaration grammar fuel form ending).PlacesTerm tokens before

namespace PlaceTerms

variable {grammar : Grammar} {fuel : Nat}

/-- Without an allowance all readers are cut short. -/
theorem zero (tokens : List Token) (grammar : Grammar) : PlaceTerms tokens grammar 0 where
  term _ _ := by
    rw [readTerm]
    exact Places.exhausted
  trailing _ _ _ _ _ := by
    rw [readTrailing]
    exact .exhausted
  leading _ _ _ := by
    rw [readLeading]
    exact Places.exhausted
  declaredResult _ := by
    rw [readDeclaredResult]
    exact .exhausted
  propertyList _ := by
    rw [readPropertyList]
    exact .exhausted
  trailingForm _ _ _ _ _ _ _ := by
    rw [readTrailingForm]
    exact .exhausted
  arguments _ := by
    rw [readArguments]
    exact .exhausted
  block _ := by
    rw [readBlock]
    exact Places.exhausted
  sequence _ _ := by
    rw [readSequence]
    exact Places.exhausted
  rest _ _ := by
    rw [readRest]
    exact Places.exhausted
  declaration _ _ _ _ := by
    rw [readDeclaration]
    exact Places.exhausted

/-- A term, if nested readers go on properly. -/
theorem places_readTerm (stops : grammar.StopsAtEnd) (nested : PlaceTerms tokens grammar fuel)
    (before : Parser) (power : Power) :
    (readTerm grammar (fuel + 1) power).PlacesTerm tokens before := by
  rw [readTerm]
  apply Places.current
  split
  · rename_i form isLeading
    apply Places.bind (nested.leading before form (Grammar.ne_eof_of_entry stops.leading isLeading))
    intro left parser _ lies
    exact nested.trailing parser power left _ lies
  · exact Places.unexpected

/-- What follows a term, if nested readers go on properly. -/
theorem places_readTrailing (stops : grammar.StopsAtEnd)
    (nested : PlaceTerms tokens grammar fuel) (before : Parser) (power : Power) (left : Term)
    (low : Nat) (lies : left.Lies tokens low before.stream.passed.toNat) :
    (readTrailing grammar (fuel + 1) power left).Places tokens before fun term after =>
      term.Lies tokens low after.stream.passed.toNat := by
  rw [readTrailing]
  apply Places.current
  split
  · rename_i form binding isTrailing
    have more := Grammar.ne_eof_of_entry stops.trailing isTrailing
    split
    · apply (nested.trailingForm before form binding left low more lies).bind
      intro longer parser _ lies
      exact nested.trailing parser power longer low lies
    · exact .pure lies
  · exact .pure lies

/-- A function literal after its body. Its span ends with the token that was taken last, which may
be the last one of its body or the brace after that. -/
theorem places_function {parser : Parser} {parameters : List (String × Ty)}
    {declared : Option Ty} {body : Term} {start : Offset} {low middle : Nat}
    (starts : Token.StartsAt tokens start) (ahead : low ≤ start.toNat)
    (ordered : start.toNat ≤ middle)
    (lies : body.Lies tokens middle parser.stream.passed.toNat) :
    Places tokens (spanFrom start >>= fun span =>
      Pure.pure (Term.function span parameters declared body)) parser fun term after =>
        term.Lies tokens low after.stream.passed.toNat := by
  apply Places.ofStands
  intro stands
  apply Places.spanFrom
  have row := Term.Row.single (lies.widen ordered (Nat.le_refl _))
  have ends := stands.passed ((Nat.zero_le _).trans_lt lies.low_lt_high)
  exact .pure (row.node rfl starts ends row.low_lt_high ahead (Nat.le_refl _))

/-- A term of a known leading form, if nested readers go on properly. -/
theorem places_readLeading (types : PlaceTypes tokens grammar fuel)
    (nested : PlaceTerms tokens grammar fuel) (before : Parser) (form : LeadingForm)
    (more : before.stream.current.kind ≠ .eof) :
    (readLeading grammar (fuel + 1) form).PlacesTerm tokens before := by
  cases form with
  | primary =>
    rw [readLeading]
    exact places_readPrimary before
  | parenthesis =>
    rw [readLeading]
    apply Places.peekKind
    apply Places.peekKind
    split
    · exact nested.leading before .arrow more
    · apply Places.skip more
      intro inside took
      apply Places.bind (nested.term inside .lowest)
      intro term parser _ lies
      apply Places.expect (by decide)
      intro _ outside took'
      exact .pure (lies.widen took.passed_lt.le took'.passed_lt.le)
  | object =>
    rw [readLeading]
    apply Places.advance more
    intro inside took
    apply (nested.propertyList inside).bind
    intro properties parser later row
    apply Places.expect (by decide)
    intro close outside took'
    apply Places.spanFrom
    rw [took.passed] at later row
    have proper := (took.proper.trans_le later).trans took'.passed_lt
    exact .pure ((row.widen took.proper.le took'.passed_lt.le).node rfl took.starts took'.ends
      proper took.ahead (Nat.le_refl _))
  | arrow =>
    rw [readLeading]
    apply Places.ofStands
    intro stands
    have starts := stands.startsAt_current more
    have ahead := stands.passed_le_current more
    apply Places.current
    apply (types.parameters before).bind
    intro parameters known _ opened
    apply (nested.declaredResult known).bind
    intro declared typed later _
    apply Places.expectFor (by decide)
    intro _ parser took
    have ordered := ((opened.trans_le later).trans took.passed_lt).le
    apply Places.nextIs
    dsimp only
    split
    · apply Places.bind (nested.block parser)
      intro body last _ lies
      exact places_function starts ahead ordered lies
    · apply Places.bind (nested.term parser .lowest)
      intro body last _ lies
      exact places_function starts ahead ordered lies

/-- The declared result type of an arrow function, if nested readers go on properly. -/
theorem places_readDeclaredResult (types : PlaceTypes tokens grammar fuel) (before : Parser) :
    (readDeclaredResult grammar (fuel + 1)).Places tokens before fun _ _ => True := by
  rw [readDeclaredResult]
  apply Places.nextIs
  split
  · rename_i isColon
    apply Places.skip (TokenStream.more_of_isKind isColon (by decide))
    intro parser _
    apply (types.type parser).bind
    intro _ parser _ _
    exact .pure trivial
  · exact .pure trivial

/-- The properties of an object literal, if nested readers go on properly. -/
theorem places_readPropertyList (nested : PlaceTerms tokens grammar fuel) (before : Parser) :
    (readPropertyList grammar (fuel + 1)).Places tokens before fun properties after =>
      Term.Row tokens before.stream.passed.toNat after.stream.passed.toNat
        (properties.map Prod.snd) := by
  rw [readPropertyList]
  apply Places.nextIs
  split
  · exact .pure (.nil (Nat.le_refl _))
  · apply Places.expectFor (by decide)
    intro name named took
    apply Places.expect (by decide)
    intro _ parser took'
    have later := (took.passed_lt.trans took'.passed_lt).le
    apply Places.bind (nested.term parser .lowest)
    intro value valued _ lies
    apply Places.nextIs
    split
    · rename_i isComma
      apply Places.skip (TokenStream.more_of_isKind isComma (by decide))
      intro parser comma
      apply (nested.propertyList parser).bind
      intro rest last _ row
      exact .pure (.cons (lies.widen later comma.passed_lt.le) row)
    · exact .pure (.single (lies.widen later (Nat.le_refl _)))

/-- The arguments of a call, if nested readers go on properly. -/
theorem places_readArguments (nested : PlaceTerms tokens grammar fuel) (before : Parser) :
    (readArguments grammar (fuel + 1)).Places tokens before fun arguments after =>
      Term.Row tokens before.stream.passed.toNat after.stream.passed.toNat arguments := by
  rw [readArguments]
  apply Places.nextIs
  split
  · exact .pure (.nil (Nat.le_refl _))
  · apply Places.bind (nested.term before .lowest)
    intro argument parser _ lies
    apply Places.nextIs
    split
    · rename_i isComma
      apply Places.skip (TokenStream.more_of_isKind isComma (by decide))
      intro parser comma
      apply (nested.arguments parser).bind
      intro rest last _ row
      exact .pure (.cons (lies.widen (Nat.le_refl _) comma.passed_lt.le) row)
    · exact .pure (.single lies)

/-- A term of a known trailing form, if nested readers go on properly. -/
theorem places_readTrailingForm (nested : PlaceTerms tokens grammar fuel) (before : Parser)
    (form : TrailingForm) (power : Power) (left : Term) (low : Nat)
    (more : before.stream.current.kind ≠ .eof)
    (lies : left.Lies tokens low before.stream.passed.toNat) :
    (readTrailingForm grammar (fuel + 1) form power left).Places tokens before
      fun term after => term.Lies tokens low after.stream.passed.toNat := by
  have starts := lies.self.starts
  cases form with
  | add =>
    rw [readTrailingForm]
    apply Places.skip more
    intro parser took
    apply Places.bind (nested.term parser power)
    intro right last _ lies'
    have row : Term.Row tokens left.span.start.toNat right.span.stop.toNat [left, right] :=
      .cons (lies.fromStart.widen (Nat.le_refl _) took.passed_lt.le) (.single lies'.toStop)
    exact .pure (row.node rfl starts lies'.self.ends row.low_lt_high lies.low_le lies'.le_high)
  | conditional =>
    rw [readTrailingForm]
    apply Places.skip more
    intro parser took
    apply Places.bind (nested.term parser .lowest)
    intro positive chosen _ holds
    apply Places.expectFor (by decide)
    intro _ parser colon
    apply Places.bind (nested.term parser .lowest)
    intro negative last _ fails
    have row : Term.Row tokens left.span.start.toNat negative.span.stop.toNat
        [left, positive, negative] :=
      .cons (lies.fromStart.widen (Nat.le_refl _) took.passed_lt.le)
        (.cons (holds.widen (Nat.le_refl _) colon.passed_lt.le) (.single fails.toStop))
    exact .pure (row.node rfl starts fails.self.ends row.low_lt_high lies.low_le fails.le_high)
  | call =>
    rw [readTrailingForm]
    apply Places.skip more
    intro parser took
    apply (nested.arguments parser).bind
    intro arguments parser _ values
    apply Places.expect (by decide)
    intro close last took'
    apply Places.spanFrom
    have row : Term.Row tokens left.span.start.toNat last.stream.passed.toNat
        (left :: arguments) :=
      .cons (lies.fromStart.widen (Nat.le_refl _) took.passed_lt.le)
        (values.widen (Nat.le_refl _) took'.passed_lt.le)
    exact .pure (row.node rfl starts took'.ends row.low_lt_high lies.low_le (Nat.le_refl _))
  | property =>
    rw [readTrailingForm, readProperty]
    apply Places.skip more
    intro parser took
    apply Places.expectFor (by decide)
    intro name last took'
    apply Places.spanFrom
    have later := (took.passed_lt.trans took'.passed_lt).le
    have row : Term.Row tokens left.span.start.toNat last.stream.passed.toNat [left] :=
      .single (lies.fromStart.widen (Nat.le_refl _) later)
    exact .pure (row.node rfl starts took'.ends row.low_lt_high lies.low_le (Nat.le_refl _))

/-- The body of a function, if nested readers go on properly. -/
theorem places_readBlock (nested : PlaceTerms tokens grammar fuel) (before : Parser) :
    (readBlock grammar (fuel + 1)).PlacesTerm tokens before := by
  rw [readBlock]
  apply Places.expectFor (by decide)
  intro _ inside took
  have body : (locally (readSequence grammar fuel .result)).PlacesTerm tokens inside :=
    Places.locally (nested.sequence inside .result)
  apply Places.bind body
  intro body parser _ lies
  apply Places.expect (by decide)
  intro _ outside took'
  exact .pure (lies.widen took.passed_lt.le took'.passed_lt.le)

/-- What follows a first term and its semicolon in a sequence. -/
theorem places_followed (nested : PlaceTerms tokens grammar fuel) (ending : Ending) {first : Term}
    {parser : Parser} {low high : Nat} (lies : first.Lies tokens low high)
    (later : high ≤ parser.stream.passed.toNat) :
    Places tokens (readSequence grammar fuel ending >>= fun rest =>
      Pure.pure (Term.sequence (first.span.through rest.span) first rest)) parser
      fun term after => term.Lies tokens low after.stream.passed.toNat := by
  apply Places.bind (nested.sequence parser ending)
  intro rest last _ lies'
  have row : Term.Row tokens first.span.start.toNat rest.span.stop.toNat [first, rest] :=
    .cons (lies.fromStart.widen (Nat.le_refl _) later) (.single lies'.toStop)
  exact .pure (row.node rfl lies.self.starts lies'.self.ends row.low_lt_high lies.low_le
    lies'.le_high)

/-- A sequence, if nested readers go on properly. -/
theorem places_readSequence (stops : grammar.StopsAtEnd) (nested : PlaceTerms tokens grammar fuel)
    (before : Parser) (ending : Ending) :
    (readSequence grammar (fuel + 1) ending).PlacesTerm tokens before := by
  rw [readSequence]
  apply Places.current
  split
  · rename_i form isDeclaration
    have more := Grammar.ne_eof_of_entry stops.declarations isDeclaration
    exact nested.declaration before form _ more
  · apply Places.nextIs
    split
    · rename_i isReturn
      apply Places.skip (TokenStream.more_of_isKind isReturn (by decide))
      intro parser took
      apply Places.bind (nested.term parser .lowest)
      intro value valued _ lies
      apply Places.expect (by decide)
      intro _ last took'
      exact .pure (lies.widen took.passed_lt.le took'.passed_lt.le)
    · apply Places.bind (nested.term before .lowest)
      intro first parser _ lies
      apply Places.expect (by decide)
      intro _ parser took
      exact nested.places_followed _ lies took.passed_lt.le
  · apply Places.bind (nested.term before .lowest)
    intro first parser _ lies
    apply Places.nextIs
    split
    · rename_i isSemicolon
      apply Places.skip (TokenStream.more_of_isKind isSemicolon (by decide))
      intro parser took
      apply Places.nextIs
      split
      · exact .pure (lies.widen (Nat.le_refl _) took.passed_lt.le)
      · exact nested.places_followed _ lies took.passed_lt.le
    · exact .pure lies

/-- What follows a declaration, if nested readers go on properly. -/
theorem places_readRest (nested : PlaceTerms tokens grammar fuel) (before : Parser)
    (ending : Ending) : (readRest grammar (fuel + 1) ending).PlacesTerm tokens before := by
  rw [readRest]
  apply Places.nextIs
  split
  · exact Places.unexpectedFor
  · exact nested.sequence before ending

/-- A declaration that started with a token and has a part, and what follows it. -/
theorem places_declared (nested : PlaceTerms tokens grammar fuel) (ending : Ending)
    {before opened parser : Parser} {token : Token} {part : Term} {middle high : Nat}
    {make : Term → Term} (took : before.Took tokens token opened)
    (later : opened.stream.passed.toNat ≤ middle) (lies : part.Lies tokens middle high)
    (ordered : high ≤ parser.stream.passed.toNat)
    (isSpan : ∀ rest, (make rest).span = token.span.through rest.span)
    (isParts : ∀ rest, (make rest).parts = [part, rest]) :
    Places tokens (readRest grammar fuel ending >>= fun rest => Pure.pure (make rest)) parser
      fun term after =>
        term.Lies tokens before.stream.passed.toNat after.stream.passed.toNat := by
  apply Places.bind (nested.rest parser ending)
  intro rest last _ lies'
  have start : token.span.start.toNat ≤ middle := by
    rw [took.passed] at later
    exact took.proper.le.trans later
  have row : Term.Row tokens token.span.start.toNat rest.span.stop.toNat [part, rest] :=
    .cons (lies.widen start ordered) (.single lies'.toStop)
  have proper := row.low_lt_high
  rw [← isParts] at row
  exact .pure (row.node (isSpan rest) took.starts lies'.self.ends proper took.ahead lies'.le_high)

/-- A declaration, if nested readers go on properly. -/
theorem places_readDeclaration (types : PlaceTypes tokens grammar fuel)
    (nested : PlaceTerms tokens grammar fuel) (before : Parser) (form : DeclarationForm)
    (ending : Ending) (more : before.stream.current.kind ≠ .eof) :
    (readDeclaration grammar (fuel + 1) form ending).PlacesTerm tokens before := by
  cases form with
  | constant =>
    rw [readDeclaration]
    apply Places.advance more
    intro opened took
    apply Places.expectFor (by decide)
    intro _ named took'
    apply (nested.declaredResult named).bind
    intro _ typed later _
    apply Places.expectFor (by decide)
    intro _ parser assigned
    apply Places.bind (nested.term parser .lowest)
    intro value valued _ lies
    apply Places.expect (by decide)
    intro _ parser semicolon
    have later' := ((took'.passed_lt.trans_le later).trans assigned.passed_lt).le
    exact nested.places_declared ending took later' lies semicolon.passed_lt.le (fun _ => rfl)
      fun _ => rfl
  | function =>
    rw [readDeclaration]
    apply Places.advance more
    intro opened took
    apply Places.expectFor (by decide)
    intro _ named took'
    apply (types.parameters named).bind
    intro _ known later _
    apply Places.expectFor (by decide)
    intro _ parser colon
    apply (types.type parser).bind
    intro _ typed later' _
    apply Places.bind (nested.block typed)
    intro body parser _ lies
    have later := (((took'.passed_lt.trans_le later).trans colon.passed_lt).trans_le later').le
    exact nested.places_declared ending took later lies (Nat.le_refl _) (fun _ => rfl)
      fun _ => rfl
  | «alias» =>
    rw [readDeclaration]
    apply Places.skip more
    intro opened took
    apply Places.expect (by decide)
    intro name named took'
    apply Places.expect (by decide)
    intro _ assigned took''
    apply Places.changeScope rfl
    apply (types.type _).bind
    intro body typed later _
    dsimp only
    split
    · exact Places.fail took'.isMember
    · apply Places.changeScope rfl
      apply Places.expect (by decide)
      intro _ ended semicolon
      have taken := (took.passed_lt.trans took'.passed_lt).trans took''.passed_lt
      have later' := ((taken.trans_le later).trans semicolon.passed_lt).le
      apply Places.imp (nested.rest ended ending)
      intro term last _ lies
      exact lies.widen later' (Nat.le_refl _)

end PlaceTerms

/-- Readers of terms go on properly, with any allowance. -/
theorem placeTerms {grammar : Grammar} (stops : grammar.StopsAtEnd) (tokens : List Token)
    (fuel : Nat) : PlaceTerms tokens grammar fuel := by
  induction fuel with
  | zero => exact .zero tokens grammar
  | succ fuel nested =>
    have types := placeTypes tokens grammar fuel
    exact {
      term := nested.places_readTerm stops
      trailing := nested.places_readTrailing stops
      leading := nested.places_readLeading types
      declaredResult := PlaceTerms.places_readDeclaredResult types
      propertyList := nested.places_readPropertyList
      trailingForm := nested.places_readTrailingForm
      arguments := nested.places_readArguments
      block := nested.places_readBlock
      sequence := nested.places_readSequence stops
      rest := nested.places_readRest
      declaration := nested.places_readDeclaration types }

/-- A program on tokens in order is read into a term whose subterms stand properly on them, or it is
refused at the start of a token. -/
theorem ends_readProgram_nested {grammar : Grammar} (stops : grammar.StopsAtEnd)
    {stream : TokenStream} (stands : stream.Stands tokens) (fuel : Nat) :
    (readProgram grammar fuel).Ends { stream }
      (fun term _ => ∀ subterm ∈ term.subterms, subterm.Nested tokens)
      fun fault _ => ∃ token ∈ tokens, token.span.start = fault.offset := by
  apply ((placeTerms stops tokens fuel).sequence { stream } .source stands).bind fun _ _ => id
  rintro term parser ⟨stands', _, lies⟩
  -- The mark of the end is taken here, and only here.
  apply Ends.expect
  · exact ⟨parser.stream.current, stands'.current_mem, rfl⟩
  · exact fun _ => .pure lies.nested

end Parse

/-! ## Sources -/

namespace Token

/-- A source that is scanned to its end is split by its tokens before the mark of the end. -/
theorem exists_body_of_scan {source : String} {tokens : List Token}
    (short : Text.byteLength source.toList < UInt32.size) (scanned : scan source = .ok tokens) :
    ∃ body, tokens = body ++ [endMark (Text.byteLength source.toList)] ∧
      Splits source.toList [] body := by
  obtain ⟨body, rfl, cut⟩ := cut_of_scanFrom scanned
  rw [Nat.zero_add]
  exact ⟨body, rfl, cut.splits short⟩

namespace Splits

variable {text following : List Char} {body : List Token}

/-- Tokens end within the text that they split. -/
theorem stop_le (splits : Splits text following body) :
    ∀ token ∈ body, token.span.stop.toNat ≤ Text.byteLength text := by
  intro token isMember
  obtain ⟨after, ⟨before, whole, _, stop⟩, _⟩ := splits.stands token isMember
  rw [whole, Text.byteLength_append, stop]
  exact Nat.le_add_right _ _

/-- The tokens of a text and the mark of its end make a stream in order. -/
theorem streams (splits : Splits text following body)
    (short : Text.byteLength text < UInt32.size) :
    TokenStream.Stands (body ++ [endMark (Text.byteLength text)])
      { upcoming := body ++ [endMark (Text.byteLength text)],
        last := endMark (Text.byteLength text) } where
  shown _ isMember := isMember
  last := ⟨List.mem_append_right _ (List.mem_singleton_self _), rfl⟩
  proper token isMember noEnd := by
    rw [List.mem_append, List.mem_singleton] at isMember
    rcases isMember with isMember | rfl
    · exact UInt32.lt_iff_toNat_lt.1 (splits.writes token isMember).1
    · exact absurd rfl noEnd
  ordered := by
    rw [List.pairwise_append]
    refine ⟨splits.ordered, List.pairwise_singleton _ _, ?_⟩
    intro token isMember last isLast
    rw [List.mem_singleton.1 isLast, UInt32.le_iff_toNat_le]
    exact (splits.stop_le token isMember).trans_eq (UInt32.toNat_ofNat_of_lt' short).symm
  ahead _ _ := Nat.zero_le _
  passed taken := absurd taken (Nat.lt_irrefl 0)

end Splits

end Token

namespace Term

/-- The parser of the tokens of a source starts on tokens in order. -/
theorem ends_ofTokens {source : String} {tokens : List Token}
    (short : Text.byteLength source.toList < UInt32.size)
    (scanned : Token.scan source = .ok tokens) :
    (∀ term, ofTokens tokens = .ok term → ∀ subterm ∈ term.subterms, subterm.Nested tokens) ∧
      ∀ fault, ofTokens tokens = .error (.fault fault) →
        ∃ token ∈ tokens, token.span.start = fault.offset := by
  obtain ⟨body, rfl, splits⟩ := Token.exists_body_of_scan short scanned
  have ends := Parse.ends_readProgram_nested Grammar.standard_stopsAtEnd (splits.streams short)
  rw [ofTokens_eq List.getLast?_concat]
  exact ⟨fun term read => (ends _).gives term _ (Prod.ext read rfl),
    fun fault read => (ends _).refuses fault _ (Prod.ext read rfl)⟩

/-- Every subterm of a program stands properly on the tokens of its source, and within the source.
-/
theorem nested_of_ofTokens {source : String} {tokens : List Token} {term : Term}
    (short : Text.byteLength source.toList < UInt32.size)
    (scanned : Token.scan source = .ok tokens) (read : ofTokens tokens = .ok term) :
    ∀ subterm ∈ term.subterms, subterm.Nested tokens ∧
      subterm.span.stop.toNat ≤ Text.byteLength source.toList := by
  intro subterm isSubterm
  have nested := (ends_ofTokens short scanned).1 term read subterm isSubterm
  obtain ⟨body, rfl, splits⟩ := Token.exists_body_of_scan short scanned
  obtain ⟨token, isMember, noEnd, stop⟩ := nested.ends
  rw [List.mem_append, List.mem_singleton] at isMember
  rcases isMember with isMember | rfl
  · exact ⟨nested, stop ▸ splits.stop_le token isMember⟩
  · exact absurd rfl noEnd

/-- The text of a program in which parentheses stand around terms and a type is declared in a
function body. -/
def parenthesized : String :=
  "const k = (a: number) => \x7b type T = number; return (f(a, b)).p; \x7d; (k)"

set_option maxRecDepth 4000 in
/-- The spans of this program and its subterms, from the outside to the inside. -/
theorem nested_parenthesized :
    ∃ tokens term, Token.scan parenthesized = .ok tokens ∧ ofTokens tokens = .ok term ∧
      (term.subterms.map fun subterm => (subterm.span.start, subterm.span.stop)) =
        [(0, 69), (10, 65), (52, 62), (52, 59), (52, 53), (54, 55), (57, 58), (68, 69)] ∧
      ∀ subterm ∈ term.subterms, subterm.Nested tokens ∧
        subterm.span.stop.toNat ≤ Text.byteLength parenthesized.toList := by
  have accepted : ((Token.scan parenthesized).toOption.bind fun tokens =>
      (ofTokens tokens).toOption.map fun term =>
        term.subterms.map fun subterm => (subterm.span.start, subterm.span.stop)) =
        some [(0, 69), (10, 65), (52, 62), (52, 59), (52, 53), (54, 55), (57, 58), (68, 69)] := by
    decide +kernel
  cases scanned : Token.scan parenthesized with
  | error => simp [scanned, Except.toOption] at accepted
  | ok tokens =>
    cases read : ofTokens tokens with
    | error => simp [scanned, read, Except.toOption] at accepted
    | ok term =>
      simp only [scanned, read, Except.toOption, Option.bind_some, Option.map_some,
        Option.some.injEq] at accepted
      exact ⟨tokens, term, rfl, read, accepted, nested_of_ofTokens (by decide) scanned read⟩

end Term

end Equirec
