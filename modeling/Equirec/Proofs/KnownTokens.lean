import Equirec.Proofs.Spelling
import Equirec.Proofs.WrittenTerms

/-!
# Readers of terms on known tokens

For each reader of terms and each form of what it reads: how the whole is read, if its parts are
read as they should be with smaller allowances.
-/
namespace Equirec

/-- The term that a single token is, if it is one. -/
def Token.literal? (token : Token) : Option Term :=
  match token.kind with
  | .number => (Double.ofText? token.value).map (.number token.span)
  | .identifier => some (.reference token.span token.value)
  | .trueKeyword => some (.boolean token.span true)
  | .falseKeyword => some (.boolean token.span false)
  | _ => none

/-- Whether tokens start like a term and not like parameters: the first of them leads a term, and no
colon follows it if it is a name. -/
def Token.OpensTerm : List Token → Prop
  | [] => False
  | first :: rest => (Grammar.standard.leading first.kind).isSome = true ∧
    (first.kind = .identifier → ∀ second ∈ rest.head?, second.kind ≠ .colon)

/-- Tokens that start like a term still do so when more tokens follow, of which the first is no
colon. -/
theorem Token.OpensTerm.append {tokens : List Token} (opens : OpensTerm tokens) {more : List Token}
    (noColon : ∀ next ∈ more.head?, next.kind ≠ .colon) : OpensTerm (tokens ++ more) := by
  obtain _ | ⟨first, _ | ⟨second, rest⟩⟩ := tokens
  · exact opens.elim
  · exact ⟨opens.1, fun _ => noColon⟩
  · exact opens

/-- Tokens that start like a term do not start with the mark of the end. -/
theorem Token.OpensTerm.exists_cons {tokens : List Token} (opens : OpensTerm tokens) :
    ∃ first rest, tokens = first :: rest ∧ first.kind ≠ .eof := by
  obtain _ | ⟨first, rest⟩ := tokens
  · exact opens.elim
  · refine ⟨first, rest, rfl, ?_⟩
    intro isEnd
    have leads := opens.1
    rw [isEnd] at leads
    cases leads

namespace Parse

open Token (OpensTerm)

variable {fuel : Nat} {scope : Scope} {tokens rest : List Token} {first next : Token}
  {holds : Term → Prop} {gets gets' : Term → List Token → Scope → Prop}

/-! ## Terms -/

/-- A term is read by what its first token leads, and then gone on with. -/
theorem gets_readTerm {form : LeadingForm} {power : Power}
    (isForm : Grammar.standard.leading first.kind = some form)
    (leads : ∀ less < fuel, (readLeading .standard less form).Gets (first :: rest) scope gets)
    (goesOn : ∀ less < fuel, ∀ left tokens names, gets left tokens names →
      (readTrailing .standard less power left).Gets tokens names gets') :
    (readTerm .standard fuel power).Gets (first :: rest) scope gets' := by
  cases fuel with
  | zero =>
    rw [readTerm]
    exact .exhausted
  | succ fuel =>
    rw [readTerm]
    apply Gets.current
    rw [isForm]
    exact (leads fuel fuel.lt_succ_self).bindWith (goesOn fuel fuel.lt_succ_self)

/-- A term is not gone on with by a token that does not go on a term. -/
theorem gets_readTrailing_of_ends {power : Power} {left : Term}
    (ends : Grammar.standard.trailing next.kind = none) (given : gets left (next :: rest) scope) :
    (readTrailing .standard fuel power left).Gets (next :: rest) scope gets := by
  cases fuel with
  | zero =>
    rw [readTrailing]
    exact .exhausted
  | succ fuel =>
    rw [readTrailing]
    apply Gets.current
    rw [ends]
    exact .pure given

/-- A term is gone on with by a token that binds strongly enough. -/
theorem gets_readTrailing_of_binds {form : TrailingForm} {power binding : Power} {left : Term}
    (isForm : Grammar.standard.trailing next.kind = some (form, binding))
    (binds : power.isBelow binding = true)
    (longer : ∀ less < fuel,
      (readTrailingForm .standard less form binding left).Gets (next :: rest) scope gets)
    (goesOn : ∀ less < fuel, ∀ left tokens names, gets left tokens names →
      (readTrailing .standard less power left).Gets tokens names gets') :
    (readTrailing .standard fuel power left).Gets (next :: rest) scope gets' := by
  cases fuel with
  | zero =>
    rw [readTrailing]
    exact .exhausted
  | succ fuel =>
    rw [readTrailing]
    apply Gets.current
    rw [isForm]
    dsimp only
    rw [if_pos binds]
    exact (longer fuel fuel.lt_succ_self).bindWith (goesOn fuel fuel.lt_succ_self)

/-- A term is not gone on with by a token that does not bind strongly enough. -/
theorem gets_readTrailing_of_loose {form : TrailingForm} {power binding : Power} {left : Term}
    (isForm : Grammar.standard.trailing next.kind = some (form, binding))
    (loose : power.isBelow binding = false) (given : gets left (next :: rest) scope) :
    (readTrailing .standard fuel power left).Gets (next :: rest) scope gets := by
  cases fuel with
  | zero =>
    rw [readTrailing]
    exact .exhausted
  | succ fuel =>
    rw [readTrailing]
    apply Gets.current
    rw [isForm]
    dsimp only
    rw [loose]
    exact .pure given

/-- A literal or a name is read. -/
theorem gets_readPrimary {term : Term} (isLiteral : first.literal? = some term) :
    readPrimary.Gets (first :: rest) scope (Leaves (· = term) rest scope) := by
  -- The cases are split before the reader is opened: both look at the kind in the same way.
  rw [Token.literal?] at isLiteral
  split at isLiteral
  · rename_i isNumber
    obtain ⟨value, isValue, rfl⟩ := Option.map_eq_some_iff.1 isLiteral
    rw [readPrimary]
    apply Gets.current
    rw [isNumber]
    dsimp only
    rw [isValue]
    exact .skip (.pure ⟨rfl, rfl, rfl⟩)
  · rename_i isName
    cases isLiteral
    rw [readPrimary]
    apply Gets.current
    rw [isName]
    exact .skip (.pure ⟨rfl, rfl, rfl⟩)
  · rename_i isTrue
    cases isLiteral
    rw [readPrimary]
    apply Gets.current
    rw [isTrue]
    exact .skip (.pure ⟨rfl, rfl, rfl⟩)
  · rename_i isFalse
    cases isLiteral
    rw [readPrimary]
    apply Gets.current
    rw [isFalse]
    exact .skip (.pure ⟨rfl, rfl, rfl⟩)
  · cases isLiteral

/-- A literal leads itself. -/
theorem leading_of_literal? {term : Term} (isLiteral : first.literal? = some term) :
    Grammar.standard.leading first.kind = some .primary := by
  rw [Token.literal?] at isLiteral
  split at isLiteral
  · rename_i isNumber
    rw [isNumber]
    rfl
  · rename_i isName
    rw [isName]
    rfl
  · rename_i isTrue
    rw [isTrue]
    rfl
  · rename_i isFalse
    rw [isFalse]
    rfl
  · cases isLiteral

/-- A literal is read as a leading form. -/
theorem gets_literal {term : Term} (isLiteral : first.literal? = some term) :
    (readLeading .standard fuel .primary).Gets (first :: rest) scope
      (Leaves (· = term) rest scope) := by
  cases fuel with
  | zero =>
    rw [readLeading]
    exact .exhausted
  | succ fuel =>
    rw [readLeading]
    exact gets_readPrimary isLiteral

/-- After a parenthesis that opens a term, the tokens ahead are not those of parameters. -/
theorem not_parameters_of_opensTerm {closing : Token} (opens : OpensTerm tokens)
    (isClosing : closing.kind = .closeParen) (rest : List Token) :
    ∃ second third more, tokens ++ closing :: rest = second :: third :: more ∧
      ¬(second.kind == .closeParen ||
        (second.kind == .identifier && third.kind == .colon)) = true := by
  obtain _ | ⟨second, more⟩ := tokens
  · exact opens.elim
  · obtain ⟨leads, noColon⟩ := opens
    have noClosing : second.kind ≠ .closeParen := by
      intro isClosing
      rw [isClosing] at leads
      cases leads
    obtain _ | ⟨third, more⟩ := more
    · exact ⟨second, closing, rest, rfl, by simp [noClosing, isClosing]⟩
    · refine ⟨second, third, more ++ closing :: rest, rfl, ?_⟩
      have noColon := fun isName => noColon isName third rfl
      simpa [noClosing] using noColon

/-- After a parenthesis that opens parameters, the tokens ahead are those of parameters. -/
theorem parameters_of_spells {closing : Token} {parameters : List (String × Ty)}
    (spelled : Ty.Spells scope (.members .parameters parameters) tokens)
    (isClosing : closing.kind = .closeParen) (following : List Token) (isSome : following ≠ []) :
    ∃ second third more, tokens ++ closing :: following = second :: third :: more ∧
      (second.kind == .closeParen ||
        (second.kind == .identifier && third.kind == .colon)) = true := by
  cases spelled with
  | nil =>
    obtain ⟨third, more, rfl⟩ := List.exists_cons_of_ne_nil isSome
    exact ⟨closing, third, more, rfl, by simp [isClosing]⟩
  | last isName isColon => exact ⟨_, _, _, rfl, by simp [isName, isColon]⟩
  | cons isName isColon => exact ⟨_, _, _, rfl, by simp [isName, isColon]⟩

/-- A term between parentheses is read. -/
theorem gets_group {opening closing : Token} {inside : List Token} (opens : OpensTerm inside)
    (isClosing : closing.kind = .closeParen)
    (inner : ∀ less < fuel, (readTerm .standard less .lowest).Gets (inside ++ closing :: rest) scope
      (Leaves holds (closing :: rest) scope)) :
    (readLeading .standard fuel .parenthesis).Gets (opening :: (inside ++ closing :: rest)) scope
      (Leaves holds rest scope) := by
  cases fuel with
  | zero =>
    rw [readLeading]
    exact .exhausted
  | succ fuel =>
    have inner := inner fuel fuel.lt_succ_self
    obtain ⟨second, third, more, split, noParameters⟩ :=
      not_parameters_of_opensTerm opens isClosing rest
    rw [split] at inner ⊢
    rw [readLeading]
    apply Gets.peekKind (List.getElem?_cons_succ.trans List.getElem?_cons_zero)
    apply Gets.peekKind
      (List.getElem?_cons_succ.trans (List.getElem?_cons_succ.trans List.getElem?_cons_zero))
    rw [if_neg noParameters]
    apply Gets.skip
    apply inner.bind
    intro term given
    apply Gets.expect isClosing
    exact .pure ⟨given, rfl, rfl⟩

/-- A function literal is read by its parentheses. -/
theorem gets_arrow {opening closing arrow : Token} {inside between : List Token}
    {parameters : List (String × Ty)} {declared : Option Ty}
    (isOpening : opening.kind = .openParen)
    (spelled : Ty.Spells scope (.members .parameters parameters) inside)
    (isClosing : closing.kind = .closeParen)
    (annotates : Ty.Spells scope (.ascription declared) between) (isArrow : arrow.kind = .arrow)
    (block : first.kind = .openCurly →
      ∀ less < fuel, (readBlock .standard less).Gets (first :: rest) scope gets)
    (body : first.kind ≠ .openCurly →
      ∀ less < fuel, (readTerm .standard less .lowest).Gets (first :: rest) scope gets)
    (given : ∀ span body left names, gets body left names →
      gets' (.function span parameters declared body) left names) :
    (readLeading .standard fuel .arrow).Gets
      (opening :: (inside ++ closing :: (between ++ arrow :: first :: rest))) scope gets' := by
  cases fuel with
  | zero =>
    rw [readLeading]
    exact .exhausted
  | succ fuel =>
    have noColon : arrow.kind ≠ .colon := by
      rw [isArrow]
      decide
    rw [readLeading]
    apply Gets.current
    apply (Ty.gets_readParameters isOpening spelled.isRead isClosing fuel).bind
    rintro _ rfl
    apply (annotates.isRead fuel arrow _ noColon).bind
    rintro _ rfl
    apply Gets.expectFor isArrow
    apply Gets.nextIs
    dsimp only
    split
    · rename_i isBlock
      apply (block (eq_of_beq isBlock) fuel fuel.lt_succ_self).bindWith
      intro body left names isBody
      apply Gets.spanFrom
      exact fun span => .pure (given span body left names isBody)
    · rename_i noBlock
      apply (body (fun isBlock => noBlock (beq_iff_eq.2 isBlock)) fuel fuel.lt_succ_self).bindWith
      intro body left names isBody
      apply Gets.spanFrom
      exact fun span => .pure (given span body left names isBody)

/-- A function literal is read. -/
theorem gets_function {opening closing arrow : Token} {inside between : List Token}
    {parameters : List (String × Ty)} {declared : Option Ty}
    (isOpening : opening.kind = .openParen)
    (spelled : Ty.Spells scope (.members .parameters parameters) inside)
    (isClosing : closing.kind = .closeParen)
    (annotates : Ty.Spells scope (.ascription declared) between) (isArrow : arrow.kind = .arrow)
    (block : first.kind = .openCurly →
      ∀ less < fuel, (readBlock .standard less).Gets (first :: rest) scope gets)
    (body : first.kind ≠ .openCurly →
      ∀ less < fuel, (readTerm .standard less .lowest).Gets (first :: rest) scope gets)
    (given : ∀ span body left names, gets body left names →
      gets' (.function span parameters declared body) left names) :
    (readLeading .standard fuel .parenthesis).Gets
      (opening :: (inside ++ closing :: (between ++ arrow :: first :: rest))) scope gets' := by
  cases fuel with
  | zero =>
    rw [readLeading]
    exact .exhausted
  | succ fuel =>
    have literal := gets_arrow isOpening spelled isClosing annotates isArrow
      (fun isBlock less below => block isBlock less (Nat.lt_succ_of_lt below))
      (fun noBlock less below => body noBlock less (Nat.lt_succ_of_lt below)) given
    obtain ⟨second, third, more, split, isParameters⟩ := parameters_of_spells spelled isClosing
      (between ++ arrow :: first :: rest) (by simp)
    rw [split] at literal ⊢
    rw [readLeading]
    apply Gets.peekKind (List.getElem?_cons_succ.trans List.getElem?_cons_zero)
    apply Gets.peekKind
      (List.getElem?_cons_succ.trans (List.getElem?_cons_succ.trans List.getElem?_cons_zero))
    rw [if_pos isParameters]
    exact literal

/-- An object literal is read. -/
theorem gets_object {opening closing : Token} {inside : List Token}
    {lists : List (String × Term) → Prop} (isClosing : closing.kind = .closeCurly)
    (inner : ∀ less < fuel, (readPropertyList .standard less).Gets (inside ++ closing :: rest) scope
      (Leaves lists (closing :: rest) scope))
    (given : ∀ span properties, lists properties → holds (.object span properties)) :
    (readLeading .standard fuel .object).Gets (opening :: (inside ++ closing :: rest)) scope
      (Leaves holds rest scope) := by
  cases fuel with
  | zero =>
    rw [readLeading]
    exact .exhausted
  | succ fuel =>
    rw [readLeading]
    apply Gets.advance
    apply (inner fuel fuel.lt_succ_self).bind
    intro properties isListed
    apply Gets.expect isClosing
    apply Gets.spanFrom
    exact fun span => .pure ⟨given span properties isListed, rfl, rfl⟩

/-! ## What follows a term -/

/-- A sum is read. -/
theorem gets_add {power : Power} {left : Term}
    (right : ∀ less < fuel, (readTerm .standard less power).Gets rest scope gets)
    (given : ∀ span right tokens names, gets right tokens names →
      gets' (.add span left right) tokens names) :
    (readTrailingForm .standard fuel .add power left).Gets (first :: rest) scope gets' := by
  cases fuel with
  | zero =>
    rw [readTrailingForm]
    exact .exhausted
  | succ fuel =>
    rw [readTrailingForm]
    apply Gets.skip
    apply (right fuel fuel.lt_succ_self).bindWith
    exact fun right tokens names isRight => .pure (given _ right tokens names isRight)

/-- A conditional is read. -/
theorem gets_conditional {power : Power} {condition : Term} {colon : Token}
    (isColon : colon.kind = .colon)
    (positive : ∀ less < fuel, (readTerm .standard less .lowest).Gets (tokens ++ colon :: rest)
      scope (Leaves holds (colon :: rest) scope))
    (negative : ∀ less < fuel, (readTerm .standard less .lowest).Gets rest scope gets)
    (given : ∀ span positive negative left names, holds positive → gets negative left names →
      gets' (.conditional span condition positive negative) left names) :
    (readTrailingForm .standard fuel .conditional power condition).Gets
      (first :: (tokens ++ colon :: rest)) scope gets' := by
  cases fuel with
  | zero =>
    rw [readTrailingForm]
    exact .exhausted
  | succ fuel =>
    rw [readTrailingForm]
    apply Gets.skip
    apply (positive fuel fuel.lt_succ_self).bind
    intro positive isPositive
    apply Gets.expectFor isColon
    apply (negative fuel fuel.lt_succ_self).bindWith
    exact fun negative left names isNegative =>
      .pure (given _ positive negative left names isPositive isNegative)

/-- A call is read. -/
theorem gets_call {power : Power} {callee : Term} {closing : Token} {lists : List Term → Prop}
    (isClosing : closing.kind = .closeParen)
    (inner : ∀ less < fuel, (readArguments .standard less).Gets (tokens ++ closing :: rest) scope
      (Leaves lists (closing :: rest) scope))
    (given : ∀ span arguments, lists arguments → holds (.call span callee arguments)) :
    (readTrailingForm .standard fuel .call power callee).Gets
      (first :: (tokens ++ closing :: rest)) scope (Leaves holds rest scope) := by
  cases fuel with
  | zero =>
    rw [readTrailingForm]
    exact .exhausted
  | succ fuel =>
    rw [readTrailingForm]
    apply Gets.skip
    apply (inner fuel fuel.lt_succ_self).bind
    intro arguments isListed
    apply Gets.expect isClosing
    apply Gets.spanFrom
    exact fun span => .pure ⟨given span arguments isListed, rfl, rfl⟩

/-- A property access is read. -/
theorem gets_property {power : Power} {object : Term} {name : Token}
    (isName : name.kind = .identifier)
    (given : ∀ span, holds (.property span object name.value)) :
    (readTrailingForm .standard fuel .property power object).Gets (first :: name :: rest) scope
      (Leaves holds rest scope) := by
  cases fuel with
  | zero =>
    rw [readTrailingForm]
    exact .exhausted
  | succ fuel =>
    rw [readTrailingForm, readProperty]
    apply Gets.skip
    apply Gets.expectFor isName
    apply Gets.spanFrom
    exact fun span => .pure ⟨given span, rfl, rfl⟩

/-! ## Lists of arguments and properties -/

/-- A term that starts a list of arguments does not close it. -/
theorem ne_closeParen_of_opensTerm (opens : OpensTerm (first :: rest)) :
    (first.kind == .closeParen) = false := by
  apply beq_false_of_ne
  intro isClosing
  have leads := opens.1
  rw [isClosing] at leads
  cases leads

/-- No arguments are read where the list is closed. -/
theorem gets_arguments_nil {lists : List Term → Prop} (isClosing : first.kind = .closeParen)
    (given : lists []) :
    (readArguments .standard fuel).Gets (first :: rest) scope
      (Leaves lists (first :: rest) scope) := by
  cases fuel with
  | zero =>
    rw [readArguments]
    exact .exhausted
  | succ fuel =>
    rw [readArguments]
    apply Gets.nextIs
    rw [isClosing]
    exact .pure ⟨given, rfl, rfl⟩

/-- A first argument is read, and then the list ends or goes on by what the next token is. -/
theorem gets_arguments_cons {getsAll : List Term → List Token → Scope → Prop}
    (opens : OpensTerm tokens)
    (argument : ∀ less < fuel, (readTerm .standard less .lowest).Gets (tokens ++ next :: rest)
      scope (Leaves holds (next :: rest) scope))
    (goesOn : ∀ less < fuel, next.kind = .comma → ∀ argument, holds argument →
      Gets (readArguments .standard less >>= fun others => pure (argument :: others)) rest scope
        getsAll)
    (ends : next.kind ≠ .comma → ∀ argument, holds argument →
      getsAll [argument] (next :: rest) scope) :
    (readArguments .standard fuel).Gets (tokens ++ next :: rest) scope getsAll := by
  cases fuel with
  | zero =>
    rw [readArguments]
    exact .exhausted
  | succ fuel =>
    obtain _ | ⟨first, more⟩ := tokens
    · exact opens.elim
    · rw [readArguments]
      apply Gets.nextIs
      rw [ne_closeParen_of_opensTerm opens]
      apply (argument fuel fuel.lt_succ_self).bind
      intro argument isArgument
      apply Gets.nextIs
      split
      · rename_i isComma
        exact .skip (goesOn fuel fuel.lt_succ_self (eq_of_beq isComma) argument isArgument)
      · rename_i noComma
        exact .pure (ends (fun isComma => noComma (beq_iff_eq.2 isComma)) argument isArgument)

/-- No properties are read where the list is closed. -/
theorem gets_properties_nil {lists : List (String × Term) → Prop}
    (isClosing : first.kind = .closeCurly) (given : lists []) :
    (readPropertyList .standard fuel).Gets (first :: rest) scope
      (Leaves lists (first :: rest) scope) := by
  cases fuel with
  | zero =>
    rw [readPropertyList]
    exact .exhausted
  | succ fuel =>
    rw [readPropertyList]
    apply Gets.nextIs
    rw [isClosing]
    exact .pure ⟨given, rfl, rfl⟩

/-- A first property is read, and then the list ends or goes on by what the next token is. -/
theorem gets_properties_cons {getsAll : List (String × Term) → List Token → Scope → Prop}
    {name colon : Token} (isName : name.kind = .identifier) (isColon : colon.kind = .colon)
    (value : ∀ less < fuel, (readTerm .standard less .lowest).Gets (tokens ++ next :: rest)
      scope (Leaves holds (next :: rest) scope))
    (goesOn : ∀ less < fuel, next.kind = .comma → ∀ value, holds value →
      Gets (readPropertyList .standard less >>= fun others => pure ((name.value, value) :: others))
        rest scope getsAll)
    (ends : next.kind ≠ .comma → ∀ value, holds value →
      getsAll [(name.value, value)] (next :: rest) scope) :
    (readPropertyList .standard fuel).Gets (name :: colon :: (tokens ++ next :: rest)) scope
      getsAll := by
  cases fuel with
  | zero =>
    rw [readPropertyList]
    exact .exhausted
  | succ fuel =>
    rw [readPropertyList]
    apply Gets.nextIs
    rw [isName, if_neg (by decide)]
    apply Gets.expectFor isName
    apply Gets.expect isColon
    apply (value fuel fuel.lt_succ_self).bind
    intro value isValue
    apply Gets.nextIs
    split
    · rename_i isComma
      exact .skip (goesOn fuel fuel.lt_succ_self (eq_of_beq isComma) value isValue)
    · rename_i noComma
      exact .pure (ends (fun isComma => noComma (beq_iff_eq.2 isComma)) value isValue)

/-! ## Sequences -/

/-- The body of a function is read between its braces, and what it declares is forgotten. -/
theorem gets_block {opening closing : Token} {inside : List Token}
    (isOpening : opening.kind = .openCurly) (isClosing : closing.kind = .closeCurly)
    (inner : ∀ less < fuel, (readSequence .standard less .result).Gets (inside ++ closing :: rest)
      scope fun body left names =>
        holds body ∧ left = closing :: rest ∧ names.pending = scope.pending) :
    (readBlock .standard fuel).Gets (opening :: (inside ++ closing :: rest)) scope
      (Leaves holds rest scope) := by
  cases fuel with
  | zero =>
    rw [readBlock]
    exact .exhausted
  | succ fuel =>
    have body : (locally (readSequence .standard fuel .result)).Gets (inside ++ closing :: rest)
        scope (Leaves holds (closing :: rest) scope) := by
      apply Gets.locally
      apply (inner fuel fuel.lt_succ_self).imp
      rintro body left names ⟨isBody, isLeft, same⟩
      have restored : names.leave scope.aliases = scope := by
        rw [Scope.leave, same]
      exact ⟨isBody, isLeft, restored⟩
    rw [readBlock]
    apply Gets.expectFor isOpening
    apply body.bind
    intro body isBody
    apply Gets.expect isClosing
    exact .pure ⟨isBody, rfl, rfl⟩

/-- A token that leads a term starts no declaration and is no `return`. -/
theorem declarations_of_leading (leads : (Grammar.standard.leading first.kind).isSome = true) :
    Grammar.standard.declarations first.kind = none ∧
      (first.kind == .returnKeyword) = false := by
  revert leads
  cases first.kind <;> decide

/-- The result of a function is read. -/
theorem gets_return {semicolon : Token} (isReturn : first.kind = .returnKeyword)
    (isSemicolon : semicolon.kind = .semicolon)
    (value : ∀ less < fuel, (readTerm .standard less .lowest).Gets (tokens ++ semicolon :: rest)
      scope (Leaves holds (semicolon :: rest) scope)) :
    (readSequence .standard fuel .result).Gets (first :: (tokens ++ semicolon :: rest)) scope
      (Leaves holds rest scope) := by
  cases fuel with
  | zero =>
    rw [readSequence]
    exact .exhausted
  | succ fuel =>
    have noDeclaration : Grammar.standard.declarations first.kind = none := by
      rw [isReturn]
      rfl
    rw [readSequence]
    apply Gets.current
    rw [noDeclaration]
    apply Gets.nextIs
    rw [isReturn]
    apply Gets.skip
    apply (value fuel fuel.lt_succ_self).bind
    intro value isValue
    apply Gets.expect isSemicolon
    exact .pure ⟨isValue, rfl, rfl⟩

/-- The last term of a source is read, where no semicolon follows it. -/
theorem gets_last (opens : OpensTerm tokens) (noSemicolon : next.kind ≠ .semicolon)
    (term : ∀ less < fuel, (readTerm .standard less .lowest).Gets (tokens ++ next :: rest) scope
      (Leaves holds (next :: rest) scope)) :
    (readSequence .standard fuel .source).Gets (tokens ++ next :: rest) scope
      (Leaves holds (next :: rest) scope) := by
  cases fuel with
  | zero =>
    rw [readSequence]
    exact .exhausted
  | succ fuel =>
    obtain _ | ⟨first, more⟩ := tokens
    · exact opens.elim
    · rw [readSequence]
      apply Gets.current
      rw [(declarations_of_leading opens.1).1]
      apply (term fuel fuel.lt_succ_self).bind
      intro term isTerm
      apply Gets.nextIs
      rw [beq_false_of_ne noSemicolon]
      exact .pure ⟨isTerm, rfl, rfl⟩

/-- The last term of a source is read, where a semicolon follows it. -/
theorem gets_last_semicolon {semicolon : Token} (opens : OpensTerm tokens)
    (isSemicolon : semicolon.kind = .semicolon) (isEnd : next.kind = .eof)
    (term : ∀ less < fuel, (readTerm .standard less .lowest).Gets
      (tokens ++ semicolon :: next :: rest) scope
        (Leaves holds (semicolon :: next :: rest) scope)) :
    (readSequence .standard fuel .source).Gets (tokens ++ semicolon :: next :: rest) scope
      (Leaves holds (next :: rest) scope) := by
  cases fuel with
  | zero =>
    rw [readSequence]
    exact .exhausted
  | succ fuel =>
    obtain _ | ⟨first, more⟩ := tokens
    · exact opens.elim
    · rw [readSequence]
      apply Gets.current
      rw [(declarations_of_leading opens.1).1]
      apply (term fuel fuel.lt_succ_self).bind
      intro term isTerm
      apply Gets.nextIs
      rw [isSemicolon]
      apply Gets.skip
      apply Gets.nextIs
      rw [isEnd]
      exact .pure ⟨isTerm, rfl, rfl⟩

/-- A term is read, and what follows its semicolon. -/
theorem gets_sequence {ending : Ending} {semicolon : Token} (opens : OpensTerm tokens)
    (isSemicolon : semicolon.kind = .semicolon) (more : next.kind ≠ .eof)
    (term : ∀ less < fuel, (readTerm .standard less .lowest).Gets
      (tokens ++ semicolon :: next :: rest) scope (Leaves holds (semicolon :: next :: rest) scope))
    (others : ∀ less < fuel, (readSequence .standard less ending).Gets (next :: rest) scope gets)
    (given : ∀ span first others left names, holds first → gets others left names →
      gets' (.sequence span first others) left names) :
    (readSequence .standard fuel ending).Gets (tokens ++ semicolon :: next :: rest) scope
      gets' := by
  cases fuel with
  | zero =>
    rw [readSequence]
    exact .exhausted
  | succ fuel =>
    obtain _ | ⟨first, inside⟩ := tokens
    · exact opens.elim
    · obtain ⟨noDeclaration, noReturn⟩ := declarations_of_leading opens.1
      rw [readSequence]
      apply Gets.current
      rw [noDeclaration]
      cases ending with
      | result =>
        apply Gets.nextIs
        rw [noReturn]
        apply (term fuel fuel.lt_succ_self).bind
        intro first isFirst
        apply Gets.expect isSemicolon
        apply (others fuel fuel.lt_succ_self).bindWith
        exact fun others left names isRest => .pure (given _ first others left names isFirst isRest)
      | source =>
        apply (term fuel fuel.lt_succ_self).bind
        intro first isFirst
        apply Gets.nextIs
        rw [isSemicolon]
        apply Gets.skip
        apply Gets.nextIs
        rw [beq_false_of_ne more]
        apply (others fuel fuel.lt_succ_self).bindWith
        exact fun others left names isRest => .pure (given _ first others left names isFirst isRest)

/-! ## Declarations -/

/-- A declaration is read by its first token. -/
theorem gets_declaration {form : DeclarationForm} {ending : Ending}
    (isForm : Grammar.standard.declarations first.kind = some form)
    (declares : ∀ less < fuel,
      (readDeclaration .standard less form ending).Gets (first :: rest) scope gets) :
    (readSequence .standard fuel ending).Gets (first :: rest) scope gets := by
  cases fuel with
  | zero =>
    rw [readSequence]
    exact .exhausted
  | succ fuel =>
    rw [readSequence]
    apply Gets.current
    rw [isForm]
    exact declares fuel fuel.lt_succ_self

/-- What follows a declaration is read. -/
theorem gets_readRest {ending : Ending} (more : first.kind ≠ .eof)
    (others : ∀ less < fuel, (readSequence .standard less ending).Gets (first :: rest) scope gets) :
    (readRest .standard fuel ending).Gets (first :: rest) scope gets := by
  cases fuel with
  | zero =>
    rw [readRest]
    exact .exhausted
  | succ fuel =>
    rw [readRest]
    apply Gets.nextIs
    rw [beq_false_of_ne more]
    exact others fuel fuel.lt_succ_self

/-- The declaration of a constant is read, and what follows it. -/
theorem gets_constant {ending : Ending} {name assignment semicolon : Token} {between : List Token}
    {ascription : Option Ty} (isName : name.kind = .identifier)
    (annotates : Ty.Spells scope (.ascription ascription) between)
    (isAssignment : assignment.kind = .assignment) (isSemicolon : semicolon.kind = .semicolon)
    (value : ∀ less < fuel, (readTerm .standard less .lowest).Gets (tokens ++ semicolon :: rest)
      scope (Leaves holds (semicolon :: rest) scope))
    (others : ∀ less < fuel, (readRest .standard less ending).Gets rest scope gets)
    (given : ∀ span value others left names, holds value → gets others left names →
      gets' (.constant span name.value value others) left names) :
    (readDeclaration .standard fuel .constant ending).Gets
      (first :: name :: (between ++ assignment :: (tokens ++ semicolon :: rest))) scope gets' := by
  cases fuel with
  | zero =>
    rw [readDeclaration]
    exact .exhausted
  | succ fuel =>
    have noColon : assignment.kind ≠ .colon := by
      rw [isAssignment]
      decide
    rw [readDeclaration]
    apply Gets.advance
    apply Gets.expectFor isName
    apply (annotates.isRead fuel assignment _ noColon).bind
    rintro _ rfl
    apply Gets.expectFor isAssignment
    apply (value fuel fuel.lt_succ_self).bind
    intro value isValue
    apply Gets.expect isSemicolon
    apply (others fuel fuel.lt_succ_self).bindWith
    exact fun others left names isRest => .pure (given _ value others left names isValue isRest)

/-- The declaration of a function is read, and what follows it. -/
theorem gets_functionDeclaration {ending : Ending} {name opening closing colon : Token}
    {inside result : List Token} {parameters : List (String × Ty)} {declared : Ty}
    (isName : name.kind = .identifier) (isOpening : opening.kind = .openParen)
    (spelled : Ty.Spells scope (.members .parameters parameters) inside)
    (isClosing : closing.kind = .closeParen) (isColon : colon.kind = .colon)
    (spells : Ty.Spells scope (.type declared) result)
    (block : ∀ less < fuel, (readBlock .standard less).Gets tokens scope
      (Leaves holds rest scope))
    (others : ∀ less < fuel, (readRest .standard less ending).Gets rest scope gets)
    (given : ∀ span body others left names, holds body → gets others left names →
      gets' (.declaration span name.value parameters declared body others) left names) :
    (readDeclaration .standard fuel .function ending).Gets
      (first :: name :: opening :: (inside ++ closing :: colon :: (result ++ tokens))) scope
      gets' := by
  cases fuel with
  | zero =>
    rw [readDeclaration]
    exact .exhausted
  | succ fuel =>
    rw [readDeclaration]
    apply Gets.advance
    apply Gets.expectFor isName
    apply (Ty.gets_readParameters isOpening spelled.isRead isClosing fuel).bind
    rintro _ rfl
    apply Gets.expectFor isColon
    apply (spells.isRead fuel tokens).bind
    rintro _ rfl
    apply (block fuel fuel.lt_succ_self).bind
    intro body isBody
    apply (others fuel fuel.lt_succ_self).bindWith
    exact fun others left names isRest => .pure (given _ body others left names isBody isRest)

/-- The declaration of a name for a type is read, and what follows it. -/
theorem gets_alias {ending : Ending} {name assignment semicolon : Token} {body type : Ty}
    (isName : name.kind = .identifier) (isAssignment : assignment.kind = .assignment)
    (spells : Ty.Spells (scope.begin name.value) (.type body) tokens)
    (guarded : body.isGuarded name.value = true)
    (declared : type = if body.occurs name.value then .mu name.value body else body)
    (isSemicolon : semicolon.kind = .semicolon)
    (others : ∀ less < fuel, (readRest .standard less ending).Gets rest
      ((scope.begin name.value).finish name.value type) gets) :
    (readDeclaration .standard fuel .alias ending).Gets
      (first :: name :: assignment :: (tokens ++ semicolon :: rest)) scope gets := by
  cases fuel with
  | zero =>
    rw [readDeclaration]
    exact .exhausted
  | succ fuel =>
    rw [readDeclaration]
    apply Gets.skip
    apply Gets.expect isName
    apply Gets.expect isAssignment
    apply Gets.changeScope (scope.begin name.value) (by intro _ isScope; rw [isScope])
    apply (spells.isRead fuel _).bind
    rintro _ rfl
    dsimp only
    rw [guarded, ← declared]
    apply Gets.changeScope ((scope.begin name.value).finish name.value type)
      (by intro _ isScope; rw [isScope])
    apply Gets.expect isSemicolon
    exact others fuel fuel.lt_succ_self

end Parse

/-- A list of tokens that is read as a sequence up to the mark of the end is read as a program. -/
theorem Term.ofTokens_of_gets {tokens : List Token} {stop : Token} {holds : Term → Prop}
    (isEnd : stop.kind = .eof)
    (reads : ∀ fuel, (Parse.readSequence .standard fuel .source).Gets (tokens ++ [stop]) {}
      fun term left _ => holds term ∧ left = [stop]) :
    ∃ term, ofTokens (tokens ++ [stop]) = .ok term ∧ holds term := by
  have isLast : (tokens ++ [stop]).getLast? = some stop := List.getLast?_concat
  have noCut : ofTokens (tokens ++ [stop]) ≠ .error .exhausted :=
    ofTokens_ne_exhausted (by simp [isEnd])
  rw [ofTokens_eq isLast] at noCut ⊢
  have program : ∀ fuel, (Parse.readProgram .standard fuel).Gets (tokens ++ [stop]) {}
      fun term _ _ => holds term := by
    intro fuel
    apply (reads fuel).bindWith
    rintro term _ names ⟨given, rfl⟩
    exact .expect isEnd (.pure given)
  have ends := program (16 * ((tokens ++ [stop]).length + 4))
    { stream := { upcoming := tokens ++ [stop], last := stop } } rfl rfl
  rcases whole : (Parse.readProgram .standard (16 * ((tokens ++ [stop]).length + 4))).run.run
    { stream := { upcoming := tokens ++ [stop], last := stop } } with ⟨result, after⟩
  rw [whole] at noCut
  obtain (fault | _) | term := result
  · exact (ends.refuses fault after whole).elim
  · exact absurd rfl noCut
  · exact ⟨term, rfl, ends.gives term after whole⟩

end Equirec
