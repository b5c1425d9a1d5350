import Equirec.Token.Scan
import Mathlib.Data.List.Infix
import Mathlib.Data.List.TakeWhile

/-!
# Lexemes and the forms of their texts

What a token, a word, a number or a comment is, is said here by the form of its text alone, and not
by how it is looked for. One step of scanning finds a token only if no longer one starts there
(`Token.writes_of_lexeme?`), finds blank space and comments whole (`Token.isGap_of_lexeme?`), and
finds nothing only where nothing starts (`Token.startsNothing_of_lexeme?`).
-/
namespace Equirec.Token

/-! ## The forms of texts -/

/-- The keywords, with their kinds. -/
def keywords : List (Kind × String) :=
  [(.constKeyword, "const"), (.functionKeyword, "function"), (.returnKeyword, "return"),
    (.typeKeyword, "type"), (.trueKeyword, "true"), (.falseKeyword, "false")]

/-- The signs, with their kinds. -/
def signs : List (Kind × List Char) :=
  [(.openCurly, ['\x7b']), (.closeCurly, ['\x7d']), (.openParen, ['(']), (.closeParen, [')']),
    (.arrow, ['=', '>']), (.assignment, ['=']), (.dot, ['.']), (.semicolon, [';']),
    (.colon, [':']), (.question, ['?']), (.comma, [',']), (.plus, ['+'])]

/-- Whether a text is a word: a letter, an underscore or a dollar sign, and after it any of these
and digits. -/
def isWord : List Char → Bool
  | [] => false
  | first :: rest => isWordStart first && rest.all isWordPart

/-- A number: digits, and perhaps a point and more digits. -/
inductive IsNumeral : List Char → Prop where
  /-- Digits alone. -/
  | whole {digits : List Char} : digits ≠ [] → (∀ digit ∈ digits, digit.isDigit = true) →
    IsNumeral digits
  /-- Digits on both sides of a point. -/
  | decimal {digits decimals : List Char} : digits ≠ [] → decimals ≠ [] →
    (∀ digit ∈ digits, digit.isDigit = true) → (∀ digit ∈ decimals, digit.isDigit = true) →
    IsNumeral (digits ++ '.' :: decimals)

/-- Whether a text is that of a token of a kind. A word that is a keyword is no name, and no text is
that of the end mark. -/
inductive Writes : Kind → List Char → Prop where
  /-- A word that is no keyword. -/
  | name {text : List Char} : isWord text = true →
    (∀ keyword ∈ keywords, String.ofList text ≠ keyword.2) → Writes .identifier text
  /-- A number. -/
  | number {text : List Char} : IsNumeral text → Writes .number text
  /-- A keyword. -/
  | keyword {kind : Kind} {text : List Char} : (kind, String.ofList text) ∈ keywords →
    Writes kind text
  /-- An operator or a punctuation mark. -/
  | sign {kind : Kind} {text : List Char} : (kind, text) ∈ signs → Writes kind text

/-- A comment up to the end of its line. -/
def IsLineComment (text : List Char) : Prop :=
  ∃ body, text = '/' :: '/' :: body ∧ '\n' ∉ body

/-- A comment between marks, closed where the end mark comes for the first time. -/
def IsBlockComment (text : List Char) : Prop :=
  ∃ body, text = '/' :: '*' :: (body ++ ['*', '/']) ∧ ¬ ['*', '/'] <:+: body ++ ['*']

/-- Blank space and comments, where something follows. After a comment up to the end of its line
there is a line break or nothing. -/
inductive IsGap (following : List Char) : List Char → Prop where
  /-- No gap at all. -/
  | nil : IsGap following []
  /-- A blank character, before more of the gap. -/
  | blank {space : Char} {rest : List Char} : Text.isBlank space = true → IsGap following rest →
    IsGap following (space :: rest)
  /-- A comment up to the end of its line, before more of the gap. -/
  | line {comment rest : List Char} : IsLineComment comment →
    (∀ next ∈ (rest ++ following).head?, next = '\n') → IsGap following rest →
    IsGap following (comment ++ rest)
  /-- A comment between marks, before more of the gap. -/
  | block {comment rest : List Char} : IsBlockComment comment → IsGap following rest →
    IsGap following (comment ++ rest)

/-- Whether no token is longer than a text that something follows. -/
def IsLongest (text following : List Char) : Prop :=
  ∀ kind longer, Writes kind longer → longer <+: text ++ following → longer.length ≤ text.length

/-! ## What is found at the start of a text -/

/-- Characters of a class that a text starts with are among all those of the class at its start. -/
theorem isPrefix_takeWhile {α : Type} {holds : α → Bool} {start text : List α}
    (starts : start <+: text) (all : ∀ value ∈ start, holds value = true) :
    start <+: text.takeWhile holds := by
  obtain ⟨rest, rfl⟩ := starts
  rw [List.takeWhile_append_of_pos all]
  exact ⟨_, rfl⟩

/-- Keywords are looked up by their text. -/
theorem ofKeyword?_eq_some_iff {text : String} {kind : Kind} :
    Kind.ofKeyword? text = some kind ↔ (kind, text) ∈ keywords := by
  constructor
  · intro found
    unfold Kind.ofKeyword? at found
    split at found <;> cases found <;> decide
  · intro listed
    simp only [keywords, List.mem_cons, Prod.mk.injEq, List.not_mem_nil, or_false] at listed
    obtain ⟨rfl, rfl⟩ | ⟨rfl, rfl⟩ | ⟨rfl, rfl⟩ | ⟨rfl, rfl⟩ | ⟨rfl, rfl⟩ | ⟨rfl, rfl⟩ := listed <;>
      rfl

/-- A word is a token of the kind that is looked up for it. -/
theorem writes_wordKind {word : List Char} (isWord : isWord word = true) :
    Writes (wordKind word) word := by
  unfold wordKind
  cases found : Kind.ofKeyword? (String.ofList word) with
  | some kind => exact .keyword (ofKeyword?_eq_some_iff.1 found)
  | none =>
    refine .name isWord ?_
    intro keyword listed same
    have known : Kind.ofKeyword? (String.ofList word) = some keyword.1 := by
      rw [ofKeyword?_eq_some_iff, same]
      exact listed
    rw [found] at known
    cases known

/-- A keyword is a word. -/
theorem isWord_of_mem_keywords {kind : Kind} {text : List Char}
    (listed : (kind, String.ofList text) ∈ keywords) : isWord text = true := by
  have all : ∀ keyword ∈ keywords, isWord keyword.2.toList = true := by decide
  simpa using all _ listed

/-- A number starts with a digit. -/
theorem IsNumeral.head {text : List Char} (isNumeral : IsNumeral text) :
    ∃ first rest, text = first :: rest ∧ first.isDigit = true := by
  cases isNumeral with
  | whole some all =>
    obtain ⟨first, rest, rfl⟩ := List.exists_cons_of_ne_nil some
    exact ⟨first, rest, rfl, all first List.mem_cons_self⟩
  | decimal some _ all _ =>
    obtain ⟨first, rest, rfl⟩ := List.exists_cons_of_ne_nil some
    exact ⟨first, _, rfl, all first List.mem_cons_self⟩

/-- The first character of a token tells whether it is a word, a number or a sign. -/
theorem Writes.head {kind : Kind} {text : List Char} (writes : Writes kind text) :
    ∃ first rest, text = first :: rest ∧
      ((isWordStart first = true ∧ isWord text = true) ∨ (first.isDigit = true ∧ IsNumeral text) ∨
        (kind, text) ∈ signs) := by
  have ofWord : isWord text = true → ∃ first rest, text = first :: rest ∧
      ((isWordStart first = true ∧ isWord text = true) ∨ (first.isDigit = true ∧ IsNumeral text) ∨
        (kind, text) ∈ signs) := by
    intro isWord
    cases text with
    | nil => cases isWord
    | cons first rest =>
      have starts := isWord
      simp only [Token.isWord, Bool.and_eq_true] at starts
      exact ⟨first, rest, rfl, .inl ⟨starts.1, isWord⟩⟩
  cases writes with
  | name isWord _ => exact ofWord isWord
  | number isNumeral =>
    obtain ⟨first, rest, isText, isDigit⟩ := isNumeral.head
    exact ⟨first, rest, isText, .inr (.inl ⟨isDigit, isNumeral⟩)⟩
  | keyword listed => exact ofWord (isWord_of_mem_keywords listed)
  | sign listed =>
    have some : ∀ sign ∈ signs, sign.2 ≠ [] := by decide
    obtain ⟨first, rest, isText⟩ := List.exists_cons_of_ne_nil (some _ listed)
    exact ⟨first, rest, isText, .inr (.inr listed)⟩

/-- No sign starts as a word, a number or blank space does. -/
theorem head_of_mem_signs {kind : Kind} {first : Char} {rest : List Char}
    (listed : (kind, first :: rest) ∈ signs) :
    isWordStart first = false ∧ first.isDigit = false ∧ Text.isBlank first = false := by
  have all : ∀ sign ∈ signs, ∀ first ∈ sign.2.head?, isWordStart first = false ∧
      first.isDigit = false ∧ Text.isBlank first = false := by
    simp [signs, isWordStart, Text.isBlank]
  exact all _ listed first rfl

/-- The letters are two ranges of characters. -/
theorem toNat_of_isAlpha {letter : Char} (isAlpha : letter.isAlpha = true) :
    65 ≤ letter.toNat ∧ letter.toNat ≤ 90 ∨ 97 ≤ letter.toNat ∧ letter.toNat ≤ 122 := by
  rcases Bool.or_eq_true_iff.1 isAlpha with upper | lower
  · have within := of_decide_eq_true upper
    exact .inl ⟨UInt32.le_iff_toNat_le.1 within.1, UInt32.le_iff_toNat_le.1 within.2⟩
  · have within := Bool.and_eq_true_iff.1 lower
    exact .inr ⟨UInt32.le_iff_toNat_le.1 (of_decide_eq_true within.1),
      UInt32.le_iff_toNat_le.1 (of_decide_eq_true within.2)⟩

/-- The digits are a range of characters. -/
theorem toNat_of_isDigit {digit : Char} (isDigit : digit.isDigit = true) :
    48 ≤ digit.toNat ∧ digit.toNat ≤ 57 := by
  have within := Bool.and_eq_true_iff.1 isDigit
  exact ⟨UInt32.le_iff_toNat_le.1 (of_decide_eq_true within.1),
    UInt32.le_iff_toNat_le.1 (of_decide_eq_true within.2)⟩

/-- A word starts with a letter or one of two signs. -/
theorem isWordStart_iff {first : Char} :
    isWordStart first = true ↔ first.isAlpha = true ∨ first = '_' ∨ first = '$' := by
  rw [isWordStart, Bool.or_eq_true, Bool.or_eq_true, beq_iff_eq, beq_iff_eq, or_assoc]

/-- No word starts with a digit. -/
theorem isDigit_of_isWordStart {first : Char} (starts : isWordStart first = true) :
    first.isDigit = false := by
  rw [Bool.eq_false_iff]
  intro isDigit
  have digit := toNat_of_isDigit isDigit
  rcases isWordStart_iff.1 starts with letter | rfl | rfl
  · have letter := toNat_of_isAlpha letter
    omega
  · exact absurd isDigit (by decide)
  · exact absurd isDigit (by decide)

/-- All characters of a word may go on in a word. -/
theorem isWordPart_of_isWord {text : List Char} (isWord : isWord text = true) :
    ∀ part ∈ text, isWordPart part = true := by
  cases text with
  | nil => cases isWord
  | cons first rest =>
    simp only [Token.isWord, Bool.and_eq_true, List.all_eq_true] at isWord
    intro part isPart
    cases isPart with
    | head => rw [isWordPart, isWord.1, Bool.true_or]
    | tail _ isPart => exact isWord.2 part isPart

/-- The word at the start of a text. -/
theorem isWord_takeWhile {first : Char} {rest : List Char} (starts : isWordStart first = true) :
    isWord ((first :: rest).takeWhile isWordPart) = true := by
  have goesOn : isWordPart first = true := by rw [isWordPart, starts, Bool.true_or]
  rw [List.takeWhile_cons_of_pos goesOn, isWord, starts, Bool.true_and, List.all_eq_true]
  exact fun part isPart => List.mem_takeWhile_imp isPart

/-- No token is longer than the word at the start of a text. -/
theorem length_le_word {first : Char} {rest longer : List Char} {kind : Kind}
    (starts : isWordStart first = true) (writes : Writes kind longer)
    (isStart : longer <+: first :: rest) :
    longer.length ≤ ((first :: rest).takeWhile isWordPart).length := by
  obtain ⟨head, tail, rfl, isWord | isNumeral | isSign⟩ := writes.head
  · exact (isPrefix_takeWhile isStart (isWordPart_of_isWord isWord.2)).length_le
  · obtain ⟨rfl, _⟩ := List.cons_prefix_cons.1 isStart
    rw [isDigit_of_isWordStart starts] at isNumeral
    exact nomatch isNumeral.1
  · obtain ⟨rfl, _⟩ := List.cons_prefix_cons.1 isStart
    rw [(head_of_mem_signs isSign).1] at starts
    cases starts

/-- The number at the start of a text. -/
theorem isNumeral_numeral {first : Char} {rest : List Char} (isDigit : first.isDigit = true) :
    IsNumeral (numeral (first :: rest)) := by
  have some : (first :: rest).takeWhile Char.isDigit ≠ [] := by
    rw [List.takeWhile_cons_of_pos isDigit]
    exact List.cons_ne_nil _ _
  have all : ∀ digit ∈ (first :: rest).takeWhile Char.isDigit, digit.isDigit = true :=
    fun _ => List.mem_takeWhile_imp
  rw [numeral, fraction.eq_def]
  split
  · dsimp only
    split
    · rw [List.append_nil]
      exact .whole some all
    · rename_i decimals
      exact .decimal some (by simpa using decimals) all fun _ => List.mem_takeWhile_imp
  · rw [List.append_nil]
    exact .whole some all

/-- No token is longer than the number at the start of a text. -/
theorem length_le_numeral {first : Char} {rest longer : List Char} {kind : Kind}
    (isDigit : first.isDigit = true) (writes : Writes kind longer)
    (isStart : longer <+: first :: rest) :
    longer.length ≤ (numeral (first :: rest)).length := by
  obtain ⟨head, tail, rfl, isWord | isNumeral | isSign⟩ := writes.head
  · obtain ⟨rfl, _⟩ := List.cons_prefix_cons.1 isStart
    rw [isDigit_of_isWordStart isWord.1] at isDigit
    cases isDigit
  · rw [numeral, List.length_append]
    generalize first :: rest = text at isStart ⊢
    generalize head :: tail = longer at isStart isNumeral ⊢
    cases isNumeral.2 with
    | whole _ all =>
      have shorter := (isPrefix_takeWhile isStart all).length_le
      omega
    | @decimal digits decimals _ some all all' =>
      -- The point is no digit, so the digits before it are all there are.
      obtain ⟨more, rfl⟩ := isStart
      have whole : (digits ++ '.' :: decimals ++ more).takeWhile Char.isDigit = digits := by
        rw [List.append_assoc, List.takeWhile_append_of_pos all]
        simp [show Char.isDigit '.' = false by decide]
      have left : (digits ++ '.' :: decimals ++ more).dropWhile Char.isDigit =
          '.' :: (decimals ++ more) := by
        rw [List.append_assoc, List.dropWhile_append_of_pos all]
        simp [show Char.isDigit '.' = false by decide]
      have goesOn : (decimals ++ more).takeWhile Char.isDigit =
          decimals ++ more.takeWhile Char.isDigit := List.takeWhile_append_of_pos all'
      rw [whole, left, fraction, goesOn]
      simp [some]
  · obtain ⟨rfl, _⟩ := List.cons_prefix_cons.1 isStart
    rw [(head_of_mem_signs isSign).2.1] at isDigit
    cases isDigit

/-- What punctuation is found is a sign. -/
theorem mem_signs_of_punctuation? {text : List Char} {lexeme : Lexeme}
    (found : punctuation? text = some lexeme) :
    ∃ kind, lexeme.kind? = some kind ∧ (kind, lexeme.text) ∈ signs := by
  unfold punctuation? at found
  split at found <;> cases found <;> exact ⟨_, rfl, by decide⟩

/-- No sign is longer than the punctuation that is found. -/
theorem length_le_punctuation {text longer : List Char} {lexeme : Lexeme} {kind : Kind}
    (found : punctuation? text = some lexeme) (listed : (kind, longer) ∈ signs)
    (isStart : longer <+: text) : longer.length ≤ lexeme.text.length := by
  have long : ∀ sign ∈ signs, sign.2.length ≤ 1 ∨ sign.2 = ['=', '>'] := by decide
  have short : ∀ sign ∈ signs, 1 ≤ sign.2.length := by decide
  obtain ⟨_, _, isSign⟩ := mem_signs_of_punctuation? found
  have some := short _ isSign
  rcases long _ listed with single | double
  · exact single.trans some
  · obtain ⟨rest, rfl⟩ := isStart
    dsimp only at double
    subst double
    cases found
    exact Nat.le_refl 2

/-- Where a sign starts, punctuation is found. -/
theorem punctuation?_ne_none {text sign : List Char} {kind : Kind} (listed : (kind, sign) ∈ signs)
    (isStart : sign <+: text) : punctuation? text ≠ none := by
  -- Which sign `=` starts depends on what follows it; every other sign is found at once.
  have equals : ∀ rest, punctuation? ('=' :: rest) ≠ none := by
    intro rest
    unfold punctuation?
    split <;> simp_all
  have all : ∀ entry ∈ signs, ∀ rest, punctuation? (entry.2 ++ rest) ≠ none := by
    simp only [signs, List.forall_mem_cons]
    refine ⟨?_, ?_, ?_, ?_, ?_, equals, ?_, ?_, ?_, ?_, ?_, ?_, by simp⟩ <;>
      exact fun _ => Option.some_ne_none _
  obtain ⟨rest, rfl⟩ := isStart
  exact all _ listed rest

/-- What is found up to an end mark holds no earlier one. -/
theorem untilCommentEnd?_eq_some {text comment : List Char}
    (found : untilCommentEnd? text = some comment) :
    ∃ body, comment = body ++ ['*', '/'] ∧ ¬ ['*', '/'] <:+: body ++ ['*'] := by
  fun_induction untilCommentEnd? text generalizing comment with
  | case1 rest =>
    cases found
    exact ⟨[], rfl, by decide⟩
  | case2 character rest earlier ih =>
    obtain ⟨tail, isTail, rfl⟩ := Option.map_eq_some_iff.1 found
    obtain ⟨body, rfl, first⟩ := ih isTail
    refine ⟨character :: body, rfl, ?_⟩
    rw [List.cons_append, List.infix_cons_iff]
    rintro (atOnce | later)
    · obtain ⟨more, whole⟩ := untilCommentEnd?_isPrefix isTail
      obtain ⟨rfl, next⟩ := List.cons_prefix_cons.1 atOnce
      cases body with
      | nil => exact absurd next (by decide)
      | cons second body =>
        obtain ⟨rfl, _⟩ := List.cons_prefix_cons.1 next
        exact earlier _ rfl whole.symm
    · exact first later
  | case3 => cases found

/-- An end mark is found where there is one. -/
theorem untilCommentEnd?_ne_none {body rest : List Char} :
    untilCommentEnd? (body ++ '*' :: '/' :: rest) ≠ none := by
  induction body with
  | nil => exact Option.some_ne_none _
  | cons character body ih =>
    rw [List.cons_append, untilCommentEnd?.eq_def]
    split
    · exact Option.some_ne_none _
    · rename_i same
      cases same
      simpa using ih
    · rename_i empty
      cases empty

/-- What comment is found is one up to the end of its line, or one between marks. -/
theorem comment?_eq_some {text comment : List Char} (found : comment? text = some comment) :
    (IsLineComment comment ∧ ∃ rest, text = comment ++ rest ∧ ∀ next ∈ rest.head?, next = '\n') ∨
      IsBlockComment comment := by
  unfold comment? at found
  split at found
  · rename_i rest
    cases found
    refine .inl ⟨⟨_, rfl, ?_⟩, rest.dropWhile (· != '\n'), ?_, ?_⟩
    · intro inside
      simpa using List.mem_takeWhile_imp inside
    · rw [List.cons_append, List.cons_append, List.takeWhile_append_dropWhile]
    · intro next isNext
      have stops := List.head?_dropWhile_not (· != '\n') rest
      rw [isNext] at stops
      simpa using stops
  · obtain ⟨tail, isTail, rfl⟩ := Option.map_eq_some_iff.1 found
    obtain ⟨body, rfl, first⟩ := untilCommentEnd?_eq_some isTail
    exact .inr ⟨body, rfl, first⟩
  · cases found

/-- Where no comment is found, none starts. -/
theorem comment?_eq_none {text comment : List Char} (missing : comment? text = none)
    (isStart : comment <+: text) : ¬ IsLineComment comment ∧ ¬ IsBlockComment comment := by
  obtain ⟨rest, rfl⟩ := isStart
  constructor
  · rintro ⟨body, rfl, _⟩
    cases missing
  · rintro ⟨body, rfl, _⟩
    simp only [List.cons_append, List.append_assoc, comment?, Option.map_eq_none_iff] at missing
    exact untilCommentEnd?_ne_none missing

namespace IsGap

variable {following : List Char}

/-- Gaps may stand one after the other. -/
theorem append {first second : List Char} (gap : IsGap (second ++ following) first)
    (gap' : IsGap following second) : IsGap following (first ++ second) := by
  induction gap with
  | nil => exact gap'
  | blank isBlank _ ih => exact .blank isBlank ih
  | line isLine stops _ ih =>
    rw [List.append_assoc]
    exact .line isLine (by rwa [List.append_assoc]) ih
  | block isBlock _ ih =>
    rw [List.append_assoc]
    exact .block isBlock ih

/-- Blank space is a gap. -/
theorem of_isBlank {space : List Char} (all : ∀ character ∈ space, Text.isBlank character = true) :
    IsGap following space := by
  induction space with
  | nil => exact .nil
  | cons first rest ih =>
    rw [List.forall_mem_cons] at all
    exact .blank all.1 (ih all.2)

/-- The comment that is found is a gap. -/
theorem of_comment? {comment : List Char} (found : comment? (comment ++ following) = some comment) :
    IsGap following comment := by
  rw [← List.append_nil comment]
  rcases comment?_eq_some found with ⟨isLine, rest, same, stops⟩ | isBlock
  · cases List.append_cancel_left same
    exact .line isLine stops .nil
  · exact .block isBlock .nil

end IsGap

/-! ## What one step of scanning finds -/

/-- What can be found at the start of a text, by the class of its first character. -/
inductive FoundAt (first : Char) (rest : List Char) : Option Lexeme → Prop where
  /-- A word, as long as it goes on. -/
  | word (starts : isWordStart first = true) : FoundAt first rest
      (some ⟨some (wordKind ((first :: rest).takeWhile isWordPart)),
        (first :: rest).takeWhile isWordPart⟩)
  /-- A number. -/
  | number (isDigit : first.isDigit = true) : FoundAt first rest
      (some ⟨some .number, numeral (first :: rest)⟩)
  /-- Blank space, as long as it goes on. -/
  | blank (isBlank : Text.isBlank first = true) : FoundAt first rest
      (some ⟨none, (first :: rest).takeWhile Text.isBlank⟩)
  /-- A comment. -/
  | comment {comment : List Char} (found : comment? (first :: rest) = some comment) :
    FoundAt first rest (some ⟨none, comment⟩)
  /-- An operator or a punctuation mark, or nothing, where none of the others is found. -/
  | sign {result : Option Lexeme} (noWord : isWordStart first = false)
    (noDigit : first.isDigit = false) (noBlank : Text.isBlank first = false)
    (noComment : comment? (first :: rest) = none)
    (found : punctuation? (first :: rest) = result) : FoundAt first rest result

/-- One step of scanning finds one of these. -/
theorem foundAt_lexeme? (first : Char) (rest : List Char) :
    FoundAt first rest (lexeme? first rest) := by
  simp only [lexeme?]
  split
  · rename_i starts
    exact .word starts
  · rename_i noWord
    split
    · rename_i isDigit
      exact .number isDigit
    · rename_i noDigit
      split
      · rename_i isBlank
        exact .blank isBlank
      · rename_i noBlank
        split
        · rename_i comment found
          exact .comment found
        · rename_i noComment
          exact .sign (by simpa using noWord) (by simpa using noDigit) (by simpa using noBlank)
            noComment rfl

variable {first : Char} {rest : List Char}

/-- A token that starts with neither a word nor a number is a sign. -/
theorem mem_signs_of_writes {kind : Kind} {start : List Char} (writes : Writes kind start)
    (isStart : start <+: first :: rest) (noWord : isWordStart first = false)
    (noDigit : first.isDigit = false) : (kind, start) ∈ signs := by
  obtain ⟨head, tail, rfl, isWord | isNumeral | isSign⟩ := writes.head
  · obtain ⟨rfl, _⟩ := List.cons_prefix_cons.1 isStart
    rw [noWord] at isWord
    exact nomatch isWord.1
  · obtain ⟨rfl, _⟩ := List.cons_prefix_cons.1 isStart
    rw [noDigit] at isNumeral
    exact nomatch isNumeral.1
  · exact isSign

/-- A lexeme that is a token has the text of its kind, and no token is longer. -/
theorem writes_of_lexeme? {kind : Kind} {text following : List Char}
    (whole : first :: rest = text ++ following)
    (found : lexeme? first rest = some ⟨some kind, text⟩) :
    Writes kind text ∧ IsLongest text following := by
  have step := foundAt_lexeme? first rest
  rw [found] at step
  rw [IsLongest, ← whole]
  cases step with
  | word starts =>
    exact ⟨writes_wordKind (isWord_takeWhile starts), fun _ _ => length_le_word starts⟩
  | number isDigit =>
    exact ⟨.number (isNumeral_numeral isDigit), fun _ _ => length_le_numeral isDigit⟩
  | sign noWord noDigit _ _ found =>
    obtain ⟨kind', same, isSign⟩ := mem_signs_of_punctuation? found
    cases same
    refine ⟨.sign isSign, ?_⟩
    intro kind' longer writes isStart
    exact length_le_punctuation found (mem_signs_of_writes writes isStart noWord noDigit) isStart

/-- A lexeme that is no token is a gap. -/
theorem isGap_of_lexeme? {text following : List Char} (whole : first :: rest = text ++ following)
    (found : lexeme? first rest = some ⟨none, text⟩) : IsGap following text := by
  have step := foundAt_lexeme? first rest
  rw [found] at step
  cases step with
  | blank => exact .of_isBlank fun _ => List.mem_takeWhile_imp
  | comment found =>
    rw [whole] at found
    exact .of_comment? found
  | sign _ _ _ _ found =>
    obtain ⟨_, same, _⟩ := mem_signs_of_punctuation? found
    cases same

/-- Whether no token, blank space or comment starts a text. -/
def StartsNothing (text : List Char) : Prop :=
  (∀ first ∈ text.head?, Text.isBlank first = false) ∧
    ∀ start, start <+: text →
      (∀ kind, ¬ Writes kind start) ∧ ¬ IsLineComment start ∧ ¬ IsBlockComment start

/-- Where no lexeme is found, nothing starts. -/
theorem startsNothing_of_lexeme? (missing : lexeme? first rest = none) :
    StartsNothing (first :: rest) := by
  have step := foundAt_lexeme? first rest
  rw [missing] at step
  cases step with
  | sign noWord noDigit noBlank noComment found =>
    refine ⟨?_, ?_⟩
    · rintro character ⟨⟩
      exact noBlank
    · intro start isStart
      refine ⟨?_, comment?_eq_none noComment isStart⟩
      intro kind writes
      have isSign := mem_signs_of_writes writes isStart noWord noDigit
      exact punctuation?_ne_none isSign isStart found

/-- Some text takes some bytes. -/
theorem byteLength_pos {text : List Char} (some : text ≠ []) : 0 < Text.byteLength text := by
  obtain ⟨first, rest, rfl⟩ := List.exists_cons_of_ne_nil some
  have size := first.utf8Size_pos
  rw [Text.byteLength_cons]
  omega

/-- Every token has some text. -/
theorem Writes.ne_nil {kind : Kind} {text : List Char} (writes : Writes kind text) : text ≠ [] := by
  obtain ⟨_, _, rfl, _⟩ := writes.head
  exact List.cons_ne_nil _ _

/-- The end mark has no text. -/
theorem Writes.ne_eof {kind : Kind} {text : List Char} (writes : Writes kind text) :
    kind ≠ .eof := by
  have noKeyword : ∀ keyword ∈ keywords, keyword.1 ≠ .eof := by decide
  have noSign : ∀ sign ∈ signs, sign.1 ≠ .eof := by decide
  cases writes with
  | name => decide
  | number => decide
  | keyword listed => exact noKeyword _ listed
  | sign listed => exact noSign _ listed

/-- A token has the kind of a keyword exactly when its text is that keyword. -/
theorem Writes.keyword_iff {kind : Kind} {text : List Char} (writes : Writes kind text) :
    ∀ keyword ∈ keywords, kind = keyword.1 ↔ String.ofList text = keyword.2 := by
  intro keyword listed
  have unique : ∀ left ∈ keywords, ∀ right ∈ keywords, left.1 = right.1 ↔ left.2 = right.2 := by
    decide
  have apart : ∀ keyword ∈ keywords, keyword.1 ≠ .identifier ∧ keyword.1 ≠ .number ∧
      ∀ sign ∈ signs, sign.1 ≠ keyword.1 ∧ String.ofList sign.2 ≠ keyword.2 := by decide
  obtain ⟨noName, noNumber, noSign⟩ := apart keyword listed
  cases writes with
  | name _ other =>
    exact ⟨fun same => absurd same.symm noName, fun same => absurd same (other keyword listed)⟩
  | number isNumeral =>
    refine ⟨fun same => absurd same.symm noNumber, fun same => ?_⟩
    -- A keyword starts with a letter and a number with a digit.
    have known : (keyword.1, String.ofList text) ∈ keywords := by rwa [same]
    have isWord := isWord_of_mem_keywords known
    obtain ⟨first, rest, rfl, isDigit⟩ := isNumeral.head
    rw [Token.isWord, Bool.and_eq_true] at isWord
    rw [isDigit_of_isWordStart isWord.1] at isDigit
    cases isDigit
  | keyword listed' => exact unique _ listed' _ listed
  | sign isSign =>
    have differs := noSign _ isSign
    exact ⟨fun same => absurd same differs.1, fun same => absurd same differs.2⟩

/-- Every lexeme has some text. -/
theorem text_ne_nil_of_lexeme? {lexeme : Lexeme} (found : lexeme? first rest = some lexeme) :
    lexeme.text ≠ [] := by
  obtain ⟨following, whole⟩ := lexeme?_isPrefix found
  obtain ⟨kind?, text⟩ := lexeme
  cases kind? with
  | some kind => exact (writes_of_lexeme? whole.symm found).1.ne_nil
  | none =>
    have step := foundAt_lexeme? first rest
    rw [found] at step
    cases step with
    | blank isBlank =>
      rw [List.takeWhile_cons_of_pos isBlank]
      exact List.cons_ne_nil _ _
    | comment found =>
      rcases comment?_eq_some found with ⟨⟨_, rfl, _⟩, _⟩ | ⟨_, rfl, _⟩ <;>
        exact List.cons_ne_nil _ _
    | sign _ _ _ _ found =>
      obtain ⟨_, same, _⟩ := mem_signs_of_punctuation? found
      cases same

end Equirec.Token
