import Equirec.Proofs.Scanning

/-!
# Layout

What stands between the tokens of a source, as long as it keeps them apart, does not change what the
source is scanned into. The offsets of the tokens move, but not their kinds and texts
(`Token.scan_laidOut`).
-/
namespace Equirec.Token

variable {first : Char} {rest following : List Char} {shapes : List (Kind × String)}

/-! ## Scanning anywhere -/

/-- The kind and the text of a token, without its place. -/
def shape (token : Token) : Kind × String :=
  (token.kind, token.value)

/-- A token has a kind and a text as its shape if they are its own. -/
theorem shape_eq_iff {token : Token} {kind : Kind} {value : String} :
    token.shape = (kind, value) ↔ token.kind = kind ∧ token.value = value := by
  rw [shape, Prod.mk.injEq]

/-- The kind and the text of every end mark. -/
def endShape : Kind × String :=
  (.eof, "EOF")

/-- Whether a text, at any offset, is scanned into tokens of these kinds and texts. -/
def ScansAs (text : List Char) (shapes : List (Kind × String)) : Prop :=
  ∀ offset, ∃ tokens, scanFrom offset text = .ok tokens ∧ tokens.map shape = shapes

/-- One step of scanning, with the rest of the text named. -/
theorem scanFrom_lexeme {lexeme : Lexeme} (found : lexeme? first rest = some lexeme)
    (whole : first :: rest = lexeme.text ++ following) (offset : Nat) :
    scanFrom offset (first :: rest) =
      (scanFrom (offset + Text.byteLength lexeme.text) following).map
        ((lexeme.token? offset).toList ++ ·) := by
  have isRest : rest.drop (lexeme.text.length - 1) = following :=
    List.append_cancel_left ((exists_after_lexeme found).symm.trans whole)
  rw [scanFrom, found]
  dsimp only
  rw [isRest]
  cases scanFrom (offset + Text.byteLength lexeme.text) following <;> rfl

namespace ScansAs

/-- A text without anything in it has only an end mark. -/
theorem nil : ScansAs [] [endShape] :=
  fun offset => ⟨[endMark offset], by rw [scanFrom], rfl⟩

/-- A token at the start comes first. -/
theorem token {kind : Kind} {piece : List Char}
    (found : lexeme? first rest = some ⟨some kind, piece⟩)
    (whole : first :: rest = piece ++ following) (after : ScansAs following shapes) :
    ScansAs (first :: rest) ((kind, String.ofList piece) :: shapes) := by
  intro offset
  obtain ⟨tokens, scanned, rfl⟩ := after (offset + Text.byteLength piece)
  have step := scanFrom_lexeme found whole offset
  rw [scanned] at step
  exact ⟨_, step, rfl⟩

/-- What separates tokens adds none. -/
theorem gap {piece : List Char} (found : lexeme? first rest = some ⟨none, piece⟩)
    (whole : first :: rest = piece ++ following) (after : ScansAs following shapes) :
    ScansAs (first :: rest) shapes := by
  intro offset
  obtain ⟨tokens, scanned, rfl⟩ := after (offset + Text.byteLength piece)
  have step := scanFrom_lexeme found whole offset
  rw [scanned] at step
  exact ⟨tokens, step, rfl⟩

end ScansAs

/-- What a text is scanned into at one offset, it is scanned into at every other. -/
theorem scansAs_of_scanFrom {offset : Nat} {text : List Char} {tokens : List Token}
    (scanned : scanFrom offset text = .ok tokens) : ScansAs text (tokens.map shape) := by
  refine scanned_induction ?done ?step scanned
  case done =>
    intro offset
    exact .nil
  case step =>
    intro offset first rest lexeme following after found whole scans
    obtain ⟨kind?, text⟩ := lexeme
    cases kind? with
    | some kind => exact .token found whole scans
    | none => exact .gap found whole scans

/-! ## Tokens are found by their form -/

/-- A text that starts with a digit is no word. -/
theorem isWord_of_isDigit (isDigit : first.isDigit = true) : isWord (first :: rest) = false := by
  rw [isWord, Bool.and_eq_false_iff, Bool.eq_false_iff]
  refine .inl fun starts => ?_
  rw [isDigit_of_isWordStart starts] at isDigit
  cases isDigit

/-- The kind of a word is the one that is looked up for it. -/
theorem Writes.eq_wordKind {kind : Kind} {word : List Char} (writes : Writes kind word)
    (isWord : isWord word = true) : kind = wordKind word := by
  unfold wordKind
  cases writes with
  | name _ other =>
    cases found : Kind.ofKeyword? (String.ofList word) with
    | some kind => exact absurd rfl (other _ (ofKeyword?_eq_some_iff.1 found))
    | none => rfl
  | number isNumeral =>
    obtain ⟨first, rest, rfl, isDigit⟩ := isNumeral.head
    rw [isWord_of_isDigit isDigit] at isWord
    cases isWord
  | keyword listed =>
    rw [ofKeyword?_eq_some_iff.2 listed]
    rfl
  | sign listed =>
    have apart : ∀ sign ∈ signs, Token.isWord sign.2 = false := by decide
    rw [apart _ listed] at isWord
    cases isWord

/-- A token that starts with a digit is a number. -/
theorem Writes.eq_number {kind : Kind} (writes : Writes kind (first :: rest))
    (isDigit : first.isDigit = true) : kind = .number := by
  have noWord : isWord (first :: rest) = false := isWord_of_isDigit isDigit
  cases writes with
  | name isWord =>
    rw [noWord] at isWord
    cases isWord
  | number => rfl
  | keyword listed =>
    rw [isWord_of_mem_keywords listed] at noWord
    cases noWord
  | sign listed =>
    rw [(head_of_mem_signs listed).2.1] at isDigit
    cases isDigit

/-- Two starts of a text that are of the same length are the same. -/
theorem eq_of_isPrefix {text left right : List Char} (isStart : left <+: text)
    (isStart' : right <+: text) (shorter : left.length ≤ right.length)
    (longer : right.length ≤ left.length) : left = right :=
  (List.prefix_of_prefix_length_le isStart isStart' shorter).eq_of_length
    (Nat.le_antisymm shorter longer)

/-- No blank goes on in a word. -/
theorem isWordPart_of_isBlank {space : Char} (isBlank : Text.isBlank space = true) :
    isWordPart space = false := by
  rw [Bool.eq_false_iff]
  intro isPart
  simp only [Text.isBlank, Bool.or_eq_true, Bool.and_eq_true, decide_eq_true_eq, beq_iff_eq]
    at isBlank
  rw [isWordPart, Bool.or_eq_true, isWordStart_iff] at isPart
  rcases isPart with (letter | rfl | rfl) | digit
  · have letter := toNat_of_isAlpha letter
    omega
  · revert isBlank
    decide
  · revert isBlank
    decide
  · have digit := toNat_of_isDigit digit
    omega

/-- Whether a character may stand at the start of blank space or of a comment. -/
def startsGap (character : Char) : Bool :=
  Text.isBlank character || character == '/'

/-- What starts a gap starts no word and no number, and does not go on in a word. -/
theorem isWordPart_of_startsGap {character : Char} (starts : startsGap character = true) :
    isWordPart character = false := by
  rw [startsGap, Bool.or_eq_true, beq_iff_eq] at starts
  rcases starts with isBlank | rfl
  · exact isWordPart_of_isBlank isBlank
  · decide

/-- No character of a token starts a gap. -/
theorem Writes.startsGap_eq_false {kind : Kind} {text : List Char} (writes : Writes kind text) :
    ∀ character ∈ text, startsGap character = false := by
  have ofPart : ∀ character, isWordPart character = true → startsGap character = false := by
    intro character isPart
    rw [Bool.eq_false_iff]
    intro starts
    rw [isWordPart_of_startsGap starts] at isPart
    cases isPart
  have ofDigit : ∀ character : Char, character.isDigit = true → startsGap character = false :=
    fun character isDigit => ofPart character (by rw [isWordPart, isDigit, Bool.or_true])
  have ofSign : ∀ sign ∈ signs, ∀ character ∈ sign.2, startsGap character = false := by
    simp [signs, startsGap, Text.isBlank]
  obtain ⟨first, rest, rfl, isWord | isNumeral | isSign⟩ := writes.head
  · exact fun character isPart => ofPart character (isWordPart_of_isWord isWord.2 character isPart)
  · generalize first :: rest = text at isNumeral ⊢
    cases isNumeral.2 with
    | whole _ all => exact fun character isPart => ofDigit character (all character isPart)
    | decimal _ _ all all' =>
      rw [List.forall_mem_append, List.forall_mem_cons]
      exact ⟨fun character isPart => ofDigit character (all character isPart), by decide,
        fun character isPart => ofDigit character (all' character isPart)⟩
  · exact ofSign _ isSign

/-- Every token is found where its text starts, unless a longer one starts there. -/
theorem lexeme?_of_writes {kind : Kind} {piece : List Char} (writes : Writes kind piece)
    (longest : IsLongest piece following) (whole : first :: rest = piece ++ following) :
    lexeme? first rest = some ⟨some kind, piece⟩ := by
  have isStart : piece <+: first :: rest := ⟨following, whole.symm⟩
  rw [IsLongest, ← whole] at longest
  obtain ⟨head, tail, rfl, _⟩ := writes.head
  obtain ⟨rfl, _⟩ := List.cons_prefix_cons.1 isStart
  have noGap := writes.startsGap_eq_false head List.mem_cons_self
  rw [startsGap, Bool.or_eq_false_iff, beq_eq_false_iff_ne] at noGap
  have step := foundAt_lexeme? head rest
  generalize lexeme? head rest = found at step ⊢
  cases step with
  | word starts =>
    have isWord : isWord ((head :: rest).takeWhile isWordPart) = true := isWord_takeWhile starts
    have same := eq_of_isPrefix (List.takeWhile_prefix _) isStart
      (longest _ _ (writes_wordKind isWord) (List.takeWhile_prefix _))
      (length_le_word starts writes isStart)
    rw [same] at isWord ⊢
    rw [writes.eq_wordKind isWord]
  | number isDigit =>
    have same := eq_of_isPrefix (numeral_isPrefix _) isStart
      (longest _ _ (.number (isNumeral_numeral isDigit)) (numeral_isPrefix _))
      (length_le_numeral isDigit writes isStart)
    rw [same, writes.eq_number isDigit]
  | blank isBlank =>
    rw [noGap.1] at isBlank
    cases isBlank
  | comment isComment =>
    rcases comment?_eq_some isComment with ⟨⟨_, rfl, _⟩, _⟩ | ⟨_, rfl, _⟩
    all_goals
      obtain ⟨rfl, _⟩ := List.cons_prefix_cons.1 (comment?_isPrefix isComment)
      exact absurd rfl noGap.2
  | sign noWord noDigit _ _ isFound =>
    have isSign := mem_signs_of_writes writes isStart noWord noDigit
    cases found with
    | none => exact absurd isFound (punctuation?_ne_none isSign isStart)
    | some lexeme =>
      obtain ⟨kind', isKind, isSign'⟩ := mem_signs_of_punctuation? isFound
      have same := eq_of_isPrefix (punctuation?_isPrefix isFound) isStart
        (longest _ _ (.sign isSign') (punctuation?_isPrefix isFound))
        (length_le_punctuation isFound isSign isStart)
      have unique : ∀ left ∈ signs, ∀ right ∈ signs, left.2 = right.2 → left.1 = right.1 := by
        decide
      obtain ⟨kind?, text⟩ := lexeme
      cases isKind
      dsimp only at same
      subst same
      have sameKind : kind' = kind := unique _ isSign' _ isSign rfl
      rw [sameKind]

/-- Nothing is longer than the whole of a text. -/
theorem isLongest_nil (text : List Char) : IsLongest text [] := by
  intro kind longer _ isStart
  rw [List.append_nil] at isStart
  exact isStart.length_le

/-- What starts a gap ends every token. -/
theorem isLongest_of_startsGap {text : List Char} {next : Char} (starts : startsGap next = true) :
    IsLongest text (next :: rest) := by
  intro kind longer writes isStart
  by_contra exceeds
  -- A longer token would have that character in it.
  have goesOn : text ++ [next] <+: longer := by
    refine List.prefix_of_prefix_length_le ⟨rest, by simp⟩ isStart ?_
    rw [List.length_append, List.length_singleton]
    omega
  have noGap := writes.startsGap_eq_false next (goesOn.subset (by simp))
  rw [starts] at noGap
  cases noGap

/-- A token at the start of a text comes first, if no longer one starts there. -/
theorem ScansAs.writes {kind : Kind} {text : String} (writes : Writes kind text.toList)
    (longest : IsLongest text.toList following) (after : ScansAs following shapes) :
    ScansAs (text.toList ++ following) ((kind, text) :: shapes) := by
  obtain ⟨first, rest, isText, _⟩ := writes.head
  have whole : first :: (rest ++ following) = text.toList ++ following := by
    rw [isText, List.cons_append]
  have found := lexeme?_of_writes writes longest whole
  have scans := ScansAs.token found whole after
  rwa [whole, String.ofList_toList] at scans

/-! ## Blank space and comments are passed over -/

/-- Blank space and comments that end by themselves, whatever follows. -/
inductive IsLayout : List Char → Prop where
  /-- No layout at all. -/
  | nil : IsLayout []
  /-- A blank character, before more layout. -/
  | blank {space : Char} {rest : List Char} : Text.isBlank space = true → IsLayout rest →
    IsLayout (space :: rest)
  /-- A comment up to the end of its line and the line break, before more layout. -/
  | line {comment rest : List Char} : IsLineComment comment → IsLayout rest →
    IsLayout (comment ++ '\n' :: rest)
  /-- A comment between marks, before more layout. -/
  | block {comment rest : List Char} : IsBlockComment comment → IsLayout rest →
    IsLayout (comment ++ rest)

/-- Layout starts with what starts a gap. -/
theorem IsLayout.startsGap (isLayout : IsLayout (first :: rest)) : startsGap first = true := by
  generalize isText : first :: rest = text at isLayout
  cases isLayout with
  | nil => cases isText
  | blank isBlank =>
    cases isText
    rw [Token.startsGap, isBlank, Bool.true_or]
  | line isLine =>
    obtain ⟨body, rfl, _⟩ := isLine
    cases isText
    decide
  | block isBlock =>
    obtain ⟨body, rfl, _⟩ := isBlock
    cases isText
    decide

/-- Where a blank stands, all blank space from there on is found. -/
theorem lexeme?_of_isBlank (isBlank : Text.isBlank first = true) :
    lexeme? first rest = some ⟨none, (first :: rest).takeWhile Text.isBlank⟩ := by
  have noPart := isWordPart_of_isBlank isBlank
  rw [isWordPart, Bool.or_eq_false_iff] at noPart
  simp only [lexeme?, noPart.1, noPart.2, isBlank, Bool.false_eq_true, if_false, if_true]

/-- Where a comment stands, it is found. -/
theorem lexeme?_of_comment? {comment : List Char}
    (found : comment? (first :: rest) = some comment) :
    lexeme? first rest = some ⟨none, comment⟩ := by
  have isSlash : first = '/' := by
    unfold comment? at found
    split at found
    · rename_i same
      cases same
      rfl
    · rename_i same
      cases same
      rfl
    · cases found
  subst isSlash
  have noWord : isWordStart '/' = false := by decide
  have noDigit : Char.isDigit '/' = false := by decide
  have noBlank : Text.isBlank '/' = false := by decide
  simp only [lexeme?, noWord, noDigit, noBlank, Bool.false_eq_true, if_false, found]

/-- A text ends at its first end mark. -/
theorem untilCommentEnd?_append {body : List Char} (isFirst : ¬ ['*', '/'] <:+: body ++ ['*']) :
    untilCommentEnd? (body ++ '*' :: '/' :: rest) = some (body ++ ['*', '/']) := by
  induction body with
  | nil => rfl
  | cons character body ih =>
    rw [List.cons_append, List.infix_cons_iff, not_or] at isFirst
    rw [List.cons_append, untilCommentEnd?.eq_def]
    split
    · rename_i same
      obtain ⟨rfl, tail⟩ := List.cons.inj same
      cases body with
      | nil => exact absurd tail (by simp)
      | cons second body =>
        cases tail
        exact absurd ⟨_, rfl⟩ isFirst.1
    · rename_i same
      cases same
      rw [ih isFirst.2]
      rfl
    · rename_i empty
      cases empty

/-- A comment between marks is found whole. -/
theorem IsBlockComment.comment? {comment : List Char} (isBlock : IsBlockComment comment) :
    comment? (comment ++ rest) = some comment := by
  obtain ⟨body, rfl, isFirst⟩ := isBlock
  rw [List.cons_append, List.cons_append, List.append_assoc, Token.comment?]
  exact congrArg _ (untilCommentEnd?_append isFirst)

/-- A comment up to the end of its line is found whole. -/
theorem IsLineComment.comment? {comment : List Char} (isLine : IsLineComment comment) :
    comment? (comment ++ '\n' :: rest) = some comment := by
  obtain ⟨body, rfl, inside⟩ := isLine
  have all : ∀ character ∈ body, (character != '\n') = true := by
    intro character isPart
    rw [bne_iff_ne]
    rintro rfl
    exact inside isPart
  rw [List.cons_append, List.cons_append, Token.comment?, List.takeWhile_append_of_pos all]
  simp

namespace ScansAs

/-- What separates tokens can be left out at the start. -/
theorem of_gap {piece : List Char} (found : lexeme? first rest = some ⟨none, piece⟩)
    (whole : first :: rest = piece ++ following) (scans : ScansAs (first :: rest) shapes) :
    ScansAs following shapes := by
  obtain ⟨tokens, scanned, rfl⟩ := scans 0
  rw [scanFrom_lexeme found whole] at scanned
  cases inner : scanFrom (0 + Text.byteLength piece) following with
  | error fault =>
    rw [inner] at scanned
    cases scanned
  | ok after =>
    rw [inner] at scanned
    cases scanned
    exact scansAs_of_scanFrom inner

/-- A blank is passed over. -/
theorem blank {space : Char} (isBlank : Text.isBlank space = true) (after : ScansAs rest shapes) :
    ScansAs (space :: rest) shapes := by
  -- All blanks are found in one step, so the rest is seen without those it starts with.
  have trimmed : ScansAs (rest.dropWhile Text.isBlank) shapes := by
    cases rest with
    | nil => exact after
    | cons next more =>
      by_cases isBlank' : Text.isBlank next = true
      · exact after.of_gap (lexeme?_of_isBlank isBlank') List.takeWhile_append_dropWhile.symm
      · rwa [List.dropWhile_cons_of_neg isBlank']
  refine .gap (lexeme?_of_isBlank isBlank) List.takeWhile_append_dropWhile.symm ?_
  rwa [List.dropWhile_cons_of_pos isBlank]

/-- A comment is passed over. -/
theorem comment {comment : List Char} (found : comment? (comment ++ rest) = some comment)
    (after : ScansAs rest shapes) : ScansAs (comment ++ rest) shapes := by
  cases comment with
  | nil =>
    rcases comment?_eq_some found with ⟨⟨_, same, _⟩, _⟩ | ⟨_, same, _⟩ <;> cases same
  | cons first comment => exact .gap (lexeme?_of_comment? found) rfl after

/-- Layout is passed over. -/
theorem layout {gap : List Char} (isLayout : IsLayout gap) (after : ScansAs rest shapes) :
    ScansAs (gap ++ rest) shapes := by
  induction isLayout with
  | nil => exact after
  | blank isBlank _ ih => exact ih.blank isBlank
  | line isLine _ ih =>
    rw [List.append_assoc]
    exact .comment isLine.comment? (ih.blank (by decide))
  | block isBlock _ ih =>
    rw [List.append_assoc]
    exact .comment isBlock.comment? ih

end ScansAs

/-! ## Sources -/

/-- The pieces of a source, each with what comes between it and the next one. -/
def laid (texts : List String) (gaps : List (List Char)) : List Char :=
  (List.zipWith (fun text gap => text.toList ++ gap) texts gaps).flatten

/-- Whether a source is made of pieces with layout before, between and after them, and not without
any between two of them. -/
def LaidOut (texts : List String) (source : List Char) : Prop :=
  ∃ lead gaps, source = lead ++ laid texts gaps ∧ gaps.length = texts.length ∧ IsLayout lead ∧
    (∀ gap ∈ gaps, IsLayout gap) ∧ ∀ gap ∈ gaps.dropLast, gap ≠ []

/-- Pieces that are tokens are scanned into these, whatever layout keeps them apart. -/
theorem scansAs_laid {gaps : List (List Char)}
    (writes : ∀ entry ∈ shapes, Writes entry.1 entry.2.toList)
    (each : gaps.length = shapes.length) (isLayout : ∀ gap ∈ gaps, IsLayout gap)
    (apart : ∀ gap ∈ gaps.dropLast, gap ≠ []) :
    ScansAs (laid (shapes.map Prod.snd) gaps) (shapes ++ [endShape]) := by
  induction shapes generalizing gaps with
  | nil => exact .nil
  | cons entry shapes ih =>
    obtain ⟨gap, gaps, rfl⟩ := List.exists_cons_of_length_eq_add_one each
    rw [List.length_cons, List.length_cons, Nat.succ_inj] at each
    rw [List.forall_mem_cons] at writes isLayout
    have after : ScansAs (laid (shapes.map Prod.snd) gaps) (shapes ++ [endShape]) := by
      refine ih writes.2 each isLayout.2 fun later isLater => apart later ?_
      cases gaps with
      | nil => cases isLater
      | cons => exact List.mem_cons_of_mem _ isLater
    have whole : laid ((entry :: shapes).map Prod.snd) (gap :: gaps) =
        entry.2.toList ++ (gap ++ laid (shapes.map Prod.snd) gaps) := by
      simp [laid]
    rw [whole]
    refine .writes writes.1 ?_ (after.layout isLayout.1)
    cases gap with
    | cons first rest => exact isLongest_of_startsGap isLayout.1.startsGap
    | nil =>
      -- Only after the last piece there may be nothing.
      cases gaps with
      | nil =>
        rw [List.length_nil, eq_comm, List.length_eq_zero_iff] at each
        subst each
        exact isLongest_nil _
      | cons next gaps => exact absurd rfl (apart [] List.mem_cons_self)

/-- The tokens that a text is cut into have the texts of their kinds. -/
theorem Cut.writes {offset : Nat} {text : List Char} {tokens : List Token}
    (cut : Cut following offset text tokens) :
    ∀ token ∈ tokens, Writes token.kind token.value.toList := by
  induction cut with
  | done => exact List.forall_mem_nil _
  | gap _ _ ih => exact ih
  | token writes _ _ ih =>
    rw [List.forall_mem_cons, String.toList_ofList]
    exact ⟨writes, ih⟩

/-- Layout does not matter. A source that is made of the texts of another's tokens, in their order
and with any layout that keeps them apart, is scanned as well, into tokens of the same kinds and
texts. -/
theorem scan_laidOut {source source' : String} {tokens : List Token}
    (scanned : scan source = .ok tokens)
    (laidOut : LaidOut (tokens.dropLast.map Token.value) source'.toList) :
    ∃ tokens', scan source' = .ok tokens' ∧ tokens'.map shape = tokens.map shape := by
  obtain ⟨body, rfl, cut⟩ := cut_of_scanFrom scanned
  rw [List.dropLast_concat] at laidOut
  obtain ⟨lead, gaps, isSource, each, isLayout, areLayout, apart⟩ := laidOut
  have texts : body.map Token.value = (body.map shape).map Prod.snd := by
    rw [List.map_map]
    rfl
  have writes : ∀ entry ∈ body.map shape, Writes entry.1 entry.2.toList := by
    rw [List.forall_mem_map]
    exact cut.writes
  rw [texts] at isSource each
  rw [List.length_map] at each
  have scans := (scansAs_laid writes each areLayout apart).layout isLayout
  rw [← isSource] at scans
  obtain ⟨tokens', scanned', shapes⟩ := scans 0
  refine ⟨tokens', scanned', ?_⟩
  rw [shapes, List.map_append]
  rfl

/-- A source without any blanks, laid out with a tab, a wide blank and comments of both kinds that
hold the signs of tokens and of other comments. -/
theorem scan_laidOut_commented :
    let source := "const f=(a:x)=>true;"
    let source' := "//* =\nconst\tf /*//*/ = ( a : x )/**/=>// */\n\u2003true ;"
    ∃ tokens, scan source = .ok tokens ∧
      LaidOut (tokens.dropLast.map Token.value) source'.toList ∧
      ∃ tokens', scan source' = .ok tokens' ∧ tokens'.map shape = tokens.map shape := by
  intro source source'
  have texts : (scan source).toOption.map (fun tokens => tokens.dropLast.map Token.value) =
      some ["const", "f", "=", "(", "a", ":", "x", ")", "=>", "true", ";"] := by decide +kernel
  cases scanned : scan source with
  | error => simp [scanned, Except.toOption] at texts
  | ok tokens =>
    simp only [scanned, Except.toOption, Option.map_some, Option.some.injEq] at texts
    have space : IsLayout [' '] := .blank (by decide) .nil
    have empty : IsLayout "/**/".toList :=
      .block ⟨[], rfl, by decide⟩ .nil
    have laidOut : LaidOut (tokens.dropLast.map Token.value) source'.toList := by
      rw [texts]
      refine ⟨"//* =\n".toList, ["\t".toList, " /*//*/ ".toList, [' '], [' '], [' '], [' '], [' '],
        "/**/".toList, "// */\n\u2003".toList, [' '], []], by decide +kernel, rfl, ?_, ?_,
        by decide⟩
      · exact .line ⟨"* =".toList, rfl, by decide⟩ .nil
      · simp only [List.forall_mem_cons]
        refine ⟨.blank (by decide) .nil, .blank (by decide) ?_, space, space, space, space, space,
          empty, ?_, space, .nil, List.forall_mem_nil _⟩
        · exact .block ⟨"//".toList, rfl, by decide⟩ space
        · exact .line ⟨" */".toList, rfl, by decide⟩ (.blank (by decide) .nil)
    exact ⟨tokens, rfl, laidOut, scan_laidOut scanned laidOut⟩

end Equirec.Token
