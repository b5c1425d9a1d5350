import Equirec.Fault
import Equirec.Text.Blank
import Equirec.Token

/-!
# From text to tokens

A source is cut into lexemes: words, numbers, punctuation, and the blank space and comments between
them. The kinds of lexemes are tried in a fixed order and each takes as much text as it can, except
that a block comment ends at the first place where it can. `lexeme?` is one such step and `scan`
repeats it to the end of the source.
-/
namespace Equirec.Token

/-- Whether a character may start a word: an ASCII letter, an underscore or a dollar sign. -/
def isWordStart (character : Char) : Bool :=
  character.isAlpha || character == '_' || character == '$'

/-- Whether a character may go on in a word. -/
def isWordPart (character : Char) : Bool :=
  isWordStart character || character.isDigit

/-- A piece of source text. -/
structure Lexeme where
  /-- The kind of its token, or nothing for blank space and comments. -/
  kind? : Option Kind
  /-- Its text. -/
  text : List Char
  deriving DecidableEq

/-- The text up to and including the first mark that ends a block comment. -/
def untilCommentEnd? : List Char → Option (List Char)
  | '*' :: '/' :: _ => some ['*', '/']
  | character :: rest => (untilCommentEnd? rest).map (character :: ·)
  | [] => none

/-- The fraction after the digits of a number: a point and at least one digit, or nothing. -/
def fraction : List Char → List Char
  | '.' :: rest =>
    let digits := rest.takeWhile Char.isDigit
    if digits.isEmpty then [] else '.' :: digits
  | _ => []

/-- A number: digits and a fraction. -/
def numeral (text : List Char) : List Char :=
  text.takeWhile Char.isDigit ++ fraction (text.dropWhile Char.isDigit)

/-- The kind of a word: that of a keyword, or a name. -/
def wordKind (word : List Char) : Kind :=
  (Kind.ofKeyword? (String.ofList word)).getD .identifier

/-- The comment that a text starts with, if it does. -/
def comment? : List Char → Option (List Char)
  | '/' :: '/' :: rest => some ('/' :: '/' :: rest.takeWhile (· != '\n'))
  | '/' :: '*' :: rest => (untilCommentEnd? rest).map ('/' :: '*' :: ·)
  | _ => none

/-- The punctuation that a text starts with, if it does. -/
def punctuation? : List Char → Option Lexeme
  | '=' :: '>' :: _ => some ⟨some .arrow, ['=', '>']⟩
  | '\x7b' :: _ => some ⟨some .openCurly, ['\x7b']⟩
  | '\x7d' :: _ => some ⟨some .closeCurly, ['\x7d']⟩
  | '(' :: _ => some ⟨some .openParen, ['(']⟩
  | ')' :: _ => some ⟨some .closeParen, [')']⟩
  | '=' :: _ => some ⟨some .assignment, ['=']⟩
  | '.' :: _ => some ⟨some .dot, ['.']⟩
  | ';' :: _ => some ⟨some .semicolon, [';']⟩
  | ':' :: _ => some ⟨some .colon, [':']⟩
  | '?' :: _ => some ⟨some .question, ['?']⟩
  | ',' :: _ => some ⟨some .comma, [',']⟩
  | '+' :: _ => some ⟨some .plus, ['+']⟩
  | _ => none

/-- The lexeme that a text starts with, given its first character and the rest. -/
def lexeme? (first : Char) (rest : List Char) : Option Lexeme :=
  let text := first :: rest
  if isWordStart first then
    let word := text.takeWhile isWordPart
    some ⟨some (wordKind word), word⟩
  else if first.isDigit then some ⟨some .number, numeral text⟩
  else if Text.isBlank first then some ⟨none, text.takeWhile Text.isBlank⟩
  else
    match comment? text with
    | some comment => some ⟨none, comment⟩
    | none => punctuation? text

/-- The end mark of a comment is looked for in the text itself. -/
theorem untilCommentEnd?_isPrefix {text comment : List Char}
    (found : untilCommentEnd? text = some comment) : comment <+: text := by
  fun_induction untilCommentEnd? text generalizing comment with
  | case1 rest =>
    cases found
    exact ⟨rest, rfl⟩
  | case2 character rest _ ih =>
    obtain ⟨tail, isTail, rfl⟩ := Option.map_eq_some_iff.1 found
    exact List.cons_prefix_cons.2 ⟨rfl, ih isTail⟩
  | case3 => simp at found

/-- A fraction is the start of the text in which it is looked for. -/
theorem fraction_isPrefix (text : List Char) : fraction text <+: text := by
  unfold fraction
  split
  · dsimp only
    split
    · exact List.nil_prefix
    · exact List.cons_prefix_cons.2 ⟨rfl, List.takeWhile_prefix _⟩
  · exact List.nil_prefix

/-- A number is the start of the text in which it is looked for. -/
theorem numeral_isPrefix (text : List Char) : numeral text <+: text := by
  have whole := List.takeWhile_append_dropWhile (p := Char.isDigit) (l := text)
  obtain ⟨rest, tail⟩ := fraction_isPrefix (text.dropWhile Char.isDigit)
  exact ⟨rest, by rw [numeral, List.append_assoc, tail, whole]⟩

/-- A comment is the start of the text in which it is looked for. -/
theorem comment?_isPrefix {text comment : List Char} (found : comment? text = some comment) :
    comment <+: text := by
  unfold comment? at found
  split at found
  · cases found
    exact List.cons_prefix_cons.2 ⟨rfl, List.cons_prefix_cons.2 ⟨rfl, List.takeWhile_prefix _⟩⟩
  · obtain ⟨tail, isTail, rfl⟩ := Option.map_eq_some_iff.1 found
    exact List.cons_prefix_cons.2
      ⟨rfl, List.cons_prefix_cons.2 ⟨rfl, untilCommentEnd?_isPrefix isTail⟩⟩
  · simp at found

/-- Punctuation is the start of the text in which it is looked for. -/
theorem punctuation?_isPrefix {text : List Char} {lexeme : Lexeme}
    (found : punctuation? text = some lexeme) : lexeme.text <+: text := by
  unfold punctuation? at found
  split at found <;> cases found <;> exact ⟨_, rfl⟩

/-- A lexeme is the start of the text in which it is looked for. -/
theorem lexeme?_isPrefix {first : Char} {rest : List Char} {lexeme : Lexeme}
    (found : lexeme? first rest = some lexeme) : lexeme.text <+: first :: rest := by
  simp only [lexeme?] at found
  split at found
  · cases found
    exact List.takeWhile_prefix _
  · split at found
    · cases found
      exact numeral_isPrefix _
    · split at found
      · cases found
        exact List.takeWhile_prefix _
      · split at found
        · rename_i comment isComment
          cases found
          exact comment?_isPrefix isComment
        · exact punctuation?_isPrefix found

/-- The token of a lexeme at a place, unless the lexeme is only there to separate. -/
def Lexeme.token? (lexeme : Lexeme) (offset : Nat) : Option Token :=
  lexeme.kind?.map fun kind =>
    { kind
      value := String.ofList lexeme.text
      span := ⟨.ofNat offset, .ofNat (offset + Text.byteLength lexeme.text)⟩ }

/-- The token that marks the end of a source of the given length. -/
def endMark (offset : Nat) : Token :=
  { kind := .eof, value := "EOF", span := ⟨.ofNat offset, .ofNat offset⟩ }

/-- The tokens of a text that starts at a place, up to the end mark. The first character that
starts no lexeme is a fault. -/
def scanFrom (offset : Nat) (text : List Char) : Except Fault (List Token) :=
  match text with
  | [] => .ok [endMark offset]
  | first :: rest =>
    match lexeme? first rest with
    | none => .error ⟨.unrecognisedToken first.toString, .ofNat offset⟩
    | some lexeme => do
      let after ← scanFrom (offset + Text.byteLength lexeme.text)
        (rest.drop (lexeme.text.length - 1))
      return (lexeme.token? offset).toList ++ after
termination_by text.length
decreasing_by
  simp only [List.length_drop, List.length_cons]
  omega

/-- The tokens of a source. -/
def scan (source : String) : Except Fault (List Token) :=
  scanFrom 0 source.toList

end Equirec.Token
