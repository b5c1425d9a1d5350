/-!
# Blank space

The characters that may stand between tokens, and that are dropped from the end of a shown
line. They are the twenty-five characters with the Unicode property White_Space, which is more
than the four that the core library calls whitespace.
-/
namespace Equirec.Text

/-- Whether a character has the Unicode property White_Space. -/
def isBlank (character : Char) : Bool :=
  let code := character.toNat
  (0x0009 ≤ code && code ≤ 0x000D) || code == 0x0020 || code == 0x0085 || code == 0x00A0 ||
    code == 0x1680 || (0x2000 ≤ code && code ≤ 0x200A) || code == 0x2028 || code == 0x2029 ||
    code == 0x202F || code == 0x205F || code == 0x3000

/-- A text without the blanks at its end. -/
def trimEnd (text : List Char) : List Char :=
  (text.reverse.dropWhile isBlank).reverse

/-- The number of bytes that a text takes when it is stored as UTF-8. -/
def byteLength (text : List Char) : Nat :=
  text.foldr (fun character total => character.utf8Size + total) 0

/-- No text, no bytes. -/
@[simp]
theorem byteLength_nil : byteLength [] = 0 := rfl

/-- A character adds its own bytes in front. -/
@[simp]
theorem byteLength_cons (first : Char) (rest : List Char) :
    byteLength (first :: rest) = first.utf8Size + byteLength rest := rfl

/-- Bytes add up when texts are joined. -/
@[simp]
theorem byteLength_append (left right : List Char) :
    byteLength (left ++ right) = byteLength left + byteLength right := by
  induction left with
  | nil => simp
  | cons first rest ih => simp [ih, Nat.add_assoc]

end Equirec.Text
