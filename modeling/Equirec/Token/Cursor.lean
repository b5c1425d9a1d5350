import Equirec.Span
import Equirec.Text.Blank

/-!
# A cursor in a source

A cursor counts bytes and may be moved anywhere, also past the end of the source or into the middle
of a character. In such a place there is no text to look at.
-/
namespace Equirec

/-- A place in a labelled source. -/
structure Cursor where
  /-- The source. -/
  text : String
  /-- The label of the source. -/
  file : String
  /-- The number of bytes before the cursor. -/
  offset : Nat := 0
  deriving DecidableEq

/-- What is left of a text after the given number of bytes, when that is not past the end of the
text and not inside a character. -/
def Text.dropBytes? : List Char → Nat → Option (List Char)
  | text, 0 => some text
  | [], _ + 1 => none
  | first :: rest, bytes =>
    if first.utf8Size ≤ bytes then dropBytes? rest (bytes - first.utf8Size) else none

namespace Cursor

/-- The cursor moved on by a number of bytes. -/
def advance (cursor : Cursor) (bytes : Nat) : Cursor :=
  { cursor with offset := cursor.offset + bytes }

/-- The text from the cursor on, where there is any to look at. -/
def remainder? (cursor : Cursor) : Option String :=
  (Text.dropBytes? cursor.text.toList cursor.offset).map String.ofList

/-- The character at the cursor, which at the end of the source is the null character. -/
def character? (cursor : Cursor) : Option Char :=
  (Text.dropBytes? cursor.text.toList cursor.offset).map fun rest => rest.headD '\x00'

/-- Whether the cursor is at the end of the source or past it. -/
def atEnd (cursor : Cursor) : Bool :=
  Text.byteLength cursor.text.toList ≤ cursor.offset

/-- Where the cursor stands. -/
def position (cursor : Cursor) : Position :=
  ⟨.ofNat cursor.offset, cursor.file⟩

end Cursor

end Equirec
