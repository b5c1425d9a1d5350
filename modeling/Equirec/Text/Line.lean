import Equirec.Text.Blank

/-!
# Lines of a text

A line runs up to and including its newline, or to the end of the text. `lineAt?` finds the line of
a place, counted in bytes. The end of the text belongs to its last line: it lies just after what is
left of that line without the blanks at its end.
-/
namespace Equirec.Text

/-- A line of a text and a place in it. -/
structure Line where
  /-- The number of the line, from one. -/
  number : Nat
  /-- The text of the line, with its newline. -/
  text : List Char
  /-- The number of bytes of the line before the place. -/
  column : Nat
  deriving DecidableEq

/-- The lines of a text. -/
def lines : List Char → List (List Char)
  | [] => []
  | character :: rest =>
    if character = '\n' then [character] :: lines rest
    else
      match lines rest with
      | [] => [[character]]
      | line :: others => (character :: line) :: others

/-- Lines put one after the other are the text again. -/
@[simp]
theorem flatten_lines (text : List Char) : (lines text).flatten = text := by
  induction text with
  | nil => rfl
  | cons character rest ih =>
    rw [lines]
    split
    · simp [ih]
    · split
      · rename_i isEmpty
        rw [isEmpty] at ih
        simpa using ih
      · rename_i line others isCons
        rw [isCons] at ih
        simpa using ih

/-- The line of a place among the lines of a text, the first of which has the given number. -/
def findLine (number : Nat) (position : Nat) : List (List Char) → Line
  | [] => ⟨number, [], 0⟩
  | line :: others =>
    if position < byteLength line then ⟨number, line, position⟩
    else if others.isEmpty then ⟨number, line, byteLength (trimEnd line)⟩
    else findLine (number + 1) (position - byteLength line) others

/-- The line of a place in a text, unless the place lies past the end. -/
def lineAt? (text : List Char) (position : Nat) : Option Line :=
  if byteLength text < position then none else some (findLine 1 position (lines text))

end Equirec.Text
