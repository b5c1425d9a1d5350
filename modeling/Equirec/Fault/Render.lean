import Equirec.Fault
import Equirec.Text.Line

/-!
# Faults with their source

A fault is shown with its name and its tip, the name of the file, and the line of the source on
which it was found, with dashes that lead to a caret under the place. The spaces and tabs in front
of the line are left out, and the dashes are as many bytes as stand before the place in what is
left.
-/
namespace Equirec

/-- Whether a character in front of a line is left out when the line is shown. -/
def Text.isIndent (character : Char) : Bool :=
  character == ' ' || character == '\t'

namespace Fault

/-- The name of a fault and its tip, if it has one. -/
def headline (fault : Fault) : String :=
  match fault.cause.tip? with
  | none => "Error: " ++ fault.cause.name
  | some tip => "Error: " ++ fault.cause.name ++ " (" ++ tip ++ ")"

/-- The margin of a line of the snippet, as wide as the number of the line. -/
def margin (number : Nat) : String :=
  "".pushn ' ' (number.repr.length + 1) ++ "|"

/-- The snippet for a line and a place in it. -/
def snippet (line : Text.Line) : String :=
  let indent := (line.text.takeWhile Text.isIndent).length
  let shown := Text.trimEnd (line.text.dropWhile Text.isIndent)
  margin line.number ++ "\n" ++
    line.number.repr ++ " | " ++ String.ofList shown ++ "\n" ++
    margin line.number ++ " " ++ "".pushn '-' (line.column - indent) ++ "^\n"

/-- A fault in a source, as the reader of the given file sees it. -/
def render (fault : Fault) (source file : String) : String :=
  fault.headline ++ "\n-> " ++ file ++ "\n" ++
    match Text.lineAt? source.toList fault.offset.toNat with
    | none => ""
    | some line => snippet line

end Fault

end Equirec
