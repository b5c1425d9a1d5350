import Equirec.Text.Hidden

/-!
# Quoted text

How a message shows a piece of source text: between double quotes, with quotes, backslashes and
the common controls escaped by a letter, and every other character that has no visible form of
its own written as its code point.
-/
namespace Equirec.Text

/-- A code point in lower-case hexadecimal digits between braces, after a backslash and a `u`. -/
def escapeCode (character : Char) : List Char :=
  ['\\', 'u', '\x7b'] ++ Nat.toDigits 16 character.toNat ++ ['\x7d']

/-- How one character is written between the quotes. -/
def escape (character : Char) : List Char :=
  match character with
  | '"' => ['\\', '"']
  | '\\' => ['\\', '\\']
  | '\n' => ['\\', 'n']
  | '\r' => ['\\', 'r']
  | '\t' => ['\\', 't']
  | '\x00' => ['\\', '0']
  | _ => if isHidden character then escapeCode character else [character]

/-- A text as a message shows it. -/
def quote (text : String) : String :=
  String.ofList (['"'] ++ text.toList.flatMap escape ++ ['"'])

end Equirec.Text
