import Equirec.Span

/-!
# Tokens

A token is a piece of source text of a certain kind. The last token of a program is always the one
that marks its end.
-/
namespace Equirec

namespace Token

/-- The kinds of tokens. -/
inductive Kind where
  /-- The end of the program. -/
  | eof
  /-- A number literal. -/
  | number
  /-- A name that is no keyword. -/
  | identifier
  /-- An opening brace. -/
  | openCurly
  /-- A closing brace. -/
  | closeCurly
  /-- An opening parenthesis. -/
  | openParen
  /-- A closing parenthesis. -/
  | closeParen
  /-- The sign `=`. -/
  | assignment
  /-- The arrow `=>`. -/
  | arrow
  /-- A dot. -/
  | dot
  /-- A semicolon. -/
  | semicolon
  /-- A colon. -/
  | colon
  /-- A question mark. -/
  | question
  /-- A comma. -/
  | comma
  /-- A plus sign. -/
  | plus
  /-- The keyword `const`. -/
  | constKeyword
  /-- The keyword `function`. -/
  | functionKeyword
  /-- The keyword `return`. -/
  | returnKeyword
  /-- The keyword `type`. -/
  | typeKeyword
  /-- The keyword `true`. -/
  | trueKeyword
  /-- The keyword `false`. -/
  | falseKeyword
  deriving DecidableEq, Inhabited

namespace Kind

/-- All kinds of tokens. -/
def all : List Kind :=
  [eof, number, identifier, openCurly, closeCurly, openParen, closeParen, assignment, arrow, dot,
    semicolon, colon, question, comma, plus, constKeyword, functionKeyword, returnKeyword,
    typeKeyword, trueKeyword, falseKeyword]

/-- The name of a kind, as a shown token has it. -/
def name : Kind → String
  | eof => "EOF"
  | number => "Number"
  | identifier => "Identifier"
  | openCurly => "OpenCurly"
  | closeCurly => "CloseCurly"
  | openParen => "OpenParen"
  | closeParen => "CloseParen"
  | assignment => "Assignment"
  | arrow => "Arrow"
  | dot => "Dot"
  | semicolon => "Semicolon"
  | colon => "Colon"
  | question => "Question"
  | comma => "Comma"
  | plus => "Plus"
  | constKeyword => "Const"
  | functionKeyword => "Function"
  | returnKeyword => "Return"
  | typeKeyword => "Type"
  | trueKeyword => "True"
  | falseKeyword => "False"

/-- The kind of a given name. -/
def ofName? (text : String) : Option Kind :=
  all.find? fun kind => kind.name == text

/-- The kind of a keyword, or nothing for any other word. -/
def ofKeyword? : String → Option Kind
  | "const" => some constKeyword
  | "function" => some functionKeyword
  | "return" => some returnKeyword
  | "type" => some typeKeyword
  | "true" => some trueKeyword
  | "false" => some falseKeyword
  | _ => none

end Kind

end Token

/-- A token. -/
structure Token where
  /-- Its kind. -/
  kind : Token.Kind
  /-- Its text in the source. -/
  value : String
  /-- Where it stands. -/
  span : Span
  deriving DecidableEq, Inhabited

/-- The text that shows a token. -/
def Token.render (token : Token) : String :=
  "Token \x7b\nkind: " ++ token.kind.name ++ ",\nvalue: " ++ token.value ++ "\x7d"

end Equirec
