import Equirec.Fault
import Equirec.Grammar
import Equirec.Scope
import Equirec.Token.Stream

/-!
# The state of a parser

A parser holds the tokens that are still to be read and the names of types that are known. `Parse`
is the type of its actions: an action changes the parser and ends with a value or a stop, and after
a stop the parser is left where the action stopped.

Actions that call each other take the number of calls that may still be nested. A parser that reads
the tokens of a source never uses up what `Parser.allowance` gives it; on other lists of tokens
reading may go on for ever, because a stream repeats its last token.
-/
namespace Equirec

/-- A parser. -/
structure Parser where
  /-- The tokens. -/
  stream : TokenStream
  /-- The names of types. -/
  scope : Scope := {}
  deriving DecidableEq

/-- An action of a parser. -/
abbrev Parse := ExceptT (Stop Fault) (StateM Parser)

namespace Parser

/-- How many calls may be nested while reading what is left. Every few nested calls take a token
off the stream. -/
def allowance (parser : Parser) : Nat :=
  16 * (parser.stream.upcoming.length + 4)

/-- Performs an action that takes an allowance. -/
def perform {α : Type} (parser : Parser) (action : Nat → Parse α) :
    Except (Stop Fault) α × Parser :=
  (action parser.allowance).run.run parser

end Parser

namespace Parse

variable {α : Type}

/-- Ends with a fault. -/
def fail (cause : Cause) (offset : Offset) : Parse α :=
  throw (.fault ⟨cause, offset⟩)

/-- Ends because the allowance is used up. -/
def exhausted : Parse α :=
  throw .exhausted

/-- The next token. -/
def current : Parse Token :=
  return (← get).stream.current

/-- The kind of the token so many places ahead. -/
def peekKind (ahead : Nat) : Parse Token.Kind :=
  return ((← get).stream.peek ahead).kind

/-- Whether the next token is of a kind. -/
def nextIs (kind : Token.Kind) : Parse Bool :=
  return (← current).kind == kind

/-- Takes the next token. -/
def advance : Parse Token := do
  let token ← current
  modify fun parser => { parser with stream := parser.stream.advance }
  return token

/-- Takes the next token and drops it. -/
def skip : Parse Unit :=
  discard advance

/-- Refuses the next token. -/
def unexpected : Parse α := do
  let token ← current
  fail (.unexpectedToken token.value) token.span.start

/-- Refuses the next token and says what is needed instead. -/
def unexpectedFor (detail : String) : Parse α := do
  let token ← current
  fail (.unexpectedTokenDetailed token.value detail) token.span.start

/-- Takes the next token, which must be of a kind. -/
def expect (kind : Token.Kind) : Parse Token := do
  if ← nextIs kind then advance else unexpected

/-- Takes the next token, which must be of a kind, and else says what is needed. -/
def expectFor (kind : Token.Kind) (detail : String) : Parse Token := do
  if ← nextIs kind then advance else unexpectedFor detail

/-- The stretch from a place to the end of the token taken last. -/
def spanFrom (start : Offset) : Parse Span :=
  return ⟨start, (← get).stream.passed⟩

/-- Performs an action whose declarations of types are forgotten afterwards, however it ends. -/
def locally (action : Parse α) : Parse α := ExceptT.mk do
  let aliases := (← get).scope.aliases
  let result ← action.run
  modify fun parser => { parser with scope := parser.scope.leave aliases }
  return result

end Parse

end Equirec
