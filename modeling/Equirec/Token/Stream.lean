import Equirec.Token

/-!
# A stream of tokens

A stream gives its tokens one by one and remembers where the last one that it gave away ended. When
all are gone it goes on showing the last one for ever: for the tokens of a source that is the mark
of the end.
-/
namespace Equirec

/-- A stream of tokens. -/
structure TokenStream where
  /-- The tokens not yet given away. -/
  upcoming : List Token
  /-- The last token of the whole stream. -/
  last : Token
  /-- Where the token given away last ended, or the start of the source. -/
  passed : Offset := 0
  deriving DecidableEq

namespace TokenStream

/-- The stream of a list of tokens, which must not be empty. -/
def ofTokens? (tokens : List Token) : Option TokenStream :=
  tokens.getLast?.map fun last => { upcoming := tokens, last }

/-- The token so many places ahead. -/
def peek (stream : TokenStream) (ahead : Nat) : Token :=
  stream.upcoming.getD ahead stream.last

/-- The next token. -/
def current (stream : TokenStream) : Token :=
  stream.peek 0

/-- The stream without its next token. -/
def advance (stream : TokenStream) : TokenStream :=
  match stream.upcoming with
  | [] => stream
  | token :: rest => { stream with upcoming := rest, passed := token.span.stop }

/-- Whether the next token is something else than the mark of the end. -/
def hasTokens (stream : TokenStream) : Bool :=
  stream.current.kind != .eof

end TokenStream

end Equirec
