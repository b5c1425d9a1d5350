import Equirec.Checker
import Equirec.Fault.Render
import Equirec.Parser.Terms
import Equirec.Token.Scan

/-!
# Programs as text

A source is the text of a program with a label. It is read into tokens, the tokens into a term, and
the term is checked; a fault in any of these is a diagnostic in the labelled source.
-/
namespace Equirec

/-- The text of a program. -/
structure Source where
  /-- The text. -/
  text : String
  /-- The label that diagnostics carry. -/
  label : String := "shell"
  deriving DecidableEq

namespace Source

/-- The tokens of a source. -/
def tokens (source : Source) : Except Diagnostic (List Token) :=
  (Token.scan source.text).mapError (·.within source.label)

/-- The term of a source. -/
def term (source : Source) : Except (Stop Diagnostic) Term := do
  let tokens ← source.tokens.mapError Stop.fault
  (Term.ofTokens tokens).mapError (Stop.map (·.within source.label))

/-- The type of the program in a language. -/
def type (source : Source) (variant : Variant) : Except (Stop Diagnostic) Ty := do
  let term ← source.term
  (Checker.check { variant } term {}).result.mapError (Stop.map (·.within source.label))

end Source

/-- A diagnostic with its source, as the reader of the given file sees it. -/
def Diagnostic.render (diagnostic : Diagnostic) (text file : String) : String :=
  Fault.render ⟨diagnostic.cause, diagnostic.position.offset⟩ text file

end Equirec
