import Equirec.Parser.Types

/-!
# Reading terms

A program is a sequence of declarations and terms up to the end of the source, and the body of a
function one up to its `return`. A term is read by what its first token leads, and is gone on with
as long as the next token binds more strongly than what surrounds the term.
-/
namespace Equirec

/-- What ends a sequence. -/
inductive Ending where
  /-- The end of the source, with an optional semicolon before it. -/
  | source
  /-- A `return`. -/
  | result
  deriving DecidableEq

namespace Parse

/-- A literal or a name. -/
def readPrimary : Parse Term := do
  let token ← current
  match token.kind with
  | .number =>
    match Double.ofText? token.value with
    | some value =>
      skip
      return .number token.span value
    | none => fail (.malformedNumber token.value) token.span.start
  | .identifier =>
    skip
    return .reference token.span token.value
  | .trueKeyword =>
    skip
    return .boolean token.span true
  | .falseKeyword =>
    skip
    return .boolean token.span false
  | _ => unexpected

/-- A property access after its object. -/
def readProperty (object : Term) : Parse Term := do
  skip
  let name ← expectFor .identifier "expected property name after `.`"
  return .property (← spanFrom object.start) object name.value

mutual

/-- A term, as far as it is gone on with by tokens that bind more strongly than a power. -/
def readTerm (grammar : Grammar) : Nat → Power → Parse Term
  | 0, _ => exhausted
  | fuel + 1, power => do
    match grammar.leading (← current).kind with
    | some form =>
      let left ← readLeading grammar fuel form
      readTrailing grammar fuel power left
    | none => unexpected

/-- What follows a term that is already read. -/
def readTrailing (grammar : Grammar) : Nat → Power → Term → Parse Term
  | 0, _, _ => exhausted
  | fuel + 1, power, left => do
    match grammar.trailing (← current).kind with
    | some (form, binding) =>
      if power.isBelow binding then
        let longer ← readTrailingForm grammar fuel form binding left
        readTrailing grammar fuel power longer
      else return left
    | none => return left

/-- A term of a known leading form. -/
def readLeading (grammar : Grammar) : Nat → LeadingForm → Parse Term
  | 0, _ => exhausted
  | _ + 1, .primary => readPrimary
  | fuel + 1, .parenthesis => do
    let next ← peekKind 1
    let afterNext ← peekKind 2
    if next == .closeParen || (next == .identifier && afterNext == .colon) then
      readLeading grammar fuel .arrow
    else
      skip
      let term ← readTerm grammar fuel .lowest
      let _ ← expect .closeParen
      return term
  | fuel + 1, .object => do
    let first ← advance
    let properties ← readPropertyList grammar fuel
    let _ ← expect .closeCurly
    return .object (← spanFrom first.span.start) properties
  | fuel + 1, .arrow => do
    let first ← current
    let parameters ← readParameters grammar fuel
    let declared ← readDeclaredResult grammar fuel
    let _ ← expectFor .arrow "expected `=>` after arrow function parameters"
    let body ← if ← nextIs .openCurly then readBlock grammar fuel
      else readTerm grammar fuel .lowest
    return .function (← spanFrom first.span.start) parameters declared body

/-- The declared result type of an arrow function, if it has one. -/
def readDeclaredResult (grammar : Grammar) : Nat → Parse (Option Ty)
  | 0 => exhausted
  | fuel + 1 => do
    if ← nextIs .colon then
      skip
      let type ← readType grammar fuel
      return some type
    else return none

/-- The properties of an object literal, up to its closing brace. -/
def readPropertyList (grammar : Grammar) : Nat → Parse (List (String × Term))
  | 0 => exhausted
  | fuel + 1 => do
    if ← nextIs .closeCurly then return []
    let name ← expectFor .identifier "expected property name in object literal"
    let _ ← expect .colon
    let value ← readTerm grammar fuel .lowest
    if ← nextIs .comma then
      skip
      let rest ← readPropertyList grammar fuel
      return (name.value, value) :: rest
    else return [(name.value, value)]

/-- A term of a known trailing form, whose token binds with a power, after the term before it. -/
def readTrailingForm (grammar : Grammar) : Nat → TrailingForm → Power → Term → Parse Term
  | 0, _, _, _ => exhausted
  | fuel + 1, .add, power, left => do
    skip
    let right ← readTerm grammar fuel power
    return .add (left.span.through right.span) left right
  | fuel + 1, .conditional, _, condition => do
    skip
    let positive ← readTerm grammar fuel .lowest
    let _ ← expectFor .colon "expected `:` in conditional expression"
    let negative ← readTerm grammar fuel .lowest
    return .conditional (condition.span.through negative.span) condition positive negative
  | fuel + 1, .call, _, callee => do
    skip
    let arguments ← readArguments grammar fuel
    let _ ← expect .closeParen
    return .call (← spanFrom callee.start) callee arguments
  | _ + 1, .property, _, object => readProperty object

/-- The arguments of a call, up to the closing parenthesis. -/
def readArguments (grammar : Grammar) : Nat → Parse (List Term)
  | 0 => exhausted
  | fuel + 1 => do
    if ← nextIs .closeParen then return []
    let argument ← readTerm grammar fuel .lowest
    if ← nextIs .comma then
      skip
      let rest ← readArguments grammar fuel
      return argument :: rest
    else return [argument]

/-- The body of a function between braces. Types declared in it are known only there. -/
def readBlock (grammar : Grammar) : Nat → Parse Term
  | 0 => exhausted
  | fuel + 1 => do
    let _ ← expectFor .openCurly "expected `\x7b` to open a function body"
    let body ← locally (readSequence grammar fuel .result)
    let _ ← expect .closeCurly
    return body

/-- A sequence up to its ending. -/
def readSequence (grammar : Grammar) : Nat → Ending → Parse Term
  | 0, _ => exhausted
  | fuel + 1, ending => do
    match grammar.declarations (← current).kind, ending with
    | some form, _ => readDeclaration grammar fuel form ending
    | none, .result =>
      if ← nextIs .returnKeyword then
        skip
        let value ← readTerm grammar fuel .lowest
        let _ ← expect .semicolon
        return value
      else
        let first ← readTerm grammar fuel .lowest
        let _ ← expect .semicolon
        let rest ← readSequence grammar fuel ending
        return .sequence (first.span.through rest.span) first rest
    | none, .source =>
      let first ← readTerm grammar fuel .lowest
      if ← nextIs .semicolon then
        skip
        if ← nextIs .eof then return first
        let rest ← readSequence grammar fuel ending
        return .sequence (first.span.through rest.span) first rest
      else return first

/-- What follows a declaration, which cannot be nothing. -/
def readRest (grammar : Grammar) : Nat → Ending → Parse Term
  | 0, _ => exhausted
  | fuel + 1, ending => do
    if ← nextIs .eof then unexpectedFor "expected a term after declaration"
    else readSequence grammar fuel ending

/-- A declaration of a known form and what follows it. The type that a constant may be annotated
with is read and dropped. A declared type is recursive when it mentions its own name, and then it
must do so inside a function or an object. -/
def readDeclaration (grammar : Grammar) : Nat → DeclarationForm → Ending → Parse Term
  | 0, _, _ => exhausted
  | fuel + 1, .constant, ending => do
    let first ← advance
    let name ← expectFor .identifier "expected identifier during constant declaration"
    let _ ← readDeclaredResult grammar fuel
    let _ ← expectFor .assignment "expected rhs in constant definition"
    let value ← readTerm grammar fuel .lowest
    let _ ← expect .semicolon
    let rest ← readRest grammar fuel ending
    return .constant (first.span.through rest.span) name.value value rest
  | fuel + 1, .function, ending => do
    let first ← advance
    let name ← expectFor .identifier "expected function name"
    let parameters ← readParameters grammar fuel
    let _ ← expectFor .colon "expected return type annotation on function declaration"
    let declared ← readType grammar fuel
    let body ← readBlock grammar fuel
    let rest ← readRest grammar fuel ending
    return .declaration (first.span.through rest.span) name.value parameters declared body rest
  | fuel + 1, .alias, ending => do
    skip
    let name ← expect .identifier
    let _ ← expect .assignment
    modify fun parser => { parser with scope := parser.scope.begin name.value }
    let body ← readType grammar fuel
    if !body.isGuarded name.value then fail (.nonContractiveType name.value) name.span.start
    let type := if body.occurs name.value then .mu name.value body else body
    modify fun parser => { parser with scope := parser.scope.finish name.value type }
    let _ ← expect .semicolon
    readRest grammar fuel ending

end

/-- A whole program. -/
def readProgram (grammar : Grammar) (fuel : Nat) : Parse Term := do
  let term ← readSequence grammar fuel .source
  let _ ← expect .eof
  return term

end Parse

/-- The term that a list of tokens is read as. -/
def Term.ofTokens (tokens : List Token) : Except (Stop Fault) Term :=
  match TokenStream.ofTokens? tokens with
  | none => .error (.fault ⟨.unexpectedToken "EOF", 0⟩)
  | some stream => (Parser.perform { stream } (Parse.readProgram .standard)).1

end Equirec
