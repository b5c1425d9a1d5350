import Equirec.Parser

/-!
# Reading types

A type is the name of a type, a function type or an object type. Parameters of functions, which
have the same form in types and in terms, are separated by commas, and properties by semicolons or
commas; one more separator may follow the last of them.
-/
namespace Equirec.Parse

/-- The type of a given name: a type of the language, or one that the scope knows. -/
def readTypeName : Parse Ty := do
  let token ← expect .identifier
  match token.value with
  | "number" => return .number
  | "boolean" => return .boolean
  | name =>
    match (← get).scope.resolve? name with
    | some type => return type
    | none => fail (.unknownType name) token.span.start

mutual

/-- A type, by the table of types. -/
def readType (grammar : Grammar) : Nat → Parse Ty
  | 0 => exhausted
  | fuel + 1 => do
    match grammar.types (← current).kind with
    | some form => readTypeForm grammar fuel form
    | none => unexpected

/-- A type of a known form. -/
def readTypeForm (grammar : Grammar) : Nat → TypeForm → Parse Ty
  | 0, _ => exhausted
  | _ + 1, .name => readTypeName
  | fuel + 1, .function => do
    let parameters ← readParameters grammar fuel
    let _ ← expectFor .arrow "expected `=>` in function type"
    let result ← readType grammar fuel
    return .function parameters result
  | fuel + 1, .object => do
    let _ ← expect .openCurly
    let properties ← readPropertyTypes grammar fuel
    let _ ← expect .closeCurly
    return .object properties

/-- The properties of an object type, up to its closing brace. -/
def readPropertyTypes (grammar : Grammar) : Nat → Parse (List (String × Ty))
  | 0 => exhausted
  | fuel + 1 => do
    if ← nextIs .closeCurly then return []
    let name ← expectFor .identifier "expected property name in object type"
    let _ ← expect .colon
    let type ← readType grammar fuel
    if (← nextIs .semicolon) || (← nextIs .comma) then
      skip
      let rest ← readPropertyTypes grammar fuel
      return (name.value, type) :: rest
    else return [(name.value, type)]

/-- Parameters between parentheses. -/
def readParameters (grammar : Grammar) : Nat → Parse (List (String × Ty))
  | 0 => exhausted
  | fuel + 1 => do
    let _ ← expect .openParen
    let parameters ← readParameterList grammar fuel
    let _ ← expect .closeParen
    return parameters

/-- Parameters, up to the closing parenthesis. -/
def readParameterList (grammar : Grammar) : Nat → Parse (List (String × Ty))
  | 0 => exhausted
  | fuel + 1 => do
    if ← nextIs .closeParen then return []
    let name ← expectFor .identifier "expected parameter name"
    let _ ← expectFor .colon "parameters require a type annotation"
    let type ← readType grammar fuel
    if ← nextIs .comma then
      skip
      let rest ← readParameterList grammar fuel
      return (name.value, type) :: rest
    else return [(name.value, type)]

end

end Equirec.Parse
