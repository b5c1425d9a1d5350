import Equirec.Text.Quoted
import Equirec.Ty.Render
import Equirec.Variant

/-!
# Faults

Why a program is refused, and where. A cause carries what its message needs; the wording of names,
messages and tips is here and nowhere else.
-/
namespace Equirec

/-- Why a program is refused. -/
inductive Cause where
  /-- A character that starts no token. -/
  | unrecognisedToken (token : String)
  /-- A token that cannot stand where it does. -/
  | unexpectedToken (token : String)
  /-- A token that stands where something definite is needed. -/
  | unexpectedTokenDetailed (token detail : String)
  /-- A number literal that is no number. -/
  | malformedNumber (token : String)
  /-- The name of a type that is not declared. -/
  | unknownType (name : String)
  /-- A type declared as itself, with no layer in between. -/
  | nonContractiveType (name : String)
  /-- A name that is not bound. -/
  | undefinedVariable (name : String)
  /-- An operand that is no number. -/
  | numberExpected (received : Ty)
  /-- A condition that is no boolean. -/
  | booleanExpected (received : Ty)
  /-- Branches of a conditional whose types cannot be joined. -/
  | branchTypeMismatch (positive negative : Ty)
  /-- A call of something that is no function. -/
  | functionExpected (received : Ty)
  /-- A call with too few or too many arguments. -/
  | argumentLengthMismatch (expected received : Nat)
  /-- An argument that does not fit its parameter. -/
  | argumentTypeMismatch (expected received : Ty)
  /-- A property of something that is no object. -/
  | objectExpected (received : Ty)
  /-- A property that the object does not have. -/
  | unknownProperty (name : String)
  /-- A function body that does not have the declared type. -/
  | returnTypeMismatch (expected received : Ty)
  /-- A term or a type that the language does not have. -/
  | unsupportedConstruct (construct : String) (variant : Variant)
  deriving DecidableEq

namespace Cause

/-- The name of a cause. -/
def name : Cause → String
  | unrecognisedToken _ => "UnrecognisedToken"
  | unexpectedToken _ => "UnexpectedToken"
  | unexpectedTokenDetailed .. => "UnexpectedTokenDetailed"
  | malformedNumber _ => "NumberParseError"
  | unknownType _ => "UnknownType"
  | nonContractiveType _ => "NonContractiveType"
  | undefinedVariable _ => "UndefinedVariable"
  | numberExpected _ => "NumberExpected"
  | booleanExpected _ => "BooleanExpected"
  | branchTypeMismatch .. => "BranchTypeMismatch"
  | functionExpected _ => "FunctionExpected"
  | argumentLengthMismatch .. => "ArgumentLengthMismatch"
  | argumentTypeMismatch .. => "ArgumentTypeMismatch"
  | objectExpected _ => "ObjectExpected"
  | unknownProperty _ => "UnknownProperty"
  | returnTypeMismatch .. => "ReturnTypeMismatch"
  | unsupportedConstruct .. => "UnsupportedConstruct"

/-- The message of a cause, with pieces of the source quoted. -/
def message : Cause → String
  | unrecognisedToken token => "unrecognised token: " ++ Text.quote token
  | unexpectedToken token => "unexpected token: " ++ Text.quote token
  | unexpectedTokenDetailed token detail =>
    "unexpected token (" ++ detail ++ "): " ++ Text.quote token
  | malformedNumber token => "error parsing number: " ++ Text.quote token
  | unknownType name => "unknown type " ++ name
  | nonContractiveType name => "type " ++ name ++ " is not contractive"
  | undefinedVariable name => "undefined variable: " ++ name
  | numberExpected received => "number expected, received " ++ received.render
  | booleanExpected received => "boolean expected, received " ++ received.render
  | branchTypeMismatch positive negative =>
    "then and else have different types: " ++ positive.render ++ " and " ++ negative.render
  | functionExpected received => "function expected, received " ++ received.render
  | argumentLengthMismatch expected received =>
    "argument length mismatch: expected " ++ expected.repr ++ ", received " ++ received.repr
  | argumentTypeMismatch expected received =>
    "argument type mismatch: expected " ++ expected.render ++ ", received " ++ received.render
  | objectExpected received => "object type expected, received " ++ received.render
  | unknownProperty name => "unknown property name: " ++ name
  | returnTypeMismatch expected received =>
    "return type mismatch: expected " ++ expected.render ++ ", received " ++ received.render
  | unsupportedConstruct construct variant =>
    construct ++ " is not supported by the " ++ variant.name ++ " checker"

/-- A piece of text between backticks. -/
def ticked (text : String) : String :=
  "`" ++ text ++ "`"

/-- What the reader of a message may do about its cause, if there is something to say. -/
def tip? : Cause → Option String
  | unrecognisedToken _ => none
  | unexpectedToken token =>
    some ("Unexpected token: " ++ ticked token ++ ", did you miss a semicolon?")
  | unexpectedTokenDetailed token detail =>
    some ("Unexpected token: " ++ ticked token ++ ", " ++ detail)
  | malformedNumber token => some ("Invalid number: " ++ ticked token)
  | unknownType name =>
    some ("Unknown type " ++ ticked name ++ ", declare it with " ++
      ticked ("type " ++ name ++ " = ...;") ++ " before use")
  | nonContractiveType name =>
    some ("Type " ++ ticked name ++
      " only refers to itself; wrap the reference in an object or function type")
  | undefinedVariable name => some ("Variable " ++ ticked name ++ " is not defined")
  | numberExpected received => some ("Expected `number`, received " ++ ticked received.render)
  | booleanExpected received =>
    some ("Expected `boolean` condition, received " ++ ticked received.render)
  | branchTypeMismatch positive negative =>
    some ("Branches have different types: " ++ ticked positive.render ++ " and " ++
      ticked negative.render)
  | functionExpected received =>
    some ("Only functions can be called, received " ++ ticked received.render)
  | argumentLengthMismatch expected received =>
    some ("Expected " ++ expected.repr ++ " arguments, received " ++ received.repr)
  | argumentTypeMismatch expected received =>
    some ("Expected argument of type " ++ ticked expected.render ++ ", received " ++
      ticked received.render)
  | objectExpected received =>
    some ("Only objects have properties, received " ++ ticked received.render)
  | unknownProperty name => some ("Property " ++ ticked name ++ " does not exist on this object")
  | returnTypeMismatch expected received =>
    some ("Declared return type " ++ ticked expected.render ++ ", body has type " ++
      ticked received.render)
  | unsupportedConstruct construct variant =>
    some (construct ++ " is not part of the " ++ ticked variant.name ++ " language")

end Cause

/-- A cause and the place in the source where it was found. -/
structure Fault where
  /-- Why the program is refused. -/
  cause : Cause
  /-- Where. -/
  offset : Offset
  deriving DecidableEq

/-- A fault in a labelled source. -/
structure Diagnostic where
  /-- Why the program is refused. -/
  cause : Cause
  /-- Where, and in which source. -/
  position : Position
  deriving DecidableEq

/-- A fault in the source of the given label. -/
def Fault.within (fault : Fault) (file : String) : Diagnostic :=
  ⟨fault.cause, ⟨fault.offset, file⟩⟩

/-- Why a computation ends without a value. -/
inductive Stop (ε : Type) where
  /-- A fault was found. -/
  | fault (error : ε)
  /-- The computation used up its allowance before it came to an end. -/
  | exhausted
  deriving DecidableEq

/-- The same stop with its fault changed. -/
def Stop.map {ε ε' : Type} (change : ε → ε') : Stop ε → Stop ε'
  | fault error => fault (change error)
  | exhausted => exhausted

end Equirec
