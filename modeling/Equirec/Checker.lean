import Equirec.Checker.Check
import Equirec.Comparison.Equality
import Equirec.Comparison.Subtyping
import Equirec.Ty.Simplify

/-!
# Checking terms

A checker gives a term its type in one of the languages of the family. `Checker.typeOf` is the
check of a term in an environment; `Checker.check` is that of a whole program, which also reports
when it begins and how it ends.

Arguments and branches are compared by subtyping in the language that has it and by equality in the
others; declared result types are always compared by equality.
-/
namespace Equirec

/-- A checker for one language. -/
structure Checker where
  /-- The language. -/
  variant : Variant
  /-- The switches. -/
  options : Options := {}
  deriving DecidableEq

namespace Checker

/-- Refuses a construct that the language does not have. -/
def reject {α : Type} (checker : Checker) (construct : String) (offset : Offset) : Check α := do
  Check.report (.rejected construct checker.variant)
  Check.fail (.unsupportedConstruct construct checker.variant) offset

/-- Lets only terms of the forms pass that the language has. -/
def admitForm (checker : Checker) (term : Term) : Check Unit :=
  if checker.variant.supports term.form then return ()
  else checker.reject term.form.describe term.start

/-- Lets only types pass that the language has. -/
def admitType (checker : Checker) (offset : Offset) (type : Ty) : Check Unit :=
  if type.isRecursive && !checker.variant.hasRecursiveTypes then
    checker.reject "recursive type" offset
  else if type.containsObject && !checker.variant.hasObjects then
    checker.reject "object type" offset
  else return ()

/-- Lets only parameters pass whose types the language has. -/
def admitParameters (checker : Checker) (offset : Offset) : List (String × Ty) → Check Unit
  | [] => return ()
  | (_, type) :: rest => do
    checker.admitType offset type
    checker.admitParameters offset rest

/-- Requires the type of an operand to be that of numbers. -/
def expectNumber (operand : Term) (type : Ty) : Check Unit :=
  if type.simplify = .number then return () else Check.fail (.numberExpected type) operand.start

/-- Requires the type of a condition to be that of booleans, if conditions are checked. -/
def expectCondition (checker : Checker) (condition : Term) (type : Ty) : Check Unit :=
  if checker.options.checkConditions && type.simplify ≠ .boolean then
    Check.fail (.booleanExpected type) condition.start
  else return ()

/-- Requires a body to have the declared type. -/
def expectResult (body : Term) (declared received : Ty) : Check Unit := do
  if ← Check.compare .equality received declared then return ()
  else Check.fail (.returnTypeMismatch declared received) body.start

/-- Whether a value of the first type may be used where the second is expected. -/
def fits (checker : Checker) (received expected : Ty) : Check Bool :=
  Check.compare (if checker.variant.usesSubtyping then .subtyping else .equality) received expected

/-- The type of a conditional from those of its branches: with subtyping the larger of the two, and
else the first when they are equal. -/
def join (checker : Checker) (offset : Offset) (positive negative : Ty) : Check Ty := do
  if checker.variant.usesSubtyping then
    if ← Check.compare .subtyping negative positive then return positive
    else if ← Check.compare .subtyping positive negative then return negative
    else Check.fail (.branchTypeMismatch positive negative) offset
  else if ← Check.compare .equality positive negative then return positive
  else Check.fail (.branchTypeMismatch positive negative) offset

/-- The type under which a constant is known in its own value: that of a function literal with a
declared result, in a language with function declarations. -/
def selfType? (checker : Checker) : Term → Option Ty
  | .function _ parameters (some declared) _ =>
    if checker.variant.hasDeclarations then some (.function parameters declared) else none
  | _ => none

mutual

/-- The type of a term. -/
def typeOf (checker : Checker) (term : Term) : Check Ty := do
  checker.admitForm term
  match term with
  | .boolean .. => return .boolean
  | .number .. => return .number
  | .add _ left right =>
    let leftType ← checker.typeOf left
    expectNumber left leftType
    let rightType ← checker.typeOf right
    expectNumber right rightType
    return .number
  | .conditional span condition positive negative =>
    let conditionType ← checker.typeOf condition
    checker.expectCondition condition conditionType
    let positiveType ← checker.typeOf positive
    let negativeType ← checker.typeOf negative
    checker.join span.start positiveType negativeType
  | .reference span name => Check.reference name span.start
  | .function span parameters declared body =>
    checker.admitParameters span.start parameters
    declared.forM (checker.admitType span.start)
    let bodyType ←
      if checker.options.copyEnvironments then
        Check.withBindings parameters (checker.typeOf body)
      else do
        Check.declareAll parameters
        checker.typeOf body
    match declared with
    | some result =>
      expectResult body result bodyType
      return .function parameters result
    | none => return .function parameters bodyType
  | .call span callee arguments =>
    let calleeType ← checker.typeOf callee
    match calleeType.simplify with
    | .function parameters result =>
      if parameters.length = arguments.length then
        checker.checkArguments arguments parameters
        return result
      else Check.fail (.argumentLengthMismatch parameters.length arguments.length) span.start
    | other => Check.fail (.functionExpected other) callee.start
  | .sequence _ first rest =>
    let _ ← checker.typeOf first
    checker.typeOf rest
  | .constant _ name value rest =>
    let valueType ←
      match checker.selfType? value with
      | some type => Check.withBindings [(name, type)] (checker.typeOf value)
      | none => checker.typeOf value
    Check.withBindings [(name, valueType)] (checker.typeOf rest)
  | .object _ properties =>
    let types ← checker.typesOf properties
    return .object types
  | .property span object name =>
    let objectType ← checker.typeOf object
    match objectType.simplify with
    | .object properties =>
      match properties.lookup name with
      | some type => return type
      | none => Check.fail (.unknownProperty name) span.start
    | other => Check.fail (.objectExpected other) object.start
  | .declaration span name parameters declared body rest =>
    checker.admitParameters span.start parameters
    checker.admitType span.start declared
    let type := .function parameters declared
    let bodyType ← Check.withBindings ((name, type) :: parameters) (checker.typeOf body)
    expectResult body declared bodyType
    Check.withBindings [(name, type)] (checker.typeOf rest)

/-- Checks arguments against parameters one by one, as far as both lists go. -/
def checkArguments (checker : Checker) : List Term → List (String × Ty) → Check Unit
  | argument :: arguments, (_, expected) :: parameters => do
    let received ← checker.typeOf argument
    if ← checker.fits received expected then checker.checkArguments arguments parameters
    else Check.fail (.argumentTypeMismatch expected received) argument.start
  | _, _ => return ()

/-- The types of the properties of an object literal, in order. -/
def typesOf (checker : Checker) : List (String × Term) → Check (List (String × Ty))
  | [] => return []
  | (name, value) :: rest => do
    let type ← checker.typeOf value
    let types ← checker.typesOf rest
    return (name, type) :: types

end

/-- The report on how a check ended. -/
def ending : Except (Stop Fault) Ty → List Event
  | .ok type => [.typed type]
  | .error (.fault fault) => [.failed fault.cause]
  | .error .exhausted => []

/-- The check of a whole program in an environment. -/
def check (checker : Checker) (term : Term) (environment : Environment) : Outcome Ty :=
  let outcome := checker.typeOf term environment
  { result := outcome.result
    environment
    events := [.started checker.variant checker.options] ++ outcome.events ++
      ending outcome.result }

end Checker

end Equirec
