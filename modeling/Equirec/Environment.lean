import Equirec.Fault

/-!
# Environments

An environment gives types to names. A name that is declared again has its latest type.
-/
namespace Equirec

/-- The types of names. -/
structure Environment where
  /-- The declarations, latest first. -/
  bindings : List (String × Ty) := []
  deriving DecidableEq, Inhabited

namespace Environment

/-- The type of a name. -/
def lookup? (environment : Environment) (name : String) : Option Ty :=
  environment.bindings.lookup name

/-- The type of a name that is used at a place; a name without a type is a fault. -/
def typeAt (environment : Environment) (name : String) (offset : Offset) : Except Fault Ty :=
  match environment.lookup? name with
  | some type => .ok type
  | none => .error ⟨.undefinedVariable name, offset⟩

/-- Whether a name has a type. -/
def contains (environment : Environment) (name : String) : Bool :=
  (environment.lookup? name).isSome

/-- The environment with one more declaration. -/
def declare (environment : Environment) (name : String) (type : Ty) : Environment :=
  ⟨(name, type) :: environment.bindings⟩

/-- The environment with declarations added one after the other. -/
def declareAll (environment : Environment) (members : List (String × Ty)) : Environment :=
  members.foldl (fun environment member => environment.declare member.1 member.2) environment

/-- Whether every name that has a type in the first environment has the same in the second. -/
def isWithin (left right : Environment) : Bool :=
  left.bindings.all fun binding => left.lookup? binding.1 == right.lookup? binding.1

/-- Whether two environments give the same types to the same names. -/
def agrees (left right : Environment) : Bool :=
  left.isWithin right && right.isWithin left

/-- A name has the type that it was declared with. -/
@[simp]
theorem lookup?_declare_self (environment : Environment) (name : String) (type : Ty) :
    (environment.declare name type).lookup? name = some type := by
  simp [declare, lookup?]

/-- A declaration leaves other names alone. -/
theorem lookup?_declare_of_ne (environment : Environment) (name other : String) (type : Ty)
    (differ : other ≠ name) :
    (environment.declare name type).lookup? other = environment.lookup? other := by
  have unequal : (other == name) = false := by simp [differ]
  simp [declare, lookup?, List.lookup_cons, unequal]

end Environment

end Equirec
