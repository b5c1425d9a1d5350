import Equirec.Ty

/-!
# Names of types

A scope knows the types that have been given a name, and the names that are being declared. While a
name is being declared it stands for a type variable, also when an older type has the same name.
-/
namespace Equirec

/-- The names of types that are known. -/
structure Scope where
  /-- The declared types, latest first. -/
  aliases : List (String × Ty) := []
  /-- The names being declared, latest first. -/
  pending : List String := []
  deriving DecidableEq

namespace Scope

/-- The type that a name stands for. -/
def resolve? (scope : Scope) (name : String) : Option Ty :=
  if name ∈ scope.pending then some (.var name) else scope.aliases.lookup name

/-- The scope in which a name is being declared. -/
def begin (scope : Scope) (name : String) : Scope :=
  { scope with pending := name :: scope.pending }

/-- The scope in which the declaration begun last is over, and a name stands for a type. -/
def finish (scope : Scope) (name : String) (type : Ty) : Scope :=
  { aliases := (name, type) :: scope.aliases, pending := scope.pending.tail }

/-- The scope with the declared types of an earlier one. -/
def leave (scope : Scope) (aliases : List (String × Ty)) : Scope :=
  { scope with aliases }

end Scope

end Equirec
