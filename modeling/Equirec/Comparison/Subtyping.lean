import Equirec.Comparison.Layer

/-!
# Subtyping

A type is a subtype of another when its values may be used wherever the other is expected. A
function needs the same number of parameters as its supertype, a result that is a subtype and
parameters that are supertypes; an object needs every property of its supertype, with a subtype,
and may have more.
-/
namespace Equirec

namespace Comparison

/-- What the first type has to satisfy to be a subtype of the second: for functions the results
come first, for objects the properties of the supertype in its order. -/
def subtypingLayer : Ty → Ty → List Goal
  | .number, .number => []
  | .boolean, .boolean => []
  | .function parameters result, .function parameters' result' =>
    if parameters.length = parameters'.length then
      .compare result result' :: Goal.byPlace parameters' parameters
    else [.clash]
  | .object properties, .object properties' =>
    Goal.byName (fun wanted offered => .compare offered wanted) properties' properties
  | _, _ => [.clash]

/-- Subtyping asks about parts only. -/
theorem weights_subtypingLayer_lt (left right : Ty) :
    Goal.weights (subtypingLayer left right) < left.size * right.size := by
  have positive := Nat.mul_pos left.size_pos right.size_pos
  unfold subtypingLayer
  split
  · simpa using positive
  · simpa using positive
  · rename_i parameters result parameters' result'
    split
    · have bound := Goal.weights_byPlace_le parameters' parameters
      rw [Nat.mul_comm] at bound
      simp only [Goal.weights_cons, Goal.weight, Ty.size]
      simp only [Nat.add_mul, Nat.mul_add]
      omega
    · simpa [Goal.weight] using positive
  · rename_i properties properties'
    have bound := Goal.weights_byName_le (fun wanted offered => .compare offered wanted)
      (fun left right => Nat.mul_comm right.size left.size) properties' properties
    rw [Nat.mul_comm] at bound
    simp only [Ty.size, Nat.add_mul, Nat.mul_add]
    omega
  · simpa [Goal.weight] using positive

/-- The comparison for subtyping. -/
def subtyping : Comparison where
  layer := subtypingLayer
  shrinks := weights_subtypingLayer_lt

end Comparison

/-- Whether the first type is a subtype of the second. -/
def Ty.isSubtypeOf (left right : Ty) : Bool :=
  Comparison.subtyping.relates left right

end Equirec
