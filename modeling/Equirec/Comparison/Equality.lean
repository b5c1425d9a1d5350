import Equirec.Comparison.Layer

/-!
# Equality of types

Two types are equal when they denote the same infinite tree, apart from the names of parameters
and the order of properties. Functions need the same number of parameters, equal one by one, and
equal results; objects need the same number of properties, equal name by name.
-/
namespace Equirec

namespace Comparison

/-- What two types have to satisfy to be equal. -/
def equalityLayer : Ty → Ty → List Goal
  | .number, .number => []
  | .boolean, .boolean => []
  | .function parameters result, .function parameters' result' =>
    if parameters.length = parameters'.length then
      Goal.byPlace parameters parameters' ++ [.compare result result']
    else [.clash]
  | .object properties, .object properties' =>
    if properties.length = properties'.length then
      Goal.byName (fun type type' => .compare type type') properties properties'
    else [.clash]
  | _, _ => [.clash]

/-- Equality asks about parts only. -/
theorem weights_equalityLayer_lt (left right : Ty) :
    Goal.weights (equalityLayer left right) < left.size * right.size := by
  have positive := Nat.mul_pos left.size_pos right.size_pos
  unfold equalityLayer
  split
  · simpa using positive
  · simpa using positive
  · rename_i parameters result parameters' result'
    split
    · have bound := Goal.weights_byPlace_le parameters parameters'
      simp only [Goal.weights_append, Goal.weights_cons, Goal.weights_nil, Goal.weight, Ty.size]
      simp only [Nat.add_mul, Nat.mul_add]
      omega
    · simpa [Goal.weight] using positive
  · rename_i properties properties'
    split
    · have bound := Goal.weights_byName_le (fun type type' => .compare type type')
        (fun _ _ => rfl) properties properties'
      simp only [Ty.size, Nat.add_mul, Nat.mul_add]
      omega
    · simpa [Goal.weight] using positive
  · simpa [Goal.weight] using positive

/-- The comparison for equality. -/
def equality : Comparison where
  layer := equalityLayer
  shrinks := weights_equalityLayer_lt

end Comparison

/-- Whether two types denote the same infinite tree. -/
def Ty.equals (left right : Ty) : Bool :=
  Comparison.equality.relates left right

end Equirec
