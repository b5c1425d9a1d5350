import Equirec.Comparison

/-!
# Goals from members

Both comparisons of types ask for members to be related in the same two ways: parameters by their
place, properties by their name. This module builds these goals and bounds their weight by the
product of the sizes of the two member lists, which is why a layer is smaller than its types.
-/
namespace Equirec.Goal

/-- Parameters are compared by their place, as far as both lists go. -/
def byPlace : List (String × Ty) → List (String × Ty) → List Goal :=
  List.zipWith fun left right => .compare left.2 right.2

/-- Each property of the first list is compared with the first property of its name in the second;
a name that the second list lacks is a clash when its turn comes. -/
def byName (goal : Ty → Ty → Goal) (wanted offered : List (String × Ty)) : List Goal :=
  wanted.map fun property =>
    match offered.lookup property.1 with
    | some type => goal property.2 type
    | none => .clash

/-- Goals by place weigh no more than all pairs of parameters. -/
theorem weights_byPlace_le (left right : List (String × Ty)) :
    weights (byPlace left right) ≤ Ty.sizes left * Ty.sizes right := by
  induction left generalizing right with
  | nil => simp [byPlace]
  | cons first left ih =>
    cases right with
    | nil => simp [byPlace]
    | cons second right =>
      have tail := ih right
      simp only [byPlace, List.zipWith_cons_cons, weights_cons, weight, Ty.sizes] at tail ⊢
      rw [Nat.add_mul, Nat.mul_add, Nat.mul_add]
      omega

/-- A property that is found is one of the members. -/
theorem size_le_sizes_of_lookup (members : List (String × Ty)) (name : String) (type : Ty)
    (found : members.lookup name = some type) : type.size ≤ Ty.sizes members := by
  induction members with
  | nil => simp at found
  | cons member rest ih =>
    obtain ⟨label, other⟩ := member
    rw [List.lookup_cons] at found
    split at found
    · cases found
      simp only [Ty.sizes]
      omega
    · have := ih found
      simp only [Ty.sizes]
      omega

/-- Goals by name weigh no more than all pairs of properties, whichever type of a pair comes
first. -/
theorem weights_byName_le (goal : Ty → Ty → Goal)
    (weightEq : ∀ left right, (goal left right).weight = left.size * right.size)
    (wanted offered : List (String × Ty)) :
    weights (byName goal wanted offered) ≤ Ty.sizes wanted * Ty.sizes offered := by
  induction wanted with
  | nil => simp [byName]
  | cons property rest ih =>
    have head : (match offered.lookup property.1 with
        | some type => goal property.2 type
        | none => Goal.clash).weight ≤ property.2.size * Ty.sizes offered := by
      split
      · rename_i type found
        rw [weightEq]
        exact Nat.mul_le_mul_left _ (size_le_sizes_of_lookup offered property.1 type found)
      · exact Nat.zero_le _
    have tail := ih
    simp only [byName, List.map_cons, weights_cons, Ty.sizes, Nat.add_mul] at tail ⊢
    omega

end Equirec.Goal
