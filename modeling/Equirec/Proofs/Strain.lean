import Equirec.Proofs.Layered
import Equirec.Proofs.Settling

/-!
# Comparing types that repeat names outside recursive types

A type that repeats a property name need not be alike to itself, so an assumption about it may never
be found again. Outside recursive types that does no harm: such a type has finitely many parts, and
each layer takes some of them off. The strain of a type bounds how often its parts can be met, and
the product of two strains bounds the unfoldings that a comparison of tame types makes without
gaining an assumption.

A part may be met more than once when a name is repeated on the side whose names are looked up. It
is met at most once for each property of that side, and if that side repeats no name, each part of
the other side is met at most once. That is why strains of a layer add up to less than the product
of the two strains (`Goal.strains_object_lt`).
-/
namespace Equirec

namespace Ty

/-- How often the parts of a type can be met outside recursive types: once, when the type repeats no
name, and at most once for each node otherwise. -/
def strain (type : Ty) : Nat :=
  if type.hasDistinctNames then 1 else type.size

/-- The strain of all members together. -/
def strains : List (String × Ty) → Nat
  | [] => 0
  | (_, type) :: rest => type.strain + strains rest

/-- A type without repeated names is met once. -/
theorem strain_of_distinct {type : Ty} (distinct : type.hasDistinctNames = true) :
    type.strain = 1 :=
  if_pos distinct

/-- A type with a repeated name has the strain of all its nodes. -/
theorem strain_of_repeats {type : Ty} (repeats : ¬ type.hasDistinctNames = true) :
    type.strain = type.size :=
  if_neg repeats

/-- The strain of a type is positive. -/
theorem strain_pos (type : Ty) : 0 < type.strain := by
  have positive := type.size_pos
  unfold strain
  split
  · omega
  · exact positive

/-- The strain of a type is at most its size. -/
theorem strain_le_size (type : Ty) : type.strain ≤ type.size := by
  have positive := type.size_pos
  unfold strain
  split
  · omega
  · exact Nat.le_refl _

/-- The strain of members is at most their size. -/
theorem strains_le_sizes (members : List (String × Ty)) : strains members ≤ sizes members := by
  induction members with
  | nil => exact Nat.le_refl 0
  | cons member rest ih =>
    have head := member.2.strain_le_size
    simp only [strains, sizes]
    omega

/-- A member is at most as large as all members. -/
theorem size_le_sizes_of_mem {member : String × Ty} {members : List (String × Ty)}
    (isMember : member ∈ members) : member.2.size ≤ sizes members := by
  induction members with
  | nil => cases isMember
  | cons first rest ih =>
    simp only [sizes]
    rcases List.mem_cons.1 isMember with rfl | isMember
    · omega
    · have smaller := ih isMember
      omega

/-- A part is at most as large as the whole. -/
theorem IsPart.size_le {part whole : Ty} (isPart : IsPart part whole) :
    part.size ≤ whole.size := by
  cases isPart with
  | parameter isMember =>
    have smaller := size_le_sizes_of_mem isMember
    simp only [size]
    omega
  | result =>
    simp only [size]
    omega
  | property isMember =>
    have smaller := size_le_sizes_of_mem isMember
    simp only [size]
    omega

/-- The strain of a part is at most that of the whole. -/
theorem IsPart.strain_le {part whole : Ty} (isPart : IsPart part whole) :
    part.strain ≤ whole.strain := by
  by_cases distinct : whole.hasDistinctNames = true
  · apply Nat.le_of_eq
    rw [strain_of_distinct distinct, strain_of_distinct (isPart.hasDistinctNames distinct)]
  · rw [strain_of_repeats distinct]
    exact Nat.le_trans part.strain_le_size isPart.size_le

end Ty

namespace Goal

/-- The strain of a pair of types. -/
def strainOf (left right : Ty) : Nat :=
  left.strain * right.strain

/-- The strain of a pair does not depend on the order. -/
theorem strainOf_comm (left right : Ty) : strainOf left right = strainOf right left :=
  Nat.mul_comm _ _

/-! ## Layers -/

/-- Goals by place do not depend on which list comes first. -/
theorem strains_byPlace_comm (left right : List (String × Ty)) :
    needs strainOf (byPlace left right) = needs strainOf (byPlace right left) := by
  induction left generalizing right with
  | nil => cases right <;> rfl
  | cons first left ih =>
    cases right with
    | nil => rfl
    | cons second right =>
      have tail := ih right
      simp only [byPlace, List.zipWith_cons_cons, needs_cons, need] at tail ⊢
      rw [strainOf_comm, tail]

/-- Goals by place meet each parameter of the first list once. -/
theorem strains_byPlace_le (left : List (String × Ty)) {right : List (String × Ty)} {bound : Nat}
    (bounded : ∀ member ∈ right, member.2.strain ≤ bound) :
    needs strainOf (byPlace left right) ≤ Ty.strains left * bound := by
  induction left generalizing right with
  | nil => exact Nat.zero_le _
  | cons first left ih =>
    cases right with
    | nil => exact Nat.zero_le _
    | cons second right =>
      rw [List.forall_mem_cons] at bounded
      have head : strainOf first.2 second.2 ≤ first.2.strain * bound :=
        Nat.mul_le_mul_left _ bounded.1
      have tail := ih bounded.2
      simp only [byPlace, List.zipWith_cons_cons, needs_cons, need, Ty.strains] at tail ⊢
      rw [Nat.add_mul]
      omega

/-- What is asked of two functions, in either order of the parameters, strains less than the
functions when one of them repeats a name. -/
theorem strains_function_lt {parameters parameters' : List (String × Ty)} {result result' : Ty}
    (repeats : ¬ ((Ty.function parameters result).hasDistinctNames = true ∧
      (Ty.function parameters' result').hasDistinctNames = true)) :
    needs strainOf (byPlace parameters parameters') + strainOf result result' <
      strainOf (.function parameters result) (.function parameters' result') := by
  by_cases distinct : (Ty.function parameters result).hasDistinctNames = true
  · -- Each parameter of the first function strains once, so only the second one counts.
    have repeats' : ¬ (Ty.function parameters' result').hasDistinctNames = true :=
      fun distinct' => repeats ⟨distinct, distinct'⟩
    have once : ∀ member ∈ parameters, member.2.strain ≤ 1 := by
      intro member isMember
      have part : member.2.hasDistinctNames = true :=
        (Ty.IsPart.parameter isMember).hasDistinctNames distinct
      exact Nat.le_of_eq (Ty.strain_of_distinct part)
    have places := strains_byPlace_le parameters' once
    have last := Ty.strain_of_distinct (Ty.IsPart.result.hasDistinctNames distinct)
    have small := Ty.strains_le_sizes parameters'
    have small' := result'.strain_le_size
    rw [strains_byPlace_comm, strainOf, strainOf, Ty.strain_of_distinct distinct,
      Ty.strain_of_repeats repeats', last, Ty.size]
    omega
  · have bounded : ∀ member ∈ parameters',
        member.2.strain ≤ (Ty.function parameters' result').strain :=
      fun member isMember => (Ty.IsPart.parameter isMember).strain_le
    have places := strains_byPlace_le parameters bounded
    have small := Nat.mul_le_mul_right (Ty.function parameters' result').strain
      (Ty.strains_le_sizes parameters)
    have last : strainOf result result' ≤
        result.size * (Ty.function parameters' result').strain :=
      Nat.mul_le_mul result.strain_le_size Ty.IsPart.result.strain_le
    have positive := (Ty.function parameters' result').strain_pos
    rw [strainOf, strainOf, Ty.strain_of_repeats distinct, Ty.size, Nat.add_mul, Nat.add_mul]
    rw [strainOf] at last
    omega

/-- A goal by name, for one property that is looked up. -/
def named (goal : Ty → Ty → Goal) (offered : List (String × Ty)) (property : String × Ty) : Goal :=
  match offered.lookup property.1 with
  | some type => goal property.2 type
  | none => .clash

variable {goal : Ty → Ty → Goal}

/-- A goal by name strains what its two types strain, when these are of a list that is bounded. -/
theorem strain_named_le
    (strainEq : ∀ left right, (goal left right).need strainOf = strainOf left right)
    {offered : List (String × Ty)} {bound : Nat}
    (bounded : ∀ member ∈ offered, member.2.strain ≤ bound) (property : String × Ty) :
    (named goal offered property).need strainOf ≤ property.2.strain * bound := by
  unfold named
  split
  · rename_i type found
    rw [strainEq]
    exact Nat.mul_le_mul_left _ (bounded _ (Members.mem_of_lookup found))
  · exact Nat.zero_le _

/-- Goals by name meet each property that is looked up once. -/
theorem strains_byName_le
    (strainEq : ∀ left right, (goal left right).need strainOf = strainOf left right)
    (wanted : List (String × Ty)) {offered : List (String × Ty)} {bound : Nat}
    (bounded : ∀ member ∈ offered, member.2.strain ≤ bound) :
    needs strainOf (byName goal wanted offered) ≤ Ty.strains wanted * bound := by
  induction wanted with
  | nil => exact Nat.zero_le _
  | cons property rest ih =>
    have head := strain_named_le strainEq bounded property
    rw [Ty.strains, Nat.add_mul]
    exact Nat.add_le_add head ih

/-- One more property that is offered adds its strain at most once, when no name is looked up
twice. -/
theorem strains_byName_cons_le
    (strainEq : ∀ left right, (goal left right).need strainOf = strainOf left right)
    {wanted : List (String × Ty)} (names : (wanted.map Prod.fst).Nodup)
    (once : ∀ member ∈ wanted, member.2.strain ≤ 1) (member : String × Ty)
    (offered : List (String × Ty)) :
    needs strainOf (byName goal wanted (member :: offered)) ≤
      member.2.strain + needs strainOf (byName goal wanted offered) := by
  induction wanted with
  | nil => exact Nat.zero_le _
  | cons property rest ih =>
    rw [List.map_cons, List.nodup_cons] at names
    rw [List.forall_mem_cons] at once
    have tail := ih names.2 once.2
    show (named goal (member :: offered) property).need strainOf +
        needs strainOf (byName goal rest (member :: offered)) ≤
      member.2.strain + ((named goal offered property).need strainOf +
        needs strainOf (byName goal rest offered))
    by_cases same : property.1 = member.1
    · -- The property is found at once, and no later one has its name.
      have skipped : byName goal rest (member :: offered) = byName goal rest offered := by
        apply List.map_congr_left
        intro other isOther
        have differ : (other.1 == member.1) = false := by
          rw [beq_eq_false_iff_ne]
          intro equal
          exact names.1 (same ▸ equal ▸ List.mem_map_of_mem isOther)
        rw [List.lookup_cons, differ]
      have head : (named goal (member :: offered) property).need strainOf ≤ member.2.strain := by
        have found : (member :: offered).lookup property.1 = some member.2 := by
          rw [List.lookup_cons, same]
          simp
        have small := Nat.mul_le_mul_right member.2.strain once.1
        simp only [named, found, strainEq]
        rw [strainOf]
        omega
      rw [skipped]
      omega
    · have later : named goal (member :: offered) property = named goal offered property := by
        have differ : (property.1 == member.1) = false := beq_eq_false_iff_ne.2 same
        rw [named, named, List.lookup_cons, differ]
      rw [later]
      omega

/-- Goals by name meet each property that is offered at most once, when no name is looked up
twice. -/
theorem strains_byName_le_of_nodup
    (strainEq : ∀ left right, (goal left right).need strainOf = strainOf left right)
    {wanted : List (String × Ty)} (names : (wanted.map Prod.fst).Nodup)
    (once : ∀ member ∈ wanted, member.2.strain ≤ 1) (offered : List (String × Ty)) :
    needs strainOf (byName goal wanted offered) ≤ Ty.strains offered := by
  induction offered with
  | nil =>
    have bounded : ∀ member ∈ ([] : List (String × Ty)), member.2.strain ≤ 0 :=
      List.forall_mem_nil _
    have nothing := strains_byName_le strainEq wanted bounded
    rw [Nat.mul_zero] at nothing
    exact nothing
  | cons member offered ih =>
    have more := strains_byName_cons_le strainEq names once member offered
    rw [Ty.strains]
    omega

/-- What is asked of two objects by the names of one of them strains less than the objects, when one
of them repeats a name. -/
theorem strains_object_lt
    (strainEq : ∀ left right, (goal left right).need strainOf = strainOf left right)
    {wanted offered : List (String × Ty)}
    (repeats : ¬ ((Ty.object wanted).hasDistinctNames = true ∧
      (Ty.object offered).hasDistinctNames = true)) :
    needs strainOf (byName goal wanted offered) < strainOf (.object wanted) (.object offered) := by
  by_cases distinct : (Ty.object wanted).hasDistinctNames = true
  · have repeats' : ¬ (Ty.object offered).hasDistinctNames = true :=
      fun distinct' => repeats ⟨distinct, distinct'⟩
    have once : ∀ member ∈ wanted, member.2.strain ≤ 1 := by
      intro member isMember
      have part : member.2.hasDistinctNames = true :=
        (Ty.IsPart.property isMember).hasDistinctNames distinct
      exact Nat.le_of_eq (Ty.strain_of_distinct part)
    have goals := strains_byName_le_of_nodup strainEq (Ty.nodup_names distinct) once offered
    have small := Ty.strains_le_sizes offered
    rw [strainOf, Ty.strain_of_distinct distinct, Ty.strain_of_repeats repeats', Ty.size]
    omega
  · have bounded : ∀ member ∈ offered, member.2.strain ≤ (Ty.object offered).strain :=
      fun member isMember => (Ty.IsPart.property isMember).strain_le
    have goals := strains_byName_le strainEq wanted bounded
    have small := Nat.mul_le_mul_right (Ty.object offered).strain (Ty.strains_le_sizes wanted)
    have positive := (Ty.object offered).strain_pos
    rw [strainOf, Ty.strain_of_repeats distinct, Ty.size, Nat.add_mul]
    omega

end Goal

namespace Comparison

open Ty

/-- What is asked of two types that are compared for equality strains less than the types, when one
of them repeats a name. -/
theorem strains_equality_lt {left right : Ty}
    (repeats : ¬ (left.hasDistinctNames = true ∧ right.hasDistinctNames = true)) :
    Goal.needs Goal.strainOf (equality.layer left right) < Goal.strainOf left right := by
  have positive : 0 < Goal.strainOf left right := Nat.mul_pos left.strain_pos right.strain_pos
  show Goal.needs Goal.strainOf (equalityLayer left right) < Goal.strainOf left right
  unfold equalityLayer
  split
  · exact positive
  · exact positive
  · split
    · rw [Goal.needs_append]
      exact Goal.strains_function_lt repeats
    · exact positive
  · split
    · exact Goal.strains_object_lt (fun _ _ => rfl) repeats
    · exact positive
  · exact positive

/-- What is asked of two types that are compared for subtyping strains less than the types, when one
of them repeats a name. -/
theorem strains_subtyping_lt {left right : Ty}
    (repeats : ¬ (left.hasDistinctNames = true ∧ right.hasDistinctNames = true)) :
    Goal.needs Goal.strainOf (subtyping.layer left right) < Goal.strainOf left right := by
  have positive : 0 < Goal.strainOf left right := Nat.mul_pos left.strain_pos right.strain_pos
  show Goal.needs Goal.strainOf (subtypingLayer left right) < Goal.strainOf left right
  unfold subtypingLayer
  split
  · exact positive
  · exact positive
  · split
    · have less := Goal.strains_function_lt repeats
      rw [Goal.needs_cons, Goal.strains_byPlace_comm, Nat.add_comm]
      exact less
    · exact positive
  · rw [Goal.strainOf_comm]
    apply Goal.strains_object_lt
    · intro wanted offered
      exact Goal.strainOf_comm offered wanted
    · exact fun both => repeats both.symm
  · exact positive

/-! ## Tame types -/

/-- What the unfoldings of a pair may cost: nothing without repeated names, and else one for each
time that parts can be met. A pair that is not to be unfolded itself has one less to pay. -/
def strainCost (left right : Ty) : Nat :=
  if left.hasDistinctNames = true ∧ right.hasDistinctNames = true then 0
  else if unfoldPair? left right = none then Goal.strainOf left right - 1
  else Goal.strainOf left right

/-- A pair costs at most its strain. -/
theorem strainCost_le (left right : Ty) : strainCost left right ≤ Goal.strainOf left right := by
  unfold strainCost
  split
  · exact Nat.zero_le _
  · split
    · exact Nat.sub_le _ _
    · exact Nat.le_refl _

/-- A pair without repeated names costs nothing. -/
theorem strainCost_of_distinct {left right : Ty} (distinct : left.hasDistinctNames = true)
    (distinct' : right.hasDistinctNames = true) : strainCost left right = 0 :=
  if_pos ⟨distinct, distinct'⟩

/-- A pair with a repeated name costs less unfolded, when the unfolding strains as much and has its
layers at the top. -/
theorem strainCost_lt {left right left' right' : Ty}
    (repeats : ¬ (left.hasDistinctNames = true ∧ right.hasDistinctNames = true))
    (unfolds : unfoldPair? left right = some (left', right'))
    (bare : left'.unfolding? = none) (bare' : right'.unfolding? = none)
    (same : Goal.strainOf left' right' = Goal.strainOf left right) :
    strainCost left' right' < strainCost left right := by
  have positive : 0 < Goal.strainOf left right := Nat.mul_pos left.strain_pos right.strain_pos
  have whole : strainCost left right = Goal.strainOf left right := by
    rw [strainCost, if_neg repeats, if_neg]
    rw [unfolds]
    exact Option.some_ne_none _
  rw [whole, strainCost, if_pos (unfoldPair?_of_bare bare bare'), same]
  split
  · exact positive
  · omega

/-- A tame type that repeats a name is not recursive at the top. -/
theorem unfolding?_of_repeats {type : Ty} (tame : type.Tame)
    (repeats : ¬ type.hasDistinctNames = true) : type.unfolding? = none := by
  cases type with
  | mu name body => exact absurd tame.distinct repeats
  | _ => rfl

/-- Unfolding a tame type gives a type without repeated names that is not recursive at the top. -/
theorem distinct_and_bare_of_unfolded {name : String} {body : Ty} (tame : (mu name body).Tame) :
    (unfolded name body).hasDistinctNames = true ∧ (unfolded name body).unfolding? = none := by
  have layer := (isLayered_mu.1 tame.layered).1
  exact ⟨hasDistinctNames_unfolded tame.distinct, unfolding?_of_isLayer (isLayer_subst layer _ _)⟩

/-- Unfolding a tame pair costs less, unless neither type repeats a name. -/
theorem strainCost_unfold {left right left' right' : Ty} (tame : left.Tame) (tame' : right.Tame)
    (unfolds : unfoldPair? left right = some (left', right'))
    (repeats : ¬ (left.hasDistinctNames = true ∧ right.hasDistinctNames = true)) :
    strainCost left' right' < strainCost left right := by
  rcases unfoldPair?_eq_some unfolds with ⟨name, body, rfl, rfl, rfl⟩ | ⟨name, body, rfl, rfl, rfl⟩
  · have distinct : (mu name body).hasDistinctNames = true := tame.distinct
    have bare' := unfolding?_of_repeats tame' fun distinct' => repeats ⟨distinct, distinct'⟩
    obtain ⟨distinct', bare⟩ := distinct_and_bare_of_unfolded tame
    apply strainCost_lt repeats unfolds bare bare'
    rw [Goal.strainOf, Goal.strainOf, strain_of_distinct distinct, strain_of_distinct distinct']
  · have distinct : (mu name body).hasDistinctNames = true := tame'.distinct
    have bare := unfolding?_of_repeats tame fun distinct' => repeats ⟨distinct', distinct⟩
    obtain ⟨distinct', bare'⟩ := distinct_and_bare_of_unfolded tame'
    apply strainCost_lt repeats unfolds bare bare'
    rw [Goal.strainOf, Goal.strainOf, strain_of_distinct distinct, strain_of_distinct distinct']

/-- Unfolding a pair without repeated names gives such a pair. -/
theorem distinct_unfold {left right left' right' : Ty}
    (unfolds : unfoldPair? left right = some (left', right'))
    (distinct : left.hasDistinctNames = true) (distinct' : right.hasDistinctNames = true) :
    left'.hasDistinctNames = true ∧ right'.hasDistinctNames = true := by
  rcases unfoldPair?_eq_some unfolds with ⟨name, body, rfl, rfl, rfl⟩ | ⟨name, body, rfl, rfl, rfl⟩
  · exact ⟨hasDistinctNames_unfolded distinct, distinct'⟩
  · exact ⟨distinct, hasDistinctNames_unfolded distinct'⟩

/-- What a layer asks about types without repeated names costs nothing. -/
theorem needs_layer_of_distinct {comparison : Comparison} (asksParts : comparison.AsksParts)
    {left right : Ty} (distinct : left.hasDistinctNames = true)
    (distinct' : right.hasDistinctNames = true) :
    Goal.needs strainCost (comparison.layer left right) = 0 := by
  have free : ∀ goal ∈ comparison.layer left right,
      goal.need strainCost ≤ goal.need fun _ _ => 0 := by
    intro goal isGoal
    cases goal with
    | clash => exact Nat.le_refl 0
    | compare left' right' =>
      apply Nat.le_of_eq
      rcases asksParts left right left' right' isGoal with ⟨isPart, isPart'⟩ | ⟨isPart, isPart'⟩
      · exact strainCost_of_distinct (isPart.hasDistinctNames distinct)
          (isPart'.hasDistinctNames distinct')
      · exact strainCost_of_distinct (isPart.hasDistinctNames distinct')
          (isPart'.hasDistinctNames distinct)
  have none := Goal.needs_le_needs free
  rw [Goal.needs_zero] at none
  exact Nat.le_zero.1 none

/-- The comparisons that the checker makes. -/
def IsChecked (comparison : Comparison) : Prop :=
  comparison = equality ∨ comparison = subtyping

namespace IsChecked

variable {comparison : Comparison}

/-- The checker asks about parts. -/
theorem asksParts (isChecked : comparison.IsChecked) : comparison.AsksParts := by
  rcases isChecked with rfl | rfl
  · exact equality_asksParts
  · exact subtyping_asksParts

/-- What the checker asks about two types strains less than they, when one repeats a name. -/
theorem strains_lt (isChecked : comparison.IsChecked) {left right : Ty}
    (repeats : ¬ (left.hasDistinctNames = true ∧ right.hasDistinctNames = true)) :
    Goal.needs Goal.strainOf (comparison.layer left right) < Goal.strainOf left right := by
  rcases isChecked with rfl | rfl
  · exact strains_equality_lt repeats
  · exact strains_subtyping_lt repeats

/-- The cost of strain covers the comparison of tame types. -/
theorem covers (isChecked : comparison.IsChecked) {left right : Ty} (tame : left.Tame)
    (tame' : right.Tame) : comparison.Covers left right strainCost where
  layer := by
    intro first second _ bare
    by_cases distinct : first.hasDistinctNames = true ∧ second.hasDistinctNames = true
    · rw [needs_layer_of_distinct isChecked.asksParts distinct.1 distinct.2]
      exact Nat.zero_le _
    · have less := isChecked.strains_lt distinct
      have cheaper : Goal.needs strainCost (comparison.layer first second) ≤
          Goal.needs Goal.strainOf (comparison.layer first second) := by
        apply Goal.needs_le_needs
        intro goal _
        cases goal with
        | clash => exact Nat.le_refl 0
        | compare left' right' => exact strainCost_le left' right'
      rw [strainCost, if_neg distinct, if_pos bare]
      omega
  unfold := by
    intro first second first' second' met unfolds
    have both := met.both (fun _ _ leads => Tame.leads leads) tame tame'
    by_cases distinct : first.hasDistinctNames = true ∧ second.hasDistinctNames = true
    · obtain ⟨distinctFirst, distinctSecond⟩ := distinct_unfold unfolds distinct.1 distinct.2
      rw [strainCost_of_distinct distinctFirst distinctSecond]
      exact .inr ⟨Nat.zero_le _, distinct⟩
    · exact .inl (strainCost_unfold both.1 both.2 unfolds distinct)

/-- Comparing tame types gives an answer. -/
theorem answers (isChecked : comparison.IsChecked) {left right : Ty} (tame : left.Tame)
    (tame' : right.Tame) : (comparison.judge left right).verdict ≠ .endless := by
  have costs := strainCost_le left right
  have small : Goal.strainOf left right ≤ left.size * right.size :=
    Nat.mul_le_mul left.strain_le_size right.strain_le_size
  have enough := four_mul_size_le_allowance left right
  have ends := judge_ends_of_covers isChecked.asksParts (isChecked.covers tame tame') tame.closed
    tame'.closed (by omega)
  exact ends.1

end IsChecked

end Comparison

end Equirec
