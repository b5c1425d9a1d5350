import Equirec.Proofs.Decision

/-!
# Subtyping is an order

Subtyping orders well-formed types, and the types that it cannot tell apart are exactly those that
equality accepts. Being usable is reflexive and transitive on trees already; what is shown here is
that types which can be used as each other have the same tree (`UsableAs.antisymm`). Parameters swap
sides from layer to layer, so only the two directions together are carried down a tree.
-/
namespace Equirec.Ty

/-- Layers that are usable both ways are layers of the same tree, with parts that are related both
ways. -/
theorem UsableLayer.antisymm {related : Ty → Ty → Prop} {left right : Ty}
    (matched : UsableLayer related left right) (matched' : UsableLayer related right left) :
    SameLayer (fun left right => related left right ∧ related right left) left right := by
  cases matched with
  | number => exact .number
  | boolean => exact .boolean
  | function places results =>
    cases matched' with
    | function places' results' =>
      have both := List.Forall₂.mp (fun _ _ => And.intro) places'.flip places
      exact .function both ⟨results, results'⟩
  | object names values =>
    cases matched' with
    | object names' values' =>
      refine .object (fun name => ⟨names' name, names name⟩) ?_
      intro name type type' isMember isMember'
      have forth := values name type type' isMember isMember'
      have back := values' name type' type isMember' isMember
      exact ⟨forth, back⟩

/-- Types that can be used as each other have the same tree. -/
theorem UsableAs.antisymm {left right : Ty} (usable : UsableAs left right)
    (usable' : UsableAs right left) : SameTree left right := by
  refine ⟨fun left right => UsableAs left right ∧ UsableAs right left, ?_, usable, usable'⟩
  rintro left right ⟨usable, usable'⟩
  obtain ⟨left', right', exposes, exposes', matched⟩ :=
    Largest.consistent UsableLayer.monotone left right usable
  obtain ⟨right'', left'', exposed, exposed', matched'⟩ :=
    Largest.consistent UsableLayer.monotone right left usable'
  obtain rfl := exposes.unique exposed'
  obtain rfl := exposes'.unique exposed
  exact ⟨left', right', exposes, exposes', matched.antisymm matched'⟩

/-- Types have the same tree exactly when they can be used as each other. -/
theorem sameTree_iff_usableAs (left right : Ty) :
    SameTree left right ↔ UsableAs left right ∧ UsableAs right left :=
  ⟨fun same => ⟨.of_sameTree same, .of_sameTree same.symm⟩,
    fun ⟨usable, usable'⟩ => usable.antisymm usable'⟩

/-- If equality accepts two well-formed types, subtyping accepts them in both orders. -/
theorem isSubtypeOf_of_equals {left right : Ty} (wellFormed : left.WellFormed)
    (wellFormed' : right.WellFormed) (equal : left.equals right = true) :
    left.isSubtypeOf right = true ∧ right.isSubtypeOf left = true := by
  rw [equals_iff_sameTree wellFormed wellFormed', sameTree_iff_usableAs] at equal
  exact ⟨(isSubtypeOf_iff_usableAs wellFormed wellFormed').2 equal.1,
    (isSubtypeOf_iff_usableAs wellFormed' wellFormed).2 equal.2⟩

/-- Subtyping of well-formed types is reflexive and transitive, and two types are equal exactly when
each is a subtype of the other. -/
theorem isSubtypeOf_partialOrder {first second third : Ty} (wellFormed : first.WellFormed)
    (wellFormed' : second.WellFormed) (wellFormed'' : third.WellFormed) :
    first.isSubtypeOf first = true ∧
      (first.isSubtypeOf second = true → second.isSubtypeOf third = true →
        first.isSubtypeOf third = true) ∧
      (first.equals second = true ↔
        first.isSubtypeOf second = true ∧ second.isSubtypeOf first = true) := by
  have forth := isSubtypeOf_iff_usableAs wellFormed wellFormed'
  have back := isSubtypeOf_iff_usableAs wellFormed' wellFormed
  have next := isSubtypeOf_iff_usableAs wellFormed' wellFormed''
  have ends := isSubtypeOf_iff_usableAs wellFormed wellFormed''
  refine ⟨?_, ?_, ?_⟩
  · apply (isSubtypeOf_iff_usableAs wellFormed wellFormed).2
    exact UsableAs.refl wellFormed
  · intro isSubtype isSubtype'
    rw [forth] at isSubtype
    rw [next] at isSubtype'
    rw [ends]
    exact isSubtype.trans isSubtype'
  · rw [equals_iff_sameTree wellFormed wellFormed', forth, back]
    exact sameTree_iff_usableAs first second

/-- A function that takes functions like itself can be used as its unfolding and the other way
round, and so also as a function that takes the unfolding and promises less. -/
theorem isSubtypeOf_partialOrder_contravariant :
    let whole := mu "F" (.function [("f", .var "F")] (.object [("n", .number)]))
    let once := function [("f", whole)] (.object [("n", .number)])
    let twice := function [("f", once)] (.object [])
    whole.isSubtypeOf once = true ∧ once.isSubtypeOf whole = true ∧
      whole.isSubtypeOf twice = true := by
  intro whole once twice
  have formed : whole.WellFormed := by decide
  have formed' : once.WellFormed := by decide
  have formed'' : twice.WellFormed := by decide
  have same : SameTree whole once := .of_unfold formed
  have narrower : UsableAs (.object [("n", .number)]) (.object []) := by
    apply Largest.of_exposes UsableLayer.monotone (.done rfl) (.done rfl)
    exact .object (by simp) (by simp)
  have wider : UsableAs once twice := by
    apply Largest.of_exposes UsableLayer.monotone (.done rfl) (.done rfl)
    exact .function (.cons (UsableAs.of_sameTree same.symm) .nil) narrower
  obtain ⟨_, chains, equal_iff⟩ := isSubtypeOf_partialOrder formed formed' formed''
  obtain ⟨forth, back⟩ := equal_iff.1 ((equals_iff_sameTree formed formed').2 same)
  exact ⟨forth, back, chains forth ((isSubtypeOf_iff_usableAs formed' formed'').2 wider)⟩

end Equirec.Ty
