import Equirec.Proofs.Agreement
import Equirec.Proofs.Order

/-!
# Equivalent types

Equivalent types are well-formed and equal. They have first layers of the same form with equivalent
parts (`Ty.Equivalent.layer`), and no comparison can tell them apart (`Reads.relates_congr`), so a
check respects equivalence (`Ty.Equivalent.congruence`). Comparisons of well-formed types end, so
checks that agree on equivalent types stop with faults only.
-/
namespace Equirec

/-! ## Equivalent types -/

namespace Ty

/-- Well-formed types that equality accepts. -/
structure Equivalent (left right : Ty) : Prop where
  /-- The first type is well-formed. -/
  wellFormed : left.WellFormed
  /-- The second type is well-formed. -/
  wellFormed' : right.WellFormed
  /-- Equality accepts the two. -/
  equal : left.equals right = true

/-- Members with the same names in the same order, and equivalent types. -/
def EquivalentMembers : List (String × Ty) → List (String × Ty) → Prop :=
  List.Forall₂ fun member member' => member.1 = member'.1 ∧ Equivalent member.2 member'.2

/-- Equivalent members have the same names. -/
theorem EquivalentMembers.names {left right : List (String × Ty)}
    (equivalent : EquivalentMembers left right) :
    left.map Prod.fst = right.map Prod.fst :=
  Members.forall₂_names_iff.1 (equivalent.imp fun _ _ same => same.1)

namespace Equivalent

variable {left right : Ty}

/-- Equivalent types have the same tree. -/
theorem sameTree (equivalent : Equivalent left right) : SameTree left right :=
  (equals_iff_sameTree equivalent.wellFormed equivalent.wellFormed').1 equivalent.equal

/-- Well-formed types of the same tree are equivalent. -/
theorem of_sameTree (wellFormed : left.WellFormed) (wellFormed' : right.WellFormed)
    (same : SameTree left right) : Equivalent left right :=
  ⟨wellFormed, wellFormed', (equals_iff_sameTree wellFormed wellFormed').2 same⟩

/-- A well-formed type is equivalent to itself. -/
theorem refl (wellFormed : left.WellFormed) : Equivalent left left :=
  of_sameTree wellFormed wellFormed (.refl wellFormed)

/-- The first layers of equivalent types have the same form and equivalent parts. -/
theorem layer (equivalent : Equivalent left right) :
    SameLayer Equivalent left.simplify right.simplify := by
  have wellFormed := equivalent.wellFormed
  have wellFormed' := equivalent.wellFormed'
  obtain ⟨head, head', exposes, exposes', matched⟩ :=
    Largest.consistent SameLayer.monotone left right equivalent.sameTree
  obtain rfl := exposes.unique (exposes_simplify wellFormed)
  obtain rfl := exposes'.unique (exposes_simplify wellFormed')
  have parts := matched.of_parts wellFormed.simplify wellFormed'.simplify
  refine SameLayer.monotone ?_ _ _ parts
  rintro part part' ⟨same, formed, formed'⟩
  exact of_sameTree formed formed' same

/-- Types whose layers have the same form and equivalent parts are equivalent. -/
theorem of_layer (wellFormed : left.WellFormed) (wellFormed' : right.WellFormed)
    (bare : left.unfolding? = none) (bare' : right.unfolding? = none)
    (matched : SameLayer Equivalent left right) : Equivalent left right := by
  apply of_sameTree wellFormed wellFormed'
  apply Largest.of_exposes SameLayer.monotone (.done bare) (.done bare')
  have smaller : Equivalent ≤ Largest SameLayer := fun _ _ equivalent => equivalent.sameTree
  exact SameLayer.monotone smaller _ _ matched

/-- Functions with equivalent parameters and results are equivalent. -/
theorem function {parameters parameters' : List (String × Ty)} {result result' : Ty}
    (places : List.Forall₂ (fun member member' => Equivalent member.2 member'.2)
      parameters parameters') (results : Equivalent result result') :
    Equivalent (.function parameters result) (.function parameters' result') := by
  have formed : ∀ member ∈ parameters, member.2.WellFormed := by
    intro member isMember
    obtain ⟨_, _, equivalent⟩ := Members.exists_of_forall₂ places isMember
    exact equivalent.wellFormed
  have formed' : ∀ member ∈ parameters', member.2.WellFormed := by
    intro member isMember
    obtain ⟨_, _, equivalent⟩ := Members.exists_of_forall₂ places.flip isMember
    exact equivalent.wellFormed'
  apply of_layer (.function formed results.wellFormed) (.function formed' results.wellFormed')
    rfl rfl
  exact .function places results

/-- Objects with the same distinct names and equivalent properties are equivalent. -/
theorem object {properties properties' : List (String × Ty)}
    (distinct : (properties.map Prod.fst).Nodup)
    (values : EquivalentMembers properties properties') :
    Equivalent (.object properties) (.object properties') := by
  have names := values.names
  have distinct' : (properties'.map Prod.fst).Nodup := names ▸ distinct
  have formed : ∀ member ∈ properties, member.2.WellFormed := by
    intro member isMember
    obtain ⟨_, _, _, equivalent⟩ := Members.exists_of_forall₂ values isMember
    exact equivalent.wellFormed
  have formed' : ∀ member ∈ properties', member.2.WellFormed := by
    intro member isMember
    obtain ⟨_, _, _, equivalent⟩ := Members.exists_of_forall₂ values.flip isMember
    exact equivalent.wellFormed'
  apply of_layer (.object distinct formed) (.object distinct' formed') rfl rfl
  refine .object (fun name => by rw [names]) ?_
  intro name type type' isMember isMember'
  obtain ⟨⟨label, other⟩, isOther, same, equivalent⟩ := Members.exists_of_forall₂ values isMember
  obtain rfl : name = label := same
  obtain rfl := Members.eq_of_mem distinct' isMember' isOther
  exact equivalent

end Equivalent

end Ty

/-! ## Comparisons of equivalent types -/

namespace Comparison

open Ty

variable {comparison : Comparison} {layer : (Ty → Ty → Prop) → Ty → Ty → Prop}
  {left left' right right' : Ty}

/-- What holds of two trees holds of every two types that have them. -/
theorem Reads.largest_of_sameTree (reads : comparison.Reads layer) (same : SameTree left left')
    (related : Largest layer left' right') (same' : SameTree right' right) :
    Largest layer left right := by
  refine ⟨fun first second => ∃ first' second', SameTree first first' ∧
    Largest layer first' second' ∧ SameTree second' second, ?_, left', right', same, related, same'⟩
  rintro first second ⟨first', second', same, related, same'⟩
  obtain ⟨head, middle, exposes, exposed, sameHead⟩ :=
    Largest.consistent SameLayer.monotone first first' same
  obtain ⟨middle', next, exposed', exposedNext, matched⟩ :=
    Largest.consistent reads.monotone first' second' related
  obtain ⟨next', head', exposedNext', exposes', sameHead'⟩ :=
    Largest.consistent SameLayer.monotone second' second same'
  obtain rfl := exposed.unique exposed'
  obtain rfl := exposedNext.unique exposedNext'
  exact ⟨head, head', exposes, exposes', reads.absorbs sameHead matched sameHead'⟩

/-- A comparison gives the same answer on equivalent types. -/
theorem Reads.relates_congr (reads : comparison.Reads layer) (first : Equivalent left left')
    (second : Equivalent right right') :
    comparison.relates left right = comparison.relates left' right' := by
  rw [Bool.eq_iff_iff, reads.relates_iff first.wellFormed second.wellFormed,
    reads.relates_iff first.wellFormed' second.wellFormed']
  constructor
  · intro related
    exact reads.largest_of_sameTree first.sameTree.symm related second.sameTree
  · intro related
    exact reads.largest_of_sameTree first.sameTree related second.sameTree.symm

end Comparison

/-! ## Checks of equivalent types -/

namespace Ty

/-- Layers of the same tree are of the same form, with related parts. -/
theorem SameLayer.head {related : Ty → Ty → Prop} {left right : Ty}
    (matched : SameLayer related left right) : SameHead related left right := by
  cases matched with
  | number => exact .number
  | boolean => exact .boolean
  | function places results => exact .function places results
  | object names values => exact .object (Members.lookup_rel names values)

/-- Comparisons of equivalent types agree on their answer. -/
theorem Equivalent.agree_compare {comparison : Comparison}
    {layer : (Ty → Ty → Prop) → Ty → Ty → Prop} (reads : comparison.Reads layer)
    {alike : Stop Fault → Stop Fault → Prop} {left left' right right' : Ty}
    (first : Equivalent left left') (second : Equivalent right right')
    {environment environment' : Environment} :
    Check.Agree alike (Check.compare comparison left right)
      (Check.compare comparison left' right') environment environment' Eq :=
  .values (Check.compare_result_of_wellFormed reads.asksParts first.wellFormed second.wellFormed)
    (Check.compare_result_of_wellFormed reads.asksParts first.wellFormed' second.wellFormed')
    rfl rfl (reads.relates_congr first second)

/-- Checks respect equivalence, if the object literals that they see repeat no names. They stop with
faults only. -/
theorem Equivalent.congruence : Congruence Equivalent List.Nodup (Stop.Alike False) where
  number := .refl (by decide)
  boolean := .refl (by decide)
  function := .function
  object := .object
  layer equivalent := equivalent.layer.head
  compare := by
    rintro comparison left left' right right' environment environment' (rfl | rfl) first second
    · exact first.agree_compare Comparison.equality_reads second
    · exact first.agree_compare Comparison.subtyping_reads second
  fault := .fault

end Ty

end Equirec
