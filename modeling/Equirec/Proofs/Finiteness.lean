import Equirec.Proofs.Reach
import Mathlib.Data.Set.Card

/-!
# A type reaches finitely many types

`Ty.reach` is the set of types that are met when a type is taken apart and unfolded again and again:
the least set that holds the type and with every type its parts and its unfolding
(`isLeast_reach`). Unfolding copies a whole type into its own body, and still the set is finite. A
closed type reaches no more types than it has nodes, all of them are closed, and they are
contractive or free of repeated property names when the type is (`reach_bounded`).
-/
namespace Equirec.Ty

/-- A set of types that holds the parts and the unfoldings of its types. -/
structure Hereditary (types : Set Ty) : Prop where
  /-- The types of parameters, results and properties. -/
  part : ∀ whole ∈ types, ∀ part, IsPart part whole → part ∈ types
  /-- The unfoldings of recursive types. -/
  unfold : ∀ name body, .mu name body ∈ types → unfolded name body ∈ types

/-- The types that a type reaches. -/
def reach (type : Ty) : Set Ty :=
  {reached | type.Reaches reached}

/-- A hereditary set holds, with a type, all that the type leads to. -/
theorem Hereditary.leads {types : Set Ty} (hereditary : Hereditary types) {type next : Ty}
    (leads : Leads type next) (isMember : type ∈ types) : next ∈ types := by
  cases leads with
  | part isPart => exact hereditary.part type isMember next isPart
  | unfold name body => exact hereditary.unfold name body isMember

/-- What a type reaches is a hereditary set. -/
theorem hereditary_reach (type : Ty) : Hereditary type.reach where
  part _ reaches _ isPart := reaches.tail (.part isPart)
  unfold name body reaches := reaches.tail (.unfold name body)

/-- What a type reaches is the least hereditary set that holds the type. -/
theorem isLeast_reach (type : Ty) :
    IsLeast {types : Set Ty | type ∈ types ∧ Hereditary types} type.reach := by
  refine ⟨⟨.refl, hereditary_reach type⟩, ?_⟩
  rintro types ⟨isMember, hereditary⟩ reached reaches
  exact Reaches.keeps reaches (fun _ _ => hereditary.leads) isMember

/-! ## Counting -/

/-- The nodes of a closed type are all that it reaches. -/
theorem reach_subset_nodes {type : Ty} (closed : type.isClosed = true) :
    type.reach ⊆ type.nodes.toFinset := by
  intro reached reaches
  rw [Finset.mem_coe, List.mem_toFinset]
  exact mem_nodes_of_reaches closed reaches

/-- A closed type reaches no more types than it has nodes. -/
theorem ncard_reach_le {type : Ty} (closed : type.isClosed = true) :
    type.reach.ncard ≤ type.size :=
  calc type.reach.ncard
      ≤ (type.nodes.toFinset : Set Ty).ncard :=
        Set.ncard_le_ncard (reach_subset_nodes closed) (Finset.finite_toSet _)
    _ = type.nodes.toFinset.card := Set.ncard_coe_finset _
    _ ≤ type.nodes.length := List.toFinset_card_le _
    _ = type.size := length_nodesUnder type _

/-! ## What single steps keep -/

/-- A closed type leads to closed types. -/
theorem Leads.isClosed {type next : Ty} (leads : Leads type next)
    (closed : type.isClosed = true) : next.isClosed = true := by
  cases leads with
  | part isPart => exact isPart.isClosed closed
  | unfold name body => exact isClosed_unfolded closed

/-- A closed contractive type leads to contractive types. -/
theorem Leads.isContractive {type next : Ty} (leads : Leads type next)
    (closed : type.isClosed = true) (contractive : type.isContractive = true) :
    next.isContractive = true := by
  cases leads with
  | part isPart => exact isPart.isContractive contractive
  | unfold name body =>
    have inBody := contractive
    simp only [Ty.isContractive, Bool.and_eq_true] at inBody
    exact isContractive_subst closed contractive body name inBody.2

/-! ## The bound -/

/-- The types that a closed type reaches, by taking parts and unfolding, are no more than it has
nodes. All of them are closed; they are contractive if the type is, and none of them repeats a
property name if the type does not. -/
theorem reach_bounded {type : Ty} (closed : type.isClosed = true) :
    IsLeast {types : Set Ty | type ∈ types ∧ Hereditary types} type.reach ∧
      type.reach.Finite ∧ type.reach.ncard ≤ type.size ∧
      (∀ reached ∈ type.reach, reached.isClosed = true) ∧
      (type.isContractive = true → ∀ reached ∈ type.reach, reached.isContractive = true) ∧
      (type.hasDistinctNames = true →
        ∀ reached ∈ type.reach, reached.hasDistinctNames = true) := by
  refine ⟨isLeast_reach type, ?_, ncard_reach_le closed, ?_, ?_, ?_⟩
  · exact (Finset.finite_toSet _).subset (reach_subset_nodes closed)
  · intro reached reaches
    exact Reaches.keeps reaches (fun _ _ => Leads.isClosed) closed
  · intro contractive reached reaches
    have keeps : ∀ type next, Leads type next → type.isClosed = true ∧ type.isContractive = true →
        next.isClosed = true ∧ next.isContractive = true :=
      fun _ _ leads both => ⟨leads.isClosed both.1, leads.isContractive both.1 both.2⟩
    exact (Reaches.keeps reaches keeps ⟨closed, contractive⟩).2
  · intro distinct reached reaches
    exact Reaches.keeps reaches (fun _ _ => Leads.hasDistinctNames) distinct

/-- A type whose inner binder hides the name of the outer one, and that refers to both, reaches no
more types than its ten nodes, and all of them are well-formed. -/
theorem reach_bounded_shadowed :
    let inner := mu "A" (.object [("inner", .var "A"), ("outer", .var "B")])
    let type := mu "A" (.object [("next", .mu "B" (.function
      [("whole", .var "A"), ("own", .var "B")] inner))])
    type.isClosed = true ∧ type.isContractive = true ∧ type.hasDistinctNames = true ∧
      type.reach.Finite ∧ type.reach.ncard ≤ 10 ∧ ∀ reached ∈ type.reach, reached.WellFormed := by
  intro inner type
  have closed : type.isClosed = true := by decide
  have contractive : type.isContractive = true := by decide
  have distinct : type.hasDistinctNames = true := by decide
  obtain ⟨_, finite, bounded, allClosed, allContractive, allDistinct⟩ := reach_bounded closed
  refine ⟨closed, contractive, distinct, finite, bounded, fun reached reaches => ?_⟩
  exact ⟨allClosed reached reaches, allContractive contractive reached reaches,
    allDistinct distinct reached reaches⟩

end Equirec.Ty
