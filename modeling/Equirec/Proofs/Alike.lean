import Equirec.Proofs.Members
import Equirec.Proofs.WellFormed

/-!
# Alike types

How the comparison up to the names of binders treats each form of type, stated through lists, and
the two facts about it that comparisons of recursive types rest on: a type without repeated property
names is alike to itself, and alike types have the same number of binders in front.
-/
namespace Equirec.Ty

/-- Parameters of the same number are alike when they are so place by place. -/
theorem alikeParameters_iff (binders : List (String × String)) (left right : List (String × Ty)) :
    (left.length = right.length ∧ alikeParameters binders left right = true) ↔
      List.Forall₂ (fun member member' => alikeUnder binders member.2 member'.2 = true)
        left right := by
  induction left generalizing right with
  | nil => cases right <;> simp [alikeParameters]
  | cons member left ih =>
    cases right with
    | nil => simp
    | cons member' right =>
      rw [List.forall₂_cons, ← ih right]
      simp only [alikeParameters, List.length_cons, Nat.add_right_cancel_iff, Bool.and_eq_true]
      exact and_left_comm

/-- Properties are alike to those of another list when each is alike to the first of its name. -/
theorem alikeProperties_iff (binders : List (String × String)) (left right : List (String × Ty)) :
    alikeProperties binders left right = true ↔
      ∀ member ∈ left, ∃ type, right.lookup member.1 = some type ∧
        alikeUnder binders member.2 type = true := by
  induction left with
  | nil => simp [alikeProperties]
  | cons member left ih =>
    obtain ⟨name, type⟩ := member
    rw [alikeProperties, Bool.and_eq_true, ih, List.forall_mem_cons]
    refine and_congr_left fun _ => ?_
    cases right.lookup name <;> simp

/-- Functions are alike when their parameters are, place by place, and their results. -/
theorem alikeUnder_function (binders : List (String × String))
    (parameters parameters' : List (String × Ty)) (result result' : Ty) :
    alikeUnder binders (.function parameters result) (.function parameters' result') = true ↔
      List.Forall₂ (fun member member' => alikeUnder binders member.2 member'.2 = true)
        parameters parameters' ∧ alikeUnder binders result result' = true := by
  rw [alikeUnder, Bool.and_eq_true, Bool.and_eq_true, beq_iff_eq, alikeParameters_iff]

/-- Objects are alike when they have as many properties and each is alike to the one of its
name. -/
theorem alikeUnder_object (binders : List (String × String))
    (properties properties' : List (String × Ty)) :
    alikeUnder binders (.object properties) (.object properties') = true ↔
      properties.length = properties'.length ∧
        ∀ member ∈ properties, ∃ type, properties'.lookup member.1 = some type ∧
          alikeUnder binders member.2 type = true := by
  rw [alikeUnder, Bool.and_eq_true, beq_iff_eq, alikeProperties_iff]

/-- A variable is the same as itself when every pair of binders is made of one name. -/
theorem sameVar_self {binders : List (String × String)}
    (diagonal : ∀ pair ∈ binders, pair.1 = pair.2) (name : String) :
    sameVar binders name name = true := by
  unfold sameVar
  split
  · rename_i left right found
    have equal : left = right := diagonal _ (List.mem_of_find?_eq_some found)
    have hit := List.find?_some found
    simpa [equal] using hit
  · simp

/-- A type without repeated property names is alike to itself under pairs made of one name. -/
theorem alikeUnder_self (type : Ty) {binders : List (String × String)}
    (diagonal : ∀ pair ∈ binders, pair.1 = pair.2) (distinct : type.hasDistinctNames = true) :
    alikeUnder binders type type = true := by
  induction type generalizing binders with
  | number => rfl
  | boolean => rfl
  | function parameters result parametersIH resultIH =>
    rw [alikeUnder_function, List.forall₂_same]
    refine ⟨fun member isMember => ?_, resultIH diagonal (IsPart.result.hasDistinctNames distinct)⟩
    exact parametersIH member isMember diagonal
      ((IsPart.parameter isMember).hasDistinctNames distinct)
  | object properties propertiesIH =>
    rw [alikeUnder_object]
    refine ⟨rfl, fun member isMember => ⟨member.2, ?_, ?_⟩⟩
    · exact Members.lookup_of_mem (nodup_names distinct) isMember
    · exact propertiesIH member isMember diagonal
        ((IsPart.property isMember).hasDistinctNames distinct)
  | var name => exact sameVar_self diagonal name
  | mu name body bodyIH =>
    rw [alikeUnder]
    refine bodyIH (fun pair isPair => ?_) distinct
    rcases List.mem_cons.1 isPair with rfl | isPair
    · rfl
    · exact diagonal pair isPair

/-- A type without repeated property names is alike to itself. -/
theorem alike_self {type : Ty} (distinct : type.hasDistinctNames = true) :
    type.alike type = true :=
  alikeUnder_self type (fun _ isPair => nomatch isPair) distinct

/-- Alike types have the same number of binders in front. -/
theorem leadingBinders_eq_of_alikeUnder {left right : Ty} {binders : List (String × String)}
    (alike : alikeUnder binders left right = true) :
    left.leadingBinders = right.leadingBinders := by
  induction left generalizing right binders with
  | mu name body bodyIH =>
    cases right with
    | mu name' body' =>
      rw [alikeUnder] at alike
      rw [leadingBinders, leadingBinders, bodyIH alike]
    | _ => simp [alikeUnder] at alike
  | _ =>
    cases right with
    | mu => simp [alikeUnder] at alike
    | _ => rfl

end Equirec.Ty
