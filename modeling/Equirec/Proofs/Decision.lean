import Equirec.Proofs.Settling
import Equirec.Proofs.Tree

/-!
# Comparisons decide trees

Equality decides whether two types have the same tree, and subtyping whether one can be used as the
other. Both follow from one theorem about comparisons whose layer reads off a kind of layer of trees
(`Comparison.Reads`).

A comparison that answers no is right because no step loses a relation that holds: what holds of a
pair holds of its unfolding and of the parts that its layer asks about. A comparison that answers
yes leaves assumptions behind, and together with what was settled by them they make up a consistent
relation. An assumption is never used to settle itself: a pair is unfolded when it is assumed, and
the unfolding of a contractive type comes to a layer before it comes to an equally long chain of
binders. As pairs are met again only up to the names of binders, the relation is closed under having
the same tree.
-/
namespace Equirec

open Ty

/-- What a goal asks, when being related is given. -/
def Goal.Holds (related : Ty → Ty → Prop) : Goal → Prop
  | .compare left right => related left right
  | .clash => False

/-- Goals by place hold when the parameters are related place by place. -/
theorem Goal.holds_byPlace (related : Ty → Ty → Prop) {left right : List (String × Ty)}
    (count : left.length = right.length) :
    (∀ goal ∈ Goal.byPlace left right, goal.Holds related) ↔
      List.Forall₂ (fun member member' => related member.2 member'.2) left right := by
  induction left generalizing right with
  | nil =>
    obtain rfl := List.length_eq_zero_iff.1 count.symm
    simp [Goal.byPlace]
  | cons member left ih =>
    cases right with
    | nil => simp at count
    | cons member' right =>
      have tail := ih (Nat.succ.inj count)
      rw [Goal.byPlace] at tail ⊢
      rw [List.zipWith_cons_cons, List.forall_mem_cons, tail, List.forall₂_cons]
      rfl

/-- Goals by name hold when every wanted property is found and asks what holds. -/
theorem Goal.holds_byName (related : Ty → Ty → Prop) (goal : Ty → Ty → Goal)
    (wanted offered : List (String × Ty)) :
    (∀ asked ∈ Goal.byName goal wanted offered, asked.Holds related) ↔
      ∀ member ∈ wanted, ∃ type, offered.lookup member.1 = some type ∧
        (goal member.2 type).Holds related := by
  rw [Goal.byName, List.forall_mem_map]
  refine forall₂_congr fun member _ => ?_
  cases offered.lookup member.1 <;> simp [Goal.Holds]

namespace Comparison

/-- A comparison whose layer asks exactly what a kind of layer of trees says. -/
structure Reads (comparison : Comparison) (layer : (Ty → Ty → Prop) → Ty → Ty → Prop) : Prop where
  /-- A larger relation has more layers. -/
  monotone : Monotone layer
  /-- Only parts are asked about. -/
  asksParts : comparison.AsksParts
  /-- The goals of the layer hold exactly when the layers match. -/
  holds_iff {related : Ty → Ty → Prop} {left right : Ty} (wellFormed : left.WellFormed)
    (wellFormed' : right.WellFormed) (bare : left.unfolding? = none)
    (bare' : right.unfolding? = none) :
    (∀ goal ∈ comparison.layer left right, goal.Holds related) ↔ layer related left right
  /-- Layers may be replaced by layers of the same trees. -/
  absorbs {related : Ty → Ty → Prop} {left left' right right' : Ty}
    (same : SameLayer SameTree left left') (matched : layer related left' right')
    (same' : SameLayer SameTree right' right) :
    layer (fun first second => ∃ first' second', SameTree first first' ∧
      related first' second' ∧ SameTree second' second) left right

/-- Unfolding a pair of well-formed types gives such a pair. -/
theorem wellFormed_of_unfoldPair? {left right left' right' : Ty} (wellFormed : left.WellFormed)
    (wellFormed' : right.WellFormed)
    (unfolds : unfoldPair? left right = some (left', right')) :
    left'.WellFormed ∧ right'.WellFormed := by
  rcases unfoldPair?_eq_some unfolds with ⟨name, body, rfl, rfl, rfl⟩ | ⟨name, body, rfl, rfl, rfl⟩
  · exact ⟨wellFormed.unfolded, wellFormed'⟩
  · exact ⟨wellFormed, wellFormed'.unfolded⟩

/-- Unfolding a pair of well-formed types shortens the chains of binders in front and keeps the
trees. -/
theorem unfoldPair?_sameTree {left right left' right' : Ty} (wellFormed : left.WellFormed)
    (wellFormed' : right.WellFormed)
    (unfolds : unfoldPair? left right = some (left', right')) :
    left'.leadingBinders + right'.leadingBinders < left.leadingBinders + right.leadingBinders ∧
      SameTree left left' ∧ SameTree right right' := by
  rcases unfoldPair?_eq_some unfolds with ⟨name, body, rfl, rfl, rfl⟩ | ⟨name, body, rfl, rfl, rfl⟩
  · have fewer := leadingBinders_unfolded wellFormed.contractive
    exact ⟨by omega, .of_unfold wellFormed, .refl wellFormed'⟩
  · have fewer := leadingBinders_unfolded wellFormed'.contractive
    exact ⟨by omega, .refl wellFormed, .of_unfold wellFormed'⟩

/-- The layer of a pair of well-formed types asks about such pairs. -/
theorem AsksParts.wellFormed {comparison : Comparison} (asksParts : comparison.AsksParts)
    {left right first second : Ty} (wellFormed : left.WellFormed)
    (wellFormed' : right.WellFormed)
    (asked : .compare first second ∈ comparison.layer left right) :
    first.WellFormed ∧ second.WellFormed := by
  rcases asksParts left right first second asked with ⟨isPart, isPart'⟩ | ⟨isPart, isPart'⟩
  · exact ⟨wellFormed.part isPart, wellFormed'.part isPart'⟩
  · exact ⟨wellFormed'.part isPart, wellFormed.part isPart'⟩

/-! ## A refusal is right -/

/-- A run over goals that hold of trees answers yes. -/
theorem Settles.eq_true {comparison : Comparison}
    {layer : (Ty → Ty → Prop) → Ty → Ty → Prop} (reads : comparison.Reads layer)
    {goals : List Goal} {assumptions final : List (Ty × Ty)} {answer : Bool}
    (run : comparison.Settles goals assumptions answer final)
    (holds : ∀ goal ∈ goals, goal.Holds fun left right =>
      Largest layer left right ∧ left.WellFormed ∧ right.WellFormed) : answer = true := by
  induction run with
  | done => rfl
  | clash => exact (holds .clash (.head _)).elim
  | assumed _ _ ih => exact ih (List.forall_mem_cons.1 holds).2
  | @unfold left right left' right' goals assumptions final answer _ unfolds _ ih =>
    obtain ⟨⟨related, wellFormed, wellFormed'⟩, others⟩ := List.forall_mem_cons.1 holds
    have formed := wellFormed_of_unfoldPair? wellFormed wellFormed' unfolds
    refine ih (List.forall_mem_cons.2 ⟨⟨?_, formed⟩, others⟩)
    rcases unfoldPair?_eq_some unfolds with
      ⟨name, body, rfl, rfl, rfl⟩ | ⟨name, body, rfl, rfl, rfl⟩
    · exact .unfold_left reads.monotone related
    · exact .unfold_right reads.monotone related
  | @layer left right goals assumptions final answer _ bare _ ih =>
    obtain ⟨⟨related, wellFormed, wellFormed'⟩, others⟩ := List.forall_mem_cons.1 holds
    obtain ⟨bareLeft, bareRight⟩ := unfoldPair?_eq_none bare
    have matched := Largest.layer_of_bare reads.monotone related bareLeft bareRight
    have asked := (reads.holds_iff wellFormed wellFormed' bareLeft bareRight).2 matched
    refine ih (List.forall_mem_append.2 ⟨fun goal isGoal => ?_, others⟩)
    cases goal with
    | clash => exact asked .clash isGoal
    | compare first second =>
      exact ⟨asked _ isGoal, reads.asksParts.wellFormed wellFormed wellFormed' isGoal⟩

/-! ## An acceptance is right -/

/-- Pairs that are settled from assumptions by finitely many steps. -/
inductive Justified (comparison : Comparison) (assumptions : List (Ty × Ty)) : Ty → Ty → Prop where
  /-- The pair is assumed. -/
  | assumed {left right : Ty} (covered : Covered assumptions left right) :
    Justified comparison assumptions left right
  /-- The unfolded pair is settled. -/
  | unfold {left right left' right' : Ty}
    (unfolds : unfoldPair? left right = some (left', right'))
    (rest : Justified comparison assumptions left' right') :
    Justified comparison assumptions left right
  /-- Everything that the layer asks is settled. -/
  | layer {left right : Ty} (bare : unfoldPair? left right = none)
    (noClash : .clash ∉ comparison.layer left right)
    (parts : ∀ first second, .compare first second ∈ comparison.layer left right →
      Justified comparison assumptions first second) :
    Justified comparison assumptions left right

/-- Assumptions that settle the unfolding of each of them. -/
def Supported (comparison : Comparison) (assumptions : List (Ty × Ty)) : Prop :=
  ∀ left right, (left, right) ∈ assumptions → ∃ left' right',
    unfoldPair? left right = some (left', right') ∧
      comparison.Justified assumptions left' right'

/-- A run keeps its assumptions. When it answers yes, its last assumptions settle all its goals and
the unfoldings of all assumptions that it has added. -/
theorem Settles.justified {comparison : Comparison} {goals : List Goal}
    {assumptions final : List (Ty × Ty)} {answer : Bool}
    (run : comparison.Settles goals assumptions answer final) (accepted : answer = true) :
    assumptions ⊆ final ∧ (∀ goal ∈ goals, goal.Holds (comparison.Justified final)) ∧
      ∀ left right, (left, right) ∈ final → (left, right) ∈ assumptions ∨ ∃ left' right',
        unfoldPair? left right = some (left', right') ∧
          comparison.Justified final left' right' := by
  induction run with
  | done => exact ⟨List.Subset.refl _, by simp, fun _ _ => .inl⟩
  | clash => cases accepted
  | assumed covered _ ih =>
    obtain ⟨kept, settled, added⟩ := ih accepted
    refine ⟨kept, List.forall_mem_cons.2 ⟨?_, settled⟩, added⟩
    obtain ⟨assumption, isAssumed, alike⟩ := covered
    exact .assumed ⟨assumption, kept isAssumed, alike⟩
  | @unfold left right left' right' goals assumptions final answer _ unfolds _ ih =>
    obtain ⟨kept, settled, added⟩ := ih accepted
    obtain ⟨next, others⟩ := List.forall_mem_cons.1 settled
    refine ⟨fun pair isAssumed => kept (List.mem_insert_of_mem isAssumed),
      List.forall_mem_cons.2 ⟨.unfold unfolds next, others⟩, ?_⟩
    intro first second isFinal
    rcases added first second isFinal with isAssumed | isAdded
    · rcases List.mem_insert_iff.1 isAssumed with same | isAssumed
      · cases same
        exact .inr ⟨left', right', unfolds, next⟩
      · exact .inl isAssumed
    · exact .inr isAdded
  | @layer left right goals assumptions final answer _ bare _ ih =>
    obtain ⟨kept, settled, added⟩ := ih accepted
    obtain ⟨asked, others⟩ := List.forall_mem_append.1 settled
    refine ⟨kept, List.forall_mem_cons.2 ⟨?_, others⟩, added⟩
    exact .layer bare (fun isGoal => asked .clash isGoal) fun first second isGoal =>
      asked (.compare first second) isGoal

/-- A run assumes only pairs of well-formed types, when its goals are about such pairs. -/
theorem Settles.wellFormed {comparison : Comparison} (asksParts : comparison.AsksParts)
    {goals : List Goal} {assumptions final : List (Ty × Ty)} {answer : Bool}
    (run : comparison.Settles goals assumptions answer final)
    (goalsFormed : ∀ left right, .compare left right ∈ goals →
      left.WellFormed ∧ right.WellFormed)
    (assumedFormed : ∀ pair ∈ assumptions, pair.1.WellFormed ∧ pair.2.WellFormed) :
    ∀ pair ∈ final, pair.1.WellFormed ∧ pair.2.WellFormed := by
  induction run with
  | done => exact assumedFormed
  | clash => exact assumedFormed
  | assumed _ _ ih =>
    exact ih (fun left right isGoal => goalsFormed left right (.tail _ isGoal)) assumedFormed
  | @unfold left right left' right' goals assumptions final answer _ unfolds _ ih =>
    have formed := goalsFormed left right (.head _)
    refine ih ?_ ?_
    · intro first second isGoal
      rcases List.mem_cons.1 isGoal with same | isGoal
      · cases same
        exact wellFormed_of_unfoldPair? formed.1 formed.2 unfolds
      · exact goalsFormed first second (.tail _ isGoal)
    · intro pair isAssumed
      rcases List.mem_insert_iff.1 isAssumed with rfl | isAssumed
      · exact formed
      · exact assumedFormed pair isAssumed
  | @layer left right goals assumptions final answer _ _ _ ih =>
    have formed := goalsFormed left right (.head _)
    refine ih ?_ assumedFormed
    intro first second isGoal
    rcases List.mem_append.1 isGoal with isAsked | isGoal
    · exact asksParts.wellFormed formed.1 formed.2 isAsked
    · exact goalsFormed first second (.tail _ isGoal)

/-- Whether a pair comes to a settled layer: some well-formed pair of the same trees is not
recursive at the top, and all that its layer asks is settled. -/
def ComesToLayer (comparison : Comparison) (assumptions : List (Ty × Ty)) (left right : Ty) :
    Prop :=
  ∃ left' right', SameTree left left' ∧ SameTree right right' ∧ left'.WellFormed ∧
    right'.WellFormed ∧ unfoldPair? left' right' = none ∧
    ∀ goal ∈ comparison.layer left' right', goal.Holds (comparison.Justified assumptions)

/-- A pair comes to the layer that a pair of the same trees comes to. -/
theorem ComesToLayer.of_sameTree {comparison : Comparison} {assumptions : List (Ty × Ty)}
    {left right first second : Ty} (same : SameTree left first) (same' : SameTree right second)
    (comes : comparison.ComesToLayer assumptions first second) :
    comparison.ComesToLayer assumptions left right := by
  obtain ⟨left', right', sameLeft, sameRight, rest⟩ := comes
  exact ⟨left', right', same.trans sameLeft, same'.trans sameRight, rest⟩

/-- A settled pair of well-formed types comes to a settled layer. -/
theorem Justified.comesToLayer {comparison : Comparison} {assumptions : List (Ty × Ty)}
    (supported : comparison.Supported assumptions)
    (formed : ∀ pair ∈ assumptions, pair.1.WellFormed ∧ pair.2.WellFormed) {left right : Ty}
    (justified : comparison.Justified assumptions left right) (wellFormed : left.WellFormed)
    (wellFormed' : right.WellFormed) : comparison.ComesToLayer assumptions left right := by
  -- An assumption is as long as the pair that it covers, and its unfolding is shorter.
  induction length : left.leadingBinders + right.leadingBinders using Nat.strong_induction_on
    generalizing left right with
  | _ count shorter =>
    have unfolded : ∀ {first second first' second' : Ty}, first.WellFormed → second.WellFormed →
        first.leadingBinders + second.leadingBinders = count →
        unfoldPair? first second = some (first', second') →
        comparison.Justified assumptions first' second' →
        comparison.ComesToLayer assumptions first second := by
      intro first second first' second' formed formed' length unfolds justified
      obtain ⟨next, next'⟩ := wellFormed_of_unfoldPair? formed formed' unfolds
      obtain ⟨fewer, same, same'⟩ := unfoldPair?_sameTree formed formed' unfolds
      exact .of_sameTree same same' (shorter _ (by omega) justified next next' rfl)
    cases justified with
    | assumed covered =>
      obtain ⟨⟨first, second⟩, isAssumed, alike, alike'⟩ := covered
      obtain ⟨firstFormed, secondFormed⟩ := formed _ isAssumed
      obtain ⟨first', second', unfolds, justified⟩ := supported first second isAssumed
      have equal := leadingBinders_eq_of_alikeUnder alike
      have equal' := leadingBinders_eq_of_alikeUnder alike'
      have comes := unfolded firstFormed secondFormed (by omega) unfolds justified
      exact comes.of_sameTree (.of_alike alike wellFormed firstFormed)
        (.of_alike alike' wellFormed' secondFormed)
    | unfold unfolds justified => exact unfolded wellFormed wellFormed' length unfolds justified
    | layer bare noClash parts =>
      refine ⟨left, right, .refl wellFormed, .refl wellFormed', wellFormed, wellFormed', bare, ?_⟩
      intro goal isGoal
      cases goal with
      | clash => exact noClash isGoal
      | compare first second => exact parts first second isGoal

/-- Pairs settled from supported assumptions are related as trees. -/
theorem Justified.largest {comparison : Comparison}
    {layer : (Ty → Ty → Prop) → Ty → Ty → Prop} (reads : comparison.Reads layer)
    {assumptions : List (Ty × Ty)} (supported : comparison.Supported assumptions)
    (formed : ∀ pair ∈ assumptions, pair.1.WellFormed ∧ pair.2.WellFormed) {left right : Ty}
    (justified : comparison.Justified assumptions left right) (wellFormed : left.WellFormed)
    (wellFormed' : right.WellFormed) : Largest layer left right := by
  let settled : Ty → Ty → Prop := fun left right =>
    comparison.Justified assumptions left right ∧ left.WellFormed ∧ right.WellFormed
  refine ⟨fun first second => ∃ first' second', SameTree first first' ∧ settled first' second' ∧
    SameTree second' second, ?_, left, right, .refl wellFormed,
    ⟨justified, wellFormed, wellFormed'⟩, .refl wellFormed'⟩
  rintro first second ⟨left, right, same, ⟨justified, wellFormed, wellFormed'⟩, same'⟩
  obtain ⟨left', right', sameLeft, sameRight, formedLeft, formedRight, bare, asked⟩ :=
    justified.comesToLayer supported formed wellFormed wellFormed'
  obtain ⟨bareLeft, bareRight⟩ := unfoldPair?_eq_none bare
  have matched : layer settled left' right' := by
    refine (reads.holds_iff formedLeft formedRight bareLeft bareRight).1 fun goal isGoal => ?_
    cases goal with
    | clash => exact asked .clash isGoal
    | compare first second =>
      exact ⟨asked _ isGoal, reads.asksParts.wellFormed formedLeft formedRight isGoal⟩
  obtain ⟨head, _, exposes, exposed, sameHead⟩ :=
    Largest.consistent SameLayer.monotone _ _ (same.trans sameLeft)
  obtain ⟨_, head', exposed', exposes', sameHead'⟩ :=
    Largest.consistent SameLayer.monotone _ _ (sameRight.symm.trans same')
  rw [exposed.eq_of_bare bareLeft] at sameHead
  rw [exposed'.eq_of_bare bareRight] at sameHead'
  exact ⟨head, head', exposes, exposes', reads.absorbs sameHead matched sameHead'⟩

/-- A comparison of well-formed types finds them related exactly when they are so as trees. -/
theorem Reads.relates_iff {comparison : Comparison}
    {layer : (Ty → Ty → Prop) → Ty → Ty → Prop} (reads : comparison.Reads layer) {left right : Ty}
    (wellFormed : left.WellFormed) (wellFormed' : right.WellFormed) :
    comparison.relates left right = true ↔ Largest layer left right := by
  obtain ⟨final, run⟩ := settles_relates reads.asksParts wellFormed.closed wellFormed'.closed
    wellFormed.distinct wellFormed'.distinct
  constructor
  · intro accepted
    obtain ⟨_, settled, added⟩ := run.justified accepted
    have supported : comparison.Supported final := fun first second isAssumed =>
      (added first second isAssumed).resolve_left (List.not_mem_nil)
    have formed := run.wellFormed reads.asksParts
      (fun first second isGoal => by
        cases List.mem_singleton.1 isGoal
        exact ⟨wellFormed, wellFormed'⟩)
      (fun pair isAssumed => nomatch isAssumed)
    have justified : comparison.Justified final left right :=
      settled (.compare left right) (.head _)
    exact justified.largest reads supported formed wellFormed wellFormed'
  · intro related
    refine run.eq_true reads fun goal isGoal => ?_
    cases List.mem_singleton.1 isGoal
    exact ⟨related, wellFormed, wellFormed'⟩

/-! ## Equality -/

/-- What equality asks of two first layers is that they are layers of the same tree. -/
theorem equalityLayer_holds_iff {related : Ty → Ty → Prop} {left right : Ty}
    (wellFormed : left.WellFormed) (wellFormed' : right.WellFormed) :
    (∀ goal ∈ equalityLayer left right, goal.Holds related) ↔ SameLayer related left right := by
  unfold equalityLayer
  split
  · exact iff_of_true (by simp) .number
  · exact iff_of_true (by simp) .boolean
  · rename_i parameters result parameters' result'
    split
    · rename_i count
      rw [List.forall_mem_append, Goal.holds_byPlace related count, List.forall_mem_singleton]
      constructor
      · rintro ⟨places, results⟩
        exact .function places results
      · intro matched
        cases matched with
        | function places results => exact ⟨places, results⟩
    · rename_i differ
      refine iff_of_false (fun holds => holds .clash (.head _)) fun matched => ?_
      cases matched with
      | function places results => exact differ places.length_eq
  · rename_i properties properties'
    have distinct := nodup_names wellFormed.distinct
    have distinct' := nodup_names wellFormed'.distinct
    split
    · rename_i count
      rw [Goal.holds_byName, Members.forall_lookup_iff distinct' fun type type' =>
        Goal.Holds related (.compare type type')]
      constructor
      · rintro ⟨names, values⟩
        exact .object (Members.mem_names_iff_of_subset distinct names count) values
      · intro matched
        cases matched with
        | object names values => exact ⟨fun name => (names name).1, values⟩
    · rename_i differ
      refine iff_of_false (fun holds => holds .clash (.head _)) fun matched => ?_
      cases matched with
      | object names values => exact differ (Members.length_eq_of_names distinct distinct' names)
  · rename_i notNumber notBoolean notFunction notObject
    refine iff_of_false (fun holds => holds .clash (.head _)) fun matched => ?_
    cases matched with
    | number => exact notNumber rfl rfl
    | boolean => exact notBoolean rfl rfl
    | function => exact notFunction _ _ _ _ rfl rfl
    | object => exact notObject _ _ rfl rfl

/-- Equality reads off layers of the same tree. -/
theorem equality_reads : equality.Reads SameLayer where
  monotone := SameLayer.monotone
  asksParts := equality_asksParts
  holds_iff wellFormed wellFormed' _ _ := equalityLayer_holds_iff wellFormed wellFormed'
  absorbs same matched same' := by
    refine SameLayer.monotone ?_ _ _ ((same.comp matched).comp same')
    rintro first second ⟨second', ⟨first', sameFirst, related⟩, sameSecond⟩
    exact ⟨first', second', sameFirst, related, sameSecond⟩

/-! ## Subtyping -/

/-- What subtyping asks of two first layers is that the first is usable as the second. -/
theorem subtypingLayer_holds_iff {related : Ty → Ty → Prop} {left right : Ty}
    (wellFormed : left.WellFormed) :
    (∀ goal ∈ subtypingLayer left right, goal.Holds related) ↔
      UsableLayer related left right := by
  unfold subtypingLayer
  split
  · exact iff_of_true (by simp) .number
  · exact iff_of_true (by simp) .boolean
  · rename_i parameters result parameters' result'
    split
    · rename_i count
      rw [List.forall_mem_cons, Goal.holds_byPlace related count.symm]
      constructor
      · rintro ⟨results, places⟩
        exact .function places.flip results
      · intro matched
        cases matched with
        | function places results => exact ⟨results, places.flip⟩
    · rename_i differ
      refine iff_of_false (fun holds => holds .clash (.head _)) fun matched => ?_
      cases matched with
      | function places results => exact differ places.length_eq
  · rename_i properties properties'
    rw [Goal.holds_byName, Members.forall_lookup_iff (nodup_names wellFormed.distinct)
      fun wanted offered => Goal.Holds related (.compare offered wanted)]
    constructor
    · rintro ⟨names, values⟩
      exact .object names fun name type type' isMember isMember' =>
        values name type' type isMember' isMember
    · intro matched
      cases matched with
      | object names values =>
        exact ⟨names, fun name type' type isMember' isMember =>
          values name type type' isMember isMember'⟩
  · rename_i notNumber notBoolean notFunction notObject
    refine iff_of_false (fun holds => holds .clash (.head _)) fun matched => ?_
    cases matched with
    | number => exact notNumber rfl rfl
    | boolean => exact notBoolean rfl rfl
    | function => exact notFunction _ _ _ _ rfl rfl
    | object => exact notObject _ _ rfl rfl

/-- A usable layer stays one when both sides are replaced by layers of the same trees. -/
theorem absorbs_usableLayer {related : Ty → Ty → Prop} {left left' right right' : Ty}
    (same : SameLayer SameTree left left') (matched : UsableLayer related left' right')
    (same' : SameLayer SameTree right' right) :
    UsableLayer (fun first second => ∃ first' second', SameTree first first' ∧
      related first' second' ∧ SameTree second' second) left right := by
  cases matched with
  | number =>
    cases same
    cases same'
    exact .number
  | boolean =>
    cases same
    cases same'
    exact .boolean
  | function places results =>
    cases same with
    | function samePlaces sameResults =>
      cases same' with
      | function samePlaces' sameResults' =>
        refine .function ?_ ⟨_, _, sameResults, results, sameResults'⟩
        refine (Members.forall₂_comp (Members.forall₂_comp samePlaces places) samePlaces').imp ?_
        rintro member member' ⟨second, ⟨first, sameFirst, holds⟩, sameSecond⟩
        exact ⟨second.2, first.2, sameSecond.symm, holds, sameFirst.symm⟩
  | object names values =>
    cases same with
    | object sameNames sameValues =>
      cases same' with
      | object sameNames' sameValues' =>
        refine .object (fun name isName => ?_) fun name type type' isMember isMember' => ?_
        · exact (sameNames name).2 (names name ((sameNames' name).2 isName))
        · obtain ⟨first, isFirst⟩ := Members.exists_mem_of_mem_names
            ((sameNames name).1 (List.mem_map_of_mem isMember))
          obtain ⟨second, isSecond⟩ := Members.exists_mem_of_mem_names
            ((sameNames' name).2 (List.mem_map_of_mem isMember'))
          exact ⟨first, second, sameValues name type first isMember isFirst,
            values name first second isFirst isSecond,
            sameValues' name second type' isSecond isMember'⟩

/-- Subtyping reads off usable layers. -/
theorem subtyping_reads : subtyping.Reads UsableLayer where
  monotone := UsableLayer.monotone
  asksParts := subtyping_asksParts
  holds_iff wellFormed _ _ _ := subtypingLayer_holds_iff wellFormed
  absorbs := absorbs_usableLayer

end Comparison

/-! ## The two decisions -/

/-- Equality of well-formed types accepts exactly the types of the same tree. -/
theorem Ty.equals_iff_sameTree {left right : Ty} (wellFormed : left.WellFormed)
    (wellFormed' : right.WellFormed) : left.equals right = true ↔ SameTree left right :=
  Comparison.equality_reads.relates_iff wellFormed wellFormed'

/-- Subtyping of well-formed types accepts exactly the types of which the first can be used as the
second. -/
theorem Ty.isSubtypeOf_iff_usableAs {left right : Ty} (wellFormed : left.WellFormed)
    (wellFormed' : right.WellFormed) : left.isSubtypeOf right = true ↔ UsableAs left right :=
  Comparison.subtyping_reads.relates_iff wellFormed wellFormed'

/-- Equality of well-formed types accepts exactly the pairs of some relation whose pairs, with all
outer binders unfolded, have the same layer with parts in the relation again. -/
theorem Ty.equals_iff_exists_relation {left right : Ty} (wellFormed : left.WellFormed)
    (wellFormed' : right.WellFormed) :
    left.equals right = true ↔
      ∃ related : Ty → Ty → Prop, related left right ∧
        ∀ first second, related first second → ∃ first' second',
          Exposes first first' ∧ Exposes second second' ∧ SameLayer related first' second' := by
  rw [equals_iff_sameTree wellFormed wellFormed']
  constructor
  · rintro ⟨related, consistent, holds⟩
    exact ⟨related, holds, consistent⟩
  · rintro ⟨related, holds, consistent⟩
    exact ⟨related, consistent, holds⟩

/-- Two recursive objects that alternate the same two names are equal, though one starts to be
recursive a layer later than the other. -/
theorem Ty.equals_interleaved :
    (mu "C" (.object [("c", .object [("d", .var "C")])])).equals
      (.object [("c", .mu "D" (.object [("d", .object [("c", .var "D")])]))]) = true := by
  refine (equals_iff_exists_relation (by decide) (by decide)).2
    ⟨fun first second =>
      (first = mu "C" (.object [("c", .object [("d", .var "C")])]) ∧
        second = .object [("c", .mu "D" (.object [("d", .object [("c", .var "D")])]))]) ∨
      (first = .object [("d", .mu "C" (.object [("c", .object [("d", .var "C")])]))] ∧
        second = .mu "D" (.object [("d", .object [("c", .var "D")])])),
      .inl ⟨rfl, rfl⟩, ?_⟩
  rintro first second (⟨rfl, rfl⟩ | ⟨rfl, rfl⟩)
  · refine ⟨_, _, .unfold (.done rfl), .done rfl, .object (fun _ => Iff.rfl) ?_⟩
    intro name type type' isMember isMember'
    cases List.mem_singleton.1 isMember
    cases List.mem_singleton.1 isMember'
    exact .inr ⟨rfl, rfl⟩
  · refine ⟨_, _, .done rfl, .unfold (.done rfl), .object (fun _ => Iff.rfl) ?_⟩
    intro name type type' isMember isMember'
    cases List.mem_singleton.1 isMember
    cases List.mem_singleton.1 isMember'
    exact .inl ⟨rfl, rfl⟩

/-- Subtyping of well-formed types accepts exactly the pairs of the greatest relation whose pairs,
with all outer binders unfolded, have usable layers with parts in the relation again. -/
theorem Ty.isSubtypeOf_iff_mem_greatest {left right : Ty} (wellFormed : left.WellFormed)
    (wellFormed' : right.WellFormed) :
    ∃ greatest : Ty → Ty → Prop,
      IsGreatest {related | ∀ first second, related first second → ∃ first' second',
        Exposes first first' ∧ Exposes second second' ∧ UsableLayer related first' second'}
        greatest ∧
      (left.isSubtypeOf right = true ↔ greatest left right) :=
  ⟨UsableAs, Largest.isGreatest UsableLayer.monotone,
    isSubtypeOf_iff_usableAs wellFormed wellFormed'⟩

/-- A recursive object with one more property is a subtype, through the function that returns the
next one. -/
theorem Ty.isSubtypeOf_recursive_width :
    (mu "S" (.object [("next", .function [] (.var "S")), ("extra", .boolean)])).isSubtypeOf
      (.mu "T" (.object [("next", .function [] (.var "T"))])) = true := by
  let wide := mu "S" (.object [("next", .function [] (.var "S")), ("extra", .boolean)])
  let narrow := mu "T" (.object [("next", .function [] (.var "T"))])
  let pairs : Ty → Ty → Prop := fun first second =>
    (first = wide ∧ second = narrow) ∨
      (first = .function [] wide ∧ second = .function [] narrow)
  have consistent : Consistent UsableLayer pairs := by
    rintro first second (⟨rfl, rfl⟩ | ⟨rfl, rfl⟩)
    · refine ⟨_, _, .unfold (.done rfl), .unfold (.done rfl), .object ?_ ?_⟩
      · intro name isName
        cases List.mem_singleton.1 isName
        exact .head _
      · intro name type type' isMember isMember'
        cases List.mem_singleton.1 isMember'
        rcases List.mem_cons.1 isMember with same | isMember
        · cases same
          exact .inr ⟨rfl, rfl⟩
        · simp at isMember
    · exact ⟨_, _, .done rfl, .done rfl, .function .nil (.inl ⟨rfl, rfl⟩)⟩
  have formed : wide.WellFormed := by decide
  have formed' : narrow.WellFormed := by decide
  obtain ⟨greatest, isGreatest, accepts⟩ := isSubtypeOf_iff_mem_greatest formed formed'
  exact accepts.2 (isGreatest.2 consistent wide narrow (.inl ⟨rfl, rfl⟩))

end Equirec
