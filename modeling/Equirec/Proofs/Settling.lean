import Equirec.Comparison.Equality
import Equirec.Comparison.Subtyping
import Equirec.Proofs.Alike
import Equirec.Proofs.Reach
import Mathlib.Data.List.ProdSigma

/-!
# Comparisons end

`Comparison.Settles` is the run of a comparison as such: no allowance, no look-out for rounds, only
goals, assumptions and an answer at the end of finitely many steps. What `Comparison.settle` answers
is the answer of such a run (`settles_of_settle`).

All pairs that are met consist of types that the two types reach, in either order, because
parameters swap sides; so of closed types there are at most twice as many pairs as pairs of nodes.
An unfolding of a pair whose types are alike to themselves uses up one of the pairs, since the pair
is assumed from then on and never unfolded again. Any other unfolding has to be paid for
(`Comparison.Covers`), and between unfoldings goals only get smaller. Closed types without repeated
property names have nothing to pay: comparing them always ends, whether they have a first layer or
not.
-/
namespace Equirec

open Ty

/-- Whether a pair is alike to one of the assumptions. -/
def Covered (assumptions : List (Ty × Ty)) (left right : Ty) : Prop :=
  ∃ assumption ∈ assumptions,
    left.alike assumption.1 = true ∧ right.alike assumption.2 = true

/-- Progress covers a pair when its assumptions do. -/
theorem Progress.covers_iff (progress : Progress) (left right : Ty) :
    progress.covers left right = true ↔ Covered progress.assumptions left right := by
  simp [Progress.covers, Covered, List.any_eq_true]

/-- The goals of tasks that are put in front. -/
theorem Task.map_goal_ofGoals_append (goals : List Goal) (visits : List Visit)
    (tasks : List Task) :
    (Task.ofGoals goals visits ++ tasks).map Task.goal = goals ++ tasks.map Task.goal := by
  simp [Task.ofGoals, Function.comp_def]

namespace Comparison

/-- A pair whose first recursive type is unfolded has one of its types unfolded. -/
theorem unfoldPair?_eq_some {left right left' right' : Ty}
    (unfolds : unfoldPair? left right = some (left', right')) :
    (∃ name body, left = .mu name body ∧ left' = unfolded name body ∧ right' = right) ∨
      ∃ name body, right = .mu name body ∧ right' = unfolded name body ∧ left' = left := by
  unfold unfoldPair? at unfolds
  split at unfolds
  · cases unfolds
    exact .inl ⟨_, _, rfl, rfl, rfl⟩
  · cases unfolds
    exact .inr ⟨_, _, rfl, rfl, rfl⟩
  · cases unfolds

/-- A pair that cannot be unfolded has no recursive type at the top. -/
theorem unfoldPair?_eq_none {left right : Ty} (bare : unfoldPair? left right = none) :
    left.unfolding? = none ∧ right.unfolding? = none := by
  cases left <;> cases right <;> simp_all [unfoldPair?, unfolding?]

/-- A pair without a recursive type at the top cannot be unfolded. -/
theorem unfoldPair?_of_bare {left right : Ty} (bare : left.unfolding? = none)
    (bare' : right.unfolding? = none) : unfoldPair? left right = none := by
  cases left <;> cases right <;> simp_all [unfoldPair?, unfolding?]

/-- A run of a comparison: the goals, the assumptions before, the answer and the assumptions
after. -/
inductive Settles (comparison : Comparison) :
    List Goal → List (Ty × Ty) → Bool → List (Ty × Ty) → Prop where
  /-- Nothing is left to settle. -/
  | done {assumptions : List (Ty × Ty)} : Settles comparison [] assumptions true assumptions
  /-- A mismatch ends the run. -/
  | clash {goals : List Goal} {assumptions : List (Ty × Ty)} :
    Settles comparison (.clash :: goals) assumptions false assumptions
  /-- A pair that is assumed needs no work. -/
  | assumed {left right : Ty} {goals : List Goal} {assumptions final : List (Ty × Ty)}
    {answer : Bool} (covered : Covered assumptions left right)
    (rest : Settles comparison goals assumptions answer final) :
    Settles comparison (.compare left right :: goals) assumptions answer final
  /-- A pair with a recursive type is assumed, and goes on unfolded. -/
  | unfold {left right left' right' : Ty} {goals : List Goal}
    {assumptions final : List (Ty × Ty)} {answer : Bool}
    (uncovered : ¬ Covered assumptions left right)
    (unfolds : unfoldPair? left right = some (left', right'))
    (rest : Settles comparison (.compare left' right' :: goals)
      (assumptions.insert (left, right)) answer final) :
    Settles comparison (.compare left right :: goals) assumptions answer final
  /-- Any other pair goes on with what its layer asks. -/
  | layer {left right : Ty} {goals : List Goal} {assumptions final : List (Ty × Ty)}
    {answer : Bool} (uncovered : ¬ Covered assumptions left right)
    (bare : unfoldPair? left right = none)
    (rest : Settles comparison (comparison.layer left right ++ goals) assumptions answer final) :
    Settles comparison (.compare left right :: goals) assumptions answer final

/-- An answer that a comparison gives is the answer of a run. -/
theorem settles_of_settle (comparison : Comparison) (allowance : Nat) (tasks : List Task)
    (progress : Progress)
    (answered : (comparison.settle allowance tasks progress).verdict ≠ .endless) :
    comparison.Settles (tasks.map Task.goal) progress.assumptions
      ((comparison.settle allowance tasks progress).verdict == .holds)
      (comparison.settle allowance tasks progress).progress.assumptions := by
  fun_induction comparison.settle allowance tasks progress with
  | case1 => exact .done
  | case2 => exact .clash
  | case3 allowance progress left right visits rest covers ih =>
    exact .assumed ((progress.covers_iff left right).1 covers) (ih answered)
  | case4 progress left right visits rest uncovered allowance bare ih =>
    have run := ih answered
    rw [Task.map_goal_ofGoals_append] at run
    exact .layer (fun covered => uncovered ((progress.covers_iff left right).2 covered)) bare run
  | case5 => exact absurd rfl answered
  | case6 => exact absurd rfl answered
  | case7 progress left right visits rest uncovered left' right' allowance unfolds _ _ ih =>
    exact .unfold (fun covered => uncovered ((progress.covers_iff left right).2 covered)) unfolds
      (ih answered)

/-! ## The pairs that are met -/

/-- Whether a layer asks only about parts of the two types, on the same or on swapped sides. -/
def AsksParts (comparison : Comparison) : Prop :=
  ∀ left right left' right', .compare left' right' ∈ comparison.layer left right →
    (IsPart left' left ∧ IsPart right' right) ∨ (IsPart left' right ∧ IsPart right' left)

/-- Whether a pair may be met when two types are compared: each type of the pair is reached by one
of the two. -/
def Met (left right : Ty) (pair : Ty × Ty) : Prop :=
  (left.Reaches pair.1 ∧ right.Reaches pair.2) ∨ (right.Reaches pair.1 ∧ left.Reaches pair.2)

namespace Met

variable {left right first second first' second' : Ty}

/-- The two types themselves are met. -/
theorem start (left right : Ty) : Met left right (left, right) :=
  .inl ⟨.refl, .refl⟩

/-- Unfolding a pair that may be met gives such a pair. -/
theorem unfold (met : Met left right (first, second))
    (unfolds : unfoldPair? first second = some (first', second')) :
    Met left right (first', second') := by
  rcases unfoldPair?_eq_some unfolds with ⟨name, body, rfl, rfl, rfl⟩ | ⟨name, body, rfl, rfl, rfl⟩
  · exact met.imp (And.imp_left (·.tail (.unfold name body)))
      (And.imp_left (·.tail (.unfold name body)))
  · exact met.imp (And.imp_right (·.tail (.unfold name body)))
      (And.imp_right (·.tail (.unfold name body)))

/-- The layer of a pair that may be met asks about such pairs. -/
theorem layer {comparison : Comparison} (asksParts : comparison.AsksParts)
    (met : Met left right (first, second))
    (asked : .compare first' second' ∈ comparison.layer first second) :
    Met left right (first', second') := by
  rcases asksParts first second first' second' asked with ⟨isPart, isPart'⟩ | ⟨isPart, isPart'⟩
  · exact met.imp (And.imp (·.tail (.part isPart)) (·.tail (.part isPart')))
      (And.imp (·.tail (.part isPart)) (·.tail (.part isPart')))
  · exact met.symm.imp (fun both => ⟨both.2.tail (.part isPart), both.1.tail (.part isPart')⟩)
      (fun both => ⟨both.2.tail (.part isPart), both.1.tail (.part isPart')⟩)

/-- What two types reach keeps what each step keeps of both. -/
theorem both {property : Ty → Prop} (met : Met left right (first, second))
    (keeps : ∀ type next, Leads type next → property type → property next)
    (holds : property left) (holds' : property right) : property first ∧ property second := by
  rcases met with ⟨reaches, reaches'⟩ | ⟨reaches, reaches'⟩
  · exact ⟨reaches.keeps keeps holds, reaches'.keeps keeps holds'⟩
  · exact ⟨reaches.keeps keeps holds', reaches'.keeps keeps holds⟩

end Met

/-- All pairs that may be met when two closed types are compared. -/
def pairs (left right : Ty) : List (Ty × Ty) :=
  left.nodes ×ˢ right.nodes ++ right.nodes ×ˢ left.nodes

/-- There are twice as many pairs as pairs of nodes. -/
theorem length_pairs (left right : Ty) :
    (pairs left right).length = 2 * (left.size * right.size) := by
  simp only [pairs, nodes, List.length_append, List.length_product, length_nodesUnder]
  rw [Nat.mul_comm right.size, Nat.two_mul]

/-- Every pair that may be met is listed. -/
theorem Met.mem_pairs {left right : Ty} {pair : Ty × Ty} (met : Met left right pair)
    (closed : left.isClosed = true) (closed' : right.isClosed = true) :
    pair ∈ pairs left right := by
  rw [pairs, List.mem_append, List.mem_product, List.mem_product]
  exact met.imp
    (And.imp (mem_nodes_of_reaches closed) (mem_nodes_of_reaches closed'))
    (And.imp (mem_nodes_of_reaches closed') (mem_nodes_of_reaches closed))

end Comparison

/-! ## Every unfolding uses up a pair or some of a budget -/

/-- Progress that has assumed pairs of a pool, each once. -/
structure Progress.Within (progress : Progress) (pool : List (Ty × Ty)) : Prop where
  /-- No pair is assumed twice. -/
  nodup : progress.assumptions.Nodup
  /-- Only pairs of the pool are assumed. -/
  subset : progress.assumptions ⊆ pool

namespace Progress.Within

variable {progress : Progress} {pool : List (Ty × Ty)} {left right : Ty}

/-- There are no more assumptions than pairs in the pool. -/
theorem length_le (within : progress.Within pool) :
    progress.assumptions.length ≤ pool.length :=
  (List.Nodup.subperm within.nodup within.subset).length_le

/-- A pair of the pool that is not yet assumed leaves room for it. -/
theorem length_lt (within : progress.Within pool) (fresh : (left, right) ∉ progress.assumptions)
    (inPool : (left, right) ∈ pool) : progress.assumptions.length < pool.length := by
  have larger : (left, right) :: progress.assumptions ⊆ pool :=
    List.cons_subset.2 ⟨inPool, within.subset⟩
  exact (List.Nodup.subperm (List.nodup_cons.2 ⟨fresh, within.nodup⟩) larger).length_le

/-- Assuming a pair of the pool stays within the pool. -/
theorem assume (within : progress.Within pool) (inPool : (left, right) ∈ pool) :
    (progress.assume left right).Within pool := by
  refine ⟨within.nodup.insert, ?_⟩
  intro pair isAssumed
  rcases List.mem_insert_iff.1 isAssumed with rfl | isAssumed
  · exact inPool
  · exact within.subset isAssumed

end Progress.Within

/-- Assuming a new pair adds one assumption. -/
theorem Progress.length_assume {progress : Progress} {left right : Ty}
    (fresh : (left, right) ∉ progress.assumptions) :
    (progress.assume left right).assumptions.length = progress.assumptions.length + 1 := by
  rw [Progress.assume, List.insert_of_not_mem fresh, List.length_cons]

/-- Assuming a pair drops no assumption. -/
theorem Progress.length_le_assume (progress : Progress) (left right : Ty) :
    progress.assumptions.length ≤ (progress.assume left right).assumptions.length := by
  by_cases isAssumed : (left, right) ∈ progress.assumptions
  · apply Nat.le_of_eq
    rw [Progress.assume, List.insert_of_mem isAssumed]
  · rw [Progress.length_assume isAssumed]
    omega

/-- A pair that is not covered is not assumed, when its types are alike to themselves. -/
theorem Covered.not_mem {assumptions : List (Ty × Ty)} {left right : Ty}
    (uncovered : ¬ Covered assumptions left right) (distinct : left.hasDistinctNames = true)
    (distinct' : right.hasDistinctNames = true) : (left, right) ∉ assumptions :=
  fun isAssumed => uncovered ⟨(left, right), isAssumed, alike_self distinct, alike_self distinct'⟩

namespace Goal

/-- What a goal may cost, given what pairs may cost. -/
def need (cost : Ty → Ty → Nat) : Goal → Nat
  | .compare left right => cost left right
  | .clash => 0

/-- What goals may cost together. -/
def needs (cost : Ty → Ty → Nat) : List Goal → Nat
  | [] => 0
  | goal :: goals => goal.need cost + needs cost goals

variable {cost : Ty → Ty → Nat}

@[simp]
theorem needs_nil : needs cost [] = 0 := rfl

@[simp]
theorem needs_cons (goal : Goal) (goals : List Goal) :
    needs cost (goal :: goals) = goal.need cost + needs cost goals := rfl

@[simp]
theorem needs_append (left right : List Goal) :
    needs cost (left ++ right) = needs cost left + needs cost right := by
  induction left with
  | nil => simp
  | cons goal goals ih => simp [ih, Nat.add_assoc]

/-- Goals about pairs that cost nothing cost nothing. -/
theorem needs_zero (goals : List Goal) : needs (fun _ _ => 0) goals = 0 := by
  induction goals with
  | nil => rfl
  | cons goal goals ih =>
    rw [needs_cons, ih]
    cases goal <;> rfl

/-- Goals that each cost no more by other costs do so together. -/
theorem needs_le_needs {cost' : Ty → Ty → Nat} {goals : List Goal}
    (cheaper : ∀ goal ∈ goals, goal.need cost ≤ goal.need cost') :
    needs cost goals ≤ needs cost' goals := by
  induction goals with
  | nil => exact Nat.le_refl 0
  | cons goal goals ih =>
    rw [List.forall_mem_cons] at cheaper
    exact Nat.add_le_add cheaper.1 (ih cheaper.2)

/-- A goal costs no more than all goals together. -/
theorem need_le_needs {goal : Goal} {goals : List Goal} (isGoal : goal ∈ goals) :
    goal.need cost ≤ needs cost goals := by
  induction goals with
  | nil => cases isGoal
  | cons first rest ih =>
    rw [needs_cons]
    rcases List.mem_cons.1 isGoal with rfl | isGoal
    · omega
    · have smaller := ih isGoal
      omega

end Goal

namespace Comparison

/-- Costs that cover the comparison of two types: the layer of a pair costs no more than the pair,
and so does its unfolding. The unfolding costs less unless the types of the pair are alike to
themselves, so that the assumption of the pair will be found again. -/
structure Covers (comparison : Comparison) (left right : Ty) (cost : Ty → Ty → Nat) : Prop where
  /-- A layer costs no more than its pair. -/
  layer : ∀ {first second : Ty}, Met left right (first, second) →
    unfoldPair? first second = none →
      Goal.needs cost (comparison.layer first second) ≤ cost first second
  /-- An unfolding costs no more than its pair, and less when the pair may repeat a name. -/
  unfold : ∀ {first second first' second' : Ty}, Met left right (first, second) →
    unfoldPair? first second = some (first', second') →
      cost first' second' < cost first second ∨
        cost first' second' ≤ cost first second ∧
          first.hasDistinctNames = true ∧ second.hasDistinctNames = true

/-- What holds at every step of the comparison of two types: pairs are met and assumed as they
may be, every unfolding added an assumption or was paid for, and every visit was made with fewer
assumptions than there are now or was to a pair that costs more than the goal. -/
structure Ready (left right : Ty) (cost : Ty → Ty → Nat) (tasks : List Task)
    (progress : Progress) : Prop where
  /-- Progress stays within the pairs of the two types. -/
  within : progress.Within (pairs left right)
  /-- Every goal is about a pair that may be met. -/
  met : ∀ task ∈ tasks, ∀ first second, task.goal = .compare first second →
    Met left right (first, second)
  /-- Visits lie behind. -/
  behind : ∀ task ∈ tasks, ∀ visit ∈ task.visits,
    visit.assumed < progress.assumptions.length ∨
      task.goal.need cost < cost visit.left visit.right
  /-- Unfoldings are accounted for. -/
  counted : progress.unfolded.length + Goal.needs cost (tasks.map Task.goal) ≤
    progress.assumptions.length + cost left right

namespace Ready

variable {left right first second : Ty} {cost : Ty → Ty → Nat} {visits : List Visit}
  {rest : List Task} {progress : Progress}

/-- The first task may be dropped. -/
theorem tail {task : Task} (ready : Ready left right cost (task :: rest) progress) :
    Ready left right cost rest progress := by
  have counted := ready.counted
  rw [List.map_cons, Goal.needs_cons] at counted
  exact ⟨ready.within, fun task isTask => ready.met task (.tail _ isTask),
    fun task isTask => ready.behind task (.tail _ isTask), by omega⟩

/-- The goals of a layer may take the place of a pair. -/
theorem layer {comparison : Comparison} (asksParts : comparison.AsksParts)
    (cheaper : Goal.needs cost (comparison.layer first second) ≤ cost first second)
    (ready : Ready left right cost (⟨.compare first second, visits⟩ :: rest) progress) :
    Ready left right cost (Task.ofGoals (comparison.layer first second) visits ++ rest)
      progress := by
  refine ⟨ready.within, ?_, ?_, ?_⟩
  · intro task isTask first' second' isGoal
    rcases List.mem_append.1 isTask with isNew | isTask
    · obtain ⟨goal, asked, rfl⟩ := List.mem_map.1 isNew
      obtain rfl : goal = _ := isGoal
      exact (ready.met _ (.head _) first second rfl).layer asksParts asked
    · exact ready.met task (.tail _ isTask) first' second' isGoal
  · intro task isTask visit isVisit
    rcases List.mem_append.1 isTask with isNew | isTask
    · obtain ⟨goal, asked, rfl⟩ := List.mem_map.1 isNew
      have small := Nat.le_trans (Goal.need_le_needs asked) cheaper
      exact (ready.behind _ (.head _) visit isVisit).imp_right (Nat.lt_of_le_of_lt small)
    · exact ready.behind task (.tail _ isTask) visit isVisit
  · have counted := ready.counted
    rw [Task.map_goal_ofGoals_append, Goal.needs_append]
    simp only [List.map_cons, Goal.needs_cons, Goal.need] at counted
    omega

/-- The unfolding of a pair may take its place, when the pair is assumed and the unfolding costs
less or the assumption is new. -/
theorem unfold {first' second' : Ty}
    (ready : Ready left right cost (⟨.compare first second, visits⟩ :: rest) progress)
    (closed : left.isClosed = true) (closed' : right.isClosed = true)
    (unfolds : unfoldPair? first second = some (first', second'))
    (cheaper : cost first' second' ≤ cost first second)
    (paid : cost first' second' < cost first second ∨ (first, second) ∉ progress.assumptions) :
    Ready left right cost
      (⟨.compare first' second', progress.visit first second :: visits⟩ :: rest)
      (progress.assume first second) := by
  have met := ready.met _ (.head _) first second rfl
  have more := progress.length_le_assume first second
  refine ⟨ready.within.assume (met.mem_pairs closed closed'), ?_, ?_, ?_⟩
  · intro task isTask next next' isGoal
    rcases List.mem_cons.1 isTask with rfl | isTask
    · cases isGoal
      exact met.unfold unfolds
    · exact ready.met task (.tail _ isTask) next next' isGoal
  · intro task isTask visit isVisit
    rcases List.mem_cons.1 isTask with rfl | isTask
    · rcases List.mem_cons.1 isVisit with rfl | isVisit
      · rcases paid with less | fresh
        · exact .inr less
        · rw [Progress.length_assume fresh]
          exact .inl (Nat.lt_succ_self _)
      · rcases ready.behind _ (.head _) visit isVisit with earlier | costlier
        · exact .inl (Nat.lt_of_lt_of_le earlier more)
        · exact .inr (Nat.lt_of_le_of_lt cheaper costlier)
    · rcases ready.behind task (.tail _ isTask) visit isVisit with earlier | costlier
      · exact .inl (Nat.lt_of_lt_of_le earlier more)
      · exact .inr costlier
  · have counted := ready.counted
    have longer : (progress.assume first second).unfolded.length = progress.unfolded.length + 1 :=
      rfl
    simp only [List.map_cons, Goal.needs_cons, Goal.need] at counted ⊢
    rcases paid with less | fresh
    · omega
    · have added := Progress.length_assume fresh
      omega

end Ready

/-- A comparison of closed types whose costs are covered has an answer, when its allowance is enough
for all pairs that are not yet assumed and for the costs of the goals. -/
theorem settle_ends {comparison : Comparison} (asksParts : comparison.AsksParts) {left right : Ty}
    {cost : Ty → Ty → Nat} (covers : comparison.Covers left right cost)
    (closed : left.isClosed = true) (closed' : right.isClosed = true)
    (allowance : Nat) (tasks : List Task) (progress : Progress)
    (ready : Ready left right cost tasks progress)
    (enough : (pairs left right).length + Goal.needs cost (tasks.map Task.goal) ≤
      allowance + progress.assumptions.length) :
    (comparison.settle allowance tasks progress).verdict ≠ .endless ∧
      (comparison.settle allowance tasks progress).progress.unfolded.length ≤
        (pairs left right).length + cost left right := by
  have bounded : ∀ {tasks : List Task} {progress : Progress},
      Ready left right cost tasks progress →
        progress.unfolded.length ≤ (pairs left right).length + cost left right := by
    intro tasks progress ready
    have counted := ready.counted
    have room := ready.within.length_le
    omega
  have paid : ∀ {first second first' second' : Ty} {progress : Progress},
      Met left right (first, second) → ¬ progress.covers first second = true →
        unfoldPair? first second = some (first', second') →
          cost first' second' ≤ cost first second ∧
            (cost first' second' < cost first second ∨
              (first, second) ∉ progress.assumptions) := by
    intro first second first' second' progress met uncovered unfolds
    rw [progress.covers_iff] at uncovered
    rcases covers.unfold met unfolds with less | ⟨cheaper, distinct, distinct'⟩
    · exact ⟨Nat.le_of_lt less, .inl less⟩
    · exact ⟨cheaper, .inr (Covered.not_mem uncovered distinct distinct')⟩
  fun_induction comparison.settle allowance tasks progress with
  | case1 => exact ⟨by simp, bounded ready⟩
  | case2 => exact ⟨by simp, bounded ready⟩
  | case3 allowance progress first second visits rest covers ih =>
    rw [List.map_cons, Goal.needs_cons] at enough
    exact ih ready.tail (by omega)
  | case4 progress first second visits rest uncovered allowance bare ih =>
    have cheaper := covers.layer (ready.met _ (.head _) first second rfl) bare
    apply ih (ready.layer asksParts cheaper)
    rw [Task.map_goal_ofGoals_append, Goal.needs_append]
    simp only [List.map_cons, Goal.needs_cons, Goal.need] at enough
    omega
  | case5 progress first second visits rest uncovered pair unfolds =>
    have met := ready.met _ (.head _) first second rfl
    simp only [List.map_cons, Goal.needs_cons, Goal.need] at enough
    rcases (paid met uncovered unfolds).2 with less | fresh
    · have room := ready.within.length_le
      omega
    · have room := ready.within.length_lt fresh (met.mem_pairs closed closed')
      omega
  | case6 progress first second visits rest uncovered first' second' allowance unfolds visit seen =>
    rcases ready.behind _ (.head _) _ seen with earlier | costlier
    · exact absurd earlier (Nat.lt_irrefl _)
    · exact absurd costlier (Nat.lt_irrefl _)
  | case7 progress first second visits rest uncovered first' second' allowance unfolds _ _ ih =>
    obtain ⟨cheaper, paid⟩ := paid (ready.met _ (.head _) first second rfl) uncovered unfolds
    apply ih (ready.unfold closed closed' unfolds cheaper paid)
    simp only [List.map_cons, Goal.needs_cons, Goal.need] at enough ⊢
    rcases paid with less | fresh
    · have more := progress.length_le_assume first second
      omega
    · have added := Progress.length_assume fresh
      omega

/-- The allowance of a comparison is enough for all pairs of nodes, in either order, twice over. -/
theorem four_mul_size_le_allowance (left right : Ty) :
    4 * (left.size * right.size) ≤ allowance left right := by
  have positive := left.size_pos
  have small : left.size * right.size ≤ 2 ^ (left.size + right.size) := by
    rw [Nat.pow_add]
    exact Nat.mul_le_mul (Nat.le_of_lt Nat.lt_two_pow_self) (Nat.le_of_lt Nat.lt_two_pow_self)
  calc
    4 * (left.size * right.size) ≤ 4 * 2 ^ (left.size + right.size) :=
      Nat.mul_le_mul_left 4 small
    _ = 2 ^ (left.size + right.size + 2) := by rw [Nat.pow_add _ _ 2, Nat.mul_comm]
    _ ≤ 2 ^ (4 * (left.size + right.size)) := Nat.pow_le_pow_right (by decide) (by omega)
    _ = allowance left right := (Nat.one_shiftLeft _).symm

/-- A comparison of closed types whose costs are covered gives an answer, when its allowance is
enough for all pairs and for the cost of the two types. -/
theorem judge_ends_of_covers {comparison : Comparison} (asksParts : comparison.AsksParts)
    {left right : Ty} {cost : Ty → Ty → Nat} (covers : comparison.Covers left right cost)
    (closed : left.isClosed = true) (closed' : right.isClosed = true)
    (enough : 2 * (left.size * right.size) + cost left right ≤ allowance left right) :
    (comparison.judge left right).verdict ≠ .endless ∧
      (comparison.judge left right).progress.unfolded.length ≤
        2 * (left.size * right.size) + cost left right := by
  have ready : Ready left right cost [⟨.compare left right, []⟩] {} := by
    refine ⟨⟨List.nodup_nil, List.nil_subset _⟩, ?_, ?_, ?_⟩
    · intro task isTask first second isGoal
      cases List.mem_singleton.1 isTask
      cases isGoal
      exact .start left right
    · intro task isTask visit isVisit
      cases List.mem_singleton.1 isTask
      cases isVisit
    · simp [Goal.need]
  rw [← length_pairs] at enough ⊢
  apply settle_ends asksParts covers closed closed' _ _ _ ready
  simpa [Goal.need] using enough

/-- Comparing closed types without repeated property names gives an answer, after no more unfoldings
than twice the number of pairs of nodes. -/
theorem judge_ends {comparison : Comparison} (asksParts : comparison.AsksParts) {left right : Ty}
    (closed : left.isClosed = true) (closed' : right.isClosed = true)
    (distinct : left.hasDistinctNames = true) (distinct' : right.hasDistinctNames = true) :
    (comparison.judge left right).verdict ≠ .endless ∧
      (comparison.judge left right).progress.unfolded.length ≤
        2 * (left.size * right.size) := by
  -- No pair repeats a name, so every unfolding adds an assumption and none has to be paid for.
  have covers : comparison.Covers left right fun _ _ => 0 := by
    refine ⟨fun _ _ => Nat.le_of_eq (Goal.needs_zero _), fun met _ => .inr ⟨Nat.le_refl 0, ?_⟩⟩
    exact met.both (fun _ _ leads => leads.hasDistinctNames) distinct distinct'
  have enough := four_mul_size_le_allowance left right
  exact judge_ends_of_covers asksParts covers closed closed' (by omega)

/-- The answer of a comparison of closed types without repeated property names is that of a run
which starts without assumptions. -/
theorem settles_relates {comparison : Comparison} (asksParts : comparison.AsksParts)
    {left right : Ty} (closed : left.isClosed = true) (closed' : right.isClosed = true)
    (distinct : left.hasDistinctNames = true) (distinct' : right.hasDistinctNames = true) :
    ∃ final, comparison.Settles [.compare left right] [] (comparison.relates left right) final :=
  ⟨_, settles_of_settle comparison _ _ _
    (judge_ends asksParts closed closed' distinct distinct').1⟩

end Comparison

/-! ## Equality and subtyping -/

/-- Goals by place compare a parameter of the first list with one of the second. -/
theorem Goal.mem_byPlace {left right : List (String × Ty)} {type type' : Ty}
    (asked : .compare type type' ∈ Goal.byPlace left right) :
    (∃ member ∈ left, member.2 = type) ∧ ∃ member ∈ right, member.2 = type' := by
  induction left generalizing right with
  | nil => simp [Goal.byPlace] at asked
  | cons member left ih =>
    cases right with
    | nil => simp [Goal.byPlace] at asked
    | cons member' right =>
      rw [Goal.byPlace, List.zipWith_cons_cons, List.mem_cons] at asked
      rcases asked with same | later
      · cases same
        exact ⟨⟨member, .head _, rfl⟩, member', .head _, rfl⟩
      · obtain ⟨⟨first, isFirst, same⟩, second, isSecond, same'⟩ := ih later
        exact ⟨⟨first, .tail _ isFirst, same⟩, second, .tail _ isSecond, same'⟩

/-- Goals by name are about a property of the first list and one of the second. -/
theorem Goal.mem_byName {goal : Ty → Ty → Goal} {wanted offered : List (String × Ty)}
    {type type' : Ty} (asked : .compare type type' ∈ Goal.byName goal wanted offered) :
    ∃ member ∈ wanted, ∃ member' ∈ offered, .compare type type' = goal member.2 member'.2 := by
  obtain ⟨member, isMember, same⟩ := List.mem_map.1 asked
  cases found : offered.lookup member.1 with
  | none => simp [found] at same
  | some type' =>
    rw [found] at same
    exact ⟨member, isMember, (member.1, type'), Members.mem_of_lookup found, same.symm⟩

namespace Comparison

/-- Equality asks about parts. -/
theorem equality_asksParts : equality.AsksParts := by
  intro left right left' right' asked
  refine .inl ?_
  change _ ∈ equalityLayer left right at asked
  unfold equalityLayer at asked
  split at asked
  · cases asked
  · cases asked
  · split at asked
    · rcases List.mem_append.1 asked with inParameters | inResult
      · obtain ⟨⟨member, isMember, rfl⟩, member', isMember', rfl⟩ := Goal.mem_byPlace inParameters
        exact ⟨.parameter isMember, .parameter isMember'⟩
      · cases List.mem_singleton.1 inResult
        exact ⟨.result, .result⟩
    · simp at asked
  · split at asked
    · obtain ⟨member, isMember, member', isMember', same⟩ := Goal.mem_byName asked
      cases same
      exact ⟨.property isMember, .property isMember'⟩
    · simp at asked
  · simp at asked

/-- Subtyping asks about parts. -/
theorem subtyping_asksParts : subtyping.AsksParts := by
  intro left right left' right' asked
  change _ ∈ subtypingLayer left right at asked
  unfold subtypingLayer at asked
  split at asked
  · cases asked
  · cases asked
  · split at asked
    · rcases List.mem_cons.1 asked with isResult | inParameters
      · cases isResult
        exact .inl ⟨.result, .result⟩
      · obtain ⟨⟨member, isMember, rfl⟩, member', isMember', rfl⟩ := Goal.mem_byPlace inParameters
        exact .inr ⟨.parameter isMember, .parameter isMember'⟩
    · simp at asked
  · obtain ⟨member, isMember, member', isMember', same⟩ := Goal.mem_byName asked
    cases same
    exact .inl ⟨.property isMember', .property isMember⟩
  · simp at asked

/-- A comparison of two types that ends. -/
structure Ends (comparison : Comparison) (left right : Ty) : Prop where
  /-- The run that starts without assumptions has an end. -/
  run : ∃ answer final, comparison.Settles [.compare left right] [] answer final
  /-- The comparison answers: neither its allowance nor its look-out for rounds cuts it short. -/
  answered : (comparison.judge left right).verdict ≠ .endless
  /-- It unfolds no more often than there are pairs of nodes, in either order. -/
  unfoldings : (comparison.judge left right).progress.unfolded.length ≤
    2 * (left.size * right.size)

/-- Equality and subtyping of closed types without repeated property names end, whether the types
have a first layer or not. -/
theorem equality_and_subtyping_end {left right : Ty} (closed : left.isClosed = true)
    (closed' : right.isClosed = true) (distinct : left.hasDistinctNames = true)
    (distinct' : right.hasDistinctNames = true) :
    equality.Ends left right ∧ subtyping.Ends left right := by
  have ends : ∀ comparison : Comparison, comparison.AsksParts → comparison.Ends left right := by
    intro comparison asksParts
    obtain ⟨final, run⟩ := settles_relates asksParts closed closed' distinct distinct'
    obtain ⟨answered, unfoldings⟩ := judge_ends asksParts closed closed' distinct distinct'
    exact ⟨⟨_, final, run⟩, answered, unfoldings⟩
  exact ⟨ends equality equality_asksParts, ends subtyping subtyping_asksParts⟩

/-- A chain of binders that goes round is compared with a function that takes and returns itself
under a shadowing binder. -/
theorem equality_and_subtyping_end_round :
    equality.Ends (.mu "X" (.mu "Y" (.var "X")))
        (.mu "F" (.function [("f", .var "F")] (.mu "F" (.object [("next", .var "F")])))) ∧
      subtyping.Ends (.mu "X" (.mu "Y" (.var "X")))
        (.mu "F" (.function [("f", .var "F")] (.mu "F" (.object [("next", .var "F")])))) :=
  equality_and_subtyping_end (by decide) (by decide) (by decide) (by decide)

end Comparison

end Equirec
