import Equirec.Proofs.Settling

/-!
# Rounds are never settled

While a comparison works through its goals it looks out for a goal that has led back to itself
without a new assumption, and gives up there. It is right to do so: the goal has no run at all
(`Comparison.Led.not_settles`), with or without an allowance.

A goal asks for another one when it cannot be settled unless the other is settled in its turn. What
a goal with a run asks for has a run inside that run, so no goal with a run asks for itself, through
however many others (`Comparison.Settles.acc`). The visits of a task are goals that ask for the goal
of the task.
-/
namespace Equirec

/-- The goals of tasks are those that they were made of. -/
theorem Task.map_goal_ofGoals (goals : List Goal) (visits : List Visit) :
    (Task.ofGoals goals visits).map Task.goal = goals := by
  simp [Task.ofGoals, Function.comp_def]

namespace Comparison

variable {comparison : Comparison} {goals : List Goal} {assumptions final : List (Ty × Ty)}
  {answer : Bool}

/-- A pair is assumed in front of the others, unless it is assumed already. -/
theorem suffix_insert (pair : Ty × Ty) (assumptions : List (Ty × Ty)) :
    assumptions <:+ assumptions.insert pair := by
  unfold List.insert
  split
  · exact List.suffix_rfl
  · exact List.suffix_cons _ _

/-- A run only adds assumptions, in front. -/
theorem Settles.suffix (run : comparison.Settles goals assumptions answer final) :
    assumptions <:+ final := by
  induction run with
  | done => exact List.suffix_rfl
  | clash => exact List.suffix_rfl
  | assumed _ _ ih => exact ih
  | unfold _ _ _ ih => exact (suffix_insert _ _).trans ih
  | layer _ _ _ ih => exact ih

/-- Whether the first goal, when its turn comes under its assumptions, is asked for by the second,
when its turn comes under its own. -/
inductive AskedBy (comparison : Comparison) :
    Goal × List (Ty × Ty) → Goal × List (Ty × Ty) → Prop where
  /-- A pair that is unfolded asks for the unfolded pair. -/
  | unfold {left right left' right' : Ty} {assumptions : List (Ty × Ty)}
    (uncovered : ¬ Covered assumptions left right)
    (unfolds : unfoldPair? left right = some (left', right')) :
    AskedBy comparison (.compare left' right', assumptions.insert (left, right))
      (.compare left right, assumptions)
  /-- Any other pair asks for a goal of its layer when the goals before it are settled. -/
  | layer {left right : Ty} {goal : Goal} {earlier later : List Goal}
    {assumptions middle : List (Ty × Ty)} (uncovered : ¬ Covered assumptions left right)
    (bare : unfoldPair? left right = none)
    (asked : comparison.layer left right = earlier ++ goal :: later)
    (settled : comparison.Settles earlier assumptions true middle) :
    AskedBy comparison (goal, middle) (.compare left right, assumptions)

/-- A goal whose turn comes in a run does not ask for goals without end. -/
theorem Settles.acc (run : comparison.Settles goals assumptions answer final)
    {earlier later : List Goal} {goal : Goal} {middle : List (Ty × Ty)}
    (split : goals = earlier ++ goal :: later)
    (settled : comparison.Settles earlier assumptions true middle) :
    Acc comparison.AskedBy (goal, middle) := by
  -- Along the run the goals before the goal are settled as they are by themselves. When its turn
  -- has come, the run goes on with the goals that it asks for.
  induction run generalizing earlier later goal middle with
  | done => simp at split
  | clash =>
    cases settled with
    | done =>
      cases split
      refine Acc.intro _ ?_
      rintro _ ⟨⟩
    | _ => cases split
  | assumed covered _ ih =>
    cases settled with
    | done =>
      cases split
      refine Acc.intro _ ?_
      rintro _ (⟨uncovered, _⟩ | ⟨uncovered, _⟩) <;> exact absurd covered uncovered
    | assumed _ settled =>
      cases split
      exact ih rfl settled
    | unfold uncovered =>
      cases split
      exact absurd covered uncovered
    | layer uncovered =>
      cases split
      exact absurd covered uncovered
  | unfold uncovered unfolds _ ih =>
    cases settled with
    | done =>
      cases split
      refine Acc.intro _ ?_
      rintro _ (⟨_, unfolds'⟩ | ⟨_, bare, _⟩)
      · cases unfolds.symm.trans unfolds'
        exact ih rfl .done
      · cases unfolds.symm.trans bare
    | assumed covered =>
      cases split
      exact absurd covered uncovered
    | unfold _ unfolds' settled =>
      cases split
      cases unfolds.symm.trans unfolds'
      exact ih rfl settled
    | layer _ bare =>
      cases split
      cases unfolds.symm.trans bare
  | layer uncovered bare _ ih =>
    cases settled with
    | done =>
      cases split
      refine Acc.intro _ ?_
      rintro _ (⟨_, unfolds⟩ | ⟨_, _, asked, settled⟩)
      · cases bare.symm.trans unfolds
      · rw [asked, List.append_assoc, List.cons_append] at ih
        exact ih rfl settled
    | assumed covered =>
      cases split
      exact absurd covered uncovered
    | unfold _ unfolds =>
      cases split
      cases bare.symm.trans unfolds
    | layer _ _ settled =>
      cases split
      exact ih (List.append_assoc _ _ _).symm settled

/-- A goal with a run does not ask for itself. -/
theorem Settles.not_asks_itself (run : comparison.Settles goals assumptions answer final)
    {goal : Goal} {later : List Goal} (first : goals = goal :: later) :
    ¬ Relation.TransGen comparison.AskedBy (goal, assumptions) (goal, assumptions) := by
  have split : goals = [] ++ goal :: later := first
  have accessible := (run.acc split .done).transGen
  generalize (goal, assumptions) = turn at accessible
  induction accessible with
  | intro turn _ ih =>
    intro round
    exact ih turn round round

/-! ## The visits of tasks -/

/-- Whether every visit of a task asks for the goal of the task, when its turn comes, and was made
under assumptions that are still there. -/
def Led (comparison : Comparison) (tasks : List Task) (assumptions : List (Ty × Ty)) : Prop :=
  ∀ (earlier : List Task) (task : Task) (later : List Task) (middle : List (Ty × Ty)),
    tasks = earlier ++ task :: later →
      comparison.Settles (earlier.map Task.goal) assumptions true middle →
        ∀ visit ∈ task.visits, ∃ before, before.length = visit.assumed ∧ before <:+ middle ∧
          Relation.TransGen comparison.AskedBy (task.goal, middle)
            (.compare visit.left visit.right, before)

namespace Led

variable {left right left' right' : Ty} {visits : List Visit} {rest : List Task}

/-- In the beginning there are no visits. -/
theorem start (goal : Goal) : comparison.Led [⟨goal, []⟩] assumptions := by
  intro earlier task later middle split _ visit isVisit
  obtain _ | ⟨_, earlier⟩ := earlier
  · cases split
    cases isVisit
  · simp at split

/-- The visits of the first task ask for its goal now. -/
theorem first {goal : Goal} (led : comparison.Led (⟨goal, visits⟩ :: rest) assumptions) :
    ∀ visit ∈ visits, ∃ before, before.length = visit.assumed ∧ before <:+ assumptions ∧
      Relation.TransGen comparison.AskedBy (goal, assumptions)
        (.compare visit.left visit.right, before) :=
  led [] ⟨goal, visits⟩ rest assumptions rfl .done

/-- A pair that is assumed needs no work. -/
theorem assumed (led : comparison.Led (⟨.compare left right, visits⟩ :: rest) assumptions)
    (covered : Covered assumptions left right) : comparison.Led rest assumptions := by
  rintro earlier task later middle rfl settled
  exact led (_ :: earlier) task later middle rfl (.assumed covered settled)

/-- A pair goes on with its layer. -/
theorem layer (led : comparison.Led (⟨.compare left right, visits⟩ :: rest) assumptions)
    (uncovered : ¬ Covered assumptions left right) (bare : unfoldPair? left right = none) :
    comparison.Led (Task.ofGoals (comparison.layer left right) visits ++ rest) assumptions := by
  intro earlier task later middle split settled
  obtain ⟨more, rfl, rfl⟩ | ⟨more, asked, split⟩ := List.append_eq_append_iff.1 split
  · -- The task comes after those of the layer, which are settled as the pair is.
    rw [Task.map_goal_ofGoals_append] at settled
    exact led (_ :: more) task later middle rfl (.layer uncovered bare settled)
  · obtain _ | ⟨_, more⟩ := more
    · cases split
      rw [List.append_nil] at asked
      rw [← asked, Task.map_goal_ofGoals, ← List.append_nil (comparison.layer left right)]
        at settled
      exact led [_] task later middle rfl (.layer uncovered bare settled)
    · -- The task is one of the layer, which the pair asks for.
      cases split
      have goals := congrArg (List.map Task.goal) asked
      rw [Task.map_goal_ofGoals, List.map_append, List.map_cons] at goals
      have isTask : task ∈ Task.ofGoals (comparison.layer left right) visits := by
        rw [asked]
        exact List.mem_append_right _ List.mem_cons_self
      obtain ⟨goal, _, rfl⟩ := List.mem_map.1 isTask
      intro visit isVisit
      obtain ⟨before, assumed, suffix, asks⟩ := led.first visit isVisit
      exact ⟨before, assumed, suffix.trans settled.suffix,
        .head (.layer uncovered bare goals settled) asks⟩

/-- A pair goes on unfolded, with one more visit. -/
theorem unfold (led : comparison.Led (⟨.compare left right, visits⟩ :: rest) assumptions)
    (uncovered : ¬ Covered assumptions left right)
    (unfolds : unfoldPair? left right = some (left', right')) :
    comparison.Led
      (⟨.compare left' right', ⟨assumptions.length, left, right⟩ :: visits⟩ :: rest)
      (assumptions.insert (left, right)) := by
  have asked : comparison.AskedBy (.compare left' right', assumptions.insert (left, right))
      (.compare left right, assumptions) := .unfold uncovered unfolds
  intro earlier task later middle split settled
  obtain _ | ⟨_, earlier⟩ := earlier
  · cases split
    cases settled
    rw [List.forall_mem_cons]
    refine ⟨⟨assumptions, rfl, suffix_insert _ _, .single asked⟩, ?_⟩
    intro visit isVisit
    obtain ⟨before, assumed, suffix, asks⟩ := led.first visit isVisit
    exact ⟨before, assumed, suffix.trans (suffix_insert _ _), .head asked asks⟩
  · cases split
    exact led (_ :: earlier) task later middle rfl (.unfold uncovered unfolds settled)

/-- A goal that has led back to itself without a new assumption has no run. -/
theorem not_settles (led : comparison.Led (⟨.compare left right, visits⟩ :: rest) assumptions)
    (visited : ⟨assumptions.length, left, right⟩ ∈ visits) :
    ¬ comparison.Settles (.compare left right :: rest.map Task.goal) assumptions answer final := by
  intro run
  obtain ⟨before, assumed, suffix, asks⟩ := led.first _ visited
  obtain rfl := suffix.eq_of_length assumed
  exact run.not_asks_itself rfl asks

end Led

end Comparison

end Equirec
