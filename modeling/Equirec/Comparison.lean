import Equirec.Ty.Alpha
import Equirec.Ty.Substitution

/-!
# Comparing recursive types

Recursive types are compared as the infinite trees that they denote. A comparison is given by one
layer: what two types that are not recursive at the top still have to satisfy. `Comparison.settle`
works through a list of goals and assumes every pair of types of which it has unfolded one, so that
meeting the pair again, up to the names of binders, needs no further work. The assumptions are
shared by all goals and never taken back: the first goal that fails ends the whole comparison.

An object that repeats a property name need not be alike to itself, and then the assumption of a
pair does not help when the pair is met again. Such a pair is compared anew each time, which may be
exponentially often, and it may be met for ever. What a goal leads to depends only on its types and
on which pairs are assumed. So a goal that leads back to itself while no assumption is added can
never be settled, and the comparison says so. To see it, every goal carries the unfoldings that led
to it.
-/
namespace Equirec

/-- Something that a comparison still has to settle. -/
inductive Goal where
  /-- The first type has to be related to the second. -/
  | compare (left right : Ty)
  /-- A mismatch, which fails the comparison once it is reached. -/
  | clash
  deriving DecidableEq

namespace Goal

/-- The number of pairs of nodes in a goal. -/
def weight : Goal → Nat
  | .compare left right => left.size * right.size
  | .clash => 0

/-- The number of pairs of nodes in all goals together. -/
def weights : List Goal → Nat
  | [] => 0
  | goal :: goals => goal.weight + weights goals

@[simp]
theorem weights_nil : weights [] = 0 := rfl

@[simp]
theorem weights_cons (goal : Goal) (goals : List Goal) :
    weights (goal :: goals) = goal.weight + weights goals := rfl

@[simp]
theorem weights_append (left right : List Goal) :
    weights (left ++ right) = weights left + weights right := by
  induction left with
  | nil => simp
  | cons goal goals ih => simp [ih, Nat.add_assoc]

/-- A goal that compares types has at least the pair of their roots. -/
theorem weight_compare_pos (left right : Ty) : 0 < (compare left right).weight :=
  Nat.mul_pos left.size_pos right.size_pos

end Goal

/-- A way to compare types, given by its layer. -/
structure Comparison where
  /-- What two types that are not recursive at the top still have to satisfy, in the order in which
  it is looked at. -/
  layer : Ty → Ty → List Goal
  /-- A layer only asks about parts of the two types. -/
  shrinks : ∀ left right, Goal.weights (layer left right) < left.size * right.size

/-- What a comparison comes to. -/
inductive Verdict where
  /-- The types are related. -/
  | holds
  /-- The types are not related. -/
  | fails
  /-- The comparison goes round, or has used up its allowance, and has no answer. -/
  | endless
  deriving DecidableEq

/-- The unfolding of one type of a pair. -/
structure Visit where
  /-- How many pairs were assumed before. -/
  assumed : Nat
  /-- The first type of the pair. -/
  left : Ty
  /-- The second type of the pair. -/
  right : Ty
  deriving DecidableEq

/-- A goal and the unfoldings that led to it, latest first. -/
structure Task where
  /-- The goal. -/
  goal : Goal
  /-- The unfoldings. -/
  visits : List Visit := []
  deriving DecidableEq

namespace Task

/-- The tasks for goals that the same unfoldings led to. -/
def ofGoals (goals : List Goal) (visits : List Visit) : List Task :=
  goals.map (⟨·, visits⟩)

/-- The number of pairs of nodes in the goals of all tasks together. -/
def weights (tasks : List Task) : Nat :=
  Goal.weights (tasks.map goal)

@[simp]
theorem weights_cons (task : Task) (tasks : List Task) :
    weights (task :: tasks) = task.goal.weight + weights tasks := rfl

/-- Tasks weigh what their goals weigh, whatever led to them. -/
@[simp]
theorem weights_ofGoals_append (goals : List Goal) (visits : List Visit) (tasks : List Task) :
    weights (ofGoals goals visits ++ tasks) = Goal.weights goals + weights tasks := by
  simp [weights, ofGoals, Function.comp_def]

end Task

/-- What a comparison has done so far. -/
structure Progress where
  /-- The pairs that are assumed, each of them once, latest first. -/
  assumptions : List (Ty × Ty) := []
  /-- The pairs of which a type was unfolded, as often as that happened, latest first. -/
  unfolded : List (Ty × Ty) := []
  deriving DecidableEq

namespace Progress

/-- Whether a pair is alike to one of the assumptions. -/
def covers (progress : Progress) (left right : Ty) : Bool :=
  progress.assumptions.any fun assumption => left.alike assumption.1 && right.alike assumption.2

/-- The visit to a pair that is about to be unfolded. -/
def visit (progress : Progress) (left right : Ty) : Visit :=
  ⟨progress.assumptions.length, left, right⟩

/-- The progress after a pair has been unfolded, which is assumed from then on. -/
def assume (progress : Progress) (left right : Ty) : Progress :=
  { assumptions := progress.assumptions.insert (left, right)
    unfolded := (left, right) :: progress.unfolded }

end Progress

/-- The end of a comparison. -/
structure Decision where
  /-- The answer. -/
  verdict : Verdict
  /-- What was done to find it. -/
  progress : Progress
  deriving DecidableEq

/-- One unfolding of a recursive type. -/
structure Unfolding where
  /-- The recursive type. -/
  before : Ty
  /-- The same type unfolded once. -/
  after : Ty
  deriving DecidableEq

namespace Comparison

/-- A pair with its first recursive type unfolded, if one of the two is recursive at the top. -/
def unfoldPair? : Ty → Ty → Option (Ty × Ty)
  | .mu name body, right => some (Ty.unfolded name body, right)
  | left, .mu name body => some (left, Ty.unfolded name body)
  | _, _ => none

/-- Settles tasks in order, with the progress made so far. -/
def settle (comparison : Comparison) (allowance : Nat) (tasks : List Task)
    (progress : Progress) : Decision :=
  match tasks with
  | [] => ⟨.holds, progress⟩
  | ⟨.clash, _⟩ :: _ => ⟨.fails, progress⟩
  | ⟨.compare left right, visits⟩ :: rest =>
    if progress.covers left right then comparison.settle allowance rest progress
    else
      match unfoldPair? left right, allowance with
      | none, allowance =>
        comparison.settle allowance (Task.ofGoals (comparison.layer left right) visits ++ rest)
          progress
      | some _, 0 => ⟨.endless, progress⟩
      | some (left', right'), allowance + 1 =>
        let visit := progress.visit left right
        if visit ∈ visits then ⟨.endless, progress⟩
        else
          comparison.settle allowance (⟨.compare left' right', visit :: visits⟩ :: rest)
            (progress.assume left right)
termination_by (allowance, Task.weights tasks)
decreasing_by
  · have positive := Goal.weight_compare_pos left right
    apply Prod.Lex.right
    simp only [Task.weights_cons]
    omega
  · have smaller := comparison.shrinks left right
    apply Prod.Lex.right
    simp only [Task.weights_cons, Task.weights_ofGoals_append, Goal.weight]
    omega
  · exact Prod.Lex.left _ _ (Nat.lt_succ_self _)

/-- How many unfoldings a comparison of two types may take. A closed type reaches no more types
than it has nodes, so without repeated property names there are fewer unfoldings than pairs of
nodes. Repeated names multiply them from layer to layer, which is why the allowance
has the sizes in its exponent. -/
def allowance (left right : Ty) : Nat :=
  1 <<< (4 * (left.size + right.size))

/-- Compares two types, starting without assumptions. -/
def judge (comparison : Comparison) (left right : Ty) : Decision :=
  comparison.settle (allowance left right) [⟨.compare left right, []⟩] {}

/-- Whether a comparison finds two types related. -/
def relates (comparison : Comparison) (left right : Ty) : Bool :=
  (comparison.judge left right).verdict == .holds

end Comparison

/-- The unfolding of a pair: of its first type that is recursive at the top. -/
def Unfolding.ofPair? : Ty × Ty → Option Unfolding
  | (left, right) =>
    match left.unfolding?, right.unfolding? with
    | some after, _ => some ⟨left, after⟩
    | none, some after => some ⟨right, after⟩
    | none, none => none

/-- The unfoldings of a comparison, in the order in which they were made. -/
def Decision.unfoldings (decision : Decision) : List Unfolding :=
  decision.progress.unfolded.reverse.filterMap Unfolding.ofPair?

end Equirec
