import Equirec.Proofs.Confinement
import Equirec.Proofs.Typing

/-!
# The checker makes well-formed types

A check of a well-formed program only ever handles well-formed types, whatever the language and the
switches: the type that it gives is well-formed, and so are the environment that it leaves and all
types that a fault speaks of. A fault that finds no function or no object shows the first layer of a
type, which is neither a recursive type nor a variable.
-/
namespace Equirec

/-! ## First layers -/

namespace Ty

/-- A closed type is not a variable. -/
theorem ne_var_of_isClosed {type : Ty} (closed : type.isClosed = true) (name : String) :
    type ≠ .var name := by
  rintro rfl
  simp [isClosed, isClosedUnder] at closed

/-- The first layer of a well-formed type is neither a recursive type nor a variable. -/
theorem WellFormed.simplify_ne {type : Ty} (wellFormed : type.WellFormed) :
    (∀ name body, type.simplify ≠ .mu name body) ∧ ∀ name, type.simplify ≠ .var name := by
  refine ⟨?_, ne_var_of_isClosed wellFormed.simplify.closed⟩
  intro name body recursive
  have bare := (exposes_simplify wellFormed).bare
  rw [recursive] at bare
  cases bare

end Ty

/-! ## Well-formed programs -/

namespace Term

/-- A term is well-formed exactly when its own annotations are, its own property names are distinct
and its parts are well-formed. -/
theorem isWellFormed_iff_parts (term : Term) :
    term.isWellFormed = true ↔ (∀ type ∈ term.ownAnnotations, type.WellFormed) ∧
      (∀ literal ∈ term.ownLiterals, literal.Nodup) ∧
      ∀ part ∈ term.parts, part.isWellFormed = true := by
  cases term with
  | function span parameters declared body =>
    simp only [isWellFormed, ownAnnotations, ownLiterals, parts, Bool.and_eq_true,
      List.forall_mem_append, List.forall_mem_map, List.forall_mem_singleton, List.all_eq_true,
      decide_eq_true_eq, Option.all_eq_true, Option.mem_toList, List.not_mem_nil, false_imp_iff,
      implies_true, true_and]
  | object span properties =>
    simp only [isWellFormed, ownAnnotations, ownLiterals, parts, isWellFormedIn_eq_all,
      Bool.and_eq_true, List.forall_mem_map, List.forall_mem_singleton, List.all_eq_true,
      decide_eq_true_eq, List.not_mem_nil, false_imp_iff, implies_true, true_and]
  | declaration span name parameters declared body rest =>
    simp only [isWellFormed, ownAnnotations, ownLiterals, parts, Bool.and_eq_true,
      List.forall_mem_append, List.forall_mem_map, List.forall_mem_singleton,
      List.forall_mem_cons, List.all_eq_true, decide_eq_true_eq, List.not_mem_nil, false_imp_iff,
      implies_true, true_and, and_assoc]
  | _ => simp [isWellFormed, ownAnnotations, ownLiterals, parts, and_assoc]

/-- A term is well-formed exactly when all its annotations are and the property names of each of its
object literals are distinct. -/
theorem isWellFormed_iff (term : Term) :
    term.isWellFormed = true ↔
      (∀ type ∈ term.annotations, type.WellFormed) ∧ ∀ literal ∈ term.literals, literal.Nodup := by
  induction term using induction_parts with
  | step term ih =>
    rw [isWellFormed_iff_parts, annotations_eq_append, literals_eq_append, List.forall_mem_append,
      List.forall_mem_append, List.forall_mem_flatMap, List.forall_mem_flatMap, forall₂_congr ih]
    simp only [forall_and]
    tauto

end Term

/-! ## Checks -/

/-- Whether a check stops with a fault that speaks of well-formed types only, and shows first layers
that are neither recursive types nor variables. -/
def Stop.SpeaksWell (stop : Stop Fault) : Prop :=
  ∃ fault, stop = .fault fault ∧ (∀ type ∈ fault.cause.types, type.WellFormed) ∧
    ∀ layer ∈ fault.cause.layers,
      (∀ name body, layer ≠ .mu name body) ∧ ∀ name, layer ≠ .var name

/-- A check of a well-formed program does not leave the well-formed types. All its comparisons come
to an answer, so it stops for faults only. -/
theorem Ty.WellFormed.confinement : Confinement Ty.WellFormed List.Nodup Stop.SpeaksWell where
  number := by decide
  boolean := by decide
  function := .function
  object := .object
  part isPart wellFormed := wellFormed.part isPart
  unfolded := .unfolded
  fault := by
    intro fault types layers
    refine ⟨fault, rfl, types, ?_⟩
    intro layer isShown
    obtain ⟨type, wellFormed, rfl⟩ := layers layer isShown
    exact wellFormed.simplify_ne
  endless := by
    intro comparison left right isChecked wellFormed wellFormed' endless
    have ends := Comparison.judge_ends isChecked.asksParts wellFormed.closed wellFormed'.closed
      wellFormed.distinct wellFormed'.distinct
    exact absurd endless ends.1

namespace Checker

/-- Checking a well-formed term in a well-formed environment gives a well-formed type and leaves a
well-formed environment, or it stops with a fault that speaks well. -/
theorem confined_wellFormed (checker : Checker) {term : Term}
    (wellFormed : term.isWellFormed = true) :
    checker.Confined Ty.WellFormed Stop.SpeaksWell term := by
  rw [Term.isWellFormed_iff] at wellFormed
  have annotated : ∀ type ∈ term.annotations, checker.Admits type → type.WellFormed :=
    fun type isMember _ => wellFormed.1 type isMember
  exact (confined Ty.WellFormed.confinement term annotated fun literal isMember _ =>
    wellFormed.2 literal isMember).1

/-- In every language and with all switches, the check of a well-formed term in a well-formed
environment gives a well-formed type, and leaves a well-formed environment, or it ends with a fault
that speaks of well-formed types only. Where a function or an object is missed, the fault carries
neither a recursive type nor a variable. -/
theorem typeOf_wellFormed (checker : Checker) {term : Term} (wellFormed : term.isWellFormed = true)
    {environment : Environment} (formed : environment.WellFormed) :
    (∃ type, (checker.typeOf term environment).result = .ok type ∧ type.WellFormed ∧
        (checker.typeOf term environment).environment.WellFormed) ∨
      ∃ fault, (checker.typeOf term environment).result = .error (.fault fault) ∧
        (∀ type ∈ fault.cause.types, type.WellFormed) ∧
        ∀ received, fault.cause = .functionExpected received ∨
            fault.cause = .objectExpected received →
          (∀ name body, received ≠ .mu name body) ∧ ∀ name, received ≠ .var name := by
  have meets := checker.confined_wellFormed wellFormed environment formed
  cases ended : (checker.typeOf term environment).result with
  | ok type =>
    have typed := meets.ensures type ended
    exact .inl ⟨type, rfl, typed⟩
  | error stop =>
    obtain ⟨fault, rfl, types, layers⟩ := meets.stopped stop ended
    refine .inr ⟨fault, rfl, types, ?_⟩
    intro received missed
    apply layers received
    rcases missed with cause | cause <;> rw [cause] <;> exact List.mem_singleton_self received

/-- What follows a function literal whose parameter is a stream. -/
def afterStream (stream : Ty) (rest : Term) : Term :=
  let place : Span := ⟨0, 0⟩
  .sequence place (.function place [("s", stream)] none (.reference place "s")) rest

/-- When parameters stay known after a function, the rest of a stream is a stream, and the function
that gives it is no object. The fault carries that function and not the stream. -/
theorem typeOf_wellFormed_afterStream :
    let stream := Ty.mu "S" (.object [("head", .number), ("tail", .function [] (.var "S"))])
    let checker : Checker := ⟨.subtyping, { copyEnvironments := false }⟩
    let place : Span := ⟨0, 0⟩
    let tail : Term := .property place (.reference place "s") "tail"
    let accepted := afterStream stream (.call place tail [])
    let refused := afterStream stream (.property place tail "head")
    (checker.typeOf accepted {}).result = .ok stream ∧ stream.WellFormed ∧
      (checker.typeOf refused {}).result =
        .error (.fault ⟨.objectExpected (.function [] stream), 0⟩) ∧
      (Ty.function [] stream).WellFormed ∧ ∀ name body, Ty.function [] stream ≠ .mu name body := by
  intro stream checker place tail accepted refused
  have gives : (checker.typeOf accepted {}).result = .ok stream := rfl
  have stops : (checker.typeOf refused {}).result =
      .error (.fault ⟨.objectExpected (.function [] stream), 0⟩) := rfl
  have first := checker.typeOf_wellFormed (by decide : accepted.isWellFormed = true)
    Environment.wellFormed_empty
  have second := checker.typeOf_wellFormed (by decide : refused.isWellFormed = true)
    Environment.wellFormed_empty
  rw [gives] at first
  rw [stops] at second
  rcases first with ⟨type, same, wellFormed, _⟩ | ⟨fault, same, _⟩
  · cases same
    rcases second with ⟨type, same, _⟩ | ⟨fault, same, types, layers⟩
    · cases same
    · cases same
      have received := types _ (List.mem_singleton_self _)
      exact ⟨gives, wellFormed, stops, received, (layers _ (.inr rfl)).1⟩
  · cases same

end Checker

end Equirec
