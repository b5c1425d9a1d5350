import Equirec.Checker
import Equirec.Proofs.Decision

/-!
# What steps of a check ensure

A step of a check ensures a condition when every value that it gives meets the condition together
with the environment that it leaves. Such conditions are passed along from step to step, so a check
is followed from its parts and never opened as a whole. A step that stops ensures everything.

The steps that the checker makes besides its recursion all leave the environment as it is. What they
ensure about types is stated for well-formed types, by what can be used as what.
-/
namespace Equirec

namespace Environment

/-- Whether an environment gives only types of a kind to names. -/
def Within (environment : Environment) (kind : Ty → Prop) : Prop :=
  ∀ name type, environment.lookup? name = some type → kind type

/-- The environment of a program gives no types. -/
theorem within_empty (kind : Ty → Prop) : Within {} kind :=
  fun _ _ found => nomatch found

namespace Within

variable {environment : Environment} {kind : Ty → Prop}

/-- A type of the kind may be declared. -/
theorem declare (within : environment.Within kind) (name : String) {type : Ty}
    (holds : kind type) : (environment.declare name type).Within kind := by
  intro other type' found
  by_cases same : other = name
  · rw [same, lookup?_declare_self, Option.some.injEq] at found
    exact found ▸ holds
  · rw [lookup?_declare_of_ne environment name other type same] at found
    exact within other type' found

/-- Types of the kind may be declared one after the other. -/
theorem declareAll (within : environment.Within kind) {members : List (String × Ty)}
    (holds : ∀ member ∈ members, kind member.2) :
    (environment.declareAll members).Within kind := by
  induction members generalizing environment with
  | nil => exact within
  | cons member rest ih =>
    rw [List.forall_mem_cons] at holds
    exact ih (within.declare member.1 holds.1) holds.2

end Within

end Environment

namespace Check

/-- Whether every value that a step gives meets a condition, with the environment that it leaves. -/
def Ensures {α : Type} (step : Check α) (environment : Environment)
    (meets : α → Environment → Prop) : Prop :=
  ∀ value, (step environment).result = .ok value → meets value (step environment).environment

namespace Ensures

variable {α β : Type} {environment : Environment}

/-- A condition may be replaced by a weaker one. -/
theorem imp {step : Check α} {meets meets' : α → Environment → Prop}
    (ensures : step.Ensures environment meets)
    (weaker : ∀ value after, meets value after → meets' value after) :
    step.Ensures environment meets' :=
  fun value ended => weaker value _ (ensures value ended)

/-- Every step ensures what always holds. -/
theorem trivial (step : Check α) : step.Ensures environment fun _ _ => True :=
  fun _ _ => True.intro

/-- What a step ensures separately it ensures together. -/
theorem and {step : Check α} {meets meets' : α → Environment → Prop}
    (ensures : step.Ensures environment meets) (ensures' : step.Ensures environment meets') :
    step.Ensures environment fun value after => meets value after ∧ meets' value after :=
  fun value ended => ⟨ensures value ended, ensures' value ended⟩

/-- The step that only gives a value. -/
theorem pure {value : α} {meets : α → Environment → Prop} (holds : meets value environment) :
    Ensures (Pure.pure value) environment meets := by
  intro value' ended
  cases ended
  exact holds

/-- One step and then another, which may rely on what the first ensures. -/
theorem bind {step : Check α} {next : α → Check β} {meets : α → Environment → Prop}
    {meets' : β → Environment → Prop} (first : step.Ensures environment meets)
    (second : ∀ value after, meets value after → (next value).Ensures after meets') :
    Ensures (step >>= next) environment meets' := by
  intro value ended
  cases result : (step environment).result with
  | error stop =>
    rw [bind_of_error result] at ended
    cases ended
  | ok middle =>
    rw [bind_of_ok result] at ended ⊢
    exact second middle _ (first middle result) value ended

/-- A step that leaves the environment as it is, and then another. -/
theorem bind_keeping {step : Check α} {next : α → Check β} {holds : α → Prop}
    {meets : β → Environment → Prop}
    (first : step.Ensures environment fun value after => after = environment ∧ holds value)
    (second : ∀ value, holds value → (next value).Ensures environment meets) :
    Ensures (step >>= next) environment meets := by
  refine first.bind ?_
  rintro value _ ⟨rfl, holds⟩
  exact second value holds

/-- A fault ensures everything. -/
theorem fail {cause : Cause} {offset : Offset} {meets : α → Environment → Prop} :
    Ensures (Check.fail cause offset) environment meets :=
  fun _ ended => nomatch ended

/-- A name that is used has its type. -/
theorem reference (name : String) (offset : Offset) :
    (Check.reference name offset).Ensures environment fun type after =>
      after = environment ∧ environment.lookup? name = some type := by
  intro type ended
  refine ⟨rfl, ?_⟩
  simp only [Check.reference, Environment.typeAt] at ended
  cases found : environment.lookup? name with
  | none => simp [found, Except.mapError] at ended
  | some type' => simpa [found, Except.mapError] using ended

/-- A step in a copy of the environment leaves the environment as it is. -/
theorem withBindings {members : List (String × Ty)} {step : Check α} {holds : α → Prop}
    (ensures : step.Ensures (environment.declareAll members) fun value _ => holds value) :
    (Check.withBindings members step).Ensures environment fun value after =>
      after = environment ∧ holds value :=
  fun value ended => ⟨rfl, ensures value ended⟩

/-- A comparison that is answered with yes relates its types. -/
theorem compare (comparison : Comparison) (left right : Ty) :
    (Check.compare comparison left right).Ensures environment fun answer after =>
      after = environment ∧ (answer = true → comparison.relates left right = true) := by
  intro answer ended
  refine ⟨rfl, ?_⟩
  rintro rfl
  simp only [Check.compare] at ended
  split at ended
  · rename_i verdict
    simp [Comparison.relates, verdict]
  · cases ended
  · cases ended

end Ensures

/-- A name that has a type gives it. -/
theorem reference_of_some {environment : Environment} {name : String} {type : Ty}
    (found : environment.lookup? name = some type) (offset : Offset) :
    (Check.reference name offset environment).result = .ok type := by
  simp only [Check.reference, Environment.typeAt, found]
  rfl

/-- A name that has no type is a fault. -/
theorem reference_of_none {environment : Environment} {name : String}
    (missing : environment.lookup? name = none) (offset : Offset) :
    (Check.reference name offset environment).result =
      .error (.fault ⟨.undefinedVariable name, offset⟩) := by
  simp only [Check.reference, Environment.typeAt, missing]
  rfl

/-- A comparison that ends gives its answer. -/
theorem compare_result {comparison : Comparison} {left right : Ty}
    (ends : (comparison.judge left right).verdict ≠ .endless) (environment : Environment) :
    (Check.compare comparison left right environment).result =
      .ok (comparison.relates left right) := by
  cases verdict : (comparison.judge left right).verdict with
  | holds => simp [Check.compare, Comparison.relates, verdict]
  | fails => simp [Check.compare, Comparison.relates, verdict]
  | endless => exact absurd verdict ends

/-- Comparing well-formed types gives an answer. -/
theorem compare_result_of_wellFormed {comparison : Comparison} (asksParts : comparison.AsksParts)
    {left right : Ty} (wellFormed : left.WellFormed) (wellFormed' : right.WellFormed)
    {environment : Environment} :
    (Check.compare comparison left right environment).result =
      .ok (comparison.relates left right) :=
  compare_result (Comparison.judge_ends asksParts wellFormed.closed wellFormed'.closed
    wellFormed.distinct wellFormed'.distinct).1 environment

/-- Whether a step leaves an environment as it is. -/
def Keeps {α : Type} (step : Check α) (environment : Environment) : Prop :=
  step.Ensures environment fun _ after => after = environment

/-- A step that leaves the environment as it is may come before any other. -/
theorem Keeps.bind {α β : Type} {environment : Environment} {step : Check α}
    {next : α → Check β} {meets : β → Environment → Prop} (first : step.Keeps environment)
    (second : ∀ value, (next value).Ensures environment meets) :
    Ensures (step >>= next) environment meets :=
  Ensures.bind first fun value _ same => same ▸ second value

end Check

namespace Checker

open Check (Ensures)
open Ty (UsableAs)

variable {environment : Environment}

/-- A construct that the language does not have gives no value. -/
theorem ensures_reject {α : Type} (checker : Checker) (construct : String) (offset : Offset)
    {meets : α → Environment → Prop} :
    (checker.reject construct offset).Ensures environment meets := by
  have reported : (Check.report (.rejected construct checker.variant)).Keeps environment :=
    fun _ _ => rfl
  exact reported.bind fun _ => .fail

/-- Admitting a form leaves the environment as it is. -/
theorem keeps_admitForm (checker : Checker) (term : Term) :
    (checker.admitForm term).Keeps environment := by
  rw [admitForm]
  split
  · exact .pure rfl
  · exact checker.ensures_reject _ _

/-- Admitting a type leaves the environment as it is. -/
theorem keeps_admitType (checker : Checker) (offset : Offset) (type : Ty) :
    (checker.admitType offset type).Keeps environment := by
  rw [admitType]
  split
  · exact checker.ensures_reject _ _
  · split
    · exact checker.ensures_reject _ _
    · exact .pure rfl

/-- Admitting parameters leaves the environment as it is. -/
theorem keeps_admitParameters (checker : Checker) (offset : Offset)
    (parameters : List (String × Ty)) :
    (checker.admitParameters offset parameters).Keeps environment := by
  induction parameters with
  | nil => exact .pure rfl
  | cons parameter rest ih =>
    rw [admitParameters]
    exact (checker.keeps_admitType offset parameter.2).bind fun _ => ih

/-- Admitting a declared result, if there is one, leaves the environment as it is. -/
theorem keeps_admitDeclared (checker : Checker) (offset : Offset) (declared : Option Ty) :
    Check.Keeps (declared.forM (checker.admitType offset)) environment := by
  cases declared with
  | none => exact .pure rfl
  | some type => exact checker.keeps_admitType offset type

/-- The type of an operand can be used as that of numbers. -/
theorem ensures_expectNumber (operand : Term) {type : Ty} (wellFormed : type.WellFormed) :
    (expectNumber operand type).Ensures environment
      fun _ after => after = environment ∧ UsableAs type .number := by
  rw [expectNumber]
  split
  · rename_i isNumber
    exact .pure ⟨rfl, isNumber ▸ wellFormed.usableAs_simplify⟩
  · exact .fail

/-- If conditions are checked, the type of a condition can be used as that of booleans. -/
theorem ensures_expectCondition {checker : Checker}
    (checks : checker.options.checkConditions = true) (condition : Term) {type : Ty}
    (wellFormed : type.WellFormed) :
    (checker.expectCondition condition type).Ensures environment
      fun _ after => after = environment ∧ UsableAs type .boolean := by
  simp only [expectCondition, checks, Bool.true_and, decide_eq_true_eq]
  split
  · exact .fail
  · rename_i isBoolean
    exact .pure ⟨rfl, not_not.1 isBoolean ▸ wellFormed.usableAs_simplify⟩

/-- The type of a body can be used as the declared one. -/
theorem ensures_expectResult (body : Term) {declared received : Ty}
    (wellFormed : declared.WellFormed) (wellFormed' : received.WellFormed) :
    (expectResult body declared received).Ensures environment
      fun _ after => after = environment ∧ UsableAs received declared := by
  refine (Ensures.compare .equality received declared).bind_keeping fun answer relates => ?_
  split
  · rename_i yes
    have same := (Ty.equals_iff_sameTree wellFormed' wellFormed).1 (relates yes)
    exact .pure ⟨rfl, .of_sameTree same⟩
  · exact .fail

/-- A type that fits another can be used as it, in every language. -/
theorem ensures_fits (checker : Checker) {received expected : Ty}
    (wellFormed : received.WellFormed) (wellFormed' : expected.WellFormed) :
    (checker.fits received expected).Ensures environment
      fun answer after => after = environment ∧ (answer = true → UsableAs received expected) := by
  rw [fits]
  split
  · refine (Ensures.compare .subtyping received expected).imp ?_
    rintro answer after ⟨same, relates⟩
    exact ⟨same, fun yes =>
      (Ty.isSubtypeOf_iff_usableAs wellFormed wellFormed').1 (relates yes)⟩
  · refine (Ensures.compare .equality received expected).imp ?_
    rintro answer after ⟨same, relates⟩
    exact ⟨same, fun yes =>
      .of_sameTree ((Ty.equals_iff_sameTree wellFormed wellFormed').1 (relates yes))⟩

/-- Both branches of a conditional can be used as its type, which is that of one of them. -/
theorem ensures_join (checker : Checker) (offset : Offset) {positive negative : Ty}
    (wellFormed : positive.WellFormed) (wellFormed' : negative.WellFormed) :
    (checker.join offset positive negative).Ensures environment fun type after =>
      after = environment ∧
        type.WellFormed ∧ UsableAs positive type ∧ UsableAs negative type := by
  rw [join]
  split
  · refine (Ensures.compare .subtyping negative positive).bind_keeping fun answer relates => ?_
    split
    · rename_i yes
      have usable := (Ty.isSubtypeOf_iff_usableAs wellFormed' wellFormed).1 (relates yes)
      exact .pure ⟨rfl, wellFormed, .refl wellFormed, usable⟩
    · refine (Ensures.compare .subtyping positive negative).bind_keeping fun answer relates => ?_
      split
      · rename_i yes
        have usable := (Ty.isSubtypeOf_iff_usableAs wellFormed wellFormed').1 (relates yes)
        exact .pure ⟨rfl, wellFormed', usable, .refl wellFormed'⟩
      · exact .fail
  · refine (Ensures.compare .equality positive negative).bind_keeping fun answer relates => ?_
    split
    · rename_i yes
      have same := (Ty.equals_iff_sameTree wellFormed wellFormed').1 (relates yes)
      exact .pure ⟨rfl, wellFormed, .refl wellFormed, .of_sameTree same.symm⟩
    · exact .fail

end Checker

end Equirec
