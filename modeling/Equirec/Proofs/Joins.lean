import Equirec.Proofs.Framing

/-!
# The order of branches

The type of a conditional is that of one of its branches, namely the first as which both can be
used. Types with the same tree can be written in different ways, so with the branches in the other
order the type may be another. It is equal all the same: whichever branch is chosen, its type is a
least one as which both can be used (`Ty.IsJoin`), and any two of those have the same tree, since
subtyping is antisymmetric. Whether there is such a branch does not depend on the order at all
(`Checker.Joinable`).
-/
namespace Equirec

/-- Whether a type is a least one as which two types can be used. -/
structure Ty.IsJoin (left right type : Ty) : Prop where
  /-- The first type can be used as it. -/
  usable : UsableAs left type
  /-- The second type can be used as it. -/
  usable' : UsableAs right type
  /-- It can be used as every type as which both can be used. -/
  least : ∀ upper, UsableAs left upper → UsableAs right upper → UsableAs type upper

namespace Ty.IsJoin

variable {left right type type' : Ty}

/-- The order of the two types does not matter. -/
theorem symm (join : IsJoin left right type) : IsJoin right left type :=
  ⟨join.usable', join.usable, fun upper usable usable' => join.least upper usable' usable⟩

/-- There is only one such tree. -/
theorem sameTree (join : IsJoin left right type) (join' : IsJoin left right type') :
    SameTree type type' :=
  (join.least type' join'.usable join'.usable').antisymm
    (join'.least type join.usable join.usable')

/-- Of two types, one as which the other can be used is least. -/
theorem of_usableAs (wellFormed : left.WellFormed) (usable : UsableAs right left) :
    IsJoin left right left :=
  ⟨.refl wellFormed, usable, fun _ usable _ => usable⟩

end Ty.IsJoin

namespace Check

variable {α β : Type} {step : Check α} {environment : Environment}

/-- A step that leaves the environment as it is, and then another, give a value exactly when both
do in that environment. -/
theorem Steady.bind_eq_ok_iff {next : α → Check β} {value : β} (steady : step.Steady) :
    ((step >>= next) environment).result = .ok value ↔
      ∃ middle, (step environment).result = .ok middle ∧
        (next middle environment).result = .ok value := by
  cases ended : (step environment).result with
  | error stop => simp [bind_of_error ended]
  | ok middle => simp [bind_of_ok ended, steady environment]

end Check

namespace Checker

open Ty

variable {checker : Checker} {left right : Ty} {environment : Environment}

/-! ## Joining two types -/

/-- Whether a conditional may have branches of two types. -/
def Joinable (checker : Checker) (left right : Ty) : Prop :=
  if checker.variant.usesSubtyping then UsableAs right left ∨ UsableAs left right
  else SameTree left right

/-- The order of the branches does not matter. -/
theorem Joinable.symm (joinable : checker.Joinable left right) : checker.Joinable right left := by
  unfold Joinable at joinable ⊢
  by_cases uses : checker.variant.usesSubtyping
  · rw [if_pos uses] at joinable ⊢
    exact Or.symm joinable
  · rw [if_neg uses] at joinable ⊢
    exact SameTree.symm joinable

/-- With subtyping, the first type is chosen if the second is a subtype of it, and the second type
if it is the other way round. -/
theorem join_result_of_usesSubtyping (uses : checker.variant.usesSubtyping = true)
    (wellFormed : left.WellFormed) (wellFormed' : right.WellFormed) (offset : Offset) :
    (checker.join offset left right environment).result =
      if right.isSubtypeOf left then .ok left
      else if left.isSubtypeOf right then .ok right
      else .error (.fault ⟨.branchTypeMismatch left right, offset⟩) := by
  have back : (Check.compare .subtyping right left environment).result =
      .ok (right.isSubtypeOf left) :=
    Check.compare_result_of_wellFormed Comparison.subtyping_asksParts wellFormed' wellFormed
  have forth : (Check.compare .subtyping left right environment).result =
      .ok (left.isSubtypeOf right) :=
    Check.compare_result_of_wellFormed Comparison.subtyping_asksParts wellFormed wellFormed'
  rw [join, if_pos uses, Check.bind_of_ok back]
  cases right.isSubtypeOf left with
  | true => rfl
  | false =>
    show ((Check.compare .subtyping left right >>= _) environment).result = _
    rw [Check.bind_of_ok forth]
    cases left.isSubtypeOf right <;> rfl

/-- Without subtyping, the first type is chosen if the second is equal to it. -/
theorem join_result_of_not_usesSubtyping (uses : checker.variant.usesSubtyping ≠ true)
    (wellFormed : left.WellFormed) (wellFormed' : right.WellFormed) (offset : Offset) :
    (checker.join offset left right environment).result =
      if left.equals right then .ok left
      else .error (.fault ⟨.branchTypeMismatch left right, offset⟩) := by
  have compared : (Check.compare .equality left right environment).result =
      .ok (left.equals right) :=
    Check.compare_result_of_wellFormed Comparison.equality_asksParts wellFormed wellFormed'
  rw [join, if_neg uses, Check.bind_of_ok compared]
  cases left.equals right <;> rfl

/-- A type is chosen exactly when the two can be joined. -/
theorem exists_join_iff (wellFormed : left.WellFormed) (wellFormed' : right.WellFormed)
    (offset : Offset) :
    (∃ type, (checker.join offset left right environment).result = .ok type) ↔
      checker.Joinable left right := by
  unfold Joinable
  by_cases uses : checker.variant.usesSubtyping
  · rw [join_result_of_usesSubtyping uses wellFormed wellFormed', if_pos uses,
      ← isSubtypeOf_iff_usableAs wellFormed' wellFormed,
      ← isSubtypeOf_iff_usableAs wellFormed wellFormed']
    cases right.isSubtypeOf left <;> cases left.isSubtypeOf right <;> simp
  · rw [join_result_of_not_usesSubtyping uses wellFormed wellFormed', if_neg uses,
      ← equals_iff_sameTree wellFormed wellFormed']
    cases left.equals right <;> simp

/-- The chosen type is well-formed, and a least one as which both can be used. -/
theorem isJoin_of_join (wellFormed : left.WellFormed) (wellFormed' : right.WellFormed)
    {offset : Offset} {type : Ty}
    (joined : (checker.join offset left right environment).result = .ok type) :
    type.WellFormed ∧ IsJoin left right type := by
  by_cases uses : checker.variant.usesSubtyping
  · rw [join_result_of_usesSubtyping uses wellFormed wellFormed'] at joined
    split at joined
    · rename_i smaller
      obtain rfl := Except.ok.inj joined
      exact ⟨wellFormed, .of_usableAs wellFormed
        ((isSubtypeOf_iff_usableAs wellFormed' wellFormed).1 smaller)⟩
    · split at joined
      · rename_i smaller
        obtain rfl := Except.ok.inj joined
        have join := IsJoin.of_usableAs wellFormed'
          ((isSubtypeOf_iff_usableAs wellFormed wellFormed').1 smaller)
        exact ⟨wellFormed', join.symm⟩
      · cases joined
  · rw [join_result_of_not_usesSubtyping uses wellFormed wellFormed'] at joined
    split at joined
    · rename_i equal
      obtain rfl := Except.ok.inj joined
      have same := (equals_iff_sameTree wellFormed wellFormed').1 equal
      exact ⟨wellFormed, .of_usableAs wellFormed (.of_sameTree same.symm)⟩
    · cases joined

/-! ## Conditionals -/

/-- With environments copied, a conditional has a type exactly when its condition has one that
passes, both branches have types, and these are joined to it. All three parts are checked in the
environment of the conditional. -/
theorem typeOf_conditional_eq_ok_iff (copies : checker.options.copyEnvironments = true)
    (span : Span) (condition positive negative : Term) (type : Ty) :
    (checker.typeOf (.conditional span condition positive negative) environment).result = .ok type ↔
      ∃ test, (checker.typeOf condition environment).result = .ok test ∧
      ∃ passed, (checker.expectCondition condition test environment).result = .ok passed ∧
      ∃ left, (checker.typeOf positive environment).result = .ok left ∧
      ∃ right, (checker.typeOf negative environment).result = .ok right ∧
        (checker.join span.start left right environment).result = .ok type := by
  have supported : checker.variant.supports (Term.conditional span condition positive negative).form
      = true := rfl
  rw [typeOf, admitForm_of_supports supported, pure_bind]
  rw [(steady_typeOf copies condition).bind_eq_ok_iff]
  refine exists_congr fun test => and_congr_right fun _ => ?_
  rw [(checker.uniform_expectCondition condition test).steady.bind_eq_ok_iff]
  refine exists_congr fun _ => and_congr_right fun _ => ?_
  rw [(steady_typeOf copies positive).bind_eq_ok_iff]
  refine exists_congr fun left => and_congr_right fun _ => ?_
  rw [(steady_typeOf copies negative).bind_eq_ok_iff]

/-- The type of a well-formed term is well-formed. -/
theorem wellFormed_of_typeOf {term : Term} (wellFormed : term.isWellFormed = true)
    (formed : environment.WellFormed) {type : Ty}
    (accepted : (checker.typeOf term environment).result = .ok type) : type.WellFormed :=
  ((checker.confined_wellFormed wellFormed environment formed).ensures type accepted).1

section

variable (copies : checker.options.copyEnvironments = true) {positive negative : Term}
  (wellFormed : positive.isWellFormed = true) (wellFormed' : negative.isWellFormed = true)
  (formed : environment.WellFormed)
include copies wellFormed wellFormed' formed

/-- A conditional has a type if it has one with the branches in the other order. -/
theorem exists_typeOf_conditional_swap {condition : Term} {span : Span} (span' : Span) {type : Ty}
    (accepted : (checker.typeOf (.conditional span condition positive negative)
      environment).result = .ok type) :
    ∃ type', (checker.typeOf (.conditional span' condition negative positive)
      environment).result = .ok type' := by
  rw [typeOf_conditional_eq_ok_iff copies] at accepted
  obtain ⟨test, tested, _, passed, left, isLeft, right, isRight, joined⟩ := accepted
  have formedLeft := wellFormed_of_typeOf wellFormed formed isLeft
  have formedRight := wellFormed_of_typeOf wellFormed' formed isRight
  have joinable := (exists_join_iff formedLeft formedRight span.start).1 ⟨type, joined⟩
  obtain ⟨type', joined'⟩ := (exists_join_iff formedRight formedLeft span'.start).2 joinable.symm
  refine ⟨type', ?_⟩
  rw [typeOf_conditional_eq_ok_iff copies]
  exact ⟨test, tested, _, passed, right, isRight, left, isLeft, joined'⟩

/-- The type of a conditional is a least one as which both branches can be used. -/
theorem isJoin_of_typeOf_conditional {condition : Term} {span : Span} {type : Ty}
    (accepted : (checker.typeOf (.conditional span condition positive negative)
      environment).result = .ok type) :
    ∃ left right, (checker.typeOf positive environment).result = .ok left ∧
      (checker.typeOf negative environment).result = .ok right ∧
      left.WellFormed ∧ right.WellFormed ∧ type.WellFormed ∧ IsJoin left right type := by
  rw [typeOf_conditional_eq_ok_iff copies] at accepted
  obtain ⟨test, tested, _, passed, left, isLeft, right, isRight, joined⟩ := accepted
  have formedLeft := wellFormed_of_typeOf wellFormed formed isLeft
  have formedRight := wellFormed_of_typeOf wellFormed' formed isRight
  exact ⟨left, right, isLeft, isRight, formedLeft, formedRight,
    isJoin_of_join formedLeft formedRight joined⟩

end

/-- In every language, with environments copied, a conditional is accepted exactly when it is with
the branches in the other order, and the two types are equal. The type is a supertype of those of
both branches, and a subtype of every well-formed type that is. -/
theorem typeOf_conditional_join (checker : Checker)
    (copies : checker.options.copyEnvironments = true) {positive negative : Term}
    (wellFormed : positive.isWellFormed = true) (wellFormed' : negative.isWellFormed = true)
    {environment : Environment} (formed : environment.WellFormed) (condition : Term)
    (span span' : Span) :
    let forth := checker.typeOf (.conditional span condition positive negative) environment
    let back := checker.typeOf (.conditional span' condition negative positive) environment
    ((∃ type, forth.result = .ok type) ↔ ∃ type, back.result = .ok type) ∧
      (∀ type type', forth.result = .ok type → back.result = .ok type' →
        type.equals type' = true) ∧
      ∀ type, forth.result = .ok type →
        ∃ left right, (checker.typeOf positive environment).result = .ok left ∧
          (checker.typeOf negative environment).result = .ok right ∧
          left.isSubtypeOf type = true ∧ right.isSubtypeOf type = true ∧
          ∀ upper : Ty, upper.WellFormed → left.isSubtypeOf upper = true →
            right.isSubtypeOf upper = true → type.isSubtypeOf upper = true := by
  intro forth back
  refine ⟨⟨?_, ?_⟩, ?_, ?_⟩
  · rintro ⟨type, accepted⟩
    exact exists_typeOf_conditional_swap copies wellFormed wellFormed' formed span' accepted
  · rintro ⟨type, accepted⟩
    exact exists_typeOf_conditional_swap copies wellFormed' wellFormed formed span accepted
  · intro type type' accepted accepted'
    obtain ⟨left, right, isLeft, isRight, _, _, formedType, join⟩ :=
      isJoin_of_typeOf_conditional copies wellFormed wellFormed' formed accepted
    obtain ⟨right', left', isRight', isLeft', _, _, formedType', join'⟩ :=
      isJoin_of_typeOf_conditional copies wellFormed' wellFormed formed accepted'
    obtain rfl := Except.ok.inj (isLeft.symm.trans isLeft')
    obtain rfl := Except.ok.inj (isRight.symm.trans isRight')
    exact (equals_iff_sameTree formedType formedType').2 (join.sameTree join'.symm)
  · intro type accepted
    obtain ⟨left, right, isLeft, isRight, formedLeft, formedRight, formedType, join⟩ :=
      isJoin_of_typeOf_conditional copies wellFormed wellFormed' formed accepted
    refine ⟨left, right, isLeft, isRight,
      (isSubtypeOf_iff_usableAs formedLeft formedType).2 join.usable,
      (isSubtypeOf_iff_usableAs formedRight formedType).2 join.usable', ?_⟩
    intro upper formedUpper smaller smaller'
    rw [isSubtypeOf_iff_usableAs formedLeft formedUpper] at smaller
    rw [isSubtypeOf_iff_usableAs formedRight formedUpper] at smaller'
    rw [isSubtypeOf_iff_usableAs formedType formedUpper]
    exact join.least upper smaller smaller'

/-- Two functions on streams, which write the type of a stream in different ways, are the branches
of a conditional. Each order gives the type of the function that stands first. The two types are
written in different ways, yet they are equal, and each is a subtype of the other. -/
theorem typeOf_conditional_join_streams :
    let place : Span := ⟨0, 0⟩
    let stream := Ty.mu "S" (.object [("head", .number), ("tail", .function [] (.var "S"))])
    let turned := Ty.object [("tail", .function [] stream), ("head", .number)]
    let ofStream : Term := .function place [("s", stream)] none (.reference place "s")
    let ofTurned : Term := .function place [("t", turned)] none (.reference place "t")
    let choice (first second : Term) : Term :=
      .conditional place (.boolean place true) first second
    let left := Ty.function [("s", stream)] stream
    let right := Ty.function [("t", turned)] turned
    (Checker.typeOf ⟨.subtyping, {}⟩ (choice ofStream ofTurned) {}).result = .ok left ∧
      (Checker.typeOf ⟨.subtyping, {}⟩ (choice ofTurned ofStream) {}).result = .ok right ∧
      left ≠ right ∧ left.equals right = true ∧ right.isSubtypeOf left = true ∧
      left.isSubtypeOf right = true := by
  intro place stream turned ofStream ofTurned choice left right
  have wellFormed : ofStream.isWellFormed = true := by decide
  have wellFormed' : ofTurned.isWellFormed = true := by decide
  have forth : (Checker.typeOf ⟨.subtyping, {}⟩ (choice ofStream ofTurned) {}).result =
      .ok left := by cbv
  have back : (Checker.typeOf ⟨.subtyping, {}⟩ (choice ofTurned ofStream) {}).result =
      .ok right := by cbv
  have isLeft : (Checker.typeOf ⟨.subtyping, {}⟩ ofStream {}).result = .ok left := rfl
  have isRight : (Checker.typeOf ⟨.subtyping, {}⟩ ofTurned {}).result = .ok right := rfl
  obtain ⟨_, equal, join⟩ := typeOf_conditional_join ⟨.subtyping, {}⟩ rfl wellFormed wellFormed'
    Environment.wellFormed_empty (.boolean place true) place place
  obtain ⟨_, _, join'⟩ := typeOf_conditional_join ⟨.subtyping, {}⟩ rfl wellFormed' wellFormed
    Environment.wellFormed_empty (.boolean place true) place place
  obtain ⟨_, right', _, isRight', _, smaller, _⟩ := join left forth
  obtain ⟨_, left', _, isLeft', _, smaller', _⟩ := join' right back
  obtain rfl := Except.ok.inj (isRight.symm.trans isRight')
  obtain rfl := Except.ok.inj (isLeft.symm.trans isLeft')
  exact ⟨forth, back, by decide, equal left right forth back, smaller, smaller'⟩

end Checker

end Equirec
