import Equirec.Proofs.Rounds
import Equirec.Ty.Simplify

/-!
# Types up to the names of parameters

The names of function parameters are kept in types but mean nothing. What simplifying and comparing
make of a type does not depend on them (`Comparison.verdict_congr`). For comparisons this is not
plain to see: the assumptions of a comparison, and its look-out for rounds, tell types apart by how
they are written. So two comparisons of the same types under other names of parameters may find a
round at different times, but where one finds a round the other has no run either.
-/
namespace Equirec

namespace Ty

mutual

/-- A type without the names of function parameters. -/
def unnamed : Ty → Ty
  | .number => .number
  | .boolean => .boolean
  | .function parameters result => .function (unnamedParameters parameters) result.unnamed
  | .object properties => .object (unnamedProperties properties)
  | .var name => .var name
  | .mu name body => .mu name body.unnamed

/-- Parameters without their names. -/
def unnamedParameters : List (String × Ty) → List (String × Ty)
  | [] => []
  | (_, type) :: rest => ("", type.unnamed) :: unnamedParameters rest

/-- Properties, with their names, of types without the names of function parameters. -/
def unnamedProperties : List (String × Ty) → List (String × Ty)
  | [] => []
  | (name, type) :: rest => (name, type.unnamed) :: unnamedProperties rest

end

@[simp]
theorem unnamedParameters_eq_map (parameters : List (String × Ty)) :
    unnamedParameters parameters = parameters.map fun member => ("", member.2.unnamed) := by
  induction parameters with
  | nil => rfl
  | cons member rest ih => simp [unnamedParameters, ih]

@[simp]
theorem unnamedProperties_eq_map (properties : List (String × Ty)) :
    unnamedProperties properties =
      properties.map fun member => (member.1, member.2.unnamed) := by
  induction properties with
  | nil => rfl
  | cons member rest ih => simp [unnamedProperties, ih]

/-! ## Measures, substitution and alikeness -/

/-- Members whose types are changed to types of the same size have the same size. -/
theorem sizes_map {members : List (String × Ty)} {change : String × Ty → String × Ty}
    (same : ∀ member ∈ members, (change member).2.size = member.2.size) :
    sizes (members.map change) = sizes members := by
  induction members with
  | nil => rfl
  | cons member rest ih =>
    rw [List.forall_mem_cons] at same
    rw [List.map_cons, sizes, sizes, same.1, ih same.2]

/-- Names have no size. -/
theorem size_unnamed (type : Ty) : type.unnamed.size = type.size := by
  induction type with
  | number => rfl
  | boolean => rfl
  | function parameters result parametersIH resultIH =>
    rw [unnamed, unnamedParameters_eq_map, size, size, sizes_map parametersIH, resultIH]
  | object properties propertiesIH =>
    rw [unnamed, unnamedProperties_eq_map, size, size, sizes_map propertiesIH]
  | var => rfl
  | mu name body bodyIH => rw [unnamed, size, size, bodyIH]

/-- Binders are not names of parameters. -/
theorem leadingBinders_unnamed (type : Ty) :
    type.unnamed.leadingBinders = type.leadingBinders := by
  induction type with
  | mu name body bodyIH => rw [unnamed, leadingBinders, leadingBinders, bodyIH]
  | _ => rfl

/-- Substitution does not look at names of parameters. -/
theorem unnamed_subst (type : Ty) (name : String) (replacement : Ty) :
    (type.subst name replacement).unnamed =
      type.unnamed.subst name replacement.unnamed := by
  induction type with
  | number => rfl
  | boolean => rfl
  | function parameters result parametersIH resultIH =>
    simp only [subst, unnamed, substIn_eq_map, unnamedParameters_eq_map, List.map_map, resultIH]
    congr 1
    exact List.map_congr_left fun member isMember => by simp [parametersIH member isMember]
  | object properties propertiesIH =>
    simp only [subst, unnamed, substIn_eq_map, unnamedProperties_eq_map, List.map_map]
    congr 1
    exact List.map_congr_left fun member isMember => by simp [propertiesIH member isMember]
  | var other =>
    simp only [subst, unnamed]
    split <;> rfl
  | mu bound body bodyIH =>
    simp only [subst, unnamed]
    split
    · rfl
    · rw [unnamed, bodyIH]

/-- So unfolding does not either. -/
theorem unnamed_unfolded (name : String) (body : Ty) :
    (unfolded name body).unnamed = unfolded name body.unnamed := by
  rw [unfolded, unnamed_subst]
  rfl

/-- Alikeness does not look at names of parameters. -/
theorem alikeUnder_unnamed (binders : List (String × String)) (left right : Ty) :
    alikeUnder binders left.unnamed right.unnamed = alikeUnder binders left right := by
  induction left generalizing binders right with
  | number => cases right <;> rfl
  | boolean => cases right <;> rfl
  | function parameters result parametersIH resultIH =>
    cases right with
    | function parameters' result' =>
      rw [Bool.eq_iff_iff, unnamed, unnamed, alikeUnder_function, alikeUnder_function,
        unnamedParameters_eq_map, unnamedParameters_eq_map, List.forall₂_map_left_iff,
        List.forall₂_map_right_iff, resultIH]
      refine and_congr_left fun _ => Members.forall₂_congr_mem fun member isMember member' _ => ?_
      rw [parametersIH member isMember]
    | _ => rfl
  | object properties propertiesIH =>
    cases right with
    | object properties' =>
      rw [Bool.eq_iff_iff, unnamed, unnamed, alikeUnder_object, alikeUnder_object,
        unnamedProperties_eq_map, unnamedProperties_eq_map, List.length_map, List.length_map,
        List.forall_mem_map]
      refine and_congr_right fun _ => forall₂_congr fun member isMember => ?_
      rw [Members.lookup_map unnamed]
      cases properties'.lookup member.1 with
      | none => simp
      | some type => simp [propertiesIH member isMember]
    | _ => rfl
  | var name => cases right <;> rfl
  | mu name body bodyIH =>
    cases right with
    | mu name' body' =>
      rw [unnamed, unnamed, alikeUnder, alikeUnder, bodyIH]
    | _ => rfl

/-- Alike types are alike without the names of parameters. -/
theorem alike_unnamed (left right : Ty) : left.unnamed.alike right.unnamed = left.alike right :=
  alikeUnder_unnamed [] left right

/-- Whether a type is alike to one of several does not depend on names of parameters. -/
theorem any_alike_unnamed (visited : List Ty) (type : Ty) :
    ((visited.map unnamed).any fun earlier => earlier.alike type.unnamed) =
      visited.any fun earlier => earlier.alike type := by
  rw [List.any_map]
  simp only [Function.comp_def, alike_unnamed]

/-- Unfolding as far as simplifying does not look at names of parameters. -/
theorem unnamed_simplifyFrom (visited : List Ty) (unfoldings : Nat) (type : Ty) :
    (simplifyFrom visited unfoldings type).unnamed =
      simplifyFrom (visited.map unnamed) unfoldings type.unnamed := by
  induction unfoldings generalizing visited type with
  | zero => cases type <;> rfl
  | succ unfoldings ih =>
    cases type with
    | mu name body =>
      have found := any_alike_unnamed visited (.mu name body)
      rw [unnamed] at found
      rw [unnamed, simplifyFrom, simplifyFrom, found]
      split
      · rfl
      · rw [ih, unnamed_unfolded]
        rfl
    | _ => rfl

/-- Simplifying does not look at names of parameters. -/
theorem unnamed_simplify (type : Ty) : type.simplify.unnamed = type.unnamed.simplify := by
  rw [simplify, simplify, unnamed_simplifyFrom, leadingBinders_unnamed]
  rfl

/-- Types that differ in names of parameters have first layers that do. -/
theorem simplify_congr {type type' : Ty} (same : type.unnamed = type'.unnamed) :
    type.simplify.unnamed = type'.simplify.unnamed := by
  rw [unnamed_simplify, unnamed_simplify, same]

end Ty

/-! ## Goals and layers -/

/-- A goal about types without the names of parameters. -/
def Goal.unnamed : Goal → Goal
  | .compare left right => .compare left.unnamed right.unnamed
  | .clash => .clash

namespace Comparison

/-- Whether the layer of a comparison does not look at names of parameters. -/
def IgnoresNames (comparison : Comparison) : Prop :=
  ∀ left right : Ty,
    comparison.layer left.unnamed right.unnamed = (comparison.layer left right).map Goal.unnamed

/-- Goals by place do not depend on names. -/
theorem byPlace_unnamed (left right : List (String × Ty)) :
    Goal.byPlace (left.map fun member => ("", member.2.unnamed))
        (right.map fun member => ("", member.2.unnamed)) =
      (Goal.byPlace left right).map Goal.unnamed := by
  simp only [Goal.byPlace, List.zipWith_map, List.map_zipWith]
  rfl

/-- Goals by name do not depend on names of parameters. -/
theorem byName_unnamed {goal : Ty → Ty → Goal}
    (same : ∀ left right, goal left.unnamed right.unnamed = (goal left right).unnamed)
    (wanted offered : List (String × Ty)) :
    Goal.byName goal (wanted.map fun member => (member.1, member.2.unnamed))
        (offered.map fun member => (member.1, member.2.unnamed)) =
      (Goal.byName goal wanted offered).map Goal.unnamed := by
  simp only [Goal.byName, List.map_map]
  refine List.map_congr_left fun property _ => ?_
  simp only [Function.comp_apply, Members.lookup_map Ty.unnamed]
  cases offered.lookup property.1 with
  | none => rfl
  | some type => exact same property.2 type

/-- Equality ignores names of parameters. -/
theorem equality_ignoresNames : equality.IgnoresNames := by
  intro left right
  show equalityLayer left.unnamed right.unnamed = (equalityLayer left right).map Goal.unnamed
  cases left with
  | function parameters result =>
    cases right with
    | function parameters' result' =>
      simp only [Ty.unnamed, Ty.unnamedParameters_eq_map, equalityLayer, List.length_map]
      split
      · rw [byPlace_unnamed, List.map_append]
        rfl
      · rfl
    | _ => rfl
  | object properties =>
    cases right with
    | object properties' =>
      simp only [Ty.unnamed, Ty.unnamedProperties_eq_map, equalityLayer, List.length_map]
      split
      · exact byName_unnamed (fun _ _ => rfl) properties properties'
      · rfl
    | _ => rfl
  | _ => cases right <;> rfl

/-- Subtyping ignores names of parameters. -/
theorem subtyping_ignoresNames : subtyping.IgnoresNames := by
  intro left right
  show subtypingLayer left.unnamed right.unnamed = (subtypingLayer left right).map Goal.unnamed
  cases left with
  | function parameters result =>
    cases right with
    | function parameters' result' =>
      simp only [Ty.unnamed, Ty.unnamedParameters_eq_map, subtypingLayer, List.length_map]
      split
      · rw [byPlace_unnamed, List.map_cons]
        rfl
      · rfl
    | _ => rfl
  | object properties =>
    cases right with
    | object properties' =>
      simp only [Ty.unnamed, Ty.unnamedProperties_eq_map, subtypingLayer]
      exact byName_unnamed (fun _ _ => rfl) properties' properties
    | _ => rfl
  | _ => cases right <;> rfl

/-- Which type of a pair is unfolded does not depend on names of parameters. -/
theorem unfoldPair?_unnamed (left right : Ty) :
    unfoldPair? left.unnamed right.unnamed =
      (unfoldPair? left right).map fun pair => (pair.1.unnamed, pair.2.unnamed) := by
  cases left with
  | mu name body => simp [Ty.unnamed, unfoldPair?, Ty.unnamed_unfolded]
  | _ => cases right <;> simp [Ty.unnamed, unfoldPair?, Ty.unnamed_unfolded]

/-! ## Runs -/

/-- Whether two lists of assumptions have the same pairs, but for names of parameters. -/
def SameAssumptions (assumptions assumptions' : List (Ty × Ty)) : Prop :=
  ∀ pair, pair ∈ assumptions.map (Prod.map Ty.unnamed Ty.unnamed) ↔
    pair ∈ assumptions'.map (Prod.map Ty.unnamed Ty.unnamed)

variable {comparison : Comparison} {assumptions assumptions' : List (Ty × Ty)}
  {left right left' right' : Ty}

/-- A pair is covered as it is without the names of parameters. -/
theorem covered_unnamed :
    Covered (assumptions.map (Prod.map Ty.unnamed Ty.unnamed)) left.unnamed right.unnamed ↔
      Covered assumptions left right := by
  simp [Covered, Ty.alike_unnamed]

/-- The same pairs are covered by the same assumptions. -/
theorem SameAssumptions.covered_iff (same : SameAssumptions assumptions assumptions')
    (isLeft : left.unnamed = left'.unnamed) (isRight : right.unnamed = right'.unnamed) :
    Covered assumptions left right ↔ Covered assumptions' left' right' := by
  rw [← covered_unnamed, ← @covered_unnamed assumptions', isLeft, isRight]
  exact exists_congr fun pair => and_congr_left fun _ => same pair

/-- The same pair may be assumed. -/
theorem SameAssumptions.insert (same : SameAssumptions assumptions assumptions')
    (isLeft : left.unnamed = left'.unnamed) (isRight : right.unnamed = right'.unnamed) :
    SameAssumptions (assumptions.insert (left, right)) (assumptions'.insert (left', right')) := by
  have member {known : List (Ty × Ty)} {first second : Ty} (pair : Ty × Ty) :
      pair ∈ (known.insert (first, second)).map (Prod.map Ty.unnamed Ty.unnamed) ↔
        pair = (first.unnamed, second.unnamed) ∨
          pair ∈ known.map (Prod.map Ty.unnamed Ty.unnamed) := by
    simp only [List.mem_map, List.mem_insert_iff, or_and_right, exists_or, exists_eq_left,
      Prod.map, eq_comm]
  intro pair
  rw [member, member, same pair, isLeft, isRight]

/-- The other order of the two lists. -/
theorem SameAssumptions.symm (same : SameAssumptions assumptions assumptions') :
    SameAssumptions assumptions' assumptions :=
  fun pair => (same pair).symm

/-- Pairs that differ in names of parameters are unfolded to such pairs. -/
theorem exists_unfoldPair? {first second : Ty} (isLeft : left.unnamed = left'.unnamed)
    (isRight : right.unnamed = right'.unnamed)
    (unfolds : unfoldPair? left right = some (first, second)) :
    ∃ first' second', unfoldPair? left' right' = some (first', second') ∧
      first.unnamed = first'.unnamed ∧ second.unnamed = second'.unnamed := by
  have same := unfoldPair?_unnamed left right
  rw [isLeft, isRight, unfoldPair?_unnamed left' right', unfolds] at same
  obtain ⟨⟨first', second'⟩, unfolds', isPair⟩ := Option.map_eq_some_iff.1 same
  rw [Prod.mk.injEq] at isPair
  exact ⟨first', second', unfolds', isPair.1.symm, isPair.2.symm⟩

/-- Pairs that cannot be unfolded cannot be under other names of parameters. -/
theorem unfoldPair?_eq_none_congr (isLeft : left.unnamed = left'.unnamed)
    (isRight : right.unnamed = right'.unnamed) (bare : unfoldPair? left right = none) :
    unfoldPair? left' right' = none := by
  have same := unfoldPair?_unnamed left right
  rw [isLeft, isRight, unfoldPair?_unnamed left' right', bare] at same
  exact Option.map_eq_none_iff.1 same

/-- Whether goals are the same one by one, but for names of parameters. -/
def SameGoals (goals goals' : List Goal) : Prop :=
  goals.map Goal.unnamed = goals'.map Goal.unnamed

namespace SameGoals

variable {goals goals' : List Goal}

/-- No goals are the same as no goals only. -/
theorem eq_nil (same : SameGoals [] goals') : goals' = [] :=
  List.map_eq_nil_iff.1 same.symm

/-- A mismatch is the same as a mismatch only. -/
theorem exists_clash (same : SameGoals (.clash :: goals) goals') :
    ∃ rest, goals' = .clash :: rest := by
  obtain ⟨goal, rest, rfl, isGoal, _⟩ := List.map_eq_cons_iff.1 same.symm
  cases goal with
  | clash => exact ⟨rest, rfl⟩
  | compare => cases isGoal

/-- A goal that compares types is the same as one that compares these types. -/
theorem exists_compare (same : SameGoals (.compare left right :: goals) goals') :
    ∃ left' right' rest, goals' = .compare left' right' :: rest ∧
      left.unnamed = left'.unnamed ∧ right.unnamed = right'.unnamed ∧ SameGoals goals rest := by
  obtain ⟨goal, rest, rfl, isGoal, sameRest⟩ := List.map_eq_cons_iff.1 same.symm
  cases goal with
  | clash => cases isGoal
  | compare left' right' =>
    rw [Goal.unnamed, Goal.unnamed, Goal.compare.injEq] at isGoal
    exact ⟨left', right', rest, rfl, isGoal.1.symm, isGoal.2.symm, sameRest.symm⟩

/-- The same pair may be put in front. -/
theorem compare (isLeft : left.unnamed = left'.unnamed) (isRight : right.unnamed = right'.unnamed)
    (same : SameGoals goals goals') :
    SameGoals (.compare left right :: goals) (.compare left' right' :: goals') := by
  rw [SameGoals, List.map_cons, List.map_cons, same, Goal.unnamed, Goal.unnamed, isLeft, isRight]

/-- The layer of the same pair may be put in front. -/
theorem layer (ignores : comparison.IgnoresNames) (isLeft : left.unnamed = left'.unnamed)
    (isRight : right.unnamed = right'.unnamed) (same : SameGoals goals goals') :
    SameGoals (comparison.layer left right ++ goals)
      (comparison.layer left' right' ++ goals') := by
  rw [SameGoals, List.map_append, List.map_append, same, ← ignores, ← ignores, isLeft, isRight]

end SameGoals

/-- A run is a run under other names of parameters. -/
theorem Settles.congr (ignores : comparison.IgnoresNames) {goals goals' : List Goal}
    {final : List (Ty × Ty)} {answer : Bool}
    (run : comparison.Settles goals assumptions answer final) (sameGoals : SameGoals goals goals')
    (same : SameAssumptions assumptions assumptions') :
    ∃ final', comparison.Settles goals' assumptions' answer final' := by
  induction run generalizing goals' assumptions' with
  | done =>
    rw [sameGoals.eq_nil]
    exact ⟨_, .done⟩
  | clash =>
    obtain ⟨rest, rfl⟩ := sameGoals.exists_clash
    exact ⟨_, .clash⟩
  | assumed covered _ ih =>
    obtain ⟨left', right', rest, rfl, isLeft, isRight, sameRest⟩ := sameGoals.exists_compare
    obtain ⟨final', run⟩ := ih sameRest same
    exact ⟨final', .assumed ((same.covered_iff isLeft isRight).1 covered) run⟩
  | unfold uncovered unfolds _ ih =>
    obtain ⟨left', right', rest, rfl, isLeft, isRight, sameRest⟩ := sameGoals.exists_compare
    obtain ⟨first, second, unfolds', isFirst, isSecond⟩ :=
      exists_unfoldPair? isLeft isRight unfolds
    obtain ⟨final', run⟩ := ih (.compare isFirst isSecond sameRest) (same.insert isLeft isRight)
    exact ⟨final', .unfold (mt (same.covered_iff isLeft isRight).2 uncovered) unfolds' run⟩
  | layer uncovered bare _ ih =>
    obtain ⟨left', right', rest, rfl, isLeft, isRight, sameRest⟩ := sameGoals.exists_compare
    obtain ⟨final', run⟩ := ih (.layer ignores isLeft isRight sameRest) same
    exact ⟨final', .layer (mt (same.covered_iff isLeft isRight).2 uncovered)
      (unfoldPair?_eq_none_congr isLeft isRight bare) run⟩

/-! ## Comparisons -/

/-- A comparison whose goals have no run has no answer. -/
theorem endless_of_not_settles {allowance : Nat} {tasks : List Task} {progress : Progress}
    (none : ∀ answer final,
      ¬ comparison.Settles (tasks.map Task.goal) progress.assumptions answer final) :
    (comparison.settle allowance tasks progress).verdict = .endless := by
  by_contra answered
  exact none _ _ (comparison.settles_of_settle allowance tasks progress answered)

section Steps

variable {allowance : Nat} {progress : Progress} {visits : List Visit} {rest : List Task}

/-- A pair that is covered needs no work. -/
theorem settle_covered (covered : Covered progress.assumptions left right) :
    comparison.settle allowance (⟨.compare left right, visits⟩ :: rest) progress =
      comparison.settle allowance rest progress := by
  rw [settle.eq_def]
  exact if_pos ((progress.covers_iff left right).2 covered)

/-- A pair without a recursive type goes on with its layer. -/
theorem settle_layer (uncovered : ¬ Covered progress.assumptions left right)
    (bare : unfoldPair? left right = none) :
    comparison.settle allowance (⟨.compare left right, visits⟩ :: rest) progress =
      comparison.settle allowance (Task.ofGoals (comparison.layer left right) visits ++ rest)
        progress := by
  rw [settle.eq_def]
  dsimp only
  rw [if_neg (mt (progress.covers_iff left right).1 uncovered), bare]

/-- Without an allowance no pair is unfolded. -/
theorem settle_spent (uncovered : ¬ Covered progress.assumptions left right)
    {first second : Ty} (unfolds : unfoldPair? left right = some (first, second)) :
    comparison.settle 0 (⟨.compare left right, visits⟩ :: rest) progress =
      ⟨.endless, progress⟩ := by
  rw [settle.eq_def]
  dsimp only
  rw [if_neg (mt (progress.covers_iff left right).1 uncovered), unfolds]

/-- A pair with a recursive type is unfolded, unless it has led to itself. -/
theorem settle_unfold (uncovered : ¬ Covered progress.assumptions left right)
    {first second : Ty} (unfolds : unfoldPair? left right = some (first, second)) :
    comparison.settle (allowance + 1) (⟨.compare left right, visits⟩ :: rest) progress =
      if progress.visit left right ∈ visits then ⟨.endless, progress⟩
      else comparison.settle allowance
        (⟨.compare first second, progress.visit left right :: visits⟩ :: rest)
        (progress.assume left right) := by
  rw [settle.eq_def]
  dsimp only
  rw [if_neg (mt (progress.covers_iff left right).1 uncovered), unfolds]

end Steps

/-- A task that does the same as one that compares types compares these types. -/
theorem SameGoals.exists_task {goals : List Goal} {tasks : List Task}
    (same : SameGoals (.compare left right :: goals) (tasks.map Task.goal)) :
    ∃ left' right' visits rest, tasks = ⟨.compare left' right', visits⟩ :: rest ∧
      left.unnamed = left'.unnamed ∧ right.unnamed = right'.unnamed ∧
        SameGoals goals (rest.map Task.goal) := by
  obtain ⟨left', right', later, isTasks, isLeft, isRight, sameRest⟩ := same.exists_compare
  obtain ⟨⟨goal, visits⟩, rest, rfl, rfl, rfl⟩ := List.map_eq_cons_iff.1 isTasks
  exact ⟨left', right', visits, rest, rfl, isLeft, isRight, sameRest⟩

/-- Comparisons of the same goals come to the same, whatever the names of parameters. -/
theorem verdict_settle_congr (ignores : comparison.IgnoresNames) {allowance : Nat}
    {tasks tasks' : List Task} {progress progress' : Progress}
    (led : comparison.Led tasks progress.assumptions)
    (led' : comparison.Led tasks' progress'.assumptions)
    (sameGoals : SameGoals (tasks.map Task.goal) (tasks'.map Task.goal))
    (same : SameAssumptions progress.assumptions progress'.assumptions) :
    (comparison.settle allowance tasks progress).verdict =
      (comparison.settle allowance tasks' progress').verdict := by
  fun_induction comparison.settle allowance tasks progress generalizing tasks' progress' with
  | case1 =>
    obtain rfl := List.map_eq_nil_iff.1 sameGoals.eq_nil
    rw [settle]
  | case2 =>
    obtain ⟨goals, isTasks⟩ := sameGoals.exists_clash
    obtain ⟨⟨goal, visits⟩, rest, rfl, rfl, rfl⟩ := List.map_eq_cons_iff.1 isTasks
    rw [settle]
  | case3 allowance progress left right visits rest covers ih =>
    obtain ⟨left', right', visits', rest', rfl, isLeft, isRight, sameRest⟩ := sameGoals.exists_task
    have covered := (progress.covers_iff left right).1 covers
    have covered' := (same.covered_iff isLeft isRight).1 covered
    rw [settle_covered covered']
    exact ih (led.assumed covered) (led'.assumed covered') sameRest same
  | case4 progress left right visits rest uncovers allowance bare ih =>
    obtain ⟨left', right', visits', rest', rfl, isLeft, isRight, sameRest⟩ := sameGoals.exists_task
    have uncovered := mt (progress.covers_iff left right).2 uncovers
    have uncovered' := mt (same.covered_iff isLeft isRight).2 uncovered
    have bare' := unfoldPair?_eq_none_congr isLeft isRight bare
    rw [settle_layer uncovered' bare']
    apply ih (led.layer uncovered bare) (led'.layer uncovered' bare') _ same
    rw [Task.map_goal_ofGoals_append, Task.map_goal_ofGoals_append]
    exact .layer ignores isLeft isRight sameRest
  | case5 progress left right visits rest uncovers pair unfolds =>
    obtain ⟨left', right', visits', rest', rfl, isLeft, isRight, sameRest⟩ := sameGoals.exists_task
    have uncovered := mt (progress.covers_iff left right).2 uncovers
    obtain ⟨first', second', unfolds', _, _⟩ := exists_unfoldPair? isLeft isRight unfolds
    rw [settle_spent (mt (same.covered_iff isLeft isRight).2 uncovered) unfolds']
  | case6 progress left right visits rest uncovers first second allowance unfolds visit =>
    rename_i visited
    -- The first comparison goes round, so its goals have no run, and so have the other ones.
    refine (endless_of_not_settles ?_).symm
    intro answer final run
    obtain ⟨final', run'⟩ := run.congr ignores sameGoals.symm same.symm
    exact led.not_settles visited run'
  | case7 progress left right visits rest uncovers first second allowance unfolds visit _ =>
    rename_i ih
    obtain ⟨left', right', visits', rest', rfl, isLeft, isRight, sameRest⟩ := sameGoals.exists_task
    have uncovered := mt (progress.covers_iff left right).2 uncovers
    have uncovered' := mt (same.covered_iff isLeft isRight).2 uncovered
    obtain ⟨first', second', unfolds', isFirst, isSecond⟩ :=
      exists_unfoldPair? isLeft isRight unfolds
    rw [settle_unfold uncovered' unfolds']
    split
    next visited =>
      -- Only the second comparison has noticed yet that it goes round.
      refine endless_of_not_settles ?_
      intro answer final run
      have whole : comparison.Settles (.compare left right :: rest.map Task.goal)
          progress.assumptions answer final := .unfold uncovered unfolds run
      obtain ⟨final', run'⟩ := whole.congr ignores sameGoals same
      exact led'.not_settles visited run'
    next =>
      exact ih (led.unfold uncovered unfolds) (led'.unfold uncovered' unfolds')
        (.compare isFirst isSecond sameRest) (same.insert isLeft isRight)

/-- What a comparison of two types comes to does not depend on the names of parameters. -/
theorem verdict_congr (ignores : comparison.IgnoresNames) (isLeft : left.unnamed = left'.unnamed)
    (isRight : right.unnamed = right'.unnamed) :
    (comparison.judge left right).verdict = (comparison.judge left' right').verdict := by
  have sameAllowance : allowance left right = allowance left' right' := by
    rw [allowance, allowance, ← left.size_unnamed, ← right.size_unnamed, isLeft, isRight,
      Ty.size_unnamed, Ty.size_unnamed]
  have sameGoals : SameGoals [.compare left right] [.compare left' right'] :=
    .compare isLeft isRight rfl
  rw [judge, judge, sameAllowance]
  exact verdict_settle_congr ignores (.start _) (.start _) sameGoals fun _ => Iff.rfl

end Comparison

end Equirec
