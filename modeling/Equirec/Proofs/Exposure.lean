import Equirec.Proofs.Decision
import Equirec.Proofs.Formation
import Equirec.Proofs.Simplifying

/-!
# What simplifying ends with

The binders in front of a type either stand before a first layer, or they go round: the chain of
them ends directly in a variable that it binds. Unfolding keeps which of the two it is
(`loops_unfolded`). Where the chain goes round, simplifying therefore ends with a recursive type.
Where it does not, each unfolding takes one binder off, so that nothing met on the way is alike to
an earlier type, and simplifying ends with the first layer (`simplify_exposes`).
-/
namespace Equirec.Ty

/-- Whether the chain of binders in front of a type ends directly in a variable that it binds. -/
def Loops (type : Ty) : Prop :=
  ∃ (names : List String) (last : String), type = names.foldr mu (.var last) ∧ last ∈ names

/-- A type that is not recursive at the top has no binders that could go round. -/
theorem not_loops_of_bare {type : Ty} (bare : type.unfolding? = none) : ¬ type.Loops := by
  rintro ⟨names, last, rfl, isMember⟩
  cases names with
  | nil => simp at isMember
  | cons name names => simp [unfolding?] at bare

/-- A type that goes round is recursive at the top. -/
theorem Loops.exists_eq_mu {type : Ty} (loops : type.Loops) :
    ∃ name body, type = .mu name body := by
  cases type with
  | mu name body => exact ⟨name, body, rfl⟩
  | _ => exact absurd loops (not_loops_of_bare rfl)

/-- A variable is not guarded exactly where it ends a chain of other binders. -/
theorem isGuarded_eq_false_iff (type : Ty) (name : String) :
    type.isGuarded name = false ↔
      ∃ names : List String, type = names.foldr mu (.var name) ∧ name ∉ names := by
  induction type with
  | var used =>
    simp only [isGuarded, bne_eq_false_iff_eq]
    constructor
    · rintro rfl
      exact ⟨[], rfl, by simp⟩
    · rintro ⟨names, isChain, _⟩
      cases names with
      | nil => exact var.inj isChain
      | cons => cases isChain
  | mu bound body bodyIH =>
    simp only [isGuarded, Bool.or_eq_false_iff, beq_eq_false_iff_ne, bodyIH]
    constructor
    · rintro ⟨differ, names, rfl, absent⟩
      exact ⟨bound :: names, rfl, by simp [absent, Ne.symm differ]⟩
    · rintro ⟨names, isChain, absent⟩
      cases names with
      | nil => cases isChain
      | cons first names =>
        cases isChain
        simp only [List.mem_cons, not_or] at absent
        exact ⟨Ne.symm absent.1, names, rfl, absent.2⟩
  | _ =>
    simp only [isGuarded, Bool.true_eq_false, false_iff]
    rintro ⟨names, isChain, _⟩
    cases names <;> cases isChain

/-- A recursive type goes round when its own variable is not guarded or its body goes round. -/
theorem loops_mu (name : String) (body : Ty) :
    (mu name body).Loops ↔ body.isGuarded name = false ∨ body.Loops := by
  rw [isGuarded_eq_false_iff]
  constructor
  · rintro ⟨names, last, isChain, isMember⟩
    cases names with
    | nil => simp at isMember
    | cons first names =>
      cases isChain
      by_cases inner : last ∈ names
      · exact .inr ⟨names, last, rfl, inner⟩
      · obtain rfl : last = name := (List.mem_cons.1 isMember).resolve_right inner
        exact .inl ⟨names, rfl, inner⟩
  · rintro (⟨names, rfl, _⟩ | ⟨names, last, rfl, inner⟩)
    · exact ⟨name :: names, name, rfl, .head _⟩
    · exact ⟨name :: names, last, rfl, .tail _ inner⟩

/-! ## Unfolding keeps what goes round -/

/-- Replacing a guarded variable changes no chain of binders in front, so the others stay guarded or
not. -/
theorem isGuarded_subst_of_isGuarded (type : Ty) {name : String} (replacement : Ty)
    (other : String) (guarded : type.isGuarded name = true) :
    (type.subst name replacement).isGuarded other = type.isGuarded other := by
  induction type with
  | var used =>
    have differ : used ≠ name := by simpa [isGuarded] using guarded
    rw [subst, if_neg differ]
  | mu bound body bodyIH =>
    by_cases same : bound = name
    · rw [subst, if_pos same]
    · simp only [isGuarded, Bool.or_eq_true, beq_iff_eq] at guarded
      rw [subst, if_neg same, isGuarded, isGuarded, bodyIH (guarded.resolve_left same)]
  | _ => rfl

/-- Replacing a guarded variable keeps whether a type goes round. -/
theorem loops_subst_of_isGuarded (type : Ty) {name : String} (replacement : Ty)
    (guarded : type.isGuarded name = true) :
    (type.subst name replacement).Loops ↔ type.Loops := by
  induction type with
  | var used =>
    have differ : used ≠ name := by simpa [isGuarded] using guarded
    rw [subst, if_neg differ]
  | mu bound body bodyIH =>
    by_cases same : bound = name
    · rw [subst, if_pos same]
    · simp only [isGuarded, Bool.or_eq_true, beq_iff_eq] at guarded
      have inBody := guarded.resolve_left same
      rw [subst, if_neg same, loops_mu, loops_mu, bodyIH inBody,
        isGuarded_subst_of_isGuarded body replacement bound inBody]
  | number => exact Iff.rfl
  | boolean => exact Iff.rfl
  | function => exact iff_of_false (not_loops_of_bare rfl) (not_loops_of_bare rfl)
  | object => exact iff_of_false (not_loops_of_bare rfl) (not_loops_of_bare rfl)

/-- Binders in front of a type that goes round go round. -/
theorem Loops.subst_of_unguarded {replacement : Ty} (loops : replacement.Loops) {front : Ty}
    {name : String} (unguarded : front.isGuarded name = false) :
    (front.subst name replacement).Loops := by
  induction front with
  | var used =>
    have same : used = name := by simpa [isGuarded] using unguarded
    rwa [subst, if_pos same]
  | mu bound rest restIH =>
    simp only [isGuarded, Bool.or_eq_false_iff, beq_eq_false_iff_ne] at unguarded
    rw [subst, if_neg unguarded.1, loops_mu]
    exact .inr (restIH unguarded.2)
  | _ => simp [isGuarded] at unguarded

/-- A recursive type goes round exactly when its unfolding does. -/
theorem loops_unfolded (name : String) (body : Ty) :
    (unfolded name body).Loops ↔ (mu name body).Loops := by
  -- The copies of the type stand behind a layer, or the only one stands at the end of the chain.
  by_cases guarded : body.isGuarded name = true
  · rw [unfolded, loops_subst_of_isGuarded body _ guarded, loops_mu, guarded]
    simp
  · rw [Bool.not_eq_true] at guarded
    have whole : (mu name body).Loops := (loops_mu name body).2 (.inl guarded)
    exact iff_of_true (whole.subst_of_unguarded guarded) whole

/-! ## Runs -/

namespace Simplifies

variable {visited : List Ty} {type result : Ty}

/-- What simplifying ends with goes round exactly when the type does. -/
theorem loops_iff (run : Simplifies visited type result) : result.Loops ↔ type.Loops := by
  induction run with
  | done => exact Iff.rfl
  | round => exact Iff.rfl
  | unfold _ _ ih => exact ih.trans (loops_unfolded _ _)

/-- A type that does not go round is simplified to one that is not recursive at the top, as long as
everything visited had more binders in front. -/
theorem bare (run : Simplifies visited type result) (ends : ¬ type.Loops)
    (later : ∀ earlier ∈ visited, type.leadingBinders < earlier.leadingBinders) :
    result.unfolding? = none := by
  induction run with
  | done bare => exact bare
  | round seen =>
    -- Alike types have as many binders in front, but what was visited had more.
    obtain ⟨earlier, isVisited, alike⟩ := seen
    have same := leadingBinders_eq_of_alikeUnder alike
    have fewer := later earlier isVisited
    omega
  | @unfold visited name body result _ _ ih =>
    have fewer : (unfolded name body).leadingBinders < (mu name body).leadingBinders := by
      rw [loops_mu, not_or, Bool.not_eq_false] at ends
      rw [unfolded, leadingBinders_subst body name _ ends.1]
      exact Nat.lt_succ_self _
    refine ih (by rwa [loops_unfolded]) ?_
    rw [List.forall_mem_cons]
    exact ⟨fewer, fun earlier isVisited => fewer.trans (later earlier isVisited)⟩

/-- A run ends with one type only. -/
theorem unique {result' : Ty} (run : Simplifies visited type result)
    (run' : Simplifies visited type result') : result = result' := by
  induction run with
  | done bare =>
    cases run' with
    | done => rfl
    | round => rfl
    | unfold => simp [unfolding?] at bare
  | round seen =>
    cases run' with
    | done => rfl
    | round => rfl
    | unfold fresh => exact absurd seen fresh
  | unfold fresh _ ih =>
    cases run' with
    | done bare => simp [unfolding?] at bare
    | round seen => exact absurd seen fresh
    | unfold _ rest' => exact ih rest'

end Simplifies

/-- Simplifying ends with a recursive type exactly when the type goes round. -/
theorem simplify_eq_mu_iff (type : Ty) :
    (∃ name body, type.simplify = .mu name body) ↔ type.Loops := by
  have run := simplifies_simplify type
  constructor
  · rintro ⟨name, body, recursive⟩
    by_contra ends
    have bare := run.bare ends (by simp)
    rw [recursive] at bare
    cases bare
  · intro loops
    exact (run.loops_iff.2 loops).exists_eq_mu

/-- A well-formed type has a first layer of one of the four forms. -/
theorem WellFormed.simplify_cases {type : Ty} (wellFormed : type.WellFormed) :
    type.simplify = .number ∨ type.simplify = .boolean ∨
      (∃ parameters result, type.simplify = .function parameters result) ∨
      ∃ properties, type.simplify = .object properties := by
  obtain ⟨notMu, notVar⟩ := wellFormed.simplify_ne
  cases layer : type.simplify with
  | number => exact .inl rfl
  | boolean => exact .inr (.inl rfl)
  | function parameters result => exact .inr (.inr (.inl ⟨parameters, result, rfl⟩))
  | object properties => exact .inr (.inr (.inr ⟨properties, rfl⟩))
  | var name => exact absurd layer (notVar name)
  | mu name body => exact absurd layer (notMu name body)

/-- Simplifying ends for every type, with the same type however it is run, and with a recursive type
exactly when the binders in front of the type go round. A well-formed type is simplified to a
number, a boolean, a function or an object, which equals the type from both sides. -/
theorem simplify_exposes (type : Ty) :
    (∀ result, Simplifies [] type result ↔ result = type.simplify) ∧
      ((∃ name body, type.simplify = .mu name body) ↔ type.Loops) ∧
      (type.WellFormed →
        (type.simplify = .number ∨ type.simplify = .boolean ∨
          (∃ parameters result, type.simplify = .function parameters result) ∨
          ∃ properties, type.simplify = .object properties) ∧
        type.equals type.simplify = true ∧ type.simplify.equals type = true) := by
  have run := simplifies_simplify type
  refine ⟨fun result => ⟨fun run' => run'.unique run, ?_⟩, simplify_eq_mu_iff type, ?_⟩
  · rintro rfl
    exact run
  · intro wellFormed
    have same := SameTree.of_exposes wellFormed (exposes_simplify wellFormed)
    exact ⟨wellFormed.simplify_cases, (equals_iff_sameTree wellFormed wellFormed.simplify).2 same,
      (equals_iff_sameTree wellFormed.simplify wellFormed).2 same.symm⟩

/-- Three binders, two of them of one name, are unfolded to the object behind them, which equals the
type. Two binders that end in the variable of the first go round. -/
theorem simplify_exposes_shadowed :
    let shadowed := mu "A" (.mu "B" (.mu "A" (.object [("x", .var "A"), ("y", .var "B")])))
    let alternating := mu "X" (.mu "Y" (.var "X"))
    shadowed.WellFormed ∧ (∃ properties, shadowed.simplify = .object properties) ∧
      shadowed.equals shadowed.simplify = true ∧ shadowed.simplify.equals shadowed = true ∧
      Simplifies [] alternating alternating ∧
      ∃ name body, alternating.simplify = .mu name body := by
  intro shadowed alternating
  have wellFormed : shadowed.WellFormed := by decide
  obtain ⟨_, _, layer⟩ := simplify_exposes shadowed
  obtain ⟨runs, round, _⟩ := simplify_exposes alternating
  refine ⟨wellFormed, ⟨_, rfl⟩, (layer wellFormed).2.1, (layer wellFormed).2.2, ?_, ?_⟩
  · exact (runs alternating).2 (by decide)
  · exact round.2 ⟨["X", "Y"], "X", rfl, by simp⟩

end Equirec.Ty
