import Equirec.Proofs.Alike

/-!
# Simplifying ends

`Ty.Simplifies` is the loop of simplifying as such: it unfolds a type as long as it is recursive at
the top and not alike to one visited before, with no bound on how often. `Ty.simplify` allows as
many unfoldings as there are binders in front of the type. That bound never cuts the loop short,
whatever the type (`simplifies_simplify`): as long as the binders are guarded, each unfolding takes
one of them off, and at a binder that is not guarded the type goes round in as many unfoldings as
are left.
-/
namespace Equirec.Ty

/-- A run of simplifying: the types visited, the type it has come to, and the type it ends with. -/
inductive Simplifies : List Ty → Ty → Ty → Prop where
  /-- A type that is not recursive at the top. -/
  | done {visited : List Ty} {type : Ty} (bare : type.unfolding? = none) :
    Simplifies visited type type
  /-- A type that is alike to one visited before. -/
  | round {visited : List Ty} {name : String} {body : Ty}
    (seen : ∃ earlier ∈ visited, earlier.alike (.mu name body) = true) :
    Simplifies visited (.mu name body) (.mu name body)
  /-- Any other recursive type goes on unfolded. -/
  | unfold {visited : List Ty} {name : String} {body result : Ty}
    (fresh : ¬ ∃ earlier ∈ visited, earlier.alike (.mu name body) = true)
    (rest : Simplifies (.mu name body :: visited) (unfolded name body) result) :
    Simplifies visited (.mu name body) result

/-! ## Binders that are not guarded -/

/-- In a type in which a variable is not guarded, no other variable occurs. -/
theorem eq_of_occurs_of_unguarded {type : Ty} {name other : String}
    (unguarded : type.isGuarded name = false) (free : type.occurs other = true) :
    other = name := by
  induction type with
  | var used =>
    have isName : used = name := by simpa [isGuarded] using unguarded
    have isOther : used = other := by simpa [occurs] using free
    exact isOther.symm.trans isName
  | mu bound body bodyIH =>
    simp only [isGuarded, Bool.or_eq_false_iff] at unguarded
    simp only [occurs, Bool.and_eq_true] at free
    exact bodyIH unguarded.2 free.2
  | _ => simp [isGuarded] at unguarded

/-- A type in which a variable is not guarded has no properties, so none is repeated. -/
theorem hasDistinctNames_of_unguarded {type : Ty} {name : String}
    (unguarded : type.isGuarded name = false) : type.hasDistinctNames = true := by
  induction type with
  | var => rfl
  | mu bound body bodyIH =>
    simp only [isGuarded, Bool.or_eq_false_iff] at unguarded
    exact bodyIH unguarded.2
  | _ => simp [isGuarded] at unguarded

/-- A recursive type whose binder is not guarded is closed. -/
theorem isClosed_of_unguarded {name : String} {body : Ty}
    (unguarded : body.isGuarded name = false) : (mu name body).isClosed = true := by
  rw [isClosed_iff]
  intro other
  rw [Bool.eq_false_iff]
  intro free
  simp only [occurs, Bool.and_eq_true, bne_iff_ne] at free
  exact free.1 (eq_of_occurs_of_unguarded unguarded free.2).symm

/-- Once a closed type that is alike to itself has been visited, simplifying comes back to it from
under any binders that stand in front of it. -/
theorem simplifies_simplifyFrom_back {visited : List Ty} {name : String} {body : Ty}
    (closed : (mu name body).isClosed = true) (self : (mu name body).alike (mu name body) = true)
    (isVisited : mu name body ∈ visited) {front : Ty} (unguarded : front.isGuarded name = false)
    {unfoldings : Nat} (enough : front.leadingBinders ≤ unfoldings) :
    Simplifies visited (front.subst name (.mu name body))
      (simplifyFrom visited unfoldings (front.subst name (.mu name body))) := by
  induction front generalizing visited unfoldings with
  | var used =>
    have isName : used = name := by simpa [isGuarded] using unguarded
    have seen : ∃ earlier ∈ visited, earlier.alike (mu name body) = true := ⟨_, isVisited, self⟩
    have stops : simplifyFrom visited unfoldings (.mu name body) = .mu name body := by
      cases unfoldings with
      | zero => rfl
      | succ unfoldings => rw [simplifyFrom, if_pos (List.any_eq_true.2 seen)]
    simp only [subst, isName, if_true]
    rw [stops]
    exact .round seen
  | mu bound rest restIH =>
    simp only [isGuarded, Bool.or_eq_false_iff, beq_eq_false_iff_ne] at unguarded
    simp only [leadingBinders] at enough
    obtain ⟨unfoldings, rfl⟩ : ∃ fewer, unfoldings = fewer + 1 := ⟨unfoldings - 1, by omega⟩
    have absent : (rest.subst name (.mu name body)).occurs bound = false := by
      rw [Bool.eq_false_iff, Ne, occurs_subst closed]
      rintro ⟨differ, free⟩
      exact differ (eq_of_occurs_of_unguarded unguarded.2 free)
    have dropped : unfolded bound (rest.subst name (.mu name body)) =
        rest.subst name (.mu name body) :=
      subst_of_not_occurs _ bound _ absent
    simp only [subst, unguarded.1, if_false]
    by_cases seen : ∃ earlier ∈ visited,
        earlier.alike (mu bound (rest.subst name (.mu name body))) = true
    · rw [simplifyFrom, if_pos (List.any_eq_true.2 seen)]
      exact .round seen
    · rw [simplifyFrom, if_neg (fun any => seen (List.any_eq_true.1 any)), dropped]
      apply Simplifies.unfold seen
      rw [dropped]
      exact restIH (.tail _ isVisited) unguarded.2 (by omega)
  | _ => simp [isGuarded] at unguarded

/-! ## All types -/

/-- As many unfoldings as there are binders in front of a type never cut simplifying short. -/
theorem simplifies_simplifyFrom {visited : List Ty} {unfoldings : Nat} {type : Ty}
    (enough : type.leadingBinders ≤ unfoldings) :
    Simplifies visited type (simplifyFrom visited unfoldings type) := by
  induction unfoldings generalizing visited type with
  | zero =>
    cases type with
    | mu name body => simp [leadingBinders] at enough
    | _ => exact .done rfl
  | succ unfoldings ih =>
    cases type with
    | mu name body =>
      simp only [leadingBinders] at enough
      by_cases seen : ∃ earlier ∈ visited, earlier.alike (mu name body) = true
      · rw [simplifyFrom, if_pos (List.any_eq_true.2 seen)]
        exact .round seen
      · rw [simplifyFrom, if_neg (fun any => seen (List.any_eq_true.1 any))]
        apply Simplifies.unfold seen
        by_cases guarded : body.isGuarded name = true
        · apply ih
          rw [unfolded, leadingBinders_subst body name _ guarded]
          omega
        · rw [Bool.not_eq_true] at guarded
          have closed := isClosed_of_unguarded guarded
          have distinct : (mu name body).hasDistinctNames = true := by
            rw [hasDistinctNames]
            exact hasDistinctNames_of_unguarded guarded
          exact simplifies_simplifyFrom_back closed (alike_self distinct) (.head _) guarded
            (by omega)
    | _ => exact .done rfl

/-- Simplifying any type, open or closed and with any property names, runs to its end. -/
theorem simplifies_simplify (type : Ty) : Simplifies [] type type.simplify :=
  simplifies_simplifyFrom (Nat.le_refl _)

end Equirec.Ty
