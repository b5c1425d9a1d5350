import Equirec.Ty.Simplify

/-!
# Well-formed types

A type is well-formed when it is closed, when it is contractive, and when no object type in it
repeats a property name. A closed type has no free variables, a contractive one unfolds to a first
layer. The three conditions are computed, and unfolding a type and taking it apart keep each of
them. Substitution does not rename binders, which is harmless here: what is substituted is closed.
-/
namespace Equirec.Ty

/-- A variable that does not occur free cannot be replaced. -/
theorem subst_of_not_occurs (type : Ty) (name : String) (replacement : Ty)
    (absent : type.occurs name = false) : type.subst name replacement = type := by
  induction type with
  | number => rfl
  | boolean => rfl
  | function parameters result parametersIH resultIH =>
    simp only [occurs, occursIn_eq_any, Bool.or_eq_false_iff, List.any_eq_false,
      Bool.not_eq_true] at absent
    have same : ∀ member ∈ parameters, (member.1, member.2.subst name replacement) = member :=
      fun member isMember => by rw [parametersIH member isMember (absent.1 member isMember)]
    simp only [subst, substIn_eq_map, resultIH absent.2, List.map_congr_left same, List.map_id']
  | object properties propertiesIH =>
    simp only [occurs, occursIn_eq_any, List.any_eq_false, Bool.not_eq_true] at absent
    have same : ∀ member ∈ properties, (member.1, member.2.subst name replacement) = member :=
      fun member isMember => by rw [propertiesIH member isMember (absent member isMember)]
    simp only [subst, substIn_eq_map, List.map_congr_left same, List.map_id']
  | var other => simp_all [occurs, subst]
  | mu bound body bodyIH =>
    simp only [occurs, Bool.and_eq_false_iff, bne_eq_false_iff_eq] at absent
    by_cases same : bound = name
    · simp [subst, same]
    · simp [subst, same, bodyIH (absent.resolve_left same)]

mutual

/-- Whether every variable of a type is one of the given names or lies under a binder of its
name. -/
def isClosedUnder (bound : List String) : Ty → Bool
  | .number | .boolean => true
  | .function parameters result => isClosedUnderIn bound parameters && result.isClosedUnder bound
  | .object properties => isClosedUnderIn bound properties
  | .var name => decide (name ∈ bound)
  | .mu name body => body.isClosedUnder (name :: bound)

/-- Whether every variable of every member is one of the given names or lies under a binder of its
name. -/
def isClosedUnderIn (bound : List String) : List (String × Ty) → Bool
  | [] => true
  | (_, type) :: rest => type.isClosedUnder bound && isClosedUnderIn bound rest

end

@[simp]
theorem isClosedUnderIn_eq_all (bound : List String) (members : List (String × Ty)) :
    isClosedUnderIn bound members = members.all fun member => member.2.isClosedUnder bound := by
  induction members with
  | nil => rfl
  | cons member rest ih => simp [isClosedUnderIn, ih]

/-- Whether every variable of a type lies under a binder of its name. -/
def isClosed (type : Ty) : Bool :=
  type.isClosedUnder []

mutual

/-- Whether no chain of binders in a type ends directly in a variable that the chain binds. -/
def isContractive : Ty → Bool
  | .number | .boolean | .var _ => true
  | .function parameters result => isContractiveIn parameters && result.isContractive
  | .object properties => isContractiveIn properties
  | .mu name body => body.isGuarded name && body.isContractive

/-- Whether no chain of binders in any member ends directly in a variable that the chain binds. -/
def isContractiveIn : List (String × Ty) → Bool
  | [] => true
  | (_, type) :: rest => type.isContractive && isContractiveIn rest

end

@[simp]
theorem isContractiveIn_eq_all (members : List (String × Ty)) :
    isContractiveIn members = members.all fun member => member.2.isContractive := by
  induction members with
  | nil => rfl
  | cons member rest ih => simp [isContractiveIn, ih]

mutual

/-- Whether no object type in a type lists a property name twice. -/
def hasDistinctNames : Ty → Bool
  | .number | .boolean | .var _ => true
  | .function parameters result => hasDistinctNamesIn parameters && result.hasDistinctNames
  | .object properties =>
    decide (properties.map Prod.fst).Nodup && hasDistinctNamesIn properties
  | .mu _ body => body.hasDistinctNames

/-- Whether no object type in any member lists a property name twice. -/
def hasDistinctNamesIn : List (String × Ty) → Bool
  | [] => true
  | (_, type) :: rest => type.hasDistinctNames && hasDistinctNamesIn rest

end

@[simp]
theorem hasDistinctNamesIn_eq_all (members : List (String × Ty)) :
    hasDistinctNamesIn members = members.all fun member => member.2.hasDistinctNames := by
  induction members with
  | nil => rfl
  | cons member rest ih => simp [hasDistinctNamesIn, ih]

/-- A type that is closed, contractive and free of repeated property names. -/
structure WellFormed (type : Ty) : Prop where
  /-- Every variable lies under a binder of its name. -/
  closed : type.isClosed = true
  /-- No chain of binders ends directly in a variable that it binds. -/
  contractive : type.isContractive = true
  /-- No object type lists a property name twice. -/
  distinct : type.hasDistinctNames = true

instance (type : Ty) : Decidable type.WellFormed :=
  decidable_of_iff
    (type.isClosed = true ∧ type.isContractive = true ∧ type.hasDistinctNames = true)
    ⟨fun ⟨closed, contractive, distinct⟩ => ⟨closed, contractive, distinct⟩,
      fun wellFormed => ⟨wellFormed.closed, wellFormed.contractive, wellFormed.distinct⟩⟩

namespace WellFormed

/-- A function type is well-formed when its parameters and its result are. -/
theorem function {parameters : List (String × Ty)} {result : Ty}
    (inParameters : ∀ member ∈ parameters, member.2.WellFormed) (inResult : result.WellFormed) :
    (Ty.function parameters result).WellFormed where
  closed := by
    simp only [isClosed, isClosedUnder, isClosedUnderIn_eq_all, Bool.and_eq_true, List.all_eq_true]
    exact ⟨fun member isMember => (inParameters member isMember).closed, inResult.closed⟩
  contractive := by
    simp only [isContractive, isContractiveIn_eq_all, Bool.and_eq_true, List.all_eq_true]
    exact ⟨fun member isMember => (inParameters member isMember).contractive,
      inResult.contractive⟩
  distinct := by
    simp only [hasDistinctNames, hasDistinctNamesIn_eq_all, Bool.and_eq_true, List.all_eq_true]
    exact ⟨fun member isMember => (inParameters member isMember).distinct, inResult.distinct⟩

/-- An object type is well-formed when its property names are distinct and its properties are
well-formed. -/
theorem object {properties : List (String × Ty)} (names : (properties.map Prod.fst).Nodup)
    (inProperties : ∀ member ∈ properties, member.2.WellFormed) :
    (Ty.object properties).WellFormed where
  closed := by
    simp only [isClosed, isClosedUnder, isClosedUnderIn_eq_all, List.all_eq_true]
    exact fun member isMember => (inProperties member isMember).closed
  contractive := by
    simp only [isContractive, isContractiveIn_eq_all, List.all_eq_true]
    exact fun member isMember => (inProperties member isMember).contractive
  distinct := by
    simp only [hasDistinctNames, hasDistinctNamesIn_eq_all, Bool.and_eq_true, decide_eq_true_eq,
      List.all_eq_true]
    exact ⟨names, fun member isMember => (inProperties member isMember).distinct⟩

end WellFormed

/-- The types that another type consists of, one layer down. -/
inductive IsPart : Ty → Ty → Prop where
  /-- The type of a parameter. -/
  | parameter {parameters : List (String × Ty)} {result : Ty} {member : String × Ty}
    (isMember : member ∈ parameters) : IsPart member.2 (.function parameters result)
  /-- The type of the result. -/
  | result {parameters : List (String × Ty)} {result : Ty} :
    IsPart result (.function parameters result)
  /-- The type of a property. -/
  | property {properties : List (String × Ty)} {member : String × Ty}
    (isMember : member ∈ properties) : IsPart member.2 (.object properties)

/-! ## Closed types -/

/-- A type is closed under some names exactly when only these occur free in it. -/
theorem isClosedUnder_iff (type : Ty) (bound : List String) :
    type.isClosedUnder bound = true ↔ ∀ name, type.occurs name = true → name ∈ bound := by
  induction type generalizing bound with
  | number => simp [isClosedUnder, occurs]
  | boolean => simp [isClosedUnder, occurs]
  | function parameters result parametersIH resultIH =>
    simp only [isClosedUnder, isClosedUnderIn_eq_all, Bool.and_eq_true, List.all_eq_true, occurs,
      occursIn_eq_any, Bool.or_eq_true, List.any_eq_true, resultIH]
    constructor
    · rintro ⟨inParameters, inResult⟩ name (⟨member, isMember, free⟩ | free)
      · exact (parametersIH member isMember bound).1 (inParameters member isMember) name free
      · exact inResult name free
    · intro every
      refine ⟨fun member isMember => ?_, fun name free => every name (.inr free)⟩
      rw [parametersIH member isMember]
      exact fun name free => every name (.inl ⟨member, isMember, free⟩)
  | object properties propertiesIH =>
    simp only [isClosedUnder, isClosedUnderIn_eq_all, List.all_eq_true, occurs, occursIn_eq_any,
      List.any_eq_true]
    constructor
    · rintro inProperties name ⟨member, isMember, free⟩
      exact (propertiesIH member isMember bound).1 (inProperties member isMember) name free
    · intro every member isMember
      rw [propertiesIH member isMember]
      exact fun name free => every name ⟨member, isMember, free⟩
  | var other => simp [isClosedUnder, occurs]
  | mu bound' body bodyIH =>
    simp only [isClosedUnder, bodyIH, occurs, List.mem_cons, Bool.and_eq_true, bne_iff_ne]
    constructor
    · rintro inBody name ⟨differ, free⟩
      exact (inBody name free).resolve_left fun same => differ same.symm
    · intro every name free
      by_cases same : name = bound'
      · exact .inl same
      · exact .inr (every name ⟨fun other => same other.symm, free⟩)

/-- A type is closed exactly when no variable occurs free in it. -/
theorem isClosed_iff (type : Ty) :
    type.isClosed = true ↔ ∀ name, type.occurs name = false := by
  simp [isClosed, isClosedUnder_iff]

/-- A closed type is left alone by every substitution. -/
theorem subst_of_isClosed {type : Ty} (closed : type.isClosed = true) (name : String)
    (replacement : Ty) : type.subst name replacement = type :=
  subst_of_not_occurs type name replacement ((isClosed_iff type).1 closed name)

/-- Replacing a variable by a closed type takes that variable away and no other. -/
theorem occurs_subst {replacement : Ty} (closed : replacement.isClosed = true)
    (type : Ty) (name other : String) :
    (type.subst name replacement).occurs other = true ↔
      other ≠ name ∧ type.occurs other = true := by
  induction type with
  | number => simp [subst, occurs]
  | boolean => simp [subst, occurs]
  | function parameters result parametersIH resultIH =>
    simp only [subst, occurs, substIn_eq_map, occursIn_eq_any, List.any_map, Function.comp_def,
      Bool.or_eq_true, List.any_eq_true, resultIH]
    constructor
    · rintro (⟨member, isMember, free⟩ | ⟨differ, free⟩)
      · have inMember := (parametersIH member isMember).1 free
        exact ⟨inMember.1, .inl ⟨member, isMember, inMember.2⟩⟩
      · exact ⟨differ, .inr free⟩
    · rintro ⟨differ, ⟨member, isMember, free⟩ | free⟩
      · exact .inl ⟨member, isMember, (parametersIH member isMember).2 ⟨differ, free⟩⟩
      · exact .inr ⟨differ, free⟩
  | object properties propertiesIH =>
    simp only [subst, occurs, substIn_eq_map, occursIn_eq_any, List.any_map, Function.comp_def,
      List.any_eq_true]
    constructor
    · rintro ⟨member, isMember, free⟩
      have inMember := (propertiesIH member isMember).1 free
      exact ⟨inMember.1, member, isMember, inMember.2⟩
    · rintro ⟨differ, member, isMember, free⟩
      exact ⟨member, isMember, (propertiesIH member isMember).2 ⟨differ, free⟩⟩
  | var used =>
    by_cases same : used = name
    · have absent := (isClosed_iff replacement).1 closed other
      simp only [subst, same, if_true, absent, occurs, beq_iff_eq]
      grind
    · simp only [subst, same, if_false, occurs, beq_iff_eq]
      grind
  | mu bound body bodyIH =>
    by_cases same : bound = name
    · simp only [subst, same, if_true, occurs, Bool.and_eq_true, bne_iff_ne]
      grind
    · simp only [subst, same, if_false, occurs, Bool.and_eq_true, bne_iff_ne, bodyIH]
      grind

/-- Unfolding a closed type gives a closed type. -/
theorem isClosed_unfolded {name : String} {body : Ty} (closed : (mu name body).isClosed = true) :
    (unfolded name body).isClosed = true := by
  rw [isClosed_iff]
  intro other
  have absent := (isClosed_iff _).1 closed other
  rw [Bool.eq_false_iff, unfolded, Ne, occurs_subst closed]
  rintro ⟨differ, free⟩
  simp only [occurs, free, Bool.and_true, bne_eq_false_iff_eq] at absent
  exact differ absent.symm

/-- The parts of a closed type are closed. -/
theorem IsPart.isClosed {part whole : Ty} (isPart : IsPart part whole)
    (closed : whole.isClosed = true) : part.isClosed = true := by
  cases isPart with
  | parameter isMember =>
    simp only [Ty.isClosed, isClosedUnder, isClosedUnderIn_eq_all, Bool.and_eq_true,
      List.all_eq_true] at closed ⊢
    exact closed.1 _ isMember
  | result =>
    simp only [Ty.isClosed, isClosedUnder, Bool.and_eq_true] at closed ⊢
    exact closed.2
  | property isMember =>
    simp only [Ty.isClosed, isClosedUnder, isClosedUnderIn_eq_all, List.all_eq_true] at closed ⊢
    exact closed _ isMember

/-! ## Contractive types -/

/-- A variable that does not occur free is guarded. -/
theorem isGuarded_of_not_occurs (type : Ty) (name : String) (absent : type.occurs name = false) :
    type.isGuarded name = true := by
  induction type with
  | number => rfl
  | boolean => rfl
  | function => rfl
  | object => rfl
  | var other => simpa [occurs, isGuarded] using absent
  | mu bound body bodyIH =>
    simp only [occurs, Bool.and_eq_false_iff, bne_eq_false_iff_eq] at absent
    simp only [isGuarded, Bool.or_eq_true, beq_iff_eq]
    exact absent.imp_right bodyIH

/-- Replacing a variable by a closed type guards every variable that was guarded. -/
theorem isGuarded_subst {replacement : Ty} (closed : replacement.isClosed = true) (type : Ty)
    (name other : String) (guarded : type.isGuarded other = true) :
    (type.subst name replacement).isGuarded other = true := by
  induction type with
  | number => rfl
  | boolean => rfl
  | function => rfl
  | object => rfl
  | var used =>
    by_cases same : used = name
    · simpa [subst, same] using
        isGuarded_of_not_occurs replacement other ((isClosed_iff replacement).1 closed other)
    · simpa [subst, same] using guarded
  | mu bound body bodyIH =>
    by_cases same : bound = name
    · simpa [subst, same] using guarded
    · simp only [subst, same, if_false, isGuarded, Bool.or_eq_true] at guarded ⊢
      exact guarded.imp_right bodyIH

/-- Replacing a variable by a closed contractive type keeps a type contractive. -/
theorem isContractive_subst {replacement : Ty} (closed : replacement.isClosed = true)
    (replaces : replacement.isContractive = true) (type : Ty) (name : String)
    (contractive : type.isContractive = true) :
    (type.subst name replacement).isContractive = true := by
  induction type with
  | number => rfl
  | boolean => rfl
  | function parameters result parametersIH resultIH =>
    simp only [subst, substIn_eq_map, isContractive, isContractiveIn_eq_all, Bool.and_eq_true,
      List.all_eq_true, List.forall_mem_map] at contractive ⊢
    exact ⟨fun member isMember => parametersIH member isMember (contractive.1 member isMember),
      resultIH contractive.2⟩
  | object properties propertiesIH =>
    simp only [subst, substIn_eq_map, isContractive, isContractiveIn_eq_all, List.all_eq_true,
      List.forall_mem_map] at contractive ⊢
    exact fun member isMember => propertiesIH member isMember (contractive member isMember)
  | var used =>
    by_cases same : used = name
    · simpa [subst, same] using replaces
    · simp [subst, same, isContractive]
  | mu bound body bodyIH =>
    by_cases same : bound = name
    · simpa [subst, same] using contractive
    · simp only [subst, same, if_false, isContractive, Bool.and_eq_true] at contractive ⊢
      exact ⟨isGuarded_subst closed body name bound contractive.1, bodyIH contractive.2⟩

/-- The parts of a contractive type are contractive. -/
theorem IsPart.isContractive {part whole : Ty} (isPart : IsPart part whole)
    (contractive : whole.isContractive = true) : part.isContractive = true := by
  cases isPart with
  | parameter isMember =>
    simp only [Ty.isContractive, isContractiveIn_eq_all, Bool.and_eq_true,
      List.all_eq_true] at contractive
    exact contractive.1 _ isMember
  | result =>
    simp only [Ty.isContractive, Bool.and_eq_true] at contractive
    exact contractive.2
  | property isMember =>
    simp only [Ty.isContractive, isContractiveIn_eq_all, List.all_eq_true] at contractive
    exact contractive _ isMember

/-- Replacing a guarded variable leaves the binders in front of a type alone. -/
theorem leadingBinders_subst (type : Ty) (name : String) (replacement : Ty)
    (guarded : type.isGuarded name = true) :
    (type.subst name replacement).leadingBinders = type.leadingBinders := by
  induction type with
  | number => rfl
  | boolean => rfl
  | function => rfl
  | object => rfl
  | var other =>
    have differ : other ≠ name := by simpa [isGuarded] using guarded
    simp [subst, differ]
  | mu bound body bodyIH =>
    by_cases same : bound = name
    · simp [subst, same]
    · simp only [isGuarded, Bool.or_eq_true, beq_iff_eq] at guarded
      simp [subst, same, leadingBinders, bodyIH (guarded.resolve_left same)]

/-- Unfolding a contractive type takes one binder off its front. -/
theorem leadingBinders_unfolded {name : String} {body : Ty}
    (contractive : (mu name body).isContractive = true) :
    (unfolded name body).leadingBinders + 1 = (mu name body).leadingBinders := by
  simp only [isContractive, Bool.and_eq_true] at contractive
  rw [unfolded, leadingBinders_subst body name _ contractive.1, leadingBinders]

/-! ## Distinct property names -/

/-- Replacing a variable by a type without repeated property names repeats none. -/
theorem hasDistinctNames_subst {replacement : Ty} (replaces : replacement.hasDistinctNames = true)
    (type : Ty) (name : String) (distinct : type.hasDistinctNames = true) :
    (type.subst name replacement).hasDistinctNames = true := by
  induction type with
  | number => rfl
  | boolean => rfl
  | function parameters result parametersIH resultIH =>
    simp only [subst, substIn_eq_map, hasDistinctNames, hasDistinctNamesIn_eq_all,
      Bool.and_eq_true, List.all_eq_true, List.forall_mem_map] at distinct ⊢
    exact ⟨fun member isMember => parametersIH member isMember (distinct.1 member isMember),
      resultIH distinct.2⟩
  | object properties propertiesIH =>
    simp only [subst, substIn_eq_map, hasDistinctNames, hasDistinctNamesIn_eq_all,
      Bool.and_eq_true, decide_eq_true_eq, List.all_eq_true, List.map_map, Function.comp_def,
      List.forall_mem_map] at distinct ⊢
    exact ⟨distinct.1,
      fun member isMember => propertiesIH member isMember (distinct.2 member isMember)⟩
  | var used =>
    by_cases same : used = name
    · simpa [subst, same] using replaces
    · simp [subst, same, hasDistinctNames]
  | mu bound body bodyIH =>
    by_cases same : bound = name
    · simpa [subst, same] using distinct
    · simpa [subst, same, hasDistinctNames] using bodyIH distinct

/-- Unfolding repeats no property names. -/
theorem hasDistinctNames_unfolded {name : String} {body : Ty}
    (distinct : (mu name body).hasDistinctNames = true) :
    (unfolded name body).hasDistinctNames = true :=
  hasDistinctNames_subst distinct body name distinct

/-- The parts of a type without repeated property names have none. -/
theorem IsPart.hasDistinctNames {part whole : Ty} (isPart : IsPart part whole)
    (distinct : whole.hasDistinctNames = true) : part.hasDistinctNames = true := by
  cases isPart with
  | parameter isMember =>
    simp only [Ty.hasDistinctNames, hasDistinctNamesIn_eq_all, Bool.and_eq_true,
      List.all_eq_true] at distinct
    exact distinct.1 _ isMember
  | result =>
    simp only [Ty.hasDistinctNames, Bool.and_eq_true] at distinct
    exact distinct.2
  | property isMember =>
    simp only [Ty.hasDistinctNames, hasDistinctNamesIn_eq_all, Bool.and_eq_true,
      List.all_eq_true] at distinct
    exact distinct.2 _ isMember

/-- The property names of an object type without repeated names are distinct. -/
theorem nodup_names {properties : List (String × Ty)}
    (distinct : (object properties).hasDistinctNames = true) :
    (properties.map Prod.fst).Nodup := by
  simp only [hasDistinctNames, Bool.and_eq_true, decide_eq_true_eq] at distinct
  exact distinct.1

/-! ## Well-formed types -/

namespace WellFormed

/-- Unfolding a well-formed type gives a well-formed type. -/
theorem unfolded {name : String} {body : Ty} (wellFormed : (mu name body).WellFormed) :
    (Ty.unfolded name body).WellFormed := by
  have contractive := wellFormed.contractive
  simp only [isContractive, Bool.and_eq_true] at contractive
  exact ⟨isClosed_unfolded wellFormed.closed,
    isContractive_subst wellFormed.closed wellFormed.contractive body name contractive.2,
    hasDistinctNames_unfolded wellFormed.distinct⟩

/-- The parts of a well-formed type are well-formed. -/
theorem part {part whole : Ty} (wellFormed : whole.WellFormed) (isPart : IsPart part whole) :
    part.WellFormed :=
  ⟨isPart.isClosed wellFormed.closed, isPart.isContractive wellFormed.contractive,
    isPart.hasDistinctNames wellFormed.distinct⟩

end WellFormed

end Equirec.Ty
