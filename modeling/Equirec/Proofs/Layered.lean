import Equirec.Proofs.Reach

/-!
# Types as programs declare them

A program declares a recursive type by a function or an object that mentions the declared name. Such
types are closed, every recursive type in them has a layer right under its binder, and taking them
apart and unfolding them gives more of them (`Ty.Proper`). They may repeat property names. A tame
type repeats none inside a recursive type (`Ty.Tame`), where a repetition would come back with every
unfolding.
-/
namespace Equirec.Ty

/-- Whether a type is a function or an object. -/
def isLayer : Ty → Bool
  | .function .. | .object _ => true
  | .number | .boolean | .var _ | .mu .. => false

mutual

/-- Whether every recursive type in a type is a function or an object that mentions itself. -/
def isLayered : Ty → Bool
  | .number | .boolean | .var _ => true
  | .function parameters result => isLayeredIn parameters && result.isLayered
  | .object properties => isLayeredIn properties
  | .mu name body => body.isLayer && body.occurs name && body.isLayered

/-- Whether every recursive type in any member is a function or an object that mentions itself. -/
def isLayeredIn : List (String × Ty) → Bool
  | [] => true
  | (_, type) :: rest => type.isLayered && isLayeredIn rest

end

@[simp]
theorem isLayeredIn_eq_all (members : List (String × Ty)) :
    isLayeredIn members = members.all fun member => member.2.isLayered := by
  induction members with
  | nil => rfl
  | cons member rest ih => simp [isLayeredIn, ih]

mutual

/-- Whether no recursive type in a type lists a property name twice. -/
def hasDistinctRecursion : Ty → Bool
  | .number | .boolean | .var _ => true
  | .function parameters result => hasDistinctRecursionIn parameters && result.hasDistinctRecursion
  | .object properties => hasDistinctRecursionIn properties
  | .mu _ body => body.hasDistinctNames

/-- Whether no recursive type in any member lists a property name twice. -/
def hasDistinctRecursionIn : List (String × Ty) → Bool
  | [] => true
  | (_, type) :: rest => type.hasDistinctRecursion && hasDistinctRecursionIn rest

end

@[simp]
theorem hasDistinctRecursionIn_eq_all (members : List (String × Ty)) :
    hasDistinctRecursionIn members = members.all fun member => member.2.hasDistinctRecursion := by
  induction members with
  | nil => rfl
  | cons member rest ih => simp [hasDistinctRecursionIn, ih]

/-! ## Layers -/

/-- Replacing a variable leaves functions and objects what they are. -/
theorem isLayer_subst {type : Ty} (layer : type.isLayer = true) (name : String)
    (replacement : Ty) : (type.subst name replacement).isLayer = true := by
  cases type with
  | function => rfl
  | object => rfl
  | _ => cases layer

/-- A function or an object is not recursive at the top. -/
theorem unfolding?_of_isLayer {type : Ty} (layer : type.isLayer = true) :
    type.unfolding? = none := by
  cases type with
  | mu => cases layer
  | _ => rfl

/-- Every variable is guarded in a function or an object. -/
theorem isGuarded_of_isLayer {type : Ty} (layer : type.isLayer = true) (name : String) :
    type.isGuarded name = true := by
  cases type with
  | function => rfl
  | object => rfl
  | _ => cases layer

/-- The three facts about the body of a recursive type that has its layer. -/
theorem isLayered_mu {name : String} {body : Ty} :
    (mu name body).isLayered = true ↔
      body.isLayer = true ∧ body.occurs name = true ∧ body.isLayered = true := by
  simp only [isLayered, Bool.and_eq_true, and_assoc]

/-- Replacing a variable by a closed type keeps the layers of recursive types. -/
theorem isLayered_subst {replacement : Ty} (closed : replacement.isClosed = true)
    (layered : replacement.isLayered = true) (type : Ty) (name : String)
    (layered' : type.isLayered = true) : (type.subst name replacement).isLayered = true := by
  induction type with
  | number => rfl
  | boolean => rfl
  | function parameters result parametersIH resultIH =>
    simp only [subst, substIn_eq_map, isLayered, isLayeredIn_eq_all, Bool.and_eq_true,
      List.all_eq_true, List.forall_mem_map] at layered' ⊢
    exact ⟨fun member isMember => parametersIH member isMember (layered'.1 member isMember),
      resultIH layered'.2⟩
  | object properties propertiesIH =>
    simp only [subst, substIn_eq_map, isLayered, isLayeredIn_eq_all, List.all_eq_true,
      List.forall_mem_map] at layered' ⊢
    exact fun member isMember => propertiesIH member isMember (layered' member isMember)
  | var used =>
    by_cases same : used = name
    · simpa [subst, same] using layered
    · simp [subst, same, isLayered]
  | mu bound body bodyIH =>
    by_cases same : bound = name
    · simpa [subst, same] using layered'
    · rw [isLayered_mu] at layered'
      have mentions := (occurs_subst closed body name bound).2 ⟨same, layered'.2.1⟩
      simp only [subst, same, if_false]
      rw [isLayered_mu]
      exact ⟨isLayer_subst layered'.1 name replacement, mentions, bodyIH layered'.2.2⟩

/-- The parts of a type have the layers of their recursive types. -/
theorem IsPart.isLayered {part whole : Ty} (isPart : IsPart part whole)
    (layered : whole.isLayered = true) : part.isLayered = true := by
  cases isPart with
  | parameter isMember =>
    simp only [Ty.isLayered, isLayeredIn_eq_all, Bool.and_eq_true, List.all_eq_true] at layered
    exact layered.1 _ isMember
  | result =>
    simp only [Ty.isLayered, Bool.and_eq_true] at layered
    exact layered.2
  | property isMember =>
    simp only [Ty.isLayered, isLayeredIn_eq_all, List.all_eq_true] at layered
    exact layered _ isMember

/-- A type whose recursive types have their layers is contractive. -/
theorem isContractive_of_isLayered {type : Ty} (layered : type.isLayered = true) :
    type.isContractive = true := by
  induction type with
  | number => rfl
  | boolean => rfl
  | function parameters result parametersIH resultIH =>
    simp only [isLayered, isLayeredIn_eq_all, Bool.and_eq_true, List.all_eq_true] at layered
    simp only [isContractive, isContractiveIn_eq_all, Bool.and_eq_true, List.all_eq_true]
    exact ⟨fun member isMember => parametersIH member isMember (layered.1 member isMember),
      resultIH layered.2⟩
  | object properties propertiesIH =>
    simp only [isLayered, isLayeredIn_eq_all, List.all_eq_true] at layered
    simp only [isContractive, isContractiveIn_eq_all, List.all_eq_true]
    exact fun member isMember => propertiesIH member isMember (layered member isMember)
  | var => rfl
  | mu name body bodyIH =>
    rw [isLayered_mu] at layered
    simp only [isContractive, Bool.and_eq_true]
    exact ⟨isGuarded_of_isLayer layered.1 name, bodyIH layered.2.2⟩

/-! ## Repeated names outside recursive types -/

/-- A type without repeated property names has none in its recursive types. -/
theorem hasDistinctRecursion_of_hasDistinctNames {type : Ty}
    (distinct : type.hasDistinctNames = true) : type.hasDistinctRecursion = true := by
  induction type with
  | number => rfl
  | boolean => rfl
  | function parameters result parametersIH resultIH =>
    simp only [hasDistinctNames, hasDistinctNamesIn_eq_all, Bool.and_eq_true,
      List.all_eq_true] at distinct
    simp only [hasDistinctRecursion, hasDistinctRecursionIn_eq_all, Bool.and_eq_true,
      List.all_eq_true]
    exact ⟨fun member isMember => parametersIH member isMember (distinct.1 member isMember),
      resultIH distinct.2⟩
  | object properties propertiesIH =>
    simp only [hasDistinctNames, hasDistinctNamesIn_eq_all, Bool.and_eq_true,
      List.all_eq_true] at distinct
    simp only [hasDistinctRecursion, hasDistinctRecursionIn_eq_all, List.all_eq_true]
    exact fun member isMember => propertiesIH member isMember (distinct.2 member isMember)
  | var => rfl
  | mu name body => exact distinct

/-- The parts of a type repeat no names in their recursive types. -/
theorem IsPart.hasDistinctRecursion {part whole : Ty} (isPart : IsPart part whole)
    (distinct : whole.hasDistinctRecursion = true) : part.hasDistinctRecursion = true := by
  cases isPart with
  | parameter isMember =>
    simp only [Ty.hasDistinctRecursion, hasDistinctRecursionIn_eq_all, Bool.and_eq_true,
      List.all_eq_true] at distinct
    exact distinct.1 _ isMember
  | result =>
    simp only [Ty.hasDistinctRecursion, Bool.and_eq_true] at distinct
    exact distinct.2
  | property isMember =>
    simp only [Ty.hasDistinctRecursion, hasDistinctRecursionIn_eq_all,
      List.all_eq_true] at distinct
    exact distinct _ isMember

/-! ## Proper and tame types -/

/-- A type as programs declare them: closed, and with a layer under every binder. -/
structure Proper (type : Ty) : Prop where
  /-- Every variable lies under a binder of its name. -/
  closed : type.isClosed = true
  /-- Every recursive type is a function or an object that mentions itself. -/
  layered : type.isLayered = true

/-- A proper type that repeats no property name inside a recursive type. -/
structure Tame (type : Ty) : Prop extends Proper type where
  /-- No recursive type lists a property name twice. -/
  distinct : type.hasDistinctRecursion = true

namespace Proper

/-- The parts of a proper type are proper. -/
theorem part {part whole : Ty} (isPart : IsPart part whole) (proper : whole.Proper) :
    part.Proper :=
  ⟨isPart.isClosed proper.closed, isPart.isLayered proper.layered⟩

/-- Unfolding a proper type gives a proper type. -/
theorem unfolded {name : String} {body : Ty} (proper : (mu name body).Proper) :
    (Ty.unfolded name body).Proper := by
  have layered := (isLayered_mu.1 proper.layered).2.2
  exact ⟨isClosed_unfolded proper.closed,
    isLayered_subst proper.closed proper.layered body name layered⟩

/-- Functions between proper types are proper. -/
theorem function {parameters : List (String × Ty)} {result : Ty}
    (inParameters : ∀ member ∈ parameters, member.2.Proper) (inResult : result.Proper) :
    (Ty.function parameters result).Proper where
  closed := by
    simp only [isClosed, isClosedUnder, isClosedUnderIn_eq_all, Bool.and_eq_true, List.all_eq_true]
    exact ⟨fun member isMember => (inParameters member isMember).closed, inResult.closed⟩
  layered := by
    simp only [isLayered, isLayeredIn_eq_all, Bool.and_eq_true, List.all_eq_true]
    exact ⟨fun member isMember => (inParameters member isMember).layered, inResult.layered⟩

/-- Objects of proper types are proper. -/
theorem object {properties : List (String × Ty)}
    (inProperties : ∀ member ∈ properties, member.2.Proper) : (Ty.object properties).Proper where
  closed := by
    simp only [isClosed, isClosedUnder, isClosedUnderIn_eq_all, List.all_eq_true]
    exact fun member isMember => (inProperties member isMember).closed
  layered := by
    simp only [isLayered, isLayeredIn_eq_all, List.all_eq_true]
    exact fun member isMember => (inProperties member isMember).layered

/-- A proper type without repeated property names is well-formed. -/
theorem wellFormed {type : Ty} (proper : type.Proper) (distinct : type.hasDistinctNames = true) :
    type.WellFormed :=
  ⟨proper.closed, isContractive_of_isLayered proper.layered, distinct⟩

end Proper

namespace Tame

/-- The parts of a tame type are tame. -/
theorem part {part whole : Ty} (isPart : IsPart part whole) (tame : whole.Tame) : part.Tame :=
  ⟨tame.toProper.part isPart, isPart.hasDistinctRecursion tame.distinct⟩

/-- Unfolding a tame type gives a tame type. -/
theorem unfolded {name : String} {body : Ty} (tame : (mu name body).Tame) :
    (Ty.unfolded name body).Tame := by
  have distinct : (mu name body).hasDistinctNames = true := tame.distinct
  exact ⟨tame.toProper.unfolded,
    hasDistinctRecursion_of_hasDistinctNames (hasDistinctNames_unfolded distinct)⟩

/-- Functions between tame types are tame. -/
theorem function {parameters : List (String × Ty)} {result : Ty}
    (inParameters : ∀ member ∈ parameters, member.2.Tame) (inResult : result.Tame) :
    (Ty.function parameters result).Tame where
  toProper := .function (fun member isMember => (inParameters member isMember).toProper)
    inResult.toProper
  distinct := by
    simp only [hasDistinctRecursion, hasDistinctRecursionIn_eq_all, Bool.and_eq_true,
      List.all_eq_true]
    exact ⟨fun member isMember => (inParameters member isMember).distinct, inResult.distinct⟩

/-- Objects of tame types are tame, whatever the names of their properties. -/
theorem object {properties : List (String × Ty)}
    (inProperties : ∀ member ∈ properties, member.2.Tame) : (Ty.object properties).Tame where
  toProper := .object fun member isMember => (inProperties member isMember).toProper
  distinct := by
    simp only [hasDistinctRecursion, hasDistinctRecursionIn_eq_all, List.all_eq_true]
    exact fun member isMember => (inProperties member isMember).distinct

/-- A type that mentions no variable and no recursive type is tame. -/
theorem of_not_isRecursive {type : Ty} (flat : type.isRecursive = false) : type.Tame := by
  induction type with
  | number => exact ⟨⟨rfl, rfl⟩, rfl⟩
  | boolean => exact ⟨⟨rfl, rfl⟩, rfl⟩
  | function parameters result parametersIH resultIH =>
    simp only [isRecursive, isRecursiveIn_eq_any, Bool.or_eq_false_iff, List.any_eq_false,
      Bool.not_eq_true] at flat
    exact .function (fun member isMember => parametersIH member isMember (flat.1 member isMember))
      (resultIH flat.2)
  | object properties propertiesIH =>
    simp only [isRecursive, isRecursiveIn_eq_any, List.any_eq_false, Bool.not_eq_true] at flat
    exact .object fun member isMember => propertiesIH member isMember (flat member isMember)
  | var => cases flat
  | mu => cases flat

/-- What a tame type leads to is tame. -/
theorem leads {type next : Ty} (leads : Leads type next) (tame : type.Tame) : next.Tame := by
  cases leads with
  | part isPart => exact tame.part isPart
  | unfold name body => exact tame.unfolded

end Tame

end Equirec.Ty
