import Equirec.Proofs.WellFormed
import Mathlib.Logic.Function.Basic
import Mathlib.Logic.Relation

/-!
# The types that a type reaches

A type leads to its parts and to its unfolding. Unfolding makes a type larger, and yet a closed
type reaches only finitely many types: each of them is a node of the type, with the free variables
of the node filled by the recursive types that bind them. `Ty.nodes` lists these types, one for
each node, and `mem_nodes_of_reaches` says that none is missing.

Filling replaces many variables at once. Unfolding a filled recursive type is filling its body with
one more variable (`unfolded_fill`), which is why the list is closed.
-/
namespace Equirec.Ty

/-- One step from a type to a part or to its unfolding. -/
inductive Leads : Ty → Ty → Prop where
  /-- A type leads to its parts. -/
  | part {whole part : Ty} (isPart : IsPart part whole) : Leads whole part
  /-- A recursive type leads to its unfolding. -/
  | unfold (name : String) (body : Ty) : Leads (.mu name body) (unfolded name body)

/-- Whether a type is met when another is unfolded and taken apart again and again. -/
def Reaches : Ty → Ty → Prop :=
  Relation.ReflTransGen Leads

/-! ## Filling variables -/

mutual

/-- A type with its free variables replaced by what they mean; a variable that means nothing
stays. -/
def fill (meaning : String → Option Ty) : Ty → Ty
  | .number => .number
  | .boolean => .boolean
  | .function parameters result => .function (fillIn meaning parameters) (result.fill meaning)
  | .object properties => .object (fillIn meaning properties)
  | .var name => (meaning name).getD (.var name)
  | .mu name body => .mu name (body.fill (Function.update meaning name none))

/-- Members with their free variables replaced by what they mean. -/
def fillIn (meaning : String → Option Ty) : List (String × Ty) → List (String × Ty)
  | [] => []
  | (label, type) :: rest => (label, type.fill meaning) :: fillIn meaning rest

end

@[simp]
theorem fillIn_eq_map (meaning : String → Option Ty) (members : List (String × Ty)) :
    fillIn meaning members = members.map fun member => (member.1, member.2.fill meaning) := by
  induction members with
  | nil => rfl
  | cons member rest ih => simp [fillIn, ih]

/-- Meanings under which every variable stands for a closed type or for nothing. -/
def AllClosed (meaning : String → Option Ty) : Prop :=
  ∀ name type, meaning name = some type → type.isClosed = true

/-- Meanings stay closed when a variable loses its own. -/
theorem AllClosed.update_none {meaning : String → Option Ty} (closed : AllClosed meaning)
    (name : String) : AllClosed (Function.update meaning name none) := by
  intro other type means
  by_cases same : other = name
  · subst same
    simp at means
  · rw [Function.update_of_ne same] at means
    exact closed other type means

/-- What holds of all meanings still does when a variable is given one of which it holds. -/
theorem forall_update_some {property : Ty → Prop} {meaning : String → Option Ty}
    (holds : ∀ name type, meaning name = some type → property type) (name : String) {type : Ty}
    (holdsType : property type) :
    ∀ other found, Function.update meaning name (some type) other = some found →
      property found := by
  intro other found means
  by_cases same : other = name
  · rw [same, Function.update_self, Option.some.injEq] at means
    exact means ▸ holdsType
  · rw [Function.update_of_ne same] at means
    exact holds other found means

/-- Meanings stay closed when a variable is given a closed type. -/
theorem AllClosed.update_some {meaning : String → Option Ty} (closed : AllClosed meaning)
    (name : String) {type : Ty} (closedType : type.isClosed = true) :
    AllClosed (Function.update meaning name (some type)) :=
  forall_update_some closed name closedType

/-- Whether all free variables of a type have a meaning. -/
def Meant (meaning : String → Option Ty) (type : Ty) : Prop :=
  ∀ name, type.occurs name = true → meaning name ≠ none

/-- The variables of the body of a recursive type have a meaning once that of the binder has. -/
theorem Meant.body {meaning : String → Option Ty} {name : String} {body : Ty}
    (meant : Meant meaning (.mu name body)) (type : Ty) :
    Meant (Function.update meaning name (some type)) body := by
  intro other free
  by_cases same : other = name
  · simp [same]
  · rw [Function.update_of_ne same]
    exact meant other (by simp [occurs, free, Ne.symm same])

/-- Filling with nothing changes nothing. -/
theorem fill_none (type : Ty) : type.fill (fun _ => none) = type := by
  induction type with
  | number => rfl
  | boolean => rfl
  | function parameters result parametersIH resultIH =>
    have same : ∀ member ∈ parameters, (member.1, member.2.fill fun _ => none) = member :=
      fun member isMember => by rw [parametersIH member isMember]
    rw [fill, fillIn_eq_map, List.map_congr_left same, List.map_id', resultIH]
  | object properties propertiesIH =>
    have same : ∀ member ∈ properties, (member.1, member.2.fill fun _ => none) = member :=
      fun member isMember => by rw [propertiesIH member isMember]
    rw [fill, fillIn_eq_map, List.map_congr_left same, List.map_id']
  | var name => rfl
  | mu bound body bodyIH => rw [fill, Function.update_eq_self_iff.2 rfl, bodyIH]

/-- After filling, only those variables are free that mean nothing. -/
theorem occurs_fill {meaning : String → Option Ty} (closed : AllClosed meaning) (type : Ty)
    (name : String) (free : (type.fill meaning).occurs name = true) :
    type.occurs name = true ∧ meaning name = none := by
  induction type generalizing meaning with
  | number => simp [fill, occurs] at free
  | boolean => simp [fill, occurs] at free
  | function parameters result parametersIH resultIH =>
    simp only [fill, fillIn_eq_map, occurs, occursIn_eq_any, List.any_map, Function.comp_def,
      Bool.or_eq_true, List.any_eq_true] at free ⊢
    rcases free with ⟨member, isMember, inMember⟩ | inResult
    · obtain ⟨occursIn, unmeant⟩ := parametersIH member isMember closed inMember
      exact ⟨.inl ⟨member, isMember, occursIn⟩, unmeant⟩
    · obtain ⟨occursIn, unmeant⟩ := resultIH closed inResult
      exact ⟨.inr occursIn, unmeant⟩
  | object properties propertiesIH =>
    simp only [fill, fillIn_eq_map, occurs, occursIn_eq_any, List.any_map, Function.comp_def,
      List.any_eq_true] at free ⊢
    obtain ⟨member, isMember, inMember⟩ := free
    obtain ⟨occursIn, unmeant⟩ := propertiesIH member isMember closed inMember
    exact ⟨⟨member, isMember, occursIn⟩, unmeant⟩
  | var other =>
    cases means : meaning other with
    | none =>
      simp only [fill, means, Option.getD_none, occurs, beq_iff_eq] at free ⊢
      exact ⟨free, free ▸ means⟩
    | some type =>
      have absent := (isClosed_iff type).1 (closed other type means) name
      simp [fill, means, absent] at free
  | mu bound body bodyIH =>
    simp only [fill, occurs, Bool.and_eq_true, bne_iff_ne] at free ⊢
    obtain ⟨occursIn, unmeant⟩ := bodyIH (closed.update_none bound) free.2
    rw [Function.update_of_ne (Ne.symm free.1)] at unmeant
    exact ⟨⟨free.1, occursIn⟩, unmeant⟩

/-- A type is closed by meanings for all its free variables. -/
theorem isClosed_fill {meaning : String → Option Ty} (closed : AllClosed meaning) {type : Ty}
    (meant : Meant meaning type) : (type.fill meaning).isClosed = true := by
  rw [isClosed_iff]
  intro name
  rw [Bool.eq_false_iff]
  intro free
  obtain ⟨occursIn, unmeant⟩ := occurs_fill closed type name free
  exact meant name occursIn unmeant

/-- Filling all variables but one, and then that one, is filling all of them. -/
theorem subst_fill {meaning : String → Option Ty} (closed : AllClosed meaning) (type : Ty)
    (name : String) (replacement : Ty) :
    (type.fill (Function.update meaning name none)).subst name replacement =
      type.fill (Function.update meaning name (some replacement)) := by
  induction type generalizing meaning with
  | number => rfl
  | boolean => rfl
  | function parameters result parametersIH resultIH =>
    simp only [fill, fillIn_eq_map, subst, substIn_eq_map, List.map_map, Function.comp_def,
      resultIH closed]
    congr 1
    exact List.map_congr_left fun member isMember => by rw [parametersIH member isMember closed]
  | object properties propertiesIH =>
    simp only [fill, fillIn_eq_map, subst, substIn_eq_map, List.map_map, Function.comp_def]
    congr 1
    exact List.map_congr_left fun member isMember => by rw [propertiesIH member isMember closed]
  | var other =>
    by_cases same : other = name
    · simp [fill, same, subst]
    · rw [fill, fill, Function.update_of_ne same, Function.update_of_ne same]
      cases means : meaning other with
      | none => simp [subst, same]
      | some type => exact subst_of_isClosed (closed other type means) name replacement
  | mu bound body bodyIH =>
    by_cases same : bound = name
    · subst same
      simp [fill, subst]
    · rw [fill, fill, subst, if_neg same, Function.update_comm (Ne.symm same),
        bodyIH (closed.update_none bound), Function.update_comm same]

/-- Unfolding a filled recursive type fills its body, with the variable meaning the whole. -/
theorem unfolded_fill {meaning : String → Option Ty} (closed : AllClosed meaning)
    (name : String) (body : Ty) :
    unfolded name (body.fill (Function.update meaning name none)) =
      body.fill (Function.update meaning name (some ((mu name body).fill meaning))) := by
  rw [unfolded, subst_fill closed, fill]

/-! ## Nodes -/

mutual

/-- The nodes of a type, each with its free variables filled. Inside a recursive type, its variable
means the whole recursive type. -/
def nodesUnder (meaning : String → Option Ty) : Ty → List Ty
  | .number => [.number]
  | .boolean => [.boolean]
  | .function parameters result =>
    fill meaning (.function parameters result) ::
      (nodesUnderIn meaning parameters ++ result.nodesUnder meaning)
  | .object properties => fill meaning (.object properties) :: nodesUnderIn meaning properties
  | .var name => [fill meaning (.var name)]
  | .mu name body =>
    let whole := fill meaning (.mu name body)
    whole :: body.nodesUnder (Function.update meaning name (some whole))

/-- The nodes of all members. -/
def nodesUnderIn (meaning : String → Option Ty) : List (String × Ty) → List Ty
  | [] => []
  | (_, type) :: rest => type.nodesUnder meaning ++ nodesUnderIn meaning rest

end

@[simp]
theorem nodesUnderIn_eq_flatMap (meaning : String → Option Ty) (members : List (String × Ty)) :
    nodesUnderIn meaning members = members.flatMap fun member => member.2.nodesUnder meaning := by
  induction members with
  | nil => rfl
  | cons member rest ih => simp [nodesUnderIn, ih]

/-- The nodes of a closed type, each with its free variables filled by the recursive types that
bind them. -/
def nodes (type : Ty) : List Ty :=
  type.nodesUnder fun _ => none

/-- Members have as many nodes as their sizes say, if each of them has. -/
theorem length_nodesUnderIn {members : List (String × Ty)} {meaning : String → Option Ty}
    (each : ∀ member ∈ members, (member.2.nodesUnder meaning).length = member.2.size) :
    (nodesUnderIn meaning members).length = sizes members := by
  induction members with
  | nil => rfl
  | cons member rest ih =>
    rw [List.forall_mem_cons] at each
    rw [nodesUnderIn, List.length_append, sizes, each.1, ih each.2]

/-- A type has as many nodes as its size says. -/
theorem length_nodesUnder (type : Ty) (meaning : String → Option Ty) :
    (type.nodesUnder meaning).length = type.size := by
  induction type generalizing meaning with
  | number => rfl
  | boolean => rfl
  | function parameters result parametersIH resultIH =>
    have inParameters := length_nodesUnderIn fun member isMember =>
      parametersIH member isMember meaning
    rw [nodesUnder, size, List.length_cons, List.length_append, inParameters, resultIH]
  | object properties propertiesIH =>
    have inProperties := length_nodesUnderIn fun member isMember =>
      propertiesIH member isMember meaning
    rw [nodesUnder, size, List.length_cons, inProperties]
  | var name => rfl
  | mu bound body bodyIH => rw [nodesUnder, size, List.length_cons, bodyIH]

/-- The root of a type is one of its nodes. -/
theorem fill_mem_nodesUnder (type : Ty) (meaning : String → Option Ty) :
    type.fill meaning ∈ type.nodesUnder meaning := by
  cases type <;> simp [nodesUnder, fill]

/-- A type is one of its own nodes. -/
theorem self_mem_nodes (type : Ty) : type ∈ type.nodes := by
  have root := fill_mem_nodesUnder type fun _ => none
  rwa [fill_none] at root

/-- The root of a type that is not a variable leads to nodes of the type. -/
theorem mem_nodesUnder_of_leads (type : Ty) {meaning : String → Option Ty}
    (closed : AllClosed meaning) (compound : ∀ name, type ≠ .var name) {next : Ty}
    (leads : Leads (type.fill meaning) next) : next ∈ type.nodesUnder meaning := by
  cases type with
  | number =>
    cases leads with
    | part isPart => cases isPart
  | boolean =>
    cases leads with
    | part isPart => cases isPart
  | function parameters result =>
    rw [fill, fillIn_eq_map] at leads
    simp only [nodesUnder, nodesUnderIn_eq_flatMap, List.mem_cons, List.mem_append,
      List.mem_flatMap]
    cases leads with
    | part isPart =>
      cases isPart with
      | parameter isMember =>
        obtain ⟨member, inside, rfl⟩ := List.mem_map.1 isMember
        exact .inr (.inl ⟨member, inside, fill_mem_nodesUnder member.2 meaning⟩)
      | result => exact .inr (.inr (fill_mem_nodesUnder result meaning))
  | object properties =>
    rw [fill, fillIn_eq_map] at leads
    simp only [nodesUnder, nodesUnderIn_eq_flatMap, List.mem_cons, List.mem_flatMap]
    cases leads with
    | part isPart =>
      cases isPart with
      | property isMember =>
        obtain ⟨member, inside, rfl⟩ := List.mem_map.1 isMember
        exact .inr ⟨member, inside, fill_mem_nodesUnder member.2 meaning⟩
  | var name => exact absurd rfl (compound name)
  | mu name body =>
    rw [fill] at leads
    cases leads with
    | part isPart => cases isPart
    | unfold =>
      rw [unfolded_fill closed]
      exact .tail _ (fill_mem_nodesUnder body _)

/-- Where the nodes of a type go in one step. A pool that holds the nodes, and to which the meanings
of the variables lead, is not left. -/
theorem leads_mem_of_mem_nodesUnder (pool : List Ty) (type : Ty) {meaning : String → Option Ty}
    (closed : AllClosed meaning) (meant : Meant meaning type)
    (stays : ∀ name value, meaning name = some value → ∀ next, Leads value next → next ∈ pool)
    (inPool : ∀ node ∈ type.nodesUnder meaning, node ∈ pool) :
    ∀ node ∈ type.nodesUnder meaning, ∀ next, Leads node next → next ∈ pool := by
  -- The root leads to nodes; the rest are nodes of the parts, under a binder with one more meaning.
  induction type generalizing meaning with
  | number =>
    intro node isNode next leads
    rw [nodesUnder, List.mem_singleton] at isNode
    subst isNode
    exact inPool next (mem_nodesUnder_of_leads .number closed (by simp) leads)
  | boolean =>
    intro node isNode next leads
    rw [nodesUnder, List.mem_singleton] at isNode
    subst isNode
    exact inPool next (mem_nodesUnder_of_leads .boolean closed (by simp) leads)
  | function parameters result parametersIH resultIH =>
    have root := fun next leads =>
      inPool next (mem_nodesUnder_of_leads (.function parameters result) closed (by simp) leads)
    simp only [Meant, occurs, occursIn_eq_any, Bool.or_eq_true, List.any_eq_true] at meant
    simp only [nodesUnder, nodesUnderIn_eq_flatMap, List.mem_cons, List.mem_append,
      List.mem_flatMap] at inPool ⊢
    rintro node (rfl | ⟨member, isMember, isNode⟩ | isNode)
    · exact root
    · exact parametersIH member isMember closed
        (fun name free => meant name (.inl ⟨member, isMember, free⟩)) stays
        (fun node isNode => inPool node (.inr (.inl ⟨member, isMember, isNode⟩))) node isNode
    · exact resultIH closed (fun name free => meant name (.inr free)) stays
        (fun node isNode => inPool node (.inr (.inr isNode))) node isNode
  | object properties propertiesIH =>
    have root := fun next leads =>
      inPool next (mem_nodesUnder_of_leads (.object properties) closed (by simp) leads)
    simp only [Meant, occurs, occursIn_eq_any, List.any_eq_true] at meant
    simp only [nodesUnder, nodesUnderIn_eq_flatMap, List.mem_cons, List.mem_flatMap] at inPool ⊢
    rintro node (rfl | ⟨member, isMember, isNode⟩)
    · exact root
    · exact propertiesIH member isMember closed
        (fun name free => meant name ⟨member, isMember, free⟩) stays
        (fun node isNode => inPool node (.inr ⟨member, isMember, isNode⟩)) node isNode
  | var name =>
    intro node isNode
    cases means : meaning name with
    | none => exact absurd means (meant name (by simp [occurs]))
    | some value =>
      simp only [nodesUnder, fill, means, Option.getD_some, List.mem_singleton] at isNode
      exact isNode ▸ stays name value means
  | mu bound body bodyIH =>
    have root := fun next leads =>
      inPool next (mem_nodesUnder_of_leads (.mu bound body) closed (by simp) leads)
    have closed' := closed.update_some bound (isClosed_fill closed meant)
    have stays' := forall_update_some stays bound root
    simp only [nodesUnder, List.mem_cons] at inPool ⊢
    rintro node (rfl | isNode)
    · exact root
    · exact bodyIH closed' (meant.body _) stays' (fun node isNode => inPool node (.inr isNode))
        node isNode

/-- The nodes of a closed type lead to nodes of it. -/
theorem leads_mem_nodes {type node next : Ty} (closed : type.isClosed = true)
    (isNode : node ∈ type.nodes) (leads : Leads node next) : next ∈ type.nodes := by
  have absent := (isClosed_iff type).1 closed
  refine leads_mem_of_mem_nodesUnder type.nodes type ?_ ?_ ?_ (fun _ isNode => isNode)
    node isNode next leads
  · intro name value means
    cases means
  · intro name free
    simp [absent] at free
  · intro name value means
    cases means

/-- Everything that a closed type reaches is one of its nodes. -/
theorem mem_nodes_of_reaches {type reached : Ty} (closed : type.isClosed = true)
    (reaches : type.Reaches reached) : reached ∈ type.nodes := by
  induction reaches with
  | refl => exact self_mem_nodes type
  | tail _ leads ih => exact leads_mem_nodes closed ih leads

/-! ## What reaching keeps -/

/-- Reaching keeps what each step keeps. -/
theorem Reaches.keeps {property : Ty → Prop} {type reached : Ty} (reaches : type.Reaches reached)
    (keeps : ∀ type next, Leads type next → property type → property next)
    (holds : property type) : property reached := by
  induction reaches with
  | refl => exact holds
  | tail _ leads ih => exact keeps _ _ leads ih

/-- A type without repeated property names leads to such types. -/
theorem Leads.hasDistinctNames {type next : Ty} (leads : Leads type next)
    (distinct : type.hasDistinctNames = true) : next.hasDistinctNames = true := by
  cases leads with
  | part isPart => exact isPart.hasDistinctNames distinct
  | unfold name body => exact hasDistinctNames_unfolded distinct

end Equirec.Ty
