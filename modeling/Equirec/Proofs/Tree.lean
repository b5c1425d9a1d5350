import Equirec.Proofs.Alike
import Equirec.Proofs.Reach
import Mathlib.Order.Bounds.Basic

/-!
# Types as infinite trees

A type denotes the tree that its unfoldings approach, and trees are compared layer by layer. A
relation between types is consistent when related types, with all their outer binders unfolded, have
matching first layers whose parts are related again. Two types have the same tree when some
consistent relation holds between them, and likewise a type can be used as another. Both notions are
the largest consistent relation of their kind (`Largest.isGreatest`), and nothing in them mentions
assumptions or the order in which types are compared.

Alike types have the same tree (`SameTree.of_alike`), and simplifying a type computes its first
layer (`exposes_simplify`).
-/
namespace Equirec.Ty

/-! ## First layers -/

/-- A type with all its outer binders unfolded. -/
inductive Exposes : Ty → Ty → Prop where
  /-- Nothing is left to unfold. -/
  | done {type : Ty} (bare : type.unfolding? = none) : Exposes type type
  /-- An outer binder is unfolded. -/
  | unfold {name : String} {body head : Ty} (exposes : Exposes (unfolded name body) head) :
    Exposes (.mu name body) head

namespace Exposes

/-- A type that is not recursive at the top is its own first layer. -/
theorem eq_of_bare {type head : Ty} (exposes : Exposes type head)
    (bare : type.unfolding? = none) : head = type := by
  cases exposes with
  | done => rfl
  | unfold => simp [unfolding?] at bare

/-- A first layer is not recursive at the top. -/
theorem bare {type head : Ty} (exposes : Exposes type head) : head.unfolding? = none := by
  induction exposes with
  | done bare => exact bare
  | unfold _ ih => exact ih

/-- A type has at most one first layer. -/
theorem unique {type head head' : Ty} (exposes : Exposes type head)
    (exposes' : Exposes type head') : head = head' := by
  induction exposes with
  | done bare => exact (exposes'.eq_of_bare bare).symm
  | unfold _ ih =>
    cases exposes' with
    | done bare => simp [unfolding?] at bare
    | unfold exposes' => exact ih exposes'

/-- The first layer of a well-formed type is well-formed. -/
theorem wellFormed {type head : Ty} (exposes : Exposes type head)
    (wellFormed : type.WellFormed) : head.WellFormed := by
  induction exposes with
  | done => exact wellFormed
  | unfold _ ih => exact ih wellFormed.unfolded

end Exposes

/-- A type without binders in front is not recursive at the top. -/
theorem unfolding?_eq_none {type : Ty} (bare : type.leadingBinders = 0) :
    type.unfolding? = none := by
  cases type with
  | mu name body => simp [leadingBinders] at bare
  | _ => rfl

/-- A well-formed type has a first layer. -/
theorem WellFormed.exists_exposes {type : Ty} (wellFormed : type.WellFormed) :
    ∃ head, Exposes type head := by
  induction binders : type.leadingBinders generalizing type with
  | zero => exact ⟨type, .done (unfolding?_eq_none binders)⟩
  | succ count ih =>
    cases type with
    | mu name body =>
      have fewer := leadingBinders_unfolded wellFormed.contractive
      obtain ⟨head, exposes⟩ := ih wellFormed.unfolded (by omega)
      exact ⟨head, .unfold exposes⟩
    | _ => simp [leadingBinders] at binders

/-! ## Consistent relations -/

/-- Whether related types have first layers of a given kind, with parts that are related again. -/
def Consistent (layer : (Ty → Ty → Prop) → Ty → Ty → Prop) (related : Ty → Ty → Prop) : Prop :=
  ∀ left right, related left right →
    ∃ left' right', Exposes left left' ∧ Exposes right right' ∧ layer related left' right'

/-- The union of all relations that are consistent with a kind of layer. -/
def Largest (layer : (Ty → Ty → Prop) → Ty → Ty → Prop) (left right : Ty) : Prop :=
  ∃ related, Consistent layer related ∧ related left right

namespace Largest

variable {layer : (Ty → Ty → Prop) → Ty → Ty → Prop}

/-- The union of all consistent relations is consistent. -/
theorem consistent (monotone : Monotone layer) : Consistent layer (Largest layer) := by
  rintro left right ⟨related, consistent, holds⟩
  obtain ⟨left', right', exposes, exposes', matched⟩ := consistent left right holds
  have larger : related ≤ Largest layer := fun _ _ holds => ⟨related, consistent, holds⟩
  exact ⟨left', right', exposes, exposes', monotone larger left' right' matched⟩

/-- The union of all consistent relations is the greatest of them. -/
theorem isGreatest (monotone : Monotone layer) :
    IsGreatest {related | Consistent layer related} (Largest layer) :=
  ⟨consistent monotone, fun related consistent _ _ holds => ⟨related, consistent, holds⟩⟩

/-- Types are related when their first layers match. -/
theorem of_exposes (monotone : Monotone layer) {left left' right right' : Ty}
    (exposes : Exposes left left') (exposes' : Exposes right right')
    (matched : layer (Largest layer) left' right') : Largest layer left right := by
  let related : Ty → Ty → Prop := fun left right =>
    ∃ left' right', Exposes left left' ∧ Exposes right right' ∧
      layer (Largest layer) left' right'
  have larger : Largest layer ≤ related := consistent monotone
  refine ⟨related, ?_, left', right', exposes, exposes', matched⟩
  rintro left right ⟨left', right', exposes, exposes', matched⟩
  exact ⟨left', right', exposes, exposes', monotone larger left' right' matched⟩

/-- Related types that are not recursive at the top have matching layers. -/
theorem layer_of_bare (monotone : Monotone layer) {left right : Ty}
    (related : Largest layer left right) (bare : left.unfolding? = none)
    (bare' : right.unfolding? = none) : layer (Largest layer) left right := by
  obtain ⟨left', right', exposes, exposes', matched⟩ := consistent monotone left right related
  rwa [exposes.eq_of_bare bare, exposes'.eq_of_bare bare'] at matched

/-- The first type of related types may be unfolded. -/
theorem unfold_left (monotone : Monotone layer) {name : String} {body right : Ty}
    (related : Largest layer (.mu name body) right) :
    Largest layer (unfolded name body) right := by
  obtain ⟨left', right', exposes, exposes', matched⟩ := consistent monotone _ _ related
  cases exposes with
  | done bare => simp [unfolding?] at bare
  | unfold exposes => exact of_exposes monotone exposes exposes' matched

/-- The second type of related types may be unfolded. -/
theorem unfold_right (monotone : Monotone layer) {name : String} {body left : Ty}
    (related : Largest layer left (.mu name body)) :
    Largest layer left (unfolded name body) := by
  obtain ⟨left', right', exposes, exposes', matched⟩ := consistent monotone _ _ related
  cases exposes' with
  | done bare => simp [unfolding?] at bare
  | unfold exposes' => exact of_exposes monotone exposes exposes' matched

end Largest

/-! ## The same tree -/

/-- Layers of the same tree: functions agree place by place, objects name by name. -/
inductive SameLayer (related : Ty → Ty → Prop) : Ty → Ty → Prop where
  /-- Numbers. -/
  | number : SameLayer related .number .number
  /-- Booleans. -/
  | boolean : SameLayer related .boolean .boolean
  /-- Functions with as many parameters, related one by one, and related results. -/
  | function {parameters parameters' : List (String × Ty)} {result result' : Ty}
    (places : List.Forall₂ (fun member member' => related member.2 member'.2)
      parameters parameters')
    (results : related result result') :
    SameLayer related (.function parameters result) (.function parameters' result')
  /-- Objects with the same property names and related properties of each name. -/
  | object {properties properties' : List (String × Ty)}
    (names : ∀ name, name ∈ properties.map Prod.fst ↔ name ∈ properties'.map Prod.fst)
    (values : ∀ name type type', (name, type) ∈ properties → (name, type') ∈ properties' →
      related type type') :
    SameLayer related (.object properties) (.object properties')

namespace SameLayer

/-- A larger relation has more layers. -/
theorem monotone : Monotone SameLayer := by
  intro related related' larger left right matched
  cases matched with
  | number => exact .number
  | boolean => exact .boolean
  | function places results =>
    exact .function (places.imp fun _ _ holds => larger _ _ holds) (larger _ _ results)
  | object names values =>
    exact .object names fun name type type' isMember isMember' =>
      larger _ _ (values name type type' isMember isMember')

/-- Layers of the same tree may be read from either side. -/
theorem symm {related : Ty → Ty → Prop} {left right : Ty}
    (matched : SameLayer related left right) : SameLayer (flip related) right left := by
  cases matched with
  | number => exact .number
  | boolean => exact .boolean
  | function places results => exact .function (List.Forall₂.flip places) results
  | object names values =>
    exact .object (fun name => (names name).symm) fun name type type' isMember isMember' =>
      values name type' type isMember' isMember

/-- Layers of the same tree compose. -/
theorem comp {first second : Ty → Ty → Prop} {left middle right : Ty}
    (matched : SameLayer first left middle) (matched' : SameLayer second middle right) :
    SameLayer (Relation.Comp first second) left right := by
  cases matched with
  | number =>
    cases matched'
    exact .number
  | boolean =>
    cases matched'
    exact .boolean
  | function places results =>
    cases matched' with
    | function places' results' =>
      refine .function ((Members.forall₂_comp places places').imp ?_) ⟨_, results, results'⟩
      rintro member member' ⟨between, holds, holds'⟩
      exact ⟨between.2, holds, holds'⟩
  | object names values =>
    cases matched' with
    | object names' values' =>
      refine .object (fun name => (names name).trans (names' name)) ?_
      intro name type type' isMember isMember'
      have isName := (names name).1 (List.mem_map_of_mem isMember)
      obtain ⟨between, isBetween⟩ := Members.exists_mem_of_mem_names isName
      exact ⟨between, values name type between isMember isBetween,
        values' name between type' isBetween isMember'⟩

/-- Layers of well-formed types have well-formed parts. -/
theorem of_parts {related : Ty → Ty → Prop} {left right : Ty}
    (matched : SameLayer related left right) (wellFormed : left.WellFormed)
    (wellFormed' : right.WellFormed) :
    SameLayer (fun left right => related left right ∧ left.WellFormed ∧ right.WellFormed)
      left right := by
  cases matched with
  | number => exact .number
  | boolean => exact .boolean
  | function places results =>
    refine .function ?_ ⟨results, wellFormed.part .result, wellFormed'.part .result⟩
    refine (Members.forall₂_mem places).imp fun member member' ⟨isMember, isMember', holds⟩ => ?_
    exact ⟨holds, wellFormed.part (.parameter isMember), wellFormed'.part (.parameter isMember')⟩
  | object names values =>
    refine .object names fun name type type' isMember isMember' => ?_
    exact ⟨values name type type' isMember isMember', wellFormed.part (IsPart.property isMember),
      wellFormed'.part (IsPart.property isMember')⟩

end SameLayer

/-- A first layer of a well-formed type matches itself, with equal parts. -/
theorem WellFormed.sameLayer_self {type : Ty} (wellFormed : type.WellFormed)
    (bare : type.unfolding? = none) :
    SameLayer (fun left right => left = right ∧ left.WellFormed) type type := by
  cases type with
  | number => exact .number
  | boolean => exact .boolean
  | function parameters result =>
    refine .function (List.forall₂_same.2 fun member isMember => ?_) ⟨rfl, ?_⟩
    · exact ⟨rfl, wellFormed.part (.parameter isMember)⟩
    · exact wellFormed.part .result
  | object properties =>
    refine .object (fun _ => Iff.rfl) fun name type type' isMember isMember' => ⟨?_, ?_⟩
    · exact Members.eq_of_mem (nodup_names wellFormed.distinct) isMember isMember'
    · exact wellFormed.part (IsPart.property isMember)
  | var name => exact absurd wellFormed.closed (by simp [isClosed, isClosedUnder])
  | mu name body => simp [unfolding?] at bare

/-- Whether two types denote the same tree, apart from the names of parameters and the order of
properties. -/
def SameTree : Ty → Ty → Prop :=
  Largest SameLayer

namespace SameTree

/-- A well-formed type has its own tree. -/
theorem refl {type : Ty} (wellFormed : type.WellFormed) : SameTree type type := by
  refine ⟨fun left right => left = right ∧ left.WellFormed, ?_, rfl, wellFormed⟩
  rintro left right ⟨rfl, wellFormed⟩
  obtain ⟨head, exposes⟩ := wellFormed.exists_exposes
  exact ⟨head, head, exposes, exposes,
    (exposes.wellFormed wellFormed).sameLayer_self exposes.bare⟩

/-- Having the same tree is symmetric. -/
theorem symm {left right : Ty} (same : SameTree left right) : SameTree right left := by
  refine ⟨flip SameTree, ?_, same⟩
  intro left right same
  obtain ⟨right', left', exposes, exposes', matched⟩ :=
    Largest.consistent SameLayer.monotone right left same
  exact ⟨left', right', exposes', exposes, matched.symm⟩

/-- Having the same tree is transitive. -/
theorem trans {left middle right : Ty} (same : SameTree left middle)
    (same' : SameTree middle right) : SameTree left right := by
  refine ⟨Relation.Comp SameTree SameTree, ?_, middle, same, same'⟩
  rintro left right ⟨middle, same, same'⟩
  obtain ⟨left', head, exposes, exposed, matched⟩ :=
    Largest.consistent SameLayer.monotone left middle same
  obtain ⟨head', right', exposed', exposes', matched'⟩ :=
    Largest.consistent SameLayer.monotone middle right same'
  obtain rfl := exposed.unique exposed'
  exact ⟨left', right', exposes, exposes', matched.comp matched'⟩

/-- A first layer has the tree of its type. -/
theorem of_exposes {type head : Ty} (wellFormed : type.WellFormed)
    (exposes : Exposes type head) : SameTree type head := by
  obtain ⟨left', right', exposed, exposed', matched⟩ :=
    Largest.consistent SameLayer.monotone type type (refl wellFormed)
  obtain rfl := exposed.unique exposes
  obtain rfl := exposed'.unique exposes
  exact Largest.of_exposes SameLayer.monotone exposes (.done exposes.bare) matched

/-- An unfolding has the tree of its type. -/
theorem of_unfold {name : String} {body : Ty} (wellFormed : (mu name body).WellFormed) :
    SameTree (.mu name body) (unfolded name body) :=
  Largest.unfold_right SameLayer.monotone (refl wellFormed)

end SameTree

/-! ## Alike types have the same tree -/

/-- Variables are the same under one more pair of binders when they are the pair, or when neither
is in it and they are the same without it. -/
theorem sameVar_cons (bound bound' : String) (binders : List (String × String))
    (name name' : String) :
    sameVar ((bound, bound') :: binders) name name' = true ↔
      (name = bound ∧ name' = bound') ∨
        (name ≠ bound ∧ name' ≠ bound' ∧ sameVar binders name name' = true) := by
  by_cases hit : bound = name ∨ bound' = name'
  · have found : ((bound, bound') :: binders).find?
        (fun pair => pair.1 == name || pair.2 == name') = some (bound, bound') := by
      exact List.find?_cons_of_pos (by simpa using hit)
    simp only [sameVar, found, Bool.and_eq_true, beq_iff_eq]
    grind
  · have passed : ((bound, bound') :: binders).find?
        (fun pair => pair.1 == name || pair.2 == name') =
        binders.find? fun pair => pair.1 == name || pair.2 == name' := by
      simp only [not_or] at hit
      simp [hit]
    simp only [sameVar, passed]
    grind

/-- Types that are alike under pairs of binders, with their variables filled on both sides so that
the same variables mean types of this kind again. -/
inductive Renamed : Ty → Ty → Prop where
  /-- A variable that means nothing. -/
  | free (name : String) : Renamed (.var name) (.var name)
  /-- Alike types with their variables filled. -/
  | fill {binders : List (String × String)} {left right : Ty}
    {meaning meaning' : String → Option Ty} (alike : alikeUnder binders left right = true)
    (closed : AllClosed meaning) (closed' : AllClosed meaning')
    (same : ∀ name name', sameVar binders name name' = true →
      Renamed (fill meaning (.var name)) (fill meaning' (.var name'))) :
    Renamed (fill meaning left) (fill meaning' right)

namespace Renamed

/-- Alike types differ only in the names of binders. -/
theorem of_alike {left right : Ty} (alike : left.alike right = true) : Renamed left right := by
  have closed : AllClosed fun _ => none := fun _ _ means => nomatch means
  rw [← fill_none left, ← fill_none right]
  refine .fill alike closed closed fun name name' same => ?_
  obtain rfl : name = name' := by simpa [sameVar] using same
  exact .free name

variable {binders : List (String × String)} {meaning meaning' : String → Option Ty}

/-- Unfolding on both sides keeps the difference to the names of binders. -/
theorem unfolded {name name' : String} {body body' : Ty}
    (alike : alikeUnder binders (.mu name body) (.mu name' body') = true)
    (closed : AllClosed meaning) (closed' : AllClosed meaning')
    (same : ∀ name name', sameVar binders name name' = true →
      Renamed (Ty.fill meaning (.var name)) (Ty.fill meaning' (.var name')))
    (closedWhole : (Ty.fill meaning (.mu name body)).isClosed = true)
    (closedWhole' : (Ty.fill meaning' (.mu name' body')).isClosed = true) :
    Renamed (Ty.unfolded name (body.fill (Function.update meaning name none)))
      (Ty.unfolded name' (body'.fill (Function.update meaning' name' none))) := by
  rw [unfolded_fill closed, unfolded_fill closed']
  have whole := Renamed.fill alike closed closed' same
  rw [alikeUnder] at alike
  refine .fill alike (closed.update_some name closedWhole)
    (closed'.update_some name' closedWhole') ?_
  intro used used' sameUsed
  rcases (sameVar_cons name name' binders used used').1 sameUsed with
    ⟨rfl, rfl⟩ | ⟨differ, differ', sameOuter⟩
  · simpa [Ty.fill] using whole
  · simpa [Ty.fill, differ, differ'] using same used used' sameOuter

/-- Alike functions, filled, have parameters and results that differ only in the names of
binders. -/
theorem function_layer {parameters parameters' : List (String × Ty)} {result result' : Ty}
    (alike : alikeUnder binders (.function parameters result)
      (.function parameters' result') = true)
    (closed : AllClosed meaning) (closed' : AllClosed meaning')
    (same : ∀ name name', sameVar binders name name' = true →
      Renamed (Ty.fill meaning (.var name)) (Ty.fill meaning' (.var name'))) :
    SameLayer Renamed (Ty.fill meaning (.function parameters result))
      (Ty.fill meaning' (.function parameters' result')) := by
  obtain ⟨places, results⟩ := (alikeUnder_function ..).1 alike
  rw [Ty.fill, Ty.fill, fillIn_eq_map, fillIn_eq_map]
  refine .function ?_ (.fill results closed closed' same)
  rw [List.forall₂_map_left_iff, List.forall₂_map_right_iff]
  exact places.imp fun _ _ alike => .fill alike closed closed' same

/-- Alike objects, filled, have the same names and properties that differ only in the names of
binders. -/
theorem object_layer {properties properties' : List (String × Ty)}
    (alike : alikeUnder binders (.object properties) (.object properties') = true)
    (closed : AllClosed meaning) (closed' : AllClosed meaning')
    (same : ∀ name name', sameVar binders name name' = true →
      Renamed (Ty.fill meaning (.var name)) (Ty.fill meaning' (.var name')))
    (distinct : (properties.map Prod.fst).Nodup) (distinct' : (properties'.map Prod.fst).Nodup) :
    SameLayer Renamed (Ty.fill meaning (.object properties))
      (Ty.fill meaning' (.object properties')) := by
  obtain ⟨count, found⟩ := (alikeUnder_object ..).1 alike
  obtain ⟨within, values⟩ := (Members.forall_lookup_iff distinct' fun type type' =>
    alikeUnder binders type type' = true).1 found
  have names := Members.mem_names_iff_of_subset distinct within count
  rw [Ty.fill, Ty.fill, fillIn_eq_map, fillIn_eq_map]
  refine .object ?_ ?_
  · simpa [Function.comp_def] using names
  · intro name type type' isMember isMember'
    obtain ⟨⟨label, inner⟩, inside, equal⟩ := List.mem_map.1 isMember
    obtain ⟨⟨label', inner'⟩, inside', equal'⟩ := List.mem_map.1 isMember'
    cases equal
    cases equal'
    exact .fill (values _ inner inner' inside inside') closed closed' same

/-- Well-formed types that differ only in the names of binders have first layers that do. -/
theorem exists_layer {left right : Ty} (renamed : Renamed left right)
    (wellFormed : left.WellFormed) (wellFormed' : right.WellFormed) :
    ∃ left' right', Exposes left left' ∧ Exposes right right' ∧
      SameLayer Renamed left' right' := by
  -- Unfolding shortens the chain of binders; a variable stands for a pair derived earlier.
  induction binders : left.leadingBinders using Nat.strong_induction_on generalizing left right with
  | _ count shorter =>
    induction renamed with
    | free name => exact absurd wellFormed.closed (by simp [isClosed, isClosedUnder])
    | @fill pairs left right meaning meaning' alike closed closed' same earlier =>
      cases left with
      | number =>
        cases right with
        | number => exact ⟨_, _, .done rfl, .done rfl, .number⟩
        | _ => simp [alikeUnder] at alike
      | boolean =>
        cases right with
        | boolean => exact ⟨_, _, .done rfl, .done rfl, .boolean⟩
        | _ => simp [alikeUnder] at alike
      | function parameters result =>
        cases right with
        | function parameters' result' =>
          exact ⟨_, _, .done rfl, .done rfl, function_layer alike closed closed' same⟩
        | _ => simp [alikeUnder] at alike
      | object properties =>
        cases right with
        | object properties' =>
          have distinct := nodup_names wellFormed.distinct
          have distinct' := nodup_names wellFormed'.distinct
          rw [fillIn_eq_map, List.map_map] at distinct distinct'
          exact ⟨_, _, .done rfl, .done rfl,
            object_layer alike closed closed' same distinct distinct'⟩
        | _ => simp [alikeUnder] at alike
      | var name =>
        cases right with
        | var name' => exact earlier name name' alike wellFormed wellFormed' binders
        | _ => simp [alikeUnder] at alike
      | mu name body =>
        cases right with
        | mu name' body' =>
          have fewer := leadingBinders_unfolded wellFormed.contractive
          rw [Ty.fill] at binders
          have renamed := unfolded alike closed closed' same wellFormed.closed wellFormed'.closed
          obtain ⟨left', right', exposes, exposes', matched⟩ :=
            shorter _ (by omega) renamed wellFormed.unfolded wellFormed'.unfolded rfl
          exact ⟨left', right', .unfold exposes, .unfold exposes', matched⟩
        | _ => simp [alikeUnder] at alike

end Renamed

/-- Well-formed types that are alike have the same tree. -/
theorem SameTree.of_alike {left right : Ty} (alike : left.alike right = true)
    (wellFormed : left.WellFormed) (wellFormed' : right.WellFormed) : SameTree left right := by
  refine ⟨fun left right => Renamed left right ∧ left.WellFormed ∧ right.WellFormed, ?_,
    .of_alike alike, wellFormed, wellFormed'⟩
  rintro left right ⟨renamed, wellFormed, wellFormed'⟩
  obtain ⟨left', right', exposes, exposes', matched⟩ :=
    renamed.exists_layer wellFormed wellFormed'
  exact ⟨left', right', exposes, exposes',
    matched.of_parts (exposes.wellFormed wellFormed) (exposes'.wellFormed wellFormed')⟩

/-! ## Using one type as another -/

/-- Layers of a type that can be used as another: results and properties go the same way, parameters
the other way, and properties may be left over. -/
inductive UsableLayer (related : Ty → Ty → Prop) : Ty → Ty → Prop where
  /-- Numbers. -/
  | number : UsableLayer related .number .number
  /-- Booleans. -/
  | boolean : UsableLayer related .boolean .boolean
  /-- Functions with as many parameters, related one by one from the second to the first, and
  related results. -/
  | function {parameters parameters' : List (String × Ty)} {result result' : Ty}
    (places : List.Forall₂ (fun member member' => related member'.2 member.2)
      parameters parameters')
    (results : related result result') :
    UsableLayer related (.function parameters result) (.function parameters' result')
  /-- Objects of which the first has every property name of the second, and related properties of
  each name. -/
  | object {properties properties' : List (String × Ty)}
    (names : ∀ name, name ∈ properties'.map Prod.fst → name ∈ properties.map Prod.fst)
    (values : ∀ name type type', (name, type) ∈ properties → (name, type') ∈ properties' →
      related type type') :
    UsableLayer related (.object properties) (.object properties')

namespace UsableLayer

/-- A larger relation has more layers. -/
theorem monotone : Monotone UsableLayer := by
  intro related related' larger left right matched
  cases matched with
  | number => exact .number
  | boolean => exact .boolean
  | function places results =>
    exact .function (places.imp fun _ _ holds => larger _ _ holds) (larger _ _ results)
  | object names values =>
    exact .object names fun name type type' isMember isMember' =>
      larger _ _ (values name type type' isMember isMember')

/-- Layers of usable types compose. -/
theorem comp {first second : Ty → Ty → Prop} {left middle right : Ty}
    (matched : UsableLayer first left middle) (matched' : UsableLayer second middle right) :
    UsableLayer (fun left right => Relation.Comp first second left right ∨
      Relation.Comp second first left right) left right := by
  cases matched with
  | number =>
    cases matched'
    exact .number
  | boolean =>
    cases matched'
    exact .boolean
  | function places results =>
    cases matched' with
    | function places' results' =>
      refine .function ((Members.forall₂_comp places places').imp ?_)
        (.inl ⟨_, results, results'⟩)
      rintro member member' ⟨between, holds, holds'⟩
      exact .inr ⟨between.2, holds', holds⟩
  | object names values =>
    cases matched' with
    | object names' values' =>
      refine .object (fun name isName => names name (names' name isName)) ?_
      intro name type type' isMember isMember'
      have isName := names' name (List.mem_map_of_mem isMember')
      obtain ⟨between, isBetween⟩ := Members.exists_mem_of_mem_names isName
      exact .inl ⟨between, values name type between isMember isBetween,
        values' name between type' isBetween isMember'⟩

end UsableLayer

/-- Layers of the same tree make each type usable as the other. -/
theorem SameLayer.usable {related : Ty → Ty → Prop} {left right : Ty}
    (symmetric : ∀ left right, related left right → related right left)
    (matched : SameLayer related left right) : UsableLayer related left right := by
  cases matched with
  | number => exact .number
  | boolean => exact .boolean
  | function places results =>
    exact .function (places.imp fun _ _ holds => symmetric _ _ holds) results
  | object names values => exact .object (fun name => (names name).2) values

/-- Whether a value of the first type can be used wherever one of the second is expected. -/
def UsableAs : Ty → Ty → Prop :=
  Largest UsableLayer

namespace UsableAs

/-- A type can be used as one of the same tree. -/
theorem of_sameTree {left right : Ty} (same : SameTree left right) : UsableAs left right := by
  refine ⟨SameTree, ?_, same⟩
  intro left right same
  obtain ⟨left', right', exposes, exposes', matched⟩ :=
    Largest.consistent SameLayer.monotone left right same
  exact ⟨left', right', exposes, exposes', matched.usable fun _ _ => SameTree.symm⟩

/-- A type that can be used as another has a usable layer, where neither is recursive at the top. -/
theorem layer {left right : Ty} (usable : UsableAs left right) (bare : left.unfolding? = none)
    (bare' : right.unfolding? = none) : UsableLayer UsableAs left right :=
  Largest.layer_of_bare UsableLayer.monotone usable bare bare'

/-- A well-formed type can be used as itself. -/
theorem refl {type : Ty} (wellFormed : type.WellFormed) : UsableAs type type :=
  of_sameTree (.refl wellFormed)

/-- Being usable is transitive. -/
theorem trans {left middle right : Ty} (usable : UsableAs left middle)
    (usable' : UsableAs middle right) : UsableAs left right := by
  refine ⟨Relation.Comp UsableAs UsableAs, ?_, middle, usable, usable'⟩
  rintro left right ⟨middle, usable, usable'⟩
  obtain ⟨left', head, exposes, exposed, matched⟩ :=
    Largest.consistent UsableLayer.monotone left middle usable
  obtain ⟨head', right', exposed', exposes', matched'⟩ :=
    Largest.consistent UsableLayer.monotone middle right usable'
  obtain rfl := exposed.unique exposed'
  refine ⟨left', right', exposes, exposes',
    UsableLayer.monotone ?_ left' right' (matched.comp matched')⟩
  exact fun _ _ holds => holds.elim id id

end UsableAs

/-! ## Simplifying -/

/-- Simplifying unfolds a well-formed type to its first layer, as long as everything visited had
more binders in front. -/
theorem exposes_simplifyFrom {type : Ty} (wellFormed : type.WellFormed) (visited : List Ty)
    (later : ∀ earlier ∈ visited, type.leadingBinders < earlier.leadingBinders) :
    Exposes type (simplifyFrom visited type.leadingBinders type) := by
  induction binders : type.leadingBinders generalizing type visited with
  | zero => exact .done (unfolding?_eq_none binders)
  | succ count ih =>
    cases type with
    | mu name body =>
      have unseen : (visited.any fun earlier => earlier.alike (mu name body)) = false := by
        rw [List.any_eq_false]
        intro earlier isVisited alike
        have same := leadingBinders_eq_of_alikeUnder alike
        have more := later earlier isVisited
        omega
      have fewer := leadingBinders_unfolded wellFormed.contractive
      simp only [simplifyFrom, unseen, Bool.false_eq_true, if_false]
      refine .unfold (ih wellFormed.unfolded _ ?_ (by omega))
      intro earlier isVisited
      rcases List.mem_cons.1 isVisited with rfl | isVisited
      · omega
      · have more := later earlier isVisited
        omega
    | _ => simp [leadingBinders] at binders

/-- Simplifying a well-formed type gives its first layer. -/
theorem exposes_simplify {type : Ty} (wellFormed : type.WellFormed) :
    Exposes type type.simplify :=
  exposes_simplifyFrom wellFormed [] fun _ isVisited => nomatch isVisited

/-- A well-formed type can be used as its first layer. -/
theorem WellFormed.usableAs_simplify {type : Ty} (wellFormed : type.WellFormed) :
    UsableAs type type.simplify :=
  .of_sameTree (.of_exposes wellFormed (exposes_simplify wellFormed))

/-- The first layer that simplifying gives is well-formed. -/
theorem WellFormed.simplify {type : Ty} (wellFormed : type.WellFormed) :
    type.simplify.WellFormed :=
  (exposes_simplify wellFormed).wellFormed wellFormed

end Equirec.Ty
