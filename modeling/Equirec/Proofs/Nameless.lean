import Equirec.Proofs.Tree
import Mathlib.Data.List.Perm.Basic

/-!
# Types without the names of binders

In the nameless form of a type a bound variable is the number of binders between it and its own,
and only free variables keep their names. Two nameless types are similar when they are equal up to
the order of properties and the names of parameters, which is an equivalence
(`Nameless.similar_equivalence`).

The comparison up to the names of binders decides just that (`Ty.alike_iff_similar`). It looks for
the innermost pair of binders that mentions either of two variables, where the nameless forms look
for the binder of each variable on its own side, and it looks up the properties of one object in
the other, where similar objects are reorderings of each other. The two ways of comparing objects
agree as long as no property name is repeated.
-/
namespace Equirec

/-- What a variable of a type refers to. -/
inductive Referent where
  /-- A binder, by the number of binders between it and the variable. -/
  | binder (index : Nat)
  /-- Nothing in the type: a free variable is known by its name. -/
  | free (name : String)

namespace Referent

/-- A referent as it is seen from below one more binder. -/
def below : Referent → Referent
  | .binder index => .binder (index + 1)
  | .free name => .free name

/-- Different referents are different from below. -/
@[simp]
theorem below_inj {left right : Referent} : left.below = right.below ↔ left = right := by
  cases left <;> cases right <;> simp [below]

/-- What was there before is not the binder just passed. -/
@[simp]
theorem below_ne_binder_zero (referent : Referent) : referent.below ≠ .binder 0 := by
  cases referent <;> simp [below]

end Referent

/-- A type whose variables refer to their binders by position. -/
inductive Nameless where
  /-- The type of numbers. -/
  | number
  /-- The type of booleans. -/
  | boolean
  /-- A function from its named parameters, in order, to its result. -/
  | function (parameters : List (String × Nameless)) (result : Nameless)
  /-- An object with its named properties, in order. -/
  | object (properties : List (String × Nameless))
  /-- A type variable. -/
  | var (referent : Referent)
  /-- A recursive type, which has no name. -/
  | mu (body : Nameless)

namespace Nameless

/-- Induction on nameless types, with the hypothesis for members stated for each member of the
list. -/
@[elab_as_elim, induction_eliminator]
theorem induction {motive : Nameless → Prop}
    (number : motive .number) (boolean : motive .boolean)
    (function : ∀ parameters result, (∀ member ∈ parameters, motive member.2) → motive result →
      motive (.function parameters result))
    (object : ∀ properties, (∀ member ∈ properties, motive member.2) →
      motive (.object properties))
    (var : ∀ referent, motive (.var referent))
    (mu : ∀ body, motive body → motive (.mu body)) (type : Nameless) : motive type :=
  @Nameless.rec motive (fun members => ∀ member ∈ members, motive member.2)
    (fun member => motive member.2) number boolean function object var mu
    (fun _ isMember => nomatch isMember)
    (fun _ _ head tail _ isMember =>
      (List.mem_cons.1 isMember).elim (fun same => same ▸ head) (tail _))
    (fun _ _ type => type) type

/-- Nameless types that are equal up to the order of properties and the names of parameters. -/
inductive Similar : Nameless → Nameless → Prop where
  /-- Numbers. -/
  | number : Similar .number .number
  /-- Booleans. -/
  | boolean : Similar .boolean .boolean
  /-- Functions with as many parameters, similar place by place, and similar results. -/
  | function {parameters parameters' : List (String × Nameless)} {result result' : Nameless}
    (count : parameters.length = parameters'.length)
    (places : ∀ member member', (member, member') ∈ parameters.zip parameters' →
      Similar member.2 member'.2)
    (results : Similar result result') :
    Similar (.function parameters result) (.function parameters' result')
  /-- Objects of which one can be reordered so that the names are the same and the types similar,
  place by place. -/
  | object {properties properties' reordered : List (String × Nameless)}
    (names : properties.map Prod.fst = reordered.map Prod.fst)
    (places : ∀ member member', (member, member') ∈ properties.zip reordered →
      Similar member.2 member'.2)
    (order : reordered.Perm properties') : Similar (.object properties) (.object properties')
  /-- Variables that refer to the same. -/
  | var (referent : Referent) : Similar (.var referent) (.var referent)
  /-- Recursive types with similar bodies. -/
  | mu {body body' : Nameless} (bodies : Similar body body') : Similar (.mu body) (.mu body')

/-- Similarity of functions, through lists. -/
theorem similar_function {parameters parameters' : List (String × Nameless)}
    {result result' : Nameless} :
    Similar (.function parameters result) (.function parameters' result') ↔
      List.Forall₂ (fun member member' => Similar member.2 member'.2) parameters parameters' ∧
        Similar result result' := by
  constructor
  · intro similar
    cases similar with
    | function count places results =>
      exact ⟨List.forall₂_iff_zip.2 ⟨count, places _ _⟩, results⟩
  · rintro ⟨places, results⟩
    exact .function places.length_eq (fun _ _ => List.forall₂_zip places) results

/-- Similarity of objects, through lists. -/
theorem similar_object {properties properties' : List (String × Nameless)} :
    Similar (.object properties) (.object properties') ↔
      ∃ reordered, List.Forall₂ (fun member member' => member.1 = member'.1 ∧
        Similar member.2 member'.2) properties reordered ∧ reordered.Perm properties' := by
  constructor
  · intro similar
    cases similar with
    | object names places order =>
      exact ⟨_, (Members.forall₂_named_iff Similar).2 ⟨names, places⟩, order⟩
  · rintro ⟨reordered, places, order⟩
    obtain ⟨names, values⟩ := (Members.forall₂_named_iff Similar).1 places
    exact .object names values order

/-- Similar variables refer to the same. -/
theorem similar_var {referent referent' : Referent} :
    Similar (.var referent) (.var referent') ↔ referent = referent' := by
  constructor
  · intro similar
    cases similar
    rfl
  · rintro rfl
    exact .var referent

/-- Similar recursive types have similar bodies. -/
theorem similar_mu {body body' : Nameless} :
    Similar (.mu body) (.mu body') ↔ Similar body body' := by
  constructor
  · intro similar
    cases similar with
    | mu bodies => exact bodies
  · exact .mu

namespace Similar

/-- Every nameless type is similar to itself. -/
theorem refl (type : Nameless) : Similar type type := by
  induction type with
  | number => exact .number
  | boolean => exact .boolean
  | function parameters result parametersIH resultIH =>
    exact similar_function.2 ⟨List.forall₂_same.2 parametersIH, resultIH⟩
  | object properties propertiesIH =>
    refine similar_object.2 ⟨properties, List.forall₂_same.2 fun member isMember => ?_, .refl _⟩
    exact ⟨rfl, propertiesIH member isMember⟩
  | var referent => exact .var referent
  | mu body bodyIH => exact .mu bodyIH

/-- Similarity is symmetric. -/
theorem symm {left right : Nameless} (similar : Similar left right) : Similar right left := by
  induction similar with
  | number => exact .number
  | boolean => exact .boolean
  | function count _ _ placesIH resultsIH =>
    have places := List.forall₂_iff_zip.2 ⟨count, placesIH _ _⟩
    exact similar_function.2 ⟨places.flip, resultsIH⟩
  | object names _ order placesIH =>
    have places := (Members.forall₂_named_iff (flip Similar)).2 ⟨names, placesIH⟩
    have back := places.flip.imp fun _ _ both => And.intro both.1.symm both.2
    exact similar_object.2 (List.perm_comp_forall₂ order.symm back)
  | var referent => exact .var referent
  | mu _ bodiesIH => exact .mu bodiesIH

/-- Similarity is transitive. -/
theorem trans {left middle right : Nameless} (similar : Similar left middle)
    (similar' : Similar middle right) : Similar left right := by
  induction similar generalizing right with
  | number => exact similar'
  | boolean => exact similar'
  | function count _ _ placesIH resultsIH =>
    cases similar' with
    | function count' places' results' =>
      have first := List.forall₂_iff_zip.2 ⟨count, placesIH _ _⟩
      have second := List.forall₂_iff_zip.2 ⟨count', places' _ _⟩
      refine similar_function.2 ⟨(Members.forall₂_comp first second).imp ?_, resultsIH results'⟩
      rintro member member' ⟨_, carries, similar⟩
      exact carries similar
  | object names _ order placesIH =>
    cases similar' with
    | object names' places' order' =>
      have first := (Members.forall₂_named_iff fun left middle =>
        ∀ type, Similar middle type → Similar left type).2
          ⟨names, fun _ _ isPair _ => placesIH _ _ isPair⟩
      have second := (Members.forall₂_named_iff Similar).2 ⟨names', places'⟩
      -- The first reordering can be made after the second step instead of before it.
      obtain ⟨reordered, second, order''⟩ := List.perm_comp_forall₂ order second
      refine similar_object.2 ⟨reordered, (Members.forall₂_comp first second).imp ?_,
        order''.trans order'⟩
      rintro member member' ⟨_, ⟨name, carries⟩, name', similar⟩
      exact ⟨name.trans name', carries _ similar⟩
  | var referent => exact similar'
  | mu _ bodiesIH =>
    cases similar' with
    | mu bodies' => exact .mu (bodiesIH bodies')

end Similar

/-- Similarity is an equivalence of nameless types. -/
theorem similar_equivalence : Equivalence Similar :=
  ⟨Similar.refl, Similar.symm, Similar.trans⟩

/-- Objects without repeated names are similar when they have as many properties and each is
similar to the one of its name. -/
theorem similar_object_iff_lookup {properties properties' : List (String × Nameless)}
    (distinct : (properties.map Prod.fst).Nodup) (distinct' : (properties'.map Prod.fst).Nodup) :
    Similar (.object properties) (.object properties') ↔
      properties.length = properties'.length ∧
        ∀ member ∈ properties, ∃ type, properties'.lookup member.1 = some type ∧
          Similar member.2 type :=
  similar_object.trans (Members.reordering_iff_lookup distinct distinct' Similar)

end Nameless

namespace Ty

/-- What a variable refers to under binders, innermost first. -/
def referent (binders : List String) (name : String) : Referent :=
  match binders.idxOf? name with
  | some index => .binder index
  | none => .free name

mutual

/-- The nameless form of a type under binders, innermost first. -/
def namelessUnder (binders : List String) : Ty → Nameless
  | .number => .number
  | .boolean => .boolean
  | .function parameters result =>
    .function (namelessIn binders parameters) (result.namelessUnder binders)
  | .object properties => .object (namelessIn binders properties)
  | .var name => .var (referent binders name)
  | .mu name body => .mu (body.namelessUnder (name :: binders))

/-- Members, with their names, in nameless form under binders. -/
def namelessIn (binders : List String) : List (String × Ty) → List (String × Nameless)
  | [] => []
  | (name, type) :: rest => (name, type.namelessUnder binders) :: namelessIn binders rest

end

@[simp]
theorem namelessIn_eq_map (binders : List String) (members : List (String × Ty)) :
    namelessIn binders members =
      members.map fun member => (member.1, member.2.namelessUnder binders) := by
  induction members with
  | nil => rfl
  | cons member rest ih => simp [namelessIn, ih]

/-- The nameless form of a type. -/
def nameless (type : Ty) : Nameless :=
  type.namelessUnder []

example : (mu "A" (.mu "B" (.function [("x", .var "A"), ("y", .var "B")] (.var "C")))).nameless =
    .mu (.mu (.function [("x", .var (.binder 1)), ("y", .var (.binder 0))] (.var (.free "C")))) :=
  rfl

/-! ## Variables -/

/-- Under one more binder a variable refers to this one or to what it referred to before. -/
theorem referent_cons (bound : String) (binders : List String) (name : String) :
    referent (bound :: binders) name =
      if name = bound then .binder 0 else (referent binders name).below := by
  unfold referent
  rw [List.idxOf?_cons]
  by_cases hit : bound = name
  · simp [hit]
  · have passed : name ≠ bound := fun same => hit same.symm
    cases binders.idxOf? name <;> simp [hit, passed, Referent.below]

/-- Under one more binder on each side, two variables refer to the same when both refer to these
binders, or when neither does and they referred to the same before. -/
theorem referent_cons_eq_iff (bound bound' : String) (binders binders' : List String)
    (name name' : String) :
    referent (bound :: binders) name = referent (bound' :: binders') name' ↔
      (name = bound ∧ name' = bound') ∨
        (name ≠ bound ∧ name' ≠ bound' ∧ referent binders name = referent binders' name') := by
  rw [referent_cons, referent_cons]
  by_cases hit : name = bound <;> by_cases hit' : name' = bound'
  · simp [hit, hit']
  · simp [hit, hit', (Referent.below_ne_binder_zero _).symm]
  · simp [hit, hit']
  · simp [hit, hit']

/-- Variables mean the same under pairs of binders exactly when they refer to the same, each among
the binders of its side. -/
theorem sameVar_iff_referent (binders : List (String × String)) (name name' : String) :
    sameVar binders name name' = true ↔
      referent (binders.map Prod.fst) name = referent (binders.map Prod.snd) name' := by
  induction binders with
  | nil => simp [sameVar, referent]
  | cons pair binders ih =>
    obtain ⟨bound, bound'⟩ := pair
    rw [sameVar_cons, List.map_cons, List.map_cons, referent_cons_eq_iff, ih]

/-! ## Types -/

/-- Alike types without repeated property names are those with similar nameless forms. -/
theorem alikeUnder_iff_similar {left right : Ty} (binders : List (String × String))
    (distinct : left.hasDistinctNames = true) (distinct' : right.hasDistinctNames = true) :
    alikeUnder binders left right = true ↔
      (left.namelessUnder (binders.map Prod.fst)).Similar
        (right.namelessUnder (binders.map Prod.snd)) := by
  induction left generalizing binders right with
  | number =>
    cases right with
    | number => exact iff_of_true rfl .number
    | _ => exact iff_of_false (by simp [alikeUnder]) (by rintro ⟨⟩)
  | boolean =>
    cases right with
    | boolean => exact iff_of_true rfl .boolean
    | _ => exact iff_of_false (by simp [alikeUnder]) (by rintro ⟨⟩)
  | function parameters result parametersIH resultIH =>
    cases right with
    | function parameters' result' =>
      simp only [namelessUnder, namelessIn_eq_map]
      rw [alikeUnder_function, Nameless.similar_function, List.forall₂_map_left_iff,
        List.forall₂_map_right_iff, resultIH binders (IsPart.result.hasDistinctNames distinct)
          (IsPart.result.hasDistinctNames distinct')]
      refine and_congr_left fun _ =>
        Members.forall₂_congr_mem fun member isMember member' isMember' => ?_
      exact parametersIH member isMember binders
        ((IsPart.parameter isMember).hasDistinctNames distinct)
        ((IsPart.parameter isMember').hasDistinctNames distinct')
    | _ => exact iff_of_false (by simp [alikeUnder]) (by rintro ⟨⟩)
  | object properties propertiesIH =>
    cases right with
    | object properties' =>
      simp only [namelessUnder, namelessIn_eq_map]
      rw [alikeUnder_object, Nameless.similar_object_iff_lookup, List.length_map, List.length_map,
        List.forall_mem_map]
      · refine and_congr_right fun _ => forall₂_congr fun member isMember => ?_
        rw [Members.lookup_map (namelessUnder (binders.map Prod.snd))]
        simp only [Option.map_eq_some_iff, exists_exists_and_eq_and]
        refine exists_congr fun type => and_congr_right fun found => ?_
        exact propertiesIH member isMember binders
          ((IsPart.property isMember).hasDistinctNames distinct)
          ((IsPart.property (Members.mem_of_lookup found)).hasDistinctNames distinct')
      · simpa [Function.comp_def] using nodup_names distinct
      · simpa [Function.comp_def] using nodup_names distinct'
    | _ => exact iff_of_false (by simp [alikeUnder]) (by rintro ⟨⟩)
  | var name =>
    cases right with
    | var name' =>
      rw [alikeUnder, sameVar_iff_referent, namelessUnder, namelessUnder, Nameless.similar_var]
    | _ => exact iff_of_false (by simp [alikeUnder]) (by rintro ⟨⟩)
  | mu name body bodyIH =>
    cases right with
    | mu name' body' =>
      rw [alikeUnder, namelessUnder, namelessUnder, Nameless.similar_mu]
      exact bodyIH ((name, name') :: binders) distinct distinct'
    | _ => exact iff_of_false (by simp [alikeUnder]) (by rintro ⟨⟩)

/-- On types without repeated property names, open or closed, the comparison up to the names of
binders holds exactly between those whose nameless forms are equal up to the order of properties
and the names of parameters. Hence it is an equivalence of these types. -/
theorem alike_iff_similar :
    (∀ left right : Ty, left.hasDistinctNames = true → right.hasDistinctNames = true →
      (left.alike right = true ↔ left.nameless.Similar right.nameless)) ∧
    Equivalence fun left right : { type : Ty // type.hasDistinctNames = true } =>
      left.val.alike right.val = true := by
  have decides : ∀ left right : Ty, left.hasDistinctNames = true → right.hasDistinctNames = true →
      (left.alike right = true ↔ left.nameless.Similar right.nameless) :=
    fun _ _ distinct distinct' => alikeUnder_iff_similar [] distinct distinct'
  have equivalence := Nameless.similar_equivalence.comap
    fun type : { type : Ty // type.hasDistinctNames = true } => type.val.nameless
  refine ⟨decides, ?_⟩
  convert equivalence using 3 with left right
  exact decides left right left.property right.property

/-- A binder that hides its own name on one side only, a free variable whose name is bound
elsewhere on the other side, reordered properties and other parameter names make no difference.
Giving the outer binder the name of the free variable makes one. -/
theorem alike_iff_similar_shadowed :
    let first := mu "A" (.object [("loop", .mu "A" (.function [("x", .var "A")] (.var "F"))),
      ("self", .var "A"), ("other", .mu "B" (.object [("b", .var "B")]))])
    let second := fun name => mu name (.object [("other", .mu "F" (.object [("b", .var "F")])),
      ("self", .var name), ("loop", .mu "C" (.function [("y", .var "C")] (.var "F")))])
    first.hasDistinctNames = true ∧ (second "B").hasDistinctNames = true ∧
      (second "F").hasDistinctNames = true ∧ first.nameless.Similar (second "B").nameless ∧
      (second "B").alike first = true ∧ ¬ first.nameless.Similar (second "F").nameless := by
  intro first second
  have distinct : first.hasDistinctNames = true := by decide
  have distinctB : (second "B").hasDistinctNames = true := by decide
  have distinctF : (second "F").hasDistinctNames = true := by decide
  obtain ⟨decides, equivalence⟩ := alike_iff_similar
  have alike : first.alike (second "B") = true := by decide
  have back := equivalence.symm (x := ⟨first, distinct⟩) (y := ⟨second "B", distinctB⟩) alike
  refine ⟨distinct, distinctB, distinctF, (decides _ _ distinct distinctB).1 alike, back, ?_⟩
  rw [← decides _ _ distinct distinctF]
  decide

end Ty

end Equirec
