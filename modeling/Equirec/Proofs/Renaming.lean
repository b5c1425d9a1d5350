import Equirec.Proofs.Annotations
import Equirec.Proofs.Names
import Mathlib.Data.List.Forall2

/-!
# Renaming bound names

A name that a term binds may be replaced by a fresh one, together with the references that it binds
(`Term.RenamesBinder`): a parameter of a function, up to a later parameter of the same name; a
constant, in the rest of the program and in its own value if it is known there; a declared function,
in the rest of the program and in its body unless a parameter has its name.

Two terms are alike when they differ in bound names only, given which of the names around them stand
for each other (`Term.Alike`). A term in which a bound name is renamed is alike
(`Term.RenamesBinder.alike`).
-/
namespace Equirec

/-! ## Matching names -/

/-- Which names of one scope stand for which names of another. -/
def Matching : Type :=
  String → String → Prop

namespace Matching

/-- Which names match after each scope binds a name: the new names match each other, and hide what
had their names before. -/
def bind (matching : Matching) (name name' : String) : Matching := fun other other' =>
  other = name ∧ other' = name' ∨ other ≠ name ∧ other' ≠ name' ∧ matching other other'

/-- Which names match after each scope binds names, one after the other. -/
def bindAll (matching : Matching) : List String → List String → Matching
  | name :: names, name' :: names' => (matching.bind name name').bindAll names names'
  | _, _ => matching

/-- Whether every name but a fresh one matches itself. -/
def Keeps (matching : Matching) (fresh : String) : Prop :=
  ∀ name, name ≠ fresh → matching name name

/-- Whether a name matches a fresh one, and every other name matches itself. -/
def Renames (matching : Matching) (name fresh : String) : Prop :=
  ∀ other, other ≠ fresh → matching other (if other = name then fresh else other)

variable {matching : Matching} {name fresh : String}

/-- Names bound in both scopes may be bound in two parts. -/
theorem bindAll_append (matching : Matching) (names more more' : List String) :
    matching.bindAll (names ++ more) (names ++ more') =
      (matching.bindAll names names).bindAll more more' := by
  induction names generalizing matching with
  | nil => rfl
  | cons name names ih => exact ih (matching.bind name name)

/-- A name that both scopes bind matches itself. -/
theorem Keeps.bind (keeps : matching.Keeps fresh) (name : String) :
    (matching.bind name name).Keeps fresh := by
  intro other isOld
  by_cases same : other = name
  · exact .inl ⟨same, same⟩
  · exact .inr ⟨same, same, keeps other isOld⟩

/-- Names that both scopes bind match themselves. -/
theorem Keeps.bindAll (keeps : matching.Keeps fresh) (names : List String) :
    (matching.bindAll names names).Keeps fresh := by
  induction names generalizing matching with
  | nil => exact keeps
  | cons name names ih => exact ih (keeps.bind name)

/-- A name that is bound under a fresh name is renamed. -/
theorem Keeps.renames (keeps : matching.Keeps fresh) (name : String) :
    (matching.bind name fresh).Renames name fresh := by
  intro other isOld
  by_cases same : other = name
  · rw [if_pos same]
    exact .inl ⟨same, rfl⟩
  · rw [if_neg same]
    exact .inr ⟨same, isOld, keeps other isOld⟩

/-- A name that both scopes bind again is no longer renamed. -/
theorem Renames.keeps_bind (renames : matching.Renames name fresh) :
    (matching.bind name name).Keeps fresh := by
  intro other isOld
  by_cases same : other = name
  · exact .inl ⟨same, same⟩
  · have kept := renames other isOld
    rw [if_neg same] at kept
    exact .inr ⟨same, same, kept⟩

/-- Another name that both scopes bind leaves a name renamed. -/
theorem Renames.bind (renames : matching.Renames name fresh) {bound : String}
    (differs : bound ≠ name) (isOld : bound ≠ fresh) :
    (matching.bind bound bound).Renames name fresh := by
  intro other isOther
  by_cases same : other = bound
  · have kept : other ≠ name := same ▸ differs
    rw [if_neg kept]
    exact .inl ⟨same, same⟩
  · refine .inr ⟨same, ?_, renames other isOther⟩
    split
    · exact isOld.symm
    · exact same

/-- Other names that both scopes bind leave a name renamed. -/
theorem Renames.bindAll (renames : matching.Renames name fresh) {names : List String}
    (unbound : name ∉ names) (areOld : fresh ∉ names) :
    (matching.bindAll names names).Renames name fresh := by
  induction names generalizing matching with
  | nil => exact renames
  | cons bound names ih =>
    have differs := (List.ne_of_not_mem_cons unbound).symm
    have isOld := (List.ne_of_not_mem_cons areOld).symm
    exact ih (renames.bind differs isOld) (List.not_mem_of_not_mem_cons unbound)
      (List.not_mem_of_not_mem_cons areOld)

/-- A name is no longer renamed when it is among those that both scopes bind. -/
theorem Renames.keeps_bindAll (renames : matching.Renames name fresh) {names : List String}
    (isBound : name ∈ names) (areOld : fresh ∉ names) :
    (matching.bindAll names names).Keeps fresh := by
  induction names generalizing matching with
  | nil => cases isBound
  | cons bound names ih =>
    by_cases same : bound = name
    · rw [same]
      exact renames.keeps_bind.bindAll names
    · have isOld := (List.ne_of_not_mem_cons areOld).symm
      have isLater := List.mem_of_ne_of_mem (Ne.symm same) isBound
      exact ih (renames.bind same isOld) isLater (List.not_mem_of_not_mem_cons areOld)

end Matching

namespace Term

/-! ## Names in terms -/

/-- The names that a term uses or binds itself, apart from its parts. -/
def ownNames : Term → List String
  | .reference _ name => [name]
  | .function _ parameters _ _ => parameters.map Prod.fst
  | .constant _ name _ _ => [name]
  | .declaration _ name parameters _ _ _ => name :: parameters.map Prod.fst
  | _ => []

/-- The names that occur in a term, used or bound. -/
def names (term : Term) : List String :=
  term.subterms.flatMap ownNames

/-- A name does not occur in a term exactly when the term does not have it itself, and it occurs in
none of the parts. -/
theorem not_mem_names_iff {name : String} {term : Term} :
    name ∉ term.names ↔ name ∉ term.ownNames ∧ ∀ part ∈ term.parts, name ∉ part.names := by
  rw [names, subterms_eq_cons, List.flatMap_cons, List.mem_append, not_or, List.flatMap_assoc]
  refine and_congr_right fun _ => ?_
  rw [List.mem_flatMap, not_exists]
  exact forall_congr' fun part => not_and

mutual

/-- The term with all free references of a name given another name. -/
def renameFree (variant : Variant) (name fresh : String) : Term → Term
  | .boolean span value => .boolean span value
  | .number span value => .number span value
  | .add span left right =>
    .add span (left.renameFree variant name fresh) (right.renameFree variant name fresh)
  | .conditional span condition positive negative =>
    .conditional span (condition.renameFree variant name fresh)
      (positive.renameFree variant name fresh) (negative.renameFree variant name fresh)
  | .reference span other => .reference span (if other = name then fresh else other)
  | .function span parameters declared body =>
    .function span parameters declared
      (if name ∈ parameters.map Prod.fst then body else body.renameFree variant name fresh)
  | .call span callee arguments =>
    .call span (callee.renameFree variant name fresh) (renameFreeOf variant name fresh arguments)
  | .sequence span first rest =>
    .sequence span (first.renameFree variant name fresh) (rest.renameFree variant name fresh)
  | .constant span other value rest =>
    .constant span other
      (if name ∈ knownInValue variant other value then value
        else value.renameFree variant name fresh)
      (if name ∈ [other] then rest else rest.renameFree variant name fresh)
  | .object span properties => .object span (renameFreeIn variant name fresh properties)
  | .property span whole label => .property span (whole.renameFree variant name fresh) label
  | .declaration span other parameters declared body rest =>
    .declaration span other parameters declared
      (if name ∈ other :: parameters.map Prod.fst then body
        else body.renameFree variant name fresh)
      (if name ∈ [other] then rest else rest.renameFree variant name fresh)

/-- Several terms with all free references of a name given another name. -/
def renameFreeOf (variant : Variant) (name fresh : String) : List Term → List Term
  | [] => []
  | term :: rest => term.renameFree variant name fresh :: renameFreeOf variant name fresh rest

/-- The properties of an object literal with all free references of a name given another name. -/
def renameFreeIn (variant : Variant) (name fresh : String) :
    List (String × Term) → List (String × Term)
  | [] => []
  | (label, term) :: rest =>
    (label, term.renameFree variant name fresh) :: renameFreeIn variant name fresh rest

end

@[simp]
theorem renameFreeOf_eq_map (variant : Variant) (name fresh : String) (terms : List Term) :
    renameFreeOf variant name fresh terms = terms.map (renameFree variant name fresh) := by
  induction terms with
  | nil => rfl
  | cons term rest ih => simp [renameFreeOf, ih]

@[simp]
theorem renameFreeIn_eq_map (variant : Variant) (name fresh : String)
    (properties : List (String × Term)) :
    renameFreeIn variant name fresh properties =
      properties.map fun member => (member.1, member.2.renameFree variant name fresh) := by
  induction properties with
  | nil => rfl
  | cons member rest ih => simp [renameFreeIn, ih]

/-- A part of a term in which some names are bound, with the free references of a name given another
name unless it is among those. -/
def renameUnder (variant : Variant) (bound : List String) (name fresh : String) (part : Term) :
    Term :=
  if name ∈ bound then part else part.renameFree variant name fresh

/-- A term after one of the names that it binds is given a fresh name, in its binder and in all
references that the binder binds. -/
inductive RenamesBinder (variant : Variant) (fresh : String) : Term → Term → Prop where
  /-- A parameter of a function literal is known in the body, unless a later one has its name. -/
  | parameter {span : Span} {before after : List (String × Ty)} {name : String} {type : Ty}
    {declared : Option Ty} {body : Term} :
    RenamesBinder variant fresh
      (.function span (before ++ (name, type) :: after) declared body)
      (.function span (before ++ (fresh, type) :: after) declared
        (body.renameUnder variant (after.map Prod.fst) name fresh))
  /-- A constant is known in the rest of the program, and perhaps in its value. -/
  | constant {span : Span} {name : String} {value rest : Term} :
    RenamesBinder variant fresh (.constant span name value rest)
      (.constant span fresh
        (if name ∈ knownInValue variant name value then value.renameFree variant name fresh
          else value)
        (rest.renameFree variant name fresh))
  /-- A declared function is known in its body, unless a parameter has its name, and in the rest of
  the program. -/
  | declaration {span : Span} {name : String} {parameters : List (String × Ty)} {declared : Ty}
    {body rest : Term} :
    RenamesBinder variant fresh (.declaration span name parameters declared body rest)
      (.declaration span fresh parameters declared
        (body.renameUnder variant (parameters.map Prod.fst) name fresh)
        (rest.renameFree variant name fresh))
  /-- A parameter of a declared function is known in the body, unless a later one has its name. -/
  | declarationParameter {span : Span} {label : String} {before after : List (String × Ty)}
    {name : String} {type declared : Ty} {body rest : Term} :
    RenamesBinder variant fresh
      (.declaration span label (before ++ (name, type) :: after) declared body rest)
      (.declaration span label (before ++ (fresh, type) :: after) declared
        (body.renameUnder variant (after.map Prod.fst) name fresh) rest)
  /-- The binder is in the first operand of a sum. -/
  | addLeft {span : Span} {left left' right : Term}
    (inner : RenamesBinder variant fresh left left') :
    RenamesBinder variant fresh (.add span left right) (.add span left' right)
  /-- The binder is in the second operand of a sum. -/
  | addRight {span : Span} {left right right' : Term}
    (inner : RenamesBinder variant fresh right right') :
    RenamesBinder variant fresh (.add span left right) (.add span left right')
  /-- The binder is in a condition. -/
  | condition {span : Span} {condition condition' positive negative : Term}
    (inner : RenamesBinder variant fresh condition condition') :
    RenamesBinder variant fresh (.conditional span condition positive negative)
      (.conditional span condition' positive negative)
  /-- The binder is in what a conditional comes to when the condition holds. -/
  | positive {span : Span} {condition positive positive' negative : Term}
    (inner : RenamesBinder variant fresh positive positive') :
    RenamesBinder variant fresh (.conditional span condition positive negative)
      (.conditional span condition positive' negative)
  /-- The binder is in what a conditional comes to when the condition does not hold. -/
  | negative {span : Span} {condition positive negative negative' : Term}
    (inner : RenamesBinder variant fresh negative negative') :
    RenamesBinder variant fresh (.conditional span condition positive negative)
      (.conditional span condition positive negative')
  /-- The binder is in the body of a function literal. -/
  | body {span : Span} {parameters : List (String × Ty)} {declared : Option Ty} {body body' : Term}
    (inner : RenamesBinder variant fresh body body') :
    RenamesBinder variant fresh (.function span parameters declared body)
      (.function span parameters declared body')
  /-- The binder is in the function of a call. -/
  | callee {span : Span} {callee callee' : Term} {arguments : List Term}
    (inner : RenamesBinder variant fresh callee callee') :
    RenamesBinder variant fresh (.call span callee arguments) (.call span callee' arguments)
  /-- The binder is in an argument of a call. -/
  | argument {span : Span} {callee argument argument' : Term} {before after : List Term}
    (inner : RenamesBinder variant fresh argument argument') :
    RenamesBinder variant fresh (.call span callee (before ++ argument :: after))
      (.call span callee (before ++ argument' :: after))
  /-- The binder is in a term whose value is dropped. -/
  | first {span : Span} {first first' rest : Term}
    (inner : RenamesBinder variant fresh first first') :
    RenamesBinder variant fresh (.sequence span first rest) (.sequence span first' rest)
  /-- The binder is in what follows a term whose value is dropped. -/
  | sequenceRest {span : Span} {first rest rest' : Term}
    (inner : RenamesBinder variant fresh rest rest') :
    RenamesBinder variant fresh (.sequence span first rest) (.sequence span first rest')
  /-- The binder is in the value of a constant. -/
  | value {span : Span} {name : String} {value value' rest : Term}
    (inner : RenamesBinder variant fresh value value') :
    RenamesBinder variant fresh (.constant span name value rest)
      (.constant span name value' rest)
  /-- The binder is in the rest of the program after a constant. -/
  | constantRest {span : Span} {name : String} {value rest rest' : Term}
    (inner : RenamesBinder variant fresh rest rest') :
    RenamesBinder variant fresh (.constant span name value rest)
      (.constant span name value rest')
  /-- The binder is in a property of an object literal. -/
  | member {span : Span} {label : String} {value value' : Term}
    {before after : List (String × Term)} (inner : RenamesBinder variant fresh value value') :
    RenamesBinder variant fresh (.object span (before ++ (label, value) :: after))
      (.object span (before ++ (label, value') :: after))
  /-- The binder is in the object of a property access. -/
  | whole {span : Span} {whole whole' : Term} {label : String}
    (inner : RenamesBinder variant fresh whole whole') :
    RenamesBinder variant fresh (.property span whole label) (.property span whole' label)
  /-- The binder is in the body of a function declaration. -/
  | declarationBody {span : Span} {name : String} {parameters : List (String × Ty)} {declared : Ty}
    {body body' rest : Term} (inner : RenamesBinder variant fresh body body') :
    RenamesBinder variant fresh (.declaration span name parameters declared body rest)
      (.declaration span name parameters declared body' rest)
  /-- The binder is in the rest of the program after a function declaration. -/
  | declarationRest {span : Span} {name : String} {parameters : List (String × Ty)} {declared : Ty}
    {body rest rest' : Term} (inner : RenamesBinder variant fresh rest rest') :
    RenamesBinder variant fresh (.declaration span name parameters declared body rest)
      (.declaration span name parameters declared body rest')

/-! ## Terms that are alike -/

/-- Terms that differ only in the names that they bind, when the names around them match. -/
inductive Alike (variant : Variant) : Matching → Term → Term → Prop where
  /-- A boolean literal. -/
  | boolean {matching : Matching} {span : Span} {value : Bool} :
    Alike variant matching (.boolean span value) (.boolean span value)
  /-- A number literal. -/
  | number {matching : Matching} {span : Span} {value : Double} :
    Alike variant matching (.number span value) (.number span value)
  /-- A sum. -/
  | add {matching : Matching} {span : Span} {left left' right right' : Term}
    (first : Alike variant matching left left') (second : Alike variant matching right right') :
    Alike variant matching (.add span left right) (.add span left' right')
  /-- A conditional. -/
  | conditional {matching : Matching} {span : Span}
    {condition condition' positive positive' negative negative' : Term}
    (test : Alike variant matching condition condition')
    (holds : Alike variant matching positive positive')
    (fails : Alike variant matching negative negative') :
    Alike variant matching (.conditional span condition positive negative)
      (.conditional span condition' positive' negative')
  /-- References to names that match. -/
  | reference {matching : Matching} {span : Span} {name name' : String}
    (matched : matching name name') :
    Alike variant matching (.reference span name) (.reference span name')
  /-- Function literals with parameters of the same types. -/
  | function {matching : Matching} {span : Span} {parameters parameters' : List (String × Ty)}
    {declared : Option Ty} {body body' : Term}
    (types : parameters.map Prod.snd = parameters'.map Prod.snd)
    (inner : Alike variant (matching.bindAll (parameters.map Prod.fst) (parameters'.map Prod.fst))
      body body') :
    Alike variant matching (.function span parameters declared body)
      (.function span parameters' declared body')
  /-- A call. -/
  | call {matching : Matching} {span : Span} {callee callee' : Term}
    {arguments arguments' : List Term} (function : Alike variant matching callee callee')
    (count : arguments.length = arguments'.length)
    (values : ∀ argument argument', (argument, argument') ∈ arguments.zip arguments' →
      Alike variant matching argument argument') :
    Alike variant matching (.call span callee arguments) (.call span callee' arguments')
  /-- A sequence. -/
  | sequence {matching : Matching} {span : Span} {first first' rest rest' : Term}
    (head : Alike variant matching first first') (tail : Alike variant matching rest rest') :
    Alike variant matching (.sequence span first rest) (.sequence span first' rest')
  /-- Constants, whose values are alike with the constants known in them or not. -/
  | constant {matching : Matching} {span : Span} {name name' : String}
    {value value' rest rest' : Term}
    (inner : Alike variant (matching.bindAll (knownInValue variant name value)
      (knownInValue variant name' value')) value value')
    (tail : Alike variant (matching.bind name name') rest rest') :
    Alike variant matching (.constant span name value rest) (.constant span name' value' rest')
  /-- Object literals with the same property names. -/
  | object {matching : Matching} {span : Span} {properties properties' : List (String × Term)}
    (labels : properties.map Prod.fst = properties'.map Prod.fst)
    (values : ∀ value value',
      (value, value') ∈ (properties.map Prod.snd).zip (properties'.map Prod.snd) →
        Alike variant matching value value') :
    Alike variant matching (.object span properties) (.object span properties')
  /-- The property of an object. -/
  | property {matching : Matching} {span : Span} {object object' : Term} {label : String}
    (whole : Alike variant matching object object') :
    Alike variant matching (.property span object label) (.property span object' label)
  /-- Function declarations with parameters of the same types. -/
  | declaration {matching : Matching} {span : Span} {name name' : String}
    {parameters parameters' : List (String × Ty)} {declared : Ty} {body body' rest rest' : Term}
    (types : parameters.map Prod.snd = parameters'.map Prod.snd)
    (inner : Alike variant (matching.bindAll (name :: parameters.map Prod.fst)
      (name' :: parameters'.map Prod.fst)) body body')
    (tail : Alike variant (matching.bind name name') rest rest') :
    Alike variant matching (.declaration span name parameters declared body rest)
      (.declaration span name' parameters' declared body' rest')

namespace Alike

variable {variant : Variant} {matching : Matching} {span : Span} {name fresh : String}

/-- Calls are alike, if the functions and the arguments are. -/
theorem call_of_forall₂ {callee callee' : Term} {arguments arguments' : List Term}
    (function : Alike variant matching callee callee')
    (values : List.Forall₂ (Alike variant matching) arguments arguments') :
    Alike variant matching (.call span callee arguments) (.call span callee' arguments') :=
  .call function values.length_eq fun _ _ => (List.forall₂_iff_zip.1 values).2

/-- Object literals are alike, if they have the same property names and their values are alike. -/
theorem object_of_forall₂ {properties properties' : List (String × Term)}
    (labels : properties.map Prod.fst = properties'.map Prod.fst)
    (values : List.Forall₂ (Alike variant matching) (properties.map Prod.snd)
      (properties'.map Prod.snd)) :
    Alike variant matching (.object span properties) (.object span properties') :=
  .object labels fun _ _ => (List.forall₂_iff_zip.1 values).2

/-- A term is alike to itself, when all its names match themselves. -/
theorem self (term : Term) (isFresh : fresh ∉ term.names) (keeps : matching.Keeps fresh) :
    Alike variant matching term term := by
  induction term generalizing matching with
  | boolean => exact .boolean
  | number => exact .number
  | add _ left right leftIH rightIH =>
    obtain ⟨_, parts⟩ := not_mem_names_iff.1 isFresh
    have first := leftIH (parts left (by simp [Term.parts])) keeps
    have second := rightIH (parts right (by simp [Term.parts])) keeps
    exact .add first second
  | conditional _ condition positive negative conditionIH positiveIH negativeIH =>
    obtain ⟨_, parts⟩ := not_mem_names_iff.1 isFresh
    have test := conditionIH (parts condition (by simp [Term.parts])) keeps
    have holds := positiveIH (parts positive (by simp [Term.parts])) keeps
    have fails := negativeIH (parts negative (by simp [Term.parts])) keeps
    exact .conditional test holds fails
  | reference _ name =>
    obtain ⟨differs, _⟩ := not_mem_names_iff.1 isFresh
    exact .reference (keeps name fun same => differs (List.mem_singleton.2 same.symm))
  | function _ _ _ body bodyIH =>
    obtain ⟨_, parts⟩ := not_mem_names_iff.1 isFresh
    exact .function rfl (bodyIH (parts body (by simp [Term.parts])) (keeps.bindAll _))
  | call _ callee arguments calleeIH argumentsIH =>
    obtain ⟨_, parts⟩ := not_mem_names_iff.1 isFresh
    refine .call_of_forall₂ (calleeIH (parts callee (by simp [Term.parts])) keeps) ?_
    rw [List.forall₂_same]
    intro argument isArgument
    exact argumentsIH argument isArgument (parts argument (by simp [Term.parts, isArgument])) keeps
  | sequence _ first rest firstIH restIH =>
    obtain ⟨_, parts⟩ := not_mem_names_iff.1 isFresh
    have head := firstIH (parts first (by simp [Term.parts])) keeps
    have tail := restIH (parts rest (by simp [Term.parts])) keeps
    exact .sequence head tail
  | constant _ name value rest valueIH restIH =>
    obtain ⟨_, parts⟩ := not_mem_names_iff.1 isFresh
    have bound := keeps.bindAll (knownInValue variant name value)
    have inner := valueIH (parts value (by simp [Term.parts])) bound
    have tail := restIH (parts rest (by simp [Term.parts])) (keeps.bind name)
    exact .constant inner tail
  | object _ properties propertiesIH =>
    obtain ⟨_, parts⟩ := not_mem_names_iff.1 isFresh
    refine .object_of_forall₂ rfl ?_
    rw [List.forall₂_same]
    intro value isValue
    obtain ⟨member, isMember, rfl⟩ := List.mem_map.1 isValue
    exact propertiesIH member isMember (parts member.2 isValue) keeps
  | property _ object _ objectIH =>
    obtain ⟨_, parts⟩ := not_mem_names_iff.1 isFresh
    exact .property (objectIH (parts object (by simp [Term.parts])) keeps)
  | declaration _ name parameters _ body rest bodyIH restIH =>
    obtain ⟨_, parts⟩ := not_mem_names_iff.1 isFresh
    have bound := keeps.bindAll (name :: parameters.map Prod.fst)
    have inner := bodyIH (parts body (by simp [Term.parts])) bound
    have tail := restIH (parts rest (by simp [Term.parts])) (keeps.bind name)
    exact .declaration rfl inner tail

/-- Of several terms one may be replaced by one that is alike. -/
theorem replace {before after : List Term} {part part' : Term} (keeps : matching.Keeps fresh)
    (areFresh : ∀ other ∈ before ++ part :: after, fresh ∉ other.names)
    (inner : fresh ∉ part.names → Alike variant matching part part') :
    List.Forall₂ (Alike variant matching) (before ++ part :: after)
      (before ++ part' :: after) := by
  rw [List.forall_mem_append, List.forall_mem_cons] at areFresh
  obtain ⟨beforeFresh, partFresh, afterFresh⟩ := areFresh
  refine List.rel_append (List.forall₂_same.2 ?_) (.cons (inner partFresh) (List.forall₂_same.2 ?_))
  · exact fun other isOther => .self other (beforeFresh other isOther) keeps
  · exact fun other isOther => .self other (afterFresh other isOther) keeps

/-- A part in which some names are bound is alike, if it is with and without its free references
renamed. -/
theorem under {part : Term} {bound : List String} (renames : matching.Renames name fresh)
    (areOld : fresh ∉ bound) (isFresh : fresh ∉ part.names)
    (renamed : ∀ {matching : Matching}, matching.Renames name fresh →
      Alike variant matching part (part.renameFree variant name fresh)) :
    Alike variant (matching.bindAll bound bound) part
      (part.renameUnder variant bound name fresh) := by
  rw [renameUnder]
  split
  next isBound => exact self part isFresh (renames.keeps_bindAll isBound areOld)
  next unbound => exact renamed (renames.bindAll unbound areOld)

end Alike

/-- Whether a term is a function literal with a declared result does not depend on free names. -/
theorem declaring?_renameFree (variant : Variant) (name fresh : String) (term : Term) :
    (term.renameFree variant name fresh).declaring?.isSome = term.declaring?.isSome := by
  cases term with
  | function _ _ declared => cases declared <;> rfl
  | _ => rfl

/-- What a constant makes known in its value depends on the value only by whether this is a function
literal with a declared result. -/
theorem knownInValue_congr {variant : Variant} (label : String) {value value' : Term}
    (same : value'.declaring?.isSome = value.declaring?.isSome) :
    knownInValue variant label value' = knownInValue variant label value := by
  rw [knownInValue, knownInValue, same]

/-- What a constant makes known in its value does not depend on free names of the value. -/
theorem knownInValue_renameUnder (variant : Variant) (bound : List String)
    (name fresh label : String) (value : Term) :
    knownInValue variant label (value.renameUnder variant bound name fresh) =
      knownInValue variant label value := by
  rw [renameUnder]
  split
  · rfl
  · exact knownInValue_congr label (declaring?_renameFree variant name fresh value)

/-- A constant makes no other name known in its value. -/
theorem not_mem_knownInValue (variant : Variant) {name label : String} (differs : name ≠ label)
    (value : Term) : name ∉ knownInValue variant label value := by
  rw [knownInValue]
  split
  · exact mt List.mem_singleton.1 differs
  · exact List.not_mem_nil

/-- A term is alike to the term with the free references of a name given a fresh name, when the name
matches that. -/
theorem alike_renameFree {variant : Variant} {matching : Matching} {name fresh : String}
    (term : Term) (isFresh : fresh ∉ term.names) (renames : matching.Renames name fresh) :
    Alike variant matching term (term.renameFree variant name fresh) := by
  induction term generalizing matching with
  | boolean => exact .boolean
  | number => exact .number
  | add _ left right leftIH rightIH =>
    obtain ⟨_, parts⟩ := not_mem_names_iff.1 isFresh
    have first := leftIH (parts left (by simp [Term.parts])) renames
    have second := rightIH (parts right (by simp [Term.parts])) renames
    exact .add first second
  | conditional _ condition positive negative conditionIH positiveIH negativeIH =>
    obtain ⟨_, parts⟩ := not_mem_names_iff.1 isFresh
    have test := conditionIH (parts condition (by simp [Term.parts])) renames
    have holds := positiveIH (parts positive (by simp [Term.parts])) renames
    have fails := negativeIH (parts negative (by simp [Term.parts])) renames
    exact .conditional test holds fails
  | reference _ other =>
    obtain ⟨differs, _⟩ := not_mem_names_iff.1 isFresh
    exact .reference (renames other fun same => differs (List.mem_singleton.2 same.symm))
  | function _ _ _ body bodyIH =>
    obtain ⟨areOld, parts⟩ := not_mem_names_iff.1 isFresh
    have isFreshBody := parts body (by simp [Term.parts])
    exact .function rfl (.under renames areOld isFreshBody (bodyIH isFreshBody))
  | call _ callee arguments calleeIH argumentsIH =>
    obtain ⟨_, parts⟩ := not_mem_names_iff.1 isFresh
    rw [renameFree, renameFreeOf_eq_map]
    refine .call_of_forall₂ (calleeIH (parts callee (by simp [Term.parts])) renames) ?_
    rw [List.forall₂_map_right_iff, List.forall₂_same]
    intro argument isArgument
    exact argumentsIH argument isArgument (parts argument (by simp [Term.parts, isArgument]))
      renames
  | sequence _ first rest firstIH restIH =>
    obtain ⟨_, parts⟩ := not_mem_names_iff.1 isFresh
    have head := firstIH (parts first (by simp [Term.parts])) renames
    have tail := restIH (parts rest (by simp [Term.parts])) renames
    exact .sequence head tail
  | constant span label value rest valueIH restIH =>
    obtain ⟨areOld, parts⟩ := not_mem_names_iff.1 isFresh
    have isFreshValue := parts value (by simp [Term.parts])
    have isFreshRest := parts rest (by simp [Term.parts])
    have unknown := not_mem_knownInValue variant (List.ne_of_not_mem_cons areOld) value
    have inner := Alike.under renames unknown isFreshValue (valueIH isFreshValue)
    have tail := Alike.under renames areOld isFreshRest (restIH isFreshRest)
    refine .constant ?_ tail
    rw [← renameUnder, knownInValue_renameUnder]
    exact inner
  | object _ properties propertiesIH =>
    obtain ⟨_, parts⟩ := not_mem_names_iff.1 isFresh
    rw [renameFree, renameFreeIn_eq_map]
    refine .object_of_forall₂ (by simp) ?_
    rw [List.map_map, List.forall₂_map_left_iff, List.forall₂_map_right_iff, List.forall₂_same]
    intro member isMember
    exact propertiesIH member isMember (parts member.2 (List.mem_map_of_mem isMember)) renames
  | property _ object _ objectIH =>
    obtain ⟨_, parts⟩ := not_mem_names_iff.1 isFresh
    exact .property (objectIH (parts object (by simp [Term.parts])) renames)
  | declaration _ label parameters _ body rest bodyIH restIH =>
    obtain ⟨areOld, parts⟩ := not_mem_names_iff.1 isFresh
    have isFreshBody := parts body (by simp [Term.parts])
    have isFreshRest := parts rest (by simp [Term.parts])
    have isOld : fresh ∉ [label] := mt List.mem_singleton.1 (List.ne_of_not_mem_cons areOld)
    have inner := Alike.under renames areOld isFreshBody (bodyIH isFreshBody)
    have tail := Alike.under renames isOld isFreshRest (restIH isFreshRest)
    exact .declaration rfl inner tail

namespace RenamesBinder

variable {variant : Variant} {fresh : String} {term term' : Term}

/-- Whether a term is a function literal with a declared result does not depend on bound names. -/
theorem declaring?_isSome (renames : RenamesBinder variant fresh term term') :
    term'.declaring?.isSome = term.declaring?.isSome := by
  cases renames with
  | @parameter _ _ _ _ _ declared => cases declared <;> rfl
  | @body _ _ declared => cases declared <;> rfl
  | _ => rfl

/-- Of parameters that are bound one after the other, one is bound under a fresh name, and a later
one may hide it. -/
theorem alike_under {matching : Matching} {before after : List (String × Ty)} {name : String}
    {type : Ty} {body : Term} (keeps : matching.Keeps fresh)
    (areOld : fresh ∉ (before ++ (name, type) :: after).map Prod.fst)
    (isFresh : fresh ∉ body.names) :
    Alike variant
      (matching.bindAll ((before ++ (name, type) :: after).map Prod.fst)
        ((before ++ (fresh, type) :: after).map Prod.fst))
      body (body.renameUnder variant (after.map Prod.fst) name fresh) := by
  rw [List.map_append, List.map_append, Matching.bindAll_append]
  have laterOld : fresh ∉ after.map Prod.fst := by
    intro isLater
    apply areOld
    rw [List.map_append, List.map_cons]
    exact List.mem_append_right _ (List.mem_cons_of_mem _ isLater)
  have renames := (keeps.bindAll (before.map Prod.fst)).renames name
  exact .under renames laterOld isFresh (alike_renameFree body isFresh)

/-- A constant is bound under a fresh name in its value, if it is known there. -/
theorem alike_value {matching : Matching} {value : Term} (name : String)
    (keeps : matching.Keeps fresh) (isFresh : fresh ∉ value.names) :
    let value' := if name ∈ knownInValue variant name value then
      value.renameFree variant name fresh else value
    Alike variant (matching.bindAll (knownInValue variant name value)
      (knownInValue variant fresh value')) value value' := by
  intro value'
  by_cases declares : (variant.hasDeclarations && value.declaring?.isSome) = true
  · have known : knownInValue variant name value = [name] := if_pos declares
    have isRenamed : value' = value.renameFree variant name fresh :=
      if_pos (known ▸ List.mem_singleton_self name)
    rw [isRenamed, known, knownInValue, declaring?_renameFree, if_pos declares]
    exact alike_renameFree value isFresh (keeps.renames name)
  · have unknown : knownInValue variant name value = [] := if_neg declares
    have isKept : value' = value := if_neg (unknown ▸ List.not_mem_nil)
    rw [isKept, unknown, knownInValue, if_neg declares]
    exact .self value isFresh keeps

/-- A term in which a bound name is given a name that does not occur is alike. -/
theorem alike {matching : Matching} (renames : RenamesBinder variant fresh term term')
    (isFresh : fresh ∉ term.names) (keeps : matching.Keeps fresh) :
    Alike variant matching term term' := by
  induction renames generalizing matching with
  | @parameter _ before after name type _ body =>
    obtain ⟨areOld, parts⟩ := not_mem_names_iff.1 isFresh
    refine .function (by simp) ?_
    exact alike_under keeps areOld (parts body (by simp [Term.parts]))
  | @constant _ name value rest =>
    obtain ⟨areOld, parts⟩ := not_mem_names_iff.1 isFresh
    have isFreshValue := parts value (by simp [Term.parts])
    have isFreshRest := parts rest (by simp [Term.parts])
    exact .constant (alike_value name keeps isFreshValue)
      (alike_renameFree rest isFreshRest (keeps.renames name))
  | @declaration _ name parameters _ body rest =>
    obtain ⟨areOld, parts⟩ := not_mem_names_iff.1 isFresh
    have isFreshBody := parts body (by simp [Term.parts])
    have isFreshRest := parts rest (by simp [Term.parts])
    have renames := keeps.renames name
    refine .declaration rfl ?_ (alike_renameFree rest isFreshRest renames)
    exact .under renames (List.not_mem_of_not_mem_cons areOld) isFreshBody
      (alike_renameFree body isFreshBody)
  | @declarationParameter _ label _ _ _ _ _ body rest =>
    obtain ⟨areOld, parts⟩ := not_mem_names_iff.1 isFresh
    have isFreshBody := parts body (by simp [Term.parts])
    have isFreshRest := parts rest (by simp [Term.parts])
    have bound := keeps.bind label
    refine .declaration (by simp) ?_ (.self rest isFreshRest bound)
    exact alike_under bound (List.not_mem_of_not_mem_cons areOld) isFreshBody
  | @addLeft _ left _ right _ ih =>
    obtain ⟨_, parts⟩ := not_mem_names_iff.1 isFresh
    have first := ih (parts left (by simp [Term.parts])) keeps
    exact .add first (.self right (parts right (by simp [Term.parts])) keeps)
  | @addRight _ left right _ _ ih =>
    obtain ⟨_, parts⟩ := not_mem_names_iff.1 isFresh
    have second := ih (parts right (by simp [Term.parts])) keeps
    exact .add (.self left (parts left (by simp [Term.parts])) keeps) second
  | @condition _ condition _ positive negative _ ih =>
    obtain ⟨_, parts⟩ := not_mem_names_iff.1 isFresh
    have test := ih (parts condition (by simp [Term.parts])) keeps
    exact .conditional test (.self positive (parts positive (by simp [Term.parts])) keeps)
      (.self negative (parts negative (by simp [Term.parts])) keeps)
  | @positive _ condition positive _ negative _ ih =>
    obtain ⟨_, parts⟩ := not_mem_names_iff.1 isFresh
    have holds := ih (parts positive (by simp [Term.parts])) keeps
    exact .conditional (.self condition (parts condition (by simp [Term.parts])) keeps) holds
      (.self negative (parts negative (by simp [Term.parts])) keeps)
  | @negative _ condition positive negative _ _ ih =>
    obtain ⟨_, parts⟩ := not_mem_names_iff.1 isFresh
    have fails := ih (parts negative (by simp [Term.parts])) keeps
    exact .conditional (.self condition (parts condition (by simp [Term.parts])) keeps)
      (.self positive (parts positive (by simp [Term.parts])) keeps) fails
  | @body _ _ _ body _ _ ih =>
    obtain ⟨_, parts⟩ := not_mem_names_iff.1 isFresh
    exact .function rfl (ih (parts body (by simp [Term.parts])) (keeps.bindAll _))
  | @callee _ callee _ arguments _ ih =>
    obtain ⟨_, parts⟩ := not_mem_names_iff.1 isFresh
    have function := ih (parts callee (by simp [Term.parts])) keeps
    refine .call_of_forall₂ function (List.forall₂_same.2 ?_)
    intro argument isArgument
    exact .self argument (parts argument (List.mem_cons_of_mem _ isArgument)) keeps
  | @argument _ callee argument _ before after _ ih =>
    obtain ⟨_, parts⟩ := not_mem_names_iff.1 isFresh
    rw [Term.parts, List.forall_mem_cons] at parts
    refine .call_of_forall₂ (.self callee parts.1 keeps) ?_
    exact Alike.replace keeps parts.2 fun isFreshArgument => ih isFreshArgument keeps
  | @first _ first _ rest _ ih =>
    obtain ⟨_, parts⟩ := not_mem_names_iff.1 isFresh
    have head := ih (parts first (by simp [Term.parts])) keeps
    exact .sequence head (.self rest (parts rest (by simp [Term.parts])) keeps)
  | @sequenceRest _ first rest _ _ ih =>
    obtain ⟨_, parts⟩ := not_mem_names_iff.1 isFresh
    have tail := ih (parts rest (by simp [Term.parts])) keeps
    exact .sequence (.self first (parts first (by simp [Term.parts])) keeps) tail
  | @value _ name value _ rest inner ih =>
    obtain ⟨_, parts⟩ := not_mem_names_iff.1 isFresh
    have isFreshRest := parts rest (by simp [Term.parts])
    refine .constant ?_ (.self rest isFreshRest (keeps.bind name))
    rw [knownInValue_congr name inner.declaring?_isSome]
    exact ih (parts value (by simp [Term.parts])) (keeps.bindAll _)
  | @constantRest _ name value rest _ _ ih =>
    obtain ⟨_, parts⟩ := not_mem_names_iff.1 isFresh
    have tail := ih (parts rest (by simp [Term.parts])) (keeps.bind name)
    exact .constant (.self value (parts value (by simp [Term.parts])) (keeps.bindAll _)) tail
  | @member _ label value _ before after _ ih =>
    obtain ⟨_, parts⟩ := not_mem_names_iff.1 isFresh
    rw [Term.parts, List.map_append, List.map_cons] at parts
    refine .object_of_forall₂ (by simp) ?_
    rw [List.map_append, List.map_append, List.map_cons, List.map_cons]
    exact Alike.replace keeps parts fun isFreshValue => ih isFreshValue keeps
  | @whole _ whole _ _ _ ih =>
    obtain ⟨_, parts⟩ := not_mem_names_iff.1 isFresh
    exact .property (ih (parts whole (by simp [Term.parts])) keeps)
  | @declarationBody _ name _ _ body _ rest _ ih =>
    obtain ⟨_, parts⟩ := not_mem_names_iff.1 isFresh
    have isFreshRest := parts rest (by simp [Term.parts])
    refine .declaration rfl ?_ (.self rest isFreshRest (keeps.bind name))
    exact ih (parts body (by simp [Term.parts])) (keeps.bindAll _)
  | @declarationRest _ name _ _ body rest _ _ ih =>
    obtain ⟨_, parts⟩ := not_mem_names_iff.1 isFresh
    have tail := ih (parts rest (by simp [Term.parts])) (keeps.bind name)
    exact .declaration rfl (.self body (parts body (by simp [Term.parts])) (keeps.bindAll _)) tail

end RenamesBinder

end Term

end Equirec
