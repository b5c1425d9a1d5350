import Equirec.Proofs.Agreement
import Equirec.Proofs.Conservation
import Equirec.Proofs.Renaming
import Equirec.Proofs.Unnamed

/-!
# Checking does not depend on bound names

A check of a term looks names up and keeps the names of parameters in the types that it makes, and
does nothing else with them. So on terms that are alike it comes to the same in environments that
give the same types to names that match, but for the names of function parameters: it accepts both
or neither, refuses both for one kind of reason at one place, or ends on neither
(`Checker.ignoresNames`). In particular a bound name may be given a fresh one
(`Checker.check_of_renamesBinder`). This needs the environment to be copied for each function body;
otherwise names of parameters leak into the rest of the program.
-/
namespace Equirec

/-! ## Types -/

namespace Ty

/-- Whether two types are the same but for the names of function parameters. -/
def SameUnnamed (left right : Ty) : Prop :=
  left.unnamed = right.unnamed

/-- Parameters are the same without their names exactly when their types are, one by one. -/
theorem unnamed_parameters_iff {parameters parameters' : List (String × Ty)} :
    (parameters.map fun member => ("", member.2.unnamed)) =
        (parameters'.map fun member => ("", member.2.unnamed)) ↔
      List.Forall₂ (fun member member' => SameUnnamed member.2 member'.2)
        parameters parameters' := by
  rw [← List.forall₂_eq_eq_eq, List.forall₂_map_left_iff, List.forall₂_map_right_iff]
  simp only [Prod.mk.injEq, true_and]
  rfl

/-- Functions are the same but for names of parameters, if their parameters and results are. -/
theorem SameUnnamed.function {parameters parameters' : List (String × Ty)} {result result' : Ty}
    (places : List.Forall₂ (fun member member' => SameUnnamed member.2 member'.2)
      parameters parameters') (results : SameUnnamed result result') :
    SameUnnamed (.function parameters result) (.function parameters' result') := by
  rw [SameUnnamed, unnamed, unnamed, unnamedParameters_eq_map, unnamedParameters_eq_map,
    unnamed_parameters_iff.2 places, results]

/-- Objects are the same but for names of parameters, if their properties are. -/
theorem SameUnnamed.object {properties properties' : List (String × Ty)}
    (values : List.Forall₂ (fun member member' => member.1 = member'.1 ∧
      SameUnnamed member.2 member'.2) properties properties') :
    SameUnnamed (.object properties) (.object properties') := by
  rw [SameUnnamed, unnamed, unnamed, object.injEq, unnamedProperties_eq_map,
    unnamedProperties_eq_map, ← List.forall₂_eq_eq_eq, List.forall₂_map_left_iff,
    List.forall₂_map_right_iff]
  exact values.imp fun _ _ same => Prod.ext same.1 same.2

/-- Types are found under the same names in properties that are the same. -/
theorem lookup_rel {properties properties' : List (String × Ty)}
    (same : (properties.map fun member => (member.1, member.2.unnamed)) =
      properties'.map fun member => (member.1, member.2.unnamed)) (name : String) :
    Option.Rel SameUnnamed (properties.lookup name) (properties'.lookup name) := by
  have found := Members.lookup_map unnamed properties name
  rw [same, Members.lookup_map unnamed] at found
  cases first : properties.lookup name with
  | none =>
    rw [first, Option.map_none, Option.map_eq_none_iff] at found
    rw [found]
    exact .none
  | some type =>
    rw [first, Option.map_some, Option.map_eq_some_iff] at found
    obtain ⟨type', second, isSame⟩ := found
    rw [second]
    exact .some isSame.symm

/-- Types that are the same but for names of parameters have such heads. -/
theorem SameUnnamed.head {left right : Ty} (same : SameUnnamed left right) :
    SameHead SameUnnamed left right := by
  rw [SameUnnamed] at same
  cases left with
  | number => cases right <;> simp [unnamed] at same; exact .number
  | boolean => cases right <;> simp [unnamed] at same; exact .boolean
  | function parameters result =>
    cases right <;> simp only [unnamed, reduceCtorEq, function.injEq, unnamedParameters_eq_map,
      unnamed_parameters_iff] at same
    exact .function same.1 same.2
  | object properties =>
    cases right <;> simp only [unnamed, reduceCtorEq, object.injEq, unnamedProperties_eq_map]
      at same
    exact .object (lookup_rel same)
  | var name =>
    cases right <;> simp only [unnamed, reduceCtorEq] at same
    exact .var
  | mu name body =>
    cases right <;> simp only [unnamed, reduceCtorEq] at same
    exact .mu

/-- Types that are the same but for names of parameters have such first layers. -/
theorem SameUnnamed.layer {left right : Ty} (same : SameUnnamed left right) :
    SameHead SameUnnamed left.simplify right.simplify :=
  SameUnnamed.head (simplify_congr same)

/-- Comparisons of types that are the same but for names of parameters agree, also when they are
endless. -/
theorem SameUnnamed.agree_compare {comparison : Comparison} (ignores : comparison.IgnoresNames)
    {left left' right right' : Ty} (first : SameUnnamed left left')
    (second : SameUnnamed right right') {environment environment' : Environment} :
    Check.Agree (Stop.Alike True) (Check.compare comparison left right)
      (Check.compare comparison left' right') environment environment' Eq := by
  have same : (Check.compare comparison left right environment).result =
      (Check.compare comparison left' right' environment').result := by
    simp only [Check.compare, Comparison.verdict_congr ignores first second]
  cases ended : (Check.compare comparison left right environment).result with
  | ok answer => exact .values ended (same.symm.trans ended) rfl rfl rfl
  | error stop => exact .stops ended (same.symm.trans ended) (.refl trivial stop)

/-- Checks respect types that are the same but for names of parameters. -/
theorem SameUnnamed.congruence : Congruence SameUnnamed (fun _ => True) (Stop.Alike True) where
  number := rfl
  boolean := rfl
  function := .function
  object _ := .object
  layer := SameUnnamed.layer
  compare := by
    rintro comparison left left' right right' environment environment' (rfl | rfl) first second
    · exact first.agree_compare Comparison.equality_ignoresNames second
    · exact first.agree_compare Comparison.subtyping_ignoresNames second
  fault := .fault

end Ty

/-! ## Environments -/

namespace Environment

/-- Environments in which names that match have the same types, but for names of parameters. -/
def Alike (matching : Matching) (environment environment' : Environment) : Prop :=
  ∀ name name', matching name name' →
    Option.Rel Ty.SameUnnamed (environment.lookup? name) (environment'.lookup? name')

/-- An environment is alike to itself, when every name matches itself only. -/
theorem alike_self (environment : Environment) : environment.Alike Eq environment := by
  rintro name _ rfl
  cases environment.lookup? name with
  | none => exact .none
  | some type => exact .some rfl

namespace Alike

variable {matching : Matching} {environment environment' : Environment}

/-- A name of each environment may be declared with the same type. -/
theorem declare (alike : environment.Alike matching environment') (name name' : String)
    {type type' : Ty} (types : Ty.SameUnnamed type type') :
    (environment.declare name type).Alike (matching.bind name name')
      (environment'.declare name' type') := by
  rintro other other' (⟨rfl, rfl⟩ | ⟨differs, differs', matched⟩)
  · rw [lookup?_declare_self, lookup?_declare_self]
    exact .some types
  · rw [lookup?_declare_of_ne _ _ _ _ differs, lookup?_declare_of_ne _ _ _ _ differs']
    exact alike other other' matched

/-- Members of the same types may be declared one after the other. -/
theorem declareAll (alike : environment.Alike matching environment')
    {members members' : List (String × Ty)}
    (types : List.Forall₂ (fun member member' => Ty.SameUnnamed member.2 member'.2)
      members members') :
    (environment.declareAll members).Alike
      (matching.bindAll (members.map Prod.fst) (members'.map Prod.fst))
      (environment'.declareAll members') := by
  induction types generalizing matching environment environment' with
  | nil => exact alike
  | @cons member member' _ _ head _ ih => exact ih (alike.declare member.1 member'.1 head)

end Alike

end Environment

/-! ## Terms -/

namespace Checker

variable {checker : Checker} {matching : Matching}

/-- A type annotates the same as itself. -/
theorem annotates_self (checker : Checker) (type : Ty) :
    checker.Annotates Ty.SameUnnamed type type :=
  ⟨rfl, fun _ => rfl⟩

/-- Parameters of the same types annotate the same. -/
theorem annotates_of_types (checker : Checker) {parameters parameters' : List (String × Ty)}
    (types : parameters.map Prod.snd = parameters'.map Prod.snd) :
    List.Forall₂ (fun member member' => checker.Annotates Ty.SameUnnamed member.2 member'.2)
      parameters parameters' := by
  have same : List.Forall₂ Eq (parameters.map Prod.snd) (parameters'.map Prod.snd) :=
    types ▸ List.forall₂_refl _
  rw [List.forall₂_map_left_iff, List.forall₂_map_right_iff] at same
  exact same.imp fun member _ isSame => isSame ▸ checker.annotates_self member.2

/-- A declared result, if there is one, annotates the same as itself. -/
theorem annotates_declared (checker : Checker) (declared : Option Ty) :
    Option.Rel (checker.Annotates Ty.SameUnnamed) declared declared := by
  cases declared with
  | none => exact .none
  | some type => exact .some (checker.annotates_self type)

/-- Whether checking a term agrees with checking every term that is alike, in environments that are
alike. -/
def IgnoresNames (checker : Checker) (term : Term) : Prop :=
  ∀ {matching : Matching} {term' : Term}, Term.Alike checker.variant matching term term' →
    ∀ {environment environment' : Environment}, environment.Alike matching environment' →
      checker.Agrees Ty.SameUnnamed (Stop.Alike True) environment environment' term term'

/-- Function literals agree, if their bodies do. -/
theorem ignoresNames_function (copies : checker.options.copyEnvironments = true) {span : Span}
    {parameters : List (String × Ty)} {declared : Option Ty} {body : Term}
    (inner : checker.IgnoresNames body) :
    checker.IgnoresNames (.function span parameters declared body) := by
  intro matching term' alike environment environment' known
  cases alike with
  | function types sameBody =>
    have places := checker.annotates_of_types types
    have declared := known.declareAll (places.imp fun _ _ annotates => annotates.types)
    exact agrees_function Ty.SameUnnamed.congruence copies places (checker.annotates_declared _)
      (inner sameBody declared)

/-- Calls agree, if the functions and the arguments do. -/
theorem ignoresNames_call {span : Span} {callee : Term} {arguments : List Term}
    (function : checker.IgnoresNames callee)
    (values : ∀ argument ∈ arguments, checker.IgnoresNames argument) :
    checker.IgnoresNames (.call span callee arguments) := by
  intro matching term' alike environment environment' known
  cases alike with
  | call sameCallee count sameValues =>
    refine agrees_call Ty.SameUnnamed.congruence (function sameCallee known) ?_
    refine List.forall₂_iff_zip.2 ⟨count, ?_⟩
    intro argument argument' inside
    exact values argument (List.of_mem_zip inside).1 (sameValues argument argument' inside) known

/-- Constants are known in their own values by types that are the same but for names of parameters,
or in neither. -/
theorem selfType?_alike {value value' : Term}
    (alike : Term.Alike checker.variant matching value value') :
    Option.Rel Ty.SameUnnamed (checker.selfType? value) (checker.selfType? value') := by
  cases alike with
  | function types =>
    exact selfType?_function_rel Ty.SameUnnamed.congruence (checker.annotates_of_types types)
      (checker.annotates_declared _)
  | _ => exact .none

/-- Constants agree, if their values and the rests do. -/
theorem ignoresNames_constant {span : Span} {name : String} {value rest : Term}
    (inner : checker.IgnoresNames value) (tail : checker.IgnoresNames rest) :
    checker.IgnoresNames (.constant span name value rest) := by
  intro matching term' alike environment environment' known
  cases alike with
  | @constant _ _ _ name' _ _ _ _ sameValue sameRest =>
    have self := selfType?_alike sameValue
    rw [knownInValue_eq, knownInValue_eq] at sameValue
    apply agrees_constant Ty.SameUnnamed.congruence self
    · intro missing missing'
      rw [missing, missing'] at sameValue
      exact inner sameValue known
    · intro type type' found found' types
      rw [found, found'] at sameValue
      exact inner sameValue (known.declare name name' types)
    · intro type type' types
      exact tail sameRest (known.declare name name' types)

/-- Object literals agree, if their properties do. -/
theorem ignoresNames_object {span : Span} {properties : List (String × Term)}
    (values : ∀ member ∈ properties, checker.IgnoresNames member.2) :
    checker.IgnoresNames (.object span properties) := by
  intro matching term' alike environment environment' known
  cases alike with
  | @object _ _ _ properties' labels sameValues =>
    have count : (properties.map Prod.snd).length = (properties'.map Prod.snd).length := by
      simpa using congrArg List.length labels
    refine agrees_object Ty.SameUnnamed.congruence trivial labels ?_
    refine List.forall₂_iff_zip.2 ⟨count, ?_⟩
    intro value value' inside
    obtain ⟨member, isMember, rfl⟩ := List.mem_map.1 (List.of_mem_zip inside).1
    exact values member isMember (sameValues _ value' inside) known

/-- Function declarations agree, if their bodies and the rests do. -/
theorem ignoresNames_declaration {span : Span} {name : String} {parameters : List (String × Ty)}
    {declared : Ty} {body rest : Term} (inner : checker.IgnoresNames body)
    (tail : checker.IgnoresNames rest) :
    checker.IgnoresNames (.declaration span name parameters declared body rest) := by
  intro matching term' alike environment environment' known
  cases alike with
  | @declaration _ _ _ name' _ parameters' _ _ _ _ _ types sameBody sameRest =>
    have annotated := checker.annotates_of_types types
    have places := annotated.imp fun _ _ annotates => annotates.types
    have functions : Ty.SameUnnamed (.function parameters declared)
        (.function parameters' declared) := .function places rfl
    have members : List.Forall₂ (fun member member' => Ty.SameUnnamed member.2 member'.2)
        ((name, .function parameters declared) :: parameters)
        ((name', .function parameters' declared) :: parameters') := .cons functions places
    exact agrees_declaration Ty.SameUnnamed.congruence annotated (checker.annotates_self declared)
      (inner sameBody (known.declareAll members))
      (tail sameRest (known.declare name name' functions))

/-- A checker that copies environments does not depend on bound names. -/
theorem ignoresNames (copies : checker.options.copyEnvironments = true) (term : Term) :
    checker.IgnoresNames term := by
  induction term with
  | boolean span value =>
    intro matching term' alike environment environment' _
    cases alike
    exact agrees_boolean Ty.SameUnnamed.congruence
  | number span value =>
    intro matching term' alike environment environment' _
    cases alike
    exact agrees_number Ty.SameUnnamed.congruence
  | add span left right leftIH rightIH =>
    intro matching term' alike environment environment' known
    cases alike with
    | add first second =>
      exact agrees_add Ty.SameUnnamed.congruence (leftIH first known) (rightIH second known)
  | conditional span condition positive negative conditionIH positiveIH negativeIH =>
    intro matching term' alike environment environment' known
    cases alike with
    | conditional test holds fails =>
      exact agrees_conditional Ty.SameUnnamed.congruence (conditionIH test known)
        (positiveIH holds known) (negativeIH fails known)
  | reference span name =>
    intro matching term' alike environment environment' known
    cases alike with
    | reference matched =>
      exact agrees_reference Ty.SameUnnamed.congruence (known name _ matched)
  | function span parameters declared body bodyIH => exact ignoresNames_function copies bodyIH
  | call span callee arguments calleeIH argumentsIH =>
    exact ignoresNames_call calleeIH argumentsIH
  | sequence span first rest firstIH restIH =>
    intro matching term' alike environment environment' known
    cases alike with
    | sequence head tail =>
      exact agrees_sequence Ty.SameUnnamed.congruence (firstIH head known) (restIH tail known)
  | constant span name value rest valueIH restIH => exact ignoresNames_constant valueIH restIH
  | object span properties propertiesIH => exact ignoresNames_object propertiesIH
  | property span object label objectIH =>
    intro matching term' alike environment environment' known
    cases alike with
    | property whole => exact agrees_property Ty.SameUnnamed.congruence (objectIH whole known)
  | declaration span name parameters declared body rest bodyIH restIH =>
    exact ignoresNames_declaration bodyIH restIH

/-- With environments copied, a name that a term binds may be given a name that does not occur in
the term, in its binder and in the references that it binds. In every language and environment, the
two terms are both accepted, with types that are the same but for the names of function parameters,
or both refused with a fault of one kind at one place, or neither check ends. -/
theorem check_of_renamesBinder (checker : Checker)
    (copies : checker.options.copyEnvironments = true) {term term' : Term} {fresh : String}
    (renames : Term.RenamesBinder checker.variant fresh term term') (isFresh : fresh ∉ term.names)
    (environment : Environment) :
    (∃ type type', (checker.check term environment).result = .ok type ∧
        (checker.check term' environment).result = .ok type' ∧ type.unnamed = type'.unnamed) ∨
      (∃ fault fault', (checker.check term environment).result = .error (.fault fault) ∧
        (checker.check term' environment).result = .error (.fault fault') ∧
        fault.cause.name = fault'.cause.name ∧ fault.offset = fault'.offset) ∨
      (checker.check term environment).result = .error .exhausted ∧
        (checker.check term' environment).result = .error .exhausted := by
  have keeps : Matching.Keeps Eq fresh := fun _ _ => rfl
  cases (ignoresNames copies term (renames.alike isFresh keeps) environment.alike_self).types with
  | values ended ended' _ _ types => exact .inl ⟨_, _, ended, ended', types⟩
  | stops stopped stopped' alike =>
    cases alike with
    | fault kind place => exact .inr (.inl ⟨_, _, stopped, stopped', kind, place⟩)
    | exhausted => exact .inr (.inr ⟨stopped, stopped'⟩)

/-- A function of two parameters that gives back what is known by a name. -/
def choosing (first second name : String) : Term :=
  let place : Span := ⟨0, 0⟩
  .function place [(first, .boolean), (second, .number)] none (.reference place name)

/-- A constant whose value, a function literal with a declared result, calls what is known by a
name. -/
def calling (name callee : String) : Term :=
  let place : Span := ⟨0, 0⟩
  .constant place name
    (.function place [("x", .number)] (some .number)
      (.call place (.reference place callee) [.reference place "x"]))
    (.reference place name)

/-- The first of two parameters of one name binds nothing, so it is renamed alone. A constant is not
known in its own value without function declarations, so there the callee keeps its name, and is
unknown before and after. -/
theorem check_of_renamesBinder_choosing_calling :
    Term.RenamesBinder .recursive "y" (choosing "x" "x" "x") (choosing "y" "x" "x") ∧
      (∃ type type', (check ⟨.recursive, {}⟩ (choosing "x" "x" "x") {}).result = .ok type ∧
        (check ⟨.recursive, {}⟩ (choosing "y" "x" "x") {}).result = .ok type' ∧
        type.unnamed = type'.unnamed) ∧
      Term.RenamesBinder .basic "g" (calling "f" "f") (calling "g" "f") ∧
      ∃ fault fault',
        (check ⟨.basic, {}⟩ (calling "f" "f") {}).result = .error (.fault fault) ∧
        (check ⟨.basic, {}⟩ (calling "g" "f") {}).result = .error (.fault fault') ∧
        fault.cause.name = fault'.cause.name ∧ fault.offset = fault'.offset := by
  have parameter : Term.RenamesBinder .recursive "y" (choosing "x" "x" "x")
      (choosing "y" "x" "x") :=
    @Term.RenamesBinder.parameter _ _ ⟨0, 0⟩ [] [("x", .number)] "x" .boolean none
      (.reference ⟨0, 0⟩ "x")
  have constant : Term.RenamesBinder .basic "g" (calling "f" "f") (calling "g" "f") :=
    .constant
  have accepted : (check ⟨.recursive, {}⟩ (choosing "x" "x" "x") {}).result =
      .ok (.function [("x", .boolean), ("x", .number)] .number) := rfl
  have refused : (check ⟨.basic, {}⟩ (calling "f" "f") {}).result =
      .error (.fault ⟨.undefinedVariable "f", 0⟩) := rfl
  refine ⟨parameter, ?_, constant, ?_⟩
  · rcases check_of_renamesBinder ⟨.recursive, {}⟩ rfl parameter (by decide) {} with
      accepts | ⟨_, _, stopped, _⟩ | ⟨stopped, _⟩
    · exact accepts
    · rw [accepted] at stopped
      cases stopped
    · rw [accepted] at stopped
      cases stopped
  · rcases check_of_renamesBinder ⟨.basic, {}⟩ rfl constant (by decide) {} with
      ⟨_, _, ended, _⟩ | refuses | ⟨stopped, _⟩
    · rw [refused] at ended
      cases ended
    · exact refuses
    · rw [refused] at stopped
      cases stopped

end Checker

end Equirec
