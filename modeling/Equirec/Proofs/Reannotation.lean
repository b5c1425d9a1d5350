import Equirec.Proofs.Equivalence

/-!
# Checking respects equality of types

A program may write its types in many ways: folded or unfolded, with other binders, with properties
in another order. The checker cannot tell: on terms that differ only in annotations, with equivalent
types in the same places, it either accepts both with equivalent types or refuses both for the same
reason in the same place.
-/
namespace Equirec

/-! ## Terms and environments with equivalent types -/

/-- Terms without repeated property names that differ only in their annotations, which are
equivalent. -/
inductive Term.Reannotated : Term → Term → Prop where
  /-- A boolean literal. -/
  | boolean {span : Span} {value : Bool} : Reannotated (.boolean span value) (.boolean span value)
  /-- A number literal. -/
  | number {span : Span} {value : Double} : Reannotated (.number span value) (.number span value)
  /-- A sum. -/
  | add {span : Span} {left left' right right' : Term} (first : Reannotated left left')
    (second : Reannotated right right') :
    Reannotated (.add span left right) (.add span left' right')
  /-- A conditional. -/
  | conditional {span : Span} {condition condition' positive positive' negative negative' : Term}
    (test : Reannotated condition condition') (holds : Reannotated positive positive')
    (fails : Reannotated negative negative') :
    Reannotated (.conditional span condition positive negative)
      (.conditional span condition' positive' negative')
  /-- A use of a name. -/
  | reference {span : Span} {name : String} :
    Reannotated (.reference span name) (.reference span name)
  /-- A function literal, with equivalent parameters and, if it is declared, result. -/
  | function {span : Span} {parameters parameters' : List (String × Ty)}
    {declared declared' : Option Ty} {body body' : Term}
    (places : Ty.EquivalentMembers parameters parameters')
    (results : Option.Rel Ty.Equivalent declared declared') (inner : Reannotated body body') :
    Reannotated (.function span parameters declared body)
      (.function span parameters' declared' body')
  /-- A call. -/
  | call {span : Span} {callee callee' : Term} {arguments arguments' : List Term}
    (function : Reannotated callee callee')
    (values : List.Forall₂ Reannotated arguments arguments') :
    Reannotated (.call span callee arguments) (.call span callee' arguments')
  /-- A sequence. -/
  | sequence {span : Span} {first first' rest rest' : Term} (head : Reannotated first first')
    (tail : Reannotated rest rest') :
    Reannotated (.sequence span first rest) (.sequence span first' rest')
  /-- A constant. -/
  | constant {span : Span} {name : String} {value value' rest rest' : Term}
    (inner : Reannotated value value') (tail : Reannotated rest rest') :
    Reannotated (.constant span name value rest) (.constant span name value' rest')
  /-- An object literal with distinct names. -/
  | object {span : Span} {properties properties' : List (String × Term)}
    (distinct : (properties.map Prod.fst).Nodup)
    (names : properties.map Prod.fst = properties'.map Prod.fst)
    (values : List.Forall₂ Reannotated (properties.map Prod.snd) (properties'.map Prod.snd)) :
    Reannotated (.object span properties) (.object span properties')
  /-- The property of an object. -/
  | property {span : Span} {object object' : Term} {name : String}
    (whole : Reannotated object object') :
    Reannotated (.property span object name) (.property span object' name)
  /-- A function declaration, with equivalent parameters and result. -/
  | declaration {span : Span} {name : String} {parameters parameters' : List (String × Ty)}
    {declared declared' : Ty} {body body' rest rest' : Term}
    (places : Ty.EquivalentMembers parameters parameters')
    (results : Ty.Equivalent declared declared') (inner : Reannotated body body')
    (tail : Reannotated rest rest') :
    Reannotated (.declaration span name parameters declared body rest)
      (.declaration span name parameters' declared' body' rest')

namespace Environment

/-- Environments that know the same names, with equivalent types. -/
def Equivalent (environment environment' : Environment) : Prop :=
  ∀ name, Option.Rel Ty.Equivalent (environment.lookup? name) (environment'.lookup? name)

/-- The environment of a program is equivalent to itself. -/
theorem equivalent_empty : Equivalent {} {} :=
  fun _ => .none

namespace Equivalent

variable {environment environment' : Environment}

/-- Equivalent types may be declared for a name. -/
theorem declare (equivalent : environment.Equivalent environment') (name : String)
    {type type' : Ty} (types : Ty.Equivalent type type') :
    (environment.declare name type).Equivalent (environment'.declare name type') := by
  intro other
  by_cases same : other = name
  · rw [same, lookup?_declare_self, lookup?_declare_self]
    exact .some types
  · rw [lookup?_declare_of_ne _ _ _ _ same, lookup?_declare_of_ne _ _ _ _ same]
    exact equivalent other

/-- Equivalent members may be declared one after the other. -/
theorem declareAll (equivalent : environment.Equivalent environment')
    {members members' : List (String × Ty)} (types : Ty.EquivalentMembers members members') :
    (environment.declareAll members).Equivalent (environment'.declareAll members') := by
  induction types generalizing environment environment' with
  | nil => exact equivalent
  | @cons member member' _ _ head _ ih =>
    have declared := equivalent.declare member.1 head.2
    nth_rewrite 2 [head.1] at declared
    exact ih declared

end Equivalent

end Environment

/-! ## Annotations -/

namespace Checker

/-- A checker that copies environments, of a language with all types. -/
structure Unrestricted (checker : Checker) : Prop where
  /-- A function literal has its own copy of the environment. -/
  copies : checker.options.copyEnvironments = true
  /-- The language has recursive types. -/
  recursive : checker.variant.hasRecursiveTypes = true
  /-- The language has objects. -/
  objects : checker.variant.hasObjects = true

/-- By default, the checker of a language with recursive types is unrestricted. -/
theorem unrestricted_of_hasRecursiveTypes {variant : Variant}
    (recursive : variant.hasRecursiveTypes = true) : Unrestricted ⟨variant, {}⟩ := by
  cases variant with
  | recursive => exact ⟨rfl, rfl, rfl⟩
  | subtyping => exact ⟨rfl, rfl, rfl⟩
  | _ => simp [Variant.hasRecursiveTypes] at recursive

variable {checker : Checker}

namespace Unrestricted

/-- Every type is admitted. -/
theorem admitType_eq (unrestricted : checker.Unrestricted) (offset : Offset) (type : Ty) :
    checker.admitType offset type = pure () := by
  simp only [admitType, unrestricted.recursive, unrestricted.objects, Bool.not_true,
    Bool.and_false, Bool.false_eq_true, if_false]

/-- Equivalent annotations are both admitted. -/
theorem annotates (unrestricted : checker.Unrestricted) {type type' : Ty}
    (types : Ty.Equivalent type type') : checker.Annotates Ty.Equivalent type type' where
  types := types
  admitted offset := by
    rw [unrestricted.admitType_eq, unrestricted.admitType_eq]

/-- Equivalent parameters are all admitted. -/
theorem annotates_members (unrestricted : checker.Unrestricted)
    {parameters parameters' : List (String × Ty)}
    (places : Ty.EquivalentMembers parameters parameters') :
    List.Forall₂ (fun member member' => checker.Annotates Ty.Equivalent member.2 member'.2)
      parameters parameters' :=
  places.imp fun _ _ same => unrestricted.annotates same.2

/-- Equivalent declared results, if there are any, are both admitted. -/
theorem annotates_declared (unrestricted : checker.Unrestricted) {declared declared' : Option Ty}
    (results : Option.Rel Ty.Equivalent declared declared') :
    Option.Rel (checker.Annotates Ty.Equivalent) declared declared' := by
  cases results with
  | none => exact .none
  | some types => exact .some (unrestricted.annotates types)

end Unrestricted

/-! ## Terms -/

/-- Whether checking a term agrees with checking every term that differs from it in annotations
only. -/
def Respects (checker : Checker) (term : Term) : Prop :=
  ∀ {term' : Term}, term.Reannotated term' → ∀ {environment environment' : Environment},
    environment.Equivalent environment' →
      checker.Agrees Ty.Equivalent (Stop.Alike False) environment environment' term term'

/-- Function literals agree, if their bodies do. -/
theorem respects_function (unrestricted : checker.Unrestricted) {span : Span}
    {parameters : List (String × Ty)} {declared : Option Ty} {body : Term}
    (inner : checker.Respects body) :
    checker.Respects (.function span parameters declared body) := by
  intro term' same environment environment' equivalent
  cases same with
  | function places results sameBody =>
    exact agrees_function Ty.Equivalent.congruence unrestricted.copies
      (unrestricted.annotates_members places) (unrestricted.annotates_declared results)
      (inner sameBody (equivalent.declareAll places))

/-- Calls agree, if the functions and the arguments do. -/
theorem respects_call {span : Span} {callee : Term} {arguments : List Term}
    (function : checker.Respects callee)
    (values : ∀ argument ∈ arguments, checker.Respects argument) :
    checker.Respects (.call span callee arguments) := by
  intro term' same environment environment' equivalent
  cases same with
  | call sameCallee sameArguments =>
    refine agrees_call Ty.Equivalent.congruence (function sameCallee equivalent) ?_
    refine (Members.forall₂_mem sameArguments).imp ?_
    rintro argument argument' ⟨isArgument, _, same⟩
    exact values argument isArgument same equivalent

/-- Constants are known in their own values by equivalent types, or in neither. -/
theorem selfType?_rel (unrestricted : checker.Unrestricted) {value value' : Term}
    (same : value.Reannotated value') :
    Option.Rel Ty.Equivalent (checker.selfType? value) (checker.selfType? value') := by
  cases same with
  | function places results =>
    exact selfType?_function_rel Ty.Equivalent.congruence (unrestricted.annotates_members places)
      (unrestricted.annotates_declared results)
  | _ => exact .none

/-- Constants agree, if their values and the rests do. -/
theorem respects_constant (unrestricted : checker.Unrestricted) {span : Span} {name : String}
    {value rest : Term} (inner : checker.Respects value) (tail : checker.Respects rest) :
    checker.Respects (.constant span name value rest) := by
  intro term' same environment environment' equivalent
  cases same with
  | constant sameValue sameRest =>
    apply agrees_constant Ty.Equivalent.congruence (selfType?_rel unrestricted sameValue)
    · intro _ _
      exact inner sameValue equivalent
    · intro type type' _ _ types
      exact inner sameValue (equivalent.declare name types)
    · intro type type' types
      exact tail sameRest (equivalent.declare name types)

/-- Object literals agree, if their properties do. -/
theorem respects_object {span : Span} {properties : List (String × Term)}
    (values : ∀ member ∈ properties, checker.Respects member.2) :
    checker.Respects (.object span properties) := by
  intro term' same environment environment' equivalent
  cases same with
  | object distinct names sameValues =>
    refine agrees_object Ty.Equivalent.congruence distinct names ?_
    refine (Members.forall₂_mem sameValues).imp ?_
    rintro value value' ⟨isValue, _, same⟩
    obtain ⟨member, isMember, rfl⟩ := List.mem_map.1 isValue
    exact values member isMember same equivalent

/-- Function declarations agree, if their bodies and the rests do. -/
theorem respects_declaration (unrestricted : checker.Unrestricted) {span : Span} {name : String}
    {parameters : List (String × Ty)} {declared : Ty} {body rest : Term}
    (inner : checker.Respects body) (tail : checker.Respects rest) :
    checker.Respects (.declaration span name parameters declared body rest) := by
  intro term' same environment environment' equivalent
  cases same with
  | @declaration _ _ _ parameters' _ declared' _ _ _ _ places results sameBody sameRest =>
    have types : Ty.Equivalent (.function parameters declared) (.function parameters' declared') :=
      .function (places.imp fun _ _ => And.right) results
    have bindings : Ty.EquivalentMembers ((name, .function parameters declared) :: parameters)
        ((name, .function parameters' declared') :: parameters') :=
      .cons ⟨rfl, types⟩ places
    exact agrees_declaration Ty.Equivalent.congruence (unrestricted.annotates_members places)
      (unrestricted.annotates results) (inner sameBody (equivalent.declareAll bindings))
      (tail sameRest (equivalent.declare name types))

/-- An unrestricted checker agrees with itself on terms that differ only in annotations. -/
theorem respects (unrestricted : checker.Unrestricted) (term : Term) : checker.Respects term := by
  induction term with
  | boolean span value =>
    intro term' same environment environment' _
    cases same
    exact agrees_boolean Ty.Equivalent.congruence
  | number span value =>
    intro term' same environment environment' _
    cases same
    exact agrees_number Ty.Equivalent.congruence
  | add span left right leftIH rightIH =>
    intro term' same environment environment' equivalent
    cases same with
    | add first second =>
      exact agrees_add Ty.Equivalent.congruence (leftIH first equivalent)
        (rightIH second equivalent)
  | conditional span condition positive negative conditionIH positiveIH negativeIH =>
    intro term' same environment environment' equivalent
    cases same with
    | conditional test holds fails =>
      exact agrees_conditional Ty.Equivalent.congruence (conditionIH test equivalent)
        (positiveIH holds equivalent) (negativeIH fails equivalent)
  | reference span name =>
    intro term' same environment environment' equivalent
    cases same
    exact agrees_reference Ty.Equivalent.congruence (equivalent name)
  | function span parameters declared body bodyIH => exact respects_function unrestricted bodyIH
  | call span callee arguments calleeIH argumentsIH => exact respects_call calleeIH argumentsIH
  | sequence span first rest firstIH restIH =>
    intro term' same environment environment' equivalent
    cases same with
    | sequence head tail =>
      exact agrees_sequence Ty.Equivalent.congruence (firstIH head equivalent)
        (restIH tail equivalent)
  | constant span name value rest valueIH restIH =>
    exact respects_constant unrestricted valueIH restIH
  | object span properties propertiesIH => exact respects_object propertiesIH
  | property span object name objectIH =>
    intro term' same environment environment' equivalent
    cases same with
    | property whole => exact agrees_property Ty.Equivalent.congruence (objectIH whole equivalent)
  | declaration span name parameters declared body rest bodyIH restIH =>
    exact respects_declaration unrestricted bodyIH restIH

/-- In a language with recursive types and by default, terms that differ only in annotations are
both accepted in equivalent environments, with equal types, or both refused with a fault of one kind
at one place. -/
theorem check_respects_equality {variant : Variant} (recursive : variant.hasRecursiveTypes = true)
    {term term' : Term} (same : term.Reannotated term') {environment environment' : Environment}
    (equivalent : environment.Equivalent environment') :
    (∃ type type', (Checker.check ⟨variant, {}⟩ term environment).result = .ok type ∧
        (Checker.check ⟨variant, {}⟩ term' environment').result = .ok type' ∧
        type.equals type' = true) ∨
      ∃ fault fault',
        (Checker.check ⟨variant, {}⟩ term environment).result = .error (.fault fault) ∧
        (Checker.check ⟨variant, {}⟩ term' environment').result = .error (.fault fault') ∧
        fault.cause.name = fault'.cause.name ∧ fault.offset = fault'.offset := by
  have unrestricted := unrestricted_of_hasRecursiveTypes recursive
  cases (respects unrestricted term same equivalent).types with
  | values ended ended' _ _ types => exact .inl ⟨_, _, ended, ended', types.equal⟩
  | stops stopped stopped' alike =>
    cases alike with
    | fault kind place => exact .inr ⟨_, _, stopped, stopped', kind, place⟩
    | exhausted allowed => exact allowed.elim

/-- A function that takes an endless stream of a given type and gives its second element. -/
def takeTail (type : Ty) : Term :=
  let place : Span := ⟨0, 0⟩
  .function place [("s", type)] none
    (.call place (.property place (.reference place "s") "tail") [])

/-- Whether streams are annotated as they are or unfolded once, with another binder and in another
order, the function is accepted, with types that are written differently and equal. -/
theorem check_respects_equality_takeTail :
    let stream := Ty.mu "S" (.object [("head", .number), ("tail", .function [] (.var "S"))])
    let turned := Ty.mu "T" (.object [("tail", .function [] (.var "T")), ("head", .number)])
    let unfolded := Ty.object [("tail", .function [] turned), ("head", .number)]
    (Checker.check ⟨.recursive, {}⟩ (takeTail stream) {}).result =
        .ok (.function [("s", stream)] stream) ∧
      (Checker.check ⟨.recursive, {}⟩ (takeTail unfolded) {}).result =
        .ok (.function [("s", unfolded)] turned) ∧
      (Ty.function [("s", stream)] stream).equals (.function [("s", unfolded)] turned) = true := by
  intro stream turned unfolded
  have accepted : (Checker.check ⟨.recursive, {}⟩ (takeTail stream) {}).result =
      .ok (.function [("s", stream)] stream) := rfl
  have accepted' : (Checker.check ⟨.recursive, {}⟩ (takeTail unfolded) {}).result =
      .ok (.function [("s", unfolded)] turned) := rfl
  have annotations : Ty.Equivalent stream unfolded := ⟨by decide, by decide, by cbv⟩
  have same : (takeTail stream).Reannotated (takeTail unfolded) :=
    .function (.cons ⟨rfl, annotations⟩ .nil) .none (.call (.property .reference) .nil)
  have recursive : Variant.recursive.hasRecursiveTypes = true := rfl
  refine ⟨accepted, accepted', ?_⟩
  rcases check_respects_equality recursive same Environment.equivalent_empty with
    ⟨type, type', ended, ended', equal⟩ | ⟨fault, _, stopped, _⟩
  · rw [accepted, Except.ok.injEq] at ended
    rw [accepted', Except.ok.injEq] at ended'
    rw [ended, ended']
    exact equal
  · rw [accepted] at stopped
    simp at stopped

end Checker

end Equirec
