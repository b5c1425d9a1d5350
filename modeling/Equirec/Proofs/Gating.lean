import Equirec.Proofs.Confinement

/-!
# What is accepted lies in the language

A check looks at every subterm of a program before it accepts it: each subterm of an accepted term
is itself accepted, in some environment (`Checker.Accepts.subterm`). So all forms of terms in it and
all its annotations are those of the language. The type of the program is made of types that the
language has, and lies in the language as well.
-/
namespace Equirec

open Check (Ensures)

/-- There is nothing to say of types that may be any. -/
theorem Confinement.anything :
    Confinement (fun _ => True) (fun _ => True) (fun _ => True) where
  number := trivial
  boolean := trivial
  function _ _ := trivial
  object _ _ := trivial
  part _ _ := trivial
  unfolded _ := trivial
  fault _ _ := trivial
  endless _ _ _ _ := trivial

namespace Ty

/-- A type with a recursive part is recursive. -/
theorem IsPart.isRecursive {part whole : Ty} (isPart : IsPart part whole)
    (recursive : part.isRecursive = true) : whole.isRecursive = true := by
  cases isPart with
  | parameter isMember =>
    simp only [Ty.isRecursive, isRecursiveIn_eq_any, Bool.or_eq_true, List.any_eq_true]
    exact .inl ⟨_, isMember, recursive⟩
  | result => simp [Ty.isRecursive, recursive]
  | property isMember =>
    simp only [Ty.isRecursive, isRecursiveIn_eq_any, List.any_eq_true]
    exact ⟨_, isMember, recursive⟩

/-- A type with an object in a part has an object. -/
theorem IsPart.containsObject {part whole : Ty} (isPart : IsPart part whole)
    (contains : part.containsObject = true) : whole.containsObject = true := by
  cases isPart with
  | parameter isMember =>
    simp only [Ty.containsObject, containsObjectIn_eq_any, Bool.or_eq_true, List.any_eq_true]
    exact .inl ⟨_, isMember, contains⟩
  | result => simp [Ty.containsObject, contains]
  | property => rfl

/-- Replacing a variable brings in no objects but those of the replacement. -/
theorem containsObject_of_subst {type replacement : Ty} {name : String}
    (contains : (type.subst name replacement).containsObject = true) :
    type.containsObject = true ∨ replacement.containsObject = true := by
  induction type with
  | number => cases contains
  | boolean => cases contains
  | function parameters result parametersIH resultIH =>
    simp only [subst, substIn_eq_map, Ty.containsObject, containsObjectIn_eq_any, List.any_map,
      Bool.or_eq_true, List.any_eq_true, Function.comp_apply] at contains ⊢
    rcases contains with ⟨member, isMember, inMember⟩ | inResult
    · exact (parametersIH member isMember inMember).imp_left fun found =>
        .inl ⟨member, isMember, found⟩
    · exact (resultIH inResult).imp_left .inr
  | object => exact .inl rfl
  | var used =>
    by_cases same : used = name
    · exact .inr (by simpa [subst, same] using contains)
    · simp [subst, same, Ty.containsObject] at contains
  | mu bound body bodyIH =>
    by_cases same : bound = name
    · exact .inl (by simpa [subst, same] using contains)
    · simp only [subst, same, if_false, Ty.containsObject] at contains ⊢
      exact bodyIH contains

end Ty

namespace Checker

variable {checker : Checker} {environment : Environment}

/-! ## No subterm is skipped -/

/-- Whether a term is accepted in some environment. -/
def Accepts (checker : Checker) (term : Term) : Prop :=
  ∃ environment type, (checker.typeOf term environment).result = .ok type

/-- What a check has looked at when it accepts a term: its form, its own annotations, and its parts,
which it accepts as well. -/
structure Visits (checker : Checker) (term : Term) : Prop where
  /-- The language has the form of the term. -/
  form : checker.variant.supports term.form = true
  /-- The language has the types that the term is annotated with. -/
  types : ∀ type ∈ term.ownAnnotations, checker.Admits type
  /-- The parts are accepted. -/
  parts : ∀ part ∈ term.parts, checker.Accepts part

/-- A check that gives a type accepts the term. -/
theorem ensures_accepts (term : Term) :
    (checker.typeOf term).Ensures environment fun _ _ => checker.Accepts term :=
  fun type accepted => ⟨environment, type, accepted⟩

/-- A check in a copy of the environment that gives a type accepts the term. -/
theorem ensures_accepts_withBindings (members : List (String × Ty)) (term : Term) :
    (Check.withBindings members (checker.typeOf term)).Ensures environment fun _ _ =>
      checker.Accepts term :=
  fun type accepted => ⟨environment.declareAll members, type, accepted⟩

/-- A form that passes is one of the language. -/
theorem ensures_admitForm (term : Term) :
    (checker.admitForm term).Ensures environment fun _ _ =>
      checker.variant.supports term.form = true :=
  (meets_admitForm .anything term).ensures.imp fun _ _ => And.right

/-- Parameters that pass have types of the language. -/
theorem ensures_admitParameters (offset : Offset) (parameters : List (String × Ty)) :
    (checker.admitParameters offset parameters).Ensures environment fun _ _ =>
      ∀ type ∈ parameters.map Prod.snd, checker.Admits type := by
  refine (meets_admitParameters .anything offset parameters).ensures.imp ?_
  intro _ _ passed
  exact List.forall_mem_map.2 passed.2

/-- A declared result that passes is a type of the language. -/
theorem ensures_admitDeclared (offset : Offset) (declared : Option Ty) :
    Ensures (declared.forM (checker.admitType offset)) environment fun _ _ =>
      ∀ type ∈ declared.toList, checker.Admits type := by
  refine (meets_admitDeclared .anything offset declared).ensures.imp ?_
  intro _ _ passed type isDeclared
  exact passed.2 type (Option.mem_toList.1 isDeclared)

/-- When there are as many arguments as parameters, none of them is skipped. -/
theorem ensures_checkArguments_accepts {arguments : List Term} {parameters : List (String × Ty)}
    (count : parameters.length = arguments.length) :
    (checker.checkArguments arguments parameters).Ensures environment fun _ _ =>
      ∀ argument ∈ arguments, checker.Accepts argument := by
  induction arguments generalizing parameters environment with
  | nil => exact fun _ _ => List.forall_mem_nil _
  | cons argument arguments ih =>
    cases parameters with
    | nil => simp at count
    | cons parameter parameters =>
      rw [checkArguments]
      refine (ensures_accepts argument).bind fun received after accepted => ?_
      refine (Ensures.trivial _).bind fun answer after' _ => ?_
      split
      · refine (ih (Nat.succ.inj count)).imp fun _ _ rest => ?_
        exact List.forall_mem_cons.2 ⟨accepted, rest⟩
      · exact .fail

/-- No property of an object literal is skipped. -/
theorem ensures_typesOf_accepts (properties : List (String × Term)) :
    (checker.typesOf properties).Ensures environment fun _ _ =>
      ∀ value ∈ properties.map Prod.snd, checker.Accepts value := by
  induction properties generalizing environment with
  | nil => exact fun _ _ => List.forall_mem_nil _
  | cons property properties ih =>
    rw [typesOf]
    refine (ensures_accepts property.2).bind fun type after accepted => ?_
    refine ih.bind fun types after' rest => ?_
    exact .pure (List.forall_mem_cons.2 ⟨accepted, rest⟩)

/-- A function literal, with its body. -/
theorem ensures_visits_function {span : Span} {parameters : List (String × Ty)}
    {declared : Option Ty} {body : Term} :
    (checker.typeOf (.function span parameters declared body)).Ensures environment fun _ _ =>
      checker.Visits (.function span parameters declared body) := by
  rw [typeOf]
  refine (ensures_admitForm _).bind fun _ _ supported => ?_
  refine (ensures_admitParameters span.start parameters).bind fun _ _ inParameters => ?_
  refine (ensures_admitDeclared span.start declared).bind fun _ _ inResult => ?_
  have types := List.forall_mem_append.2 ⟨inParameters, inResult⟩
  dsimp only
  split
  · refine (ensures_accepts_withBindings parameters body).bind fun _ _ inner => ?_
    exact fun _ _ => ⟨supported, types, List.forall_mem_singleton.2 inner⟩
  · refine (Ensures.trivial _).bind fun _ _ _ => ?_
    refine (ensures_accepts body).bind fun _ _ inner => ?_
    exact fun _ _ => ⟨supported, types, List.forall_mem_singleton.2 inner⟩

/-- A call, with the function and as many arguments as it has parameters. -/
theorem ensures_visits_call {span : Span} {callee : Term} {arguments : List Term} :
    (checker.typeOf (.call span callee arguments)).Ensures environment fun _ _ =>
      checker.Visits (.call span callee arguments) := by
  rw [typeOf]
  refine (ensures_admitForm _).bind fun _ _ supported => ?_
  refine (ensures_accepts callee).bind fun _ _ function => ?_
  split
  · split
    · rename_i count
      refine (ensures_checkArguments_accepts count).bind fun _ _ values => ?_
      exact .pure ⟨supported, List.forall_mem_nil _, List.forall_mem_cons.2 ⟨function, values⟩⟩
    · exact .fail
  · exact .fail

/-- A constant, with its value, whether it is known there or not, and the rest. -/
theorem ensures_visits_constant {span : Span} {name : String} {value rest : Term} :
    (checker.typeOf (.constant span name value rest)).Ensures environment fun _ _ =>
      checker.Visits (.constant span name value rest) := by
  rw [typeOf]
  refine (ensures_admitForm _).bind fun _ _ supported => ?_
  have finish : ∀ (valueType : Ty) (after : Environment), checker.Accepts value →
      (Check.withBindings [(name, valueType)] (checker.typeOf rest)).Ensures after fun _ _ =>
        checker.Visits (.constant span name value rest) := by
    intro valueType after inner
    refine (ensures_accepts_withBindings _ rest).imp fun _ _ tail => ?_
    have parts : ∀ part ∈ [value, rest], checker.Accepts part := by simp [inner, tail]
    exact ⟨supported, List.forall_mem_nil _, parts⟩
  dsimp only
  split
  · exact (ensures_accepts_withBindings _ value).bind finish
  · exact (ensures_accepts value).bind finish

/-- A function declaration, with its body and the rest. -/
theorem ensures_visits_declaration {span : Span} {name : String}
    {parameters : List (String × Ty)} {declared : Ty} {body rest : Term} :
    (checker.typeOf (.declaration span name parameters declared body rest)).Ensures environment
      fun _ _ => checker.Visits (.declaration span name parameters declared body rest) := by
  rw [typeOf]
  refine (ensures_admitForm _).bind fun _ _ supported => ?_
  refine (ensures_admitParameters span.start parameters).bind fun _ _ inParameters => ?_
  refine (meets_admitType .anything span.start declared).ensures.bind fun _ _ inResult => ?_
  refine (ensures_accepts_withBindings _ body).bind fun _ _ inner => ?_
  refine (Ensures.trivial _).bind fun _ _ _ => ?_
  refine (ensures_accepts_withBindings _ rest).imp fun _ _ tail => ?_
  have types := List.forall_mem_append.2 ⟨inParameters, List.forall_mem_singleton.2 inResult.2⟩
  have parts : ∀ part ∈ [body, rest], checker.Accepts part := by simp [inner, tail]
  exact ⟨supported, types, parts⟩

/-- A check that gives a type has looked at the form of the term, at its annotations and at all its
parts. -/
theorem ensures_visits (term : Term) :
    (checker.typeOf term).Ensures environment fun _ _ => checker.Visits term := by
  cases term with
  | boolean =>
    rw [typeOf]
    refine (ensures_admitForm _).bind fun _ _ supported => ?_
    exact .pure ⟨supported, List.forall_mem_nil _, List.forall_mem_nil _⟩
  | number =>
    rw [typeOf]
    refine (ensures_admitForm _).bind fun _ _ supported => ?_
    exact .pure ⟨supported, List.forall_mem_nil _, List.forall_mem_nil _⟩
  | reference =>
    rw [typeOf]
    refine (ensures_admitForm _).bind fun _ _ supported => ?_
    exact fun _ _ => ⟨supported, List.forall_mem_nil _, List.forall_mem_nil _⟩
  | add span left right =>
    rw [typeOf]
    refine (ensures_admitForm _).bind fun _ _ supported => ?_
    refine (ensures_accepts left).bind fun _ _ first => ?_
    refine (Ensures.trivial _).bind fun _ _ _ => ?_
    refine (ensures_accepts right).bind fun _ _ second => ?_
    have parts : ∀ part ∈ [left, right], checker.Accepts part := by simp [first, second]
    exact fun _ _ => ⟨supported, List.forall_mem_nil _, parts⟩
  | conditional span condition positive negative =>
    rw [typeOf]
    refine (ensures_admitForm _).bind fun _ _ supported => ?_
    refine (ensures_accepts condition).bind fun _ _ test => ?_
    refine (Ensures.trivial _).bind fun _ _ _ => ?_
    refine (ensures_accepts positive).bind fun _ _ holds => ?_
    refine (ensures_accepts negative).bind fun _ _ fails => ?_
    have parts : ∀ part ∈ [condition, positive, negative], checker.Accepts part := by
      simp [test, holds, fails]
    exact fun _ _ => ⟨supported, List.forall_mem_nil _, parts⟩
  | function => exact ensures_visits_function
  | call => exact ensures_visits_call
  | sequence span first rest =>
    rw [typeOf]
    refine (ensures_admitForm _).bind fun _ _ supported => ?_
    refine (ensures_accepts first).bind fun _ _ head => ?_
    refine (ensures_accepts rest).imp fun _ _ tail => ?_
    have parts : ∀ part ∈ [first, rest], checker.Accepts part := by simp [head, tail]
    exact ⟨supported, List.forall_mem_nil _, parts⟩
  | constant => exact ensures_visits_constant
  | object span properties =>
    rw [typeOf]
    refine (ensures_admitForm _).bind fun _ _ supported => ?_
    refine (ensures_typesOf_accepts properties).bind fun _ _ values => ?_
    exact .pure ⟨supported, List.forall_mem_nil _, values⟩
  | property span object name =>
    rw [typeOf]
    refine (ensures_admitForm _).bind fun _ _ supported => ?_
    refine (ensures_accepts object).bind fun _ _ whole => ?_
    exact fun _ _ => ⟨supported, List.forall_mem_nil _, List.forall_mem_singleton.2 whole⟩
  | declaration => exact ensures_visits_declaration

/-- What is accepted has been visited. -/
theorem Accepts.visits {term : Term} (accepts : checker.Accepts term) : checker.Visits term := by
  obtain ⟨environment, type, accepted⟩ := accepts
  exact ensures_visits term type accepted

/-- Every subterm of an accepted term is accepted in some environment. -/
theorem Accepts.subterm {term : Term} (accepts : checker.Accepts term) :
    ∀ subterm ∈ term.subterms, checker.Accepts subterm :=
  Term.forall_subterms (fun isPart accepts => accepts.visits.parts _ isPart) accepts

/-! ## The types of a language -/

/-- A check of a program in an environment of the language does not leave the types of the language.
Object types are made by object literals only, which need a language with objects. -/
theorem confinement_admits (checker : Checker) :
    Confinement checker.Admits (fun _ => checker.variant.hasObjects = true) (fun _ => True) where
  number := by simp [Admits, Ty.isRecursive, Ty.containsObject]
  boolean := by simp [Admits, Ty.isRecursive, Ty.containsObject]
  function := by
    intro parameters result inParameters inResult
    simp only [Admits, Ty.isRecursive, Ty.isRecursiveIn_eq_any, Ty.containsObject,
      Ty.containsObjectIn_eq_any, Bool.or_eq_true, List.any_eq_true]
    constructor
    · rintro (⟨member, isMember, recursive⟩ | recursive)
      · exact (inParameters member isMember).1 recursive
      · exact inResult.1 recursive
    · rintro (⟨member, isMember, contains⟩ | contains)
      · exact (inParameters member isMember).2 contains
      · exact inResult.2 contains
  object := by
    intro properties objects inProperties
    refine ⟨?_, fun _ => objects⟩
    intro recursive
    simp only [Ty.isRecursive, Ty.isRecursiveIn_eq_any, List.any_eq_true] at recursive
    obtain ⟨member, isMember, recursive⟩ := recursive
    exact (inProperties member isMember).1 recursive
  part := by
    intro part whole isPart admitted
    exact ⟨fun recursive => admitted.1 (isPart.isRecursive recursive),
      fun contains => admitted.2 (isPart.containsObject contains)⟩
  unfolded := by
    intro name body admitted
    refine ⟨fun _ => admitted.1 rfl, ?_⟩
    intro contains
    exact (Ty.containsObject_of_subst contains).elim admitted.2 admitted.2
  fault _ _ := trivial
  endless _ _ _ _ := trivial

/-- A term that is accepted in an environment of the language, with any switches, consists of forms
of the language and is annotated with types of the language only, and its type is one of the
language. -/
theorem accepted_within_language {term : Term} {type : Ty}
    (within : environment.Within checker.Admits)
    (accepted : (checker.typeOf term environment).result = .ok type) :
    (∀ subterm ∈ term.subterms, checker.variant.supports subterm.form = true) ∧
      (∀ annotated ∈ term.annotations, checker.Admits annotated) ∧ checker.Admits type := by
  have accepts : checker.Accepts term := ⟨environment, type, accepted⟩
  have visited : ∀ subterm ∈ term.subterms, checker.Visits subterm :=
    fun subterm isSubterm => (accepts.subterm subterm isSubterm).visits
  refine ⟨fun subterm isSubterm => (visited subterm isSubterm).form, ?_, ?_⟩
  · rw [Term.annotations_eq_flatMap, List.forall_mem_flatMap]
    exact fun subterm isSubterm => (visited subterm isSubterm).types
  · have confined : checker.Confined checker.Admits (fun _ => True) term :=
      (confined checker.confinement_admits term (fun _ _ admitted => admitted)
        fun _ _ objects => objects).1
    exact ((confined environment within).ensures type accepted).1

/-- The language of function declarations accepts a function that adds a known number, and has all
its forms and types, though neither objects nor recursive types. -/
theorem accepted_within_functions :
    let checker : Checker := ⟨.functions, {}⟩
    let environment := Environment.declare {} "limit" .number
    let place : Span := ⟨0, 0⟩
    let sum : Term := .add place (.reference place "x") (.reference place "limit")
    let term : Term := .declaration place "f" [("x", .number)] .number sum (.reference place "f")
    let type := Ty.function [("x", .number)] .number
    environment.Within checker.Admits ∧ (checker.typeOf term environment).result = .ok type ∧
      (∀ subterm ∈ term.subterms, checker.variant.supports subterm.form = true) ∧
      (∀ annotated ∈ term.annotations, checker.Admits annotated) ∧ checker.Admits type := by
  intro checker environment place sum term type
  have within : environment.Within checker.Admits :=
    (Environment.within_empty _).declare "limit" checker.confinement_admits.number
  have accepted : (checker.typeOf term environment).result = .ok type := by cbv
  exact ⟨within, accepted, accepted_within_language within accepted⟩

end Checker

end Equirec
