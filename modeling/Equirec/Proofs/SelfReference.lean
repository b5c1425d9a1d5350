import Equirec.Proofs.Framing

/-!
# Two ways to write a recursive function

In a language with function declarations, a function that calls itself can be declared, or it can be
a constant whose value is a function literal with a declared result. The two are checked in
different ways: one binds the function and its parameters together and the other one after the
other, in one environment or two, and only the second makes a type of the literal before the name is
known in the rest. Still they are the same check (`Checker.typeOf_declaration_eq_constant`), except
that a type which the language does not have is found at the declaration or at the literal.
-/
namespace Equirec

/-! ## Steps in copies of environments -/

/-- Declarations may be added in two parts. -/
theorem Environment.declareAll_append (environment : Environment)
    (members members' : List (String × Ty)) :
    environment.declareAll (members ++ members') =
      (environment.declareAll members).declareAll members' :=
  List.foldl_append

namespace Check

variable {α β : Type} {step : Check α}

/-- A step that does not look at the environment needs no copy of it. -/
theorem Uniform.withBindings (uniform : step.Uniform) (members : List (String × Ty)) :
    Check.withBindings members step = step := by
  obtain ⟨result, events, same⟩ := uniform
  funext environment
  rw [Check.withBindings, same, same]

/-- A copy of a copy has the declarations of both. -/
theorem withBindings_withBindings (members members' : List (String × Ty)) (step : Check α) :
    Check.withBindings members (Check.withBindings members' step) =
      Check.withBindings (members ++ members') step := by
  funext environment
  rw [Check.withBindings, Check.withBindings, Check.withBindings, Environment.declareAll_append]

/-- Declarations in a copy of the environment may be made together with the copy. -/
theorem withBindings_declareAll (members members' : List (String × Ty)) (step : Check α) :
    Check.withBindings members (Check.declareAll members' >>= fun _ => step) =
      Check.withBindings (members ++ members') step := by
  funext environment
  rw [Check.withBindings, Check.withBindings, bind_of_ok rfl, Environment.declareAll_append]
  rfl

/-- What follows a step in a copy of the environment may be done after the copy, if it does not look
at the environment. -/
theorem withBindings_bind (members : List (String × Ty)) (step : Check α) {next : α → Check β}
    (uniform : ∀ value, (next value).Uniform) :
    Check.withBindings members (step >>= next) = Check.withBindings members step >>= next := by
  funext environment
  cases ended : (step (environment.declareAll members)).result with
  | error stop =>
    have stopped : (Check.withBindings members step environment).result = .error stop := ended
    rw [Check.withBindings, bind_of_error ended, bind_of_error stopped]
    rfl
  | ok value =>
    have given : (Check.withBindings members step environment).result = .ok value := ended
    obtain ⟨result, events, same⟩ := uniform value
    rw [Check.withBindings, bind_of_ok ended, bind_of_ok given, same, same]
    rfl

end Check

namespace Checker

variable {checker : Checker} {parameters : List (String × Ty)} {declared : Ty}

/-! ## Annotations -/

/-- Nothing follows a construct that is refused. -/
theorem reject_bind {α β : Type} (checker : Checker) (construct : String) (offset : Offset)
    (next : α → Check β) :
    checker.reject construct offset >>= next = checker.reject construct offset := by
  funext environment
  exact Check.bind_of_error rfl

/-- Parameters pass if the language has their types. -/
theorem admitParameters_of_admits (admitted : ∀ member ∈ parameters, checker.Admits member.2)
    (offset : Offset) : checker.admitParameters offset parameters = pure () := by
  induction parameters with
  | nil => rfl
  | cons parameter rest ih =>
    rw [List.forall_mem_cons] at admitted
    rw [admitParameters, admitType_of_admits admitted.1, pure_bind, ih admitted.2]

/-- A type that the language does not have is refused for the same reason at all places. -/
theorem exists_admitType_eq_reject {type : Ty} (refused : ¬ checker.Admits type) :
    ∃ construct, ∀ offset, checker.admitType offset type = checker.reject construct offset := by
  by_cases recursive : (type.isRecursive && !checker.variant.hasRecursiveTypes) = true
  · exact ⟨"recursive type", fun _ => if_pos recursive⟩
  · by_cases objects : (type.containsObject && !checker.variant.hasObjects) = true
    · exact ⟨"object type", fun _ => (if_neg recursive).trans (if_pos objects)⟩
    · refine absurd ⟨fun isRecursive => ?_, fun containsObject => ?_⟩ refused
      · simpa [isRecursive] using recursive
      · simpa [containsObject] using objects

/-- Parameters one of whose types the language does not have are refused for the same reason at all
places. -/
theorem exists_admitParameters_eq_reject
    (refused : ¬ ∀ member ∈ parameters, checker.Admits member.2) :
    ∃ construct, ∀ offset,
      checker.admitParameters offset parameters = checker.reject construct offset := by
  induction parameters with
  | nil => exact absurd (List.forall_mem_nil _) refused
  | cons parameter rest ih =>
    by_cases admitted : checker.Admits parameter.2
    · have inRest : ¬ ∀ member ∈ rest, checker.Admits member.2 := fun areAdmitted =>
        refused (List.forall_mem_cons.2 ⟨admitted, areAdmitted⟩)
      obtain ⟨construct, same⟩ := ih inRest
      refine ⟨construct, fun offset => ?_⟩
      rw [admitParameters, admitType_of_admits admitted, pure_bind, same]
    · obtain ⟨construct, same⟩ := exists_admitType_eq_reject admitted
      refine ⟨construct, fun offset => ?_⟩
      rw [admitParameters, same, reject_bind]

/-- A function one of whose declared types the language does not have is refused for the same reason
at all places, before anything else is done. -/
theorem exists_annotations_eq_reject
    (refused : ¬ ∀ type ∈ parameters.map Prod.snd ++ [declared], checker.Admits type) :
    ∃ construct, ∀ (offset : Offset) (next : Check Ty),
      (checker.admitParameters offset parameters >>= fun _ =>
        checker.admitType offset declared >>= fun _ => next) = checker.reject construct offset := by
  rw [List.forall_mem_append, List.forall_mem_map, List.forall_mem_singleton] at refused
  by_cases admitted : ∀ member ∈ parameters, checker.Admits member.2
  · obtain ⟨construct, same⟩ := exists_admitType_eq_reject fun result => refused ⟨admitted, result⟩
    refine ⟨construct, fun offset next => ?_⟩
    rw [admitParameters_of_admits admitted, pure_bind, same, reject_bind]
  · obtain ⟨construct, same⟩ := exists_admitParameters_eq_reject admitted
    refine ⟨construct, fun offset next => ?_⟩
    rw [same, reject_bind]

/-! ## Function literals and declarations -/

section

variable {name : String} {body rest : Term} {span span' place : Span}

/-- All languages with function declarations have function literals and constants. -/
theorem supports_of_hasDeclarations {variant : Variant}
    (declares : variant.hasDeclarations = true) :
    variant.supports .function = true ∧ variant.supports .constant = true ∧
      variant.supports .declaration = true := by
  cases variant <;> simp_all [Variant.hasDeclarations, Variant.supports]

/-- Where there are function declarations, a constant is known in its own value if that is a
function literal with a declared result. -/
theorem selfType?_of_hasDeclarations (declares : checker.variant.hasDeclarations = true)
    (parameters : List (String × Ty)) (declared : Ty) (body : Term) (place : Span) :
    checker.selfType? (.function place parameters (some declared) body) =
      some (.function parameters declared) :=
  if_pos declares

/-- The check of a function declaration leaves the environment as it is. -/
theorem steady_typeOf_declaration :
    (checker.typeOf (.declaration span name parameters declared body rest)).Steady := by
  rw [typeOf]
  refine (checker.uniform_admitForm _).steady.bind fun _ => ?_
  refine (checker.uniform_admitParameters _ _).steady.bind fun _ => ?_
  refine (checker.uniform_admitType _ _).steady.bind fun _ => ?_
  refine (Check.Steady.withBindings _ _).bind fun bodyType => ?_
  refine (uniform_expectResult body declared bodyType).steady.bind fun _ => ?_
  exact .withBindings _ _

/-- So does the check of a constant that is known in its own value. -/
theorem steady_typeOf_constant {value : Term} {type : Ty}
    (known : checker.selfType? value = some type) :
    (checker.typeOf (.constant span name value rest)).Steady := by
  rw [typeOf, known]
  refine (checker.uniform_admitForm _).steady.bind fun _ => ?_
  refine (Check.Steady.withBindings _ _).bind fun valueType => ?_
  exact .withBindings _ _

/-- What is left of the check of a function literal with a declared result once its types have
passed, in a copy of the environment. It does not matter whether the literal makes a copy of its
own. -/
theorem withBindings_typeOf_function (declares : checker.variant.hasDeclarations = true)
    (admitted : ∀ type ∈ parameters.map Prod.snd ++ [declared], checker.Admits type)
    (bindings : List (String × Ty)) :
    Check.withBindings bindings
        (checker.typeOf (.function place parameters (some declared) body)) = do
      let bodyType ← Check.withBindings (bindings ++ parameters) (checker.typeOf body)
      expectResult body declared bodyType
      return .function parameters declared := by
  rw [List.forall_mem_append, List.forall_mem_map, List.forall_mem_singleton] at admitted
  have finished : ∀ bodyType, Check.Uniform (expectResult body declared bodyType >>= fun _ =>
      (pure (Ty.function parameters declared) : Check Ty)) :=
    fun bodyType => (uniform_expectResult body declared bodyType).bind fun _ => .pure _
  rw [typeOf, admitForm_of_supports (supports_of_hasDeclarations declares).1, pure_bind]
  dsimp only
  rw [admitParameters_of_admits admitted.1, pure_bind]
  have passes : (some declared).forM (checker.admitType place.start) = pure () :=
    admitType_of_admits admitted.2 place.start
  rw [passes, pure_bind]
  split
  · rw [Check.withBindings_bind _ _ finished, Check.withBindings_withBindings]
  · rw [← bind_assoc, Check.withBindings_bind _ _ finished, Check.withBindings_declareAll]

/-- With types that the language has, a function declaration is checked as the constant of its name
whose value is a function literal with the same parameters, result and body. -/
theorem typeOf_declaration_eq_constant (declares : checker.variant.hasDeclarations = true)
    (admitted : ∀ type ∈ parameters.map Prod.snd ++ [declared], checker.Admits type) :
    checker.typeOf (.declaration span name parameters declared body rest) =
      checker.typeOf
        (.constant span' name (.function place parameters (some declared) body) rest) := by
  have supported := supports_of_hasDeclarations declares
  have known := selfType?_of_hasDeclarations declares parameters declared body place
  rw [typeOf.eq_def checker (.declaration ..), admitForm_of_supports supported.2.2, pure_bind,
    typeOf.eq_def checker (.constant ..), admitForm_of_supports supported.2.1, pure_bind]
  dsimp only
  rw [known]
  dsimp only
  rw [withBindings_typeOf_function declares admitted, bind_assoc]
  rw [List.forall_mem_append, List.forall_mem_map, List.forall_mem_singleton] at admitted
  rw [admitParameters_of_admits admitted.1, admitType_of_admits admitted.2, pure_bind, pure_bind]
  refine bind_congr fun bodyType => ?_
  rw [bind_assoc]
  exact bind_congr fun _ => (pure_bind _ _).symm

/-- A function declaration with a type that the language does not have is refused at its start, and
a constant with such a literal for its value at the start of the literal, both for one reason. -/
theorem exists_typeOf_eq_reject (declares : checker.variant.hasDeclarations = true)
    (refused : ¬ ∀ type ∈ parameters.map Prod.snd ++ [declared], checker.Admits type) :
    ∃ construct,
      checker.typeOf (.declaration span name parameters declared body rest) =
          checker.reject construct span.start ∧
        checker.typeOf
            (.constant span' name (.function place parameters (some declared) body) rest) =
          checker.reject construct place.start := by
  have supported := supports_of_hasDeclarations declares
  have known := selfType?_of_hasDeclarations declares parameters declared body place
  obtain ⟨construct, same⟩ := exists_annotations_eq_reject refused
  have literal : checker.typeOf (.function place parameters (some declared) body) =
      checker.reject construct place.start := by
    rw [typeOf, admitForm_of_supports supported.1, pure_bind]
    exact same place.start _
  refine ⟨construct, ?_, ?_⟩
  · rw [typeOf, admitForm_of_supports supported.2.2, pure_bind]
    exact same span.start _
  · rw [typeOf, admitForm_of_supports supported.2.1, pure_bind]
    dsimp only
    rw [known]
    dsimp only
    rw [literal, (checker.uniform_reject construct place.start).withBindings, reject_bind]

end

/-- In a language with function declarations and with all switches, a declared function and a
constant with the function literal for its value come to the same: to the same type, to the same
fault at the same place, or to no end. Only when the language does not have one of the declared
types the place differs: one is refused at the declaration and the other at the literal, for the
same reason. The environment stays as it was. -/
theorem typeOf_declaration_constant (checker : Checker)
    (declares : checker.variant.hasDeclarations = true) (span span' place : Span) (name : String)
    (parameters : List (String × Ty)) (declared : Ty) (body rest : Term)
    (environment : Environment) :
    let declaration :=
      checker.typeOf (.declaration span name parameters declared body rest) environment
    let constant := checker.typeOf
      (.constant span' name (.function place parameters (some declared) body) rest) environment
    declaration.environment = environment ∧ constant.environment = environment ∧
      (declaration.result = constant.result ∨
        ∃ type ∈ parameters.map Prod.snd ++ [declared], ¬ checker.Admits type ∧ ∃ construct,
          declaration.result =
              .error (.fault ⟨.unsupportedConstruct construct checker.variant, span.start⟩) ∧
            constant.result =
              .error (.fault ⟨.unsupportedConstruct construct checker.variant, place.start⟩)) := by
  intro declaration constant
  have known := selfType?_of_hasDeclarations declares parameters declared body place
  refine ⟨steady_typeOf_declaration environment, steady_typeOf_constant known environment, ?_⟩
  by_cases admitted : ∀ type ∈ parameters.map Prod.snd ++ [declared], checker.Admits type
  · left
    exact congrArg (fun check => (check environment).result)
      (typeOf_declaration_eq_constant declares admitted)
  · right
    obtain ⟨construct, atDeclaration, atLiteral⟩ := exists_typeOf_eq_reject declares admitted
    push Not at admitted
    obtain ⟨type, isAnnotation, refused⟩ := admitted
    refine ⟨type, isAnnotation, refused, construct, ?_, ?_⟩
    · exact congrArg (fun check => (check environment).result) atDeclaration
    · exact congrArg (fun check => (check environment).result) atLiteral

/-- A function that gives back its parameter, which has the name of the function, declared or as a
constant. -/
def selfNamed (declares : Bool) (type : Ty) : Term :=
  let name : Term := .reference ⟨0, 0⟩ "f"
  if declares then .declaration ⟨0, 30⟩ "f" [("f", type)] type name name
  else .constant ⟨0, 30⟩ "f" (.function ⟨9, 30⟩ [("f", type)] (some type) name) name

/-- The parameter hides the function in both, also when it is written into the environment, and the
function hides it in the rest. -/
theorem typeOf_declaration_constant_selfNamed :
    let checker : Checker := ⟨.functions, { copyEnvironments := false }⟩
    let type := Ty.function [("f", .number)] .number
    checker.variant.hasDeclarations = true ∧
      (checker.typeOf (selfNamed true .number) {}).result = .ok type ∧
      (checker.typeOf (selfNamed false .number) {}).result = .ok type ∧
      (checker.typeOf (selfNamed false .number) {}).environment = {} := by
  intro checker type
  have accepted : (checker.typeOf (selfNamed true .number) {}).result = .ok type := by cbv
  obtain ⟨_, kept, same | ⟨_, _, _, _, refused, _⟩⟩ := typeOf_declaration_constant checker rfl
    ⟨0, 30⟩ ⟨0, 30⟩ ⟨9, 30⟩ "f" [("f", .number)] .number (.reference ⟨0, 0⟩ "f")
    (.reference ⟨0, 0⟩ "f") {}
  · exact ⟨rfl, accepted, same.symm.trans accepted, kept⟩
  · cases accepted.symm.trans refused

/-- A type that the language does not have is found at the declaration, or at the literal. -/
example :
    let checker : Checker := ⟨.functions, {}⟩
    let refusal (offset : Offset) : Except (Stop Fault) Ty :=
      .error (.fault ⟨.unsupportedConstruct "object type" .functions, offset⟩)
    (checker.typeOf (selfNamed true (.object [])) {}).result = refusal 0 ∧
      (checker.typeOf (selfNamed false (.object [])) {}).result = refusal 9 := by
  constructor <;> rfl

end Checker

end Equirec
