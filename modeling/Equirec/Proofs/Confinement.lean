import Equirec.Proofs.Annotations
import Equirec.Proofs.Steps
import Equirec.Proofs.Strain

/-!
# The checker stays within a kind of types

A check only takes types apart, unfolds them and puts them together. So when a kind of types is
closed under that, a program whose annotations are of the kind has a type of the kind
(`Checker.confined`), whatever the language and the switches. Annotations that the language does not
have need not be of the kind: they are refused before anything is made of them.

How a check may stop is followed along: a fault speaks of types of the kind only, one that finds no
function or no object shows the first layer of such a type, and a comparison that does not end
compares two of them.
-/
namespace Equirec

/-- The types that a cause speaks of. -/
def Cause.types : Cause → List Ty
  | numberExpected received | booleanExpected received | functionExpected received
  | objectExpected received => [received]
  | branchTypeMismatch positive negative => [positive, negative]
  | argumentTypeMismatch expected received | returnTypeMismatch expected received =>
    [expected, received]
  | unrecognisedToken _ | unexpectedToken _ | unexpectedTokenDetailed .. | malformedNumber _
  | unknownType _ | nonContractiveType _ | undefinedVariable _ | argumentLengthMismatch ..
  | unknownProperty _ | unsupportedConstruct .. => []

/-- The types that a cause shows by their first layer. -/
def Cause.layers : Cause → List Ty
  | functionExpected received | objectExpected received => [received]
  | _ => []

/-! ## What a step meets -/

namespace Check

/-- Whether a step ends as it should: every value that it gives meets a condition, with the
environment that it leaves, and every reason to stop is one of those allowed. -/
structure Meets {α : Type} (step : Check α) (environment : Environment)
    (stops : Stop Fault → Prop) (meets : α → Environment → Prop) : Prop where
  /-- The step stops for a reason that is allowed. -/
  stopped : ∀ stop, (step environment).result = .error stop → stops stop
  /-- The step gives a value that meets the condition. -/
  ensures : step.Ensures environment meets

namespace Meets

variable {α β : Type} {environment : Environment} {stops : Stop Fault → Prop}

/-- A condition may be replaced by a weaker one. -/
theorem imp {step : Check α} {meets meets' : α → Environment → Prop}
    (holds : step.Meets environment stops meets)
    (weaker : ∀ value after, meets value after → meets' value after) :
    step.Meets environment stops meets' :=
  ⟨holds.stopped, holds.ensures.imp weaker⟩

/-- The step that only gives a value. -/
theorem pure {value : α} {meets : α → Environment → Prop} (holds : meets value environment) :
    Meets (Pure.pure value) environment stops meets :=
  ⟨fun _ ended => (nomatch ended), .pure holds⟩

/-- One step and then another, which may rely on what the first one meets. -/
theorem bind {step : Check α} {next : α → Check β} {meets : α → Environment → Prop}
    {meets' : β → Environment → Prop} (first : step.Meets environment stops meets)
    (second : ∀ value after, meets value after → (next value).Meets after stops meets') :
    Meets (step >>= next) environment stops meets' := by
  refine ⟨?_, first.ensures.bind fun value after holds => (second value after holds).ensures⟩
  intro stop ended
  cases result : (step environment).result with
  | error stop' =>
    rw [bind_of_error result] at ended
    cases ended
    exact first.stopped stop result
  | ok middle =>
    rw [bind_of_ok result] at ended
    exact (second middle _ (first.ensures middle result)).stopped stop ended

/-- A step that leaves the environment as it is, and then another. -/
theorem bind_keeping {step : Check α} {next : α → Check β} {holds : α → Prop}
    {meets : β → Environment → Prop}
    (first : step.Meets environment stops fun value after => after = environment ∧ holds value)
    (second : ∀ value, holds value → (next value).Meets environment stops meets) :
    Meets (step >>= next) environment stops meets := by
  apply first.bind
  rintro value _ ⟨rfl, holds⟩
  exact second value holds

/-- A fault that is allowed. -/
theorem fail {cause : Cause} {offset : Offset} {meets : α → Environment → Prop}
    (allowed : stops (.fault ⟨cause, offset⟩)) :
    Meets (Check.fail cause offset) environment stops meets := by
  refine ⟨?_, .fail⟩
  intro stop ended
  cases ended
  exact allowed

/-- A step in a copy of the environment leaves the environment as it is. -/
theorem withBindings {members : List (String × Ty)} {step : Check α} {holds : α → Prop}
    (inner : step.Meets (environment.declareAll members) stops fun value _ => holds value) :
    (Check.withBindings members step).Meets environment stops fun value after =>
      after = environment ∧ holds value :=
  ⟨inner.stopped, .withBindings inner.ensures⟩

end Meets

end Check

/-! ## Kinds of types -/

/-- A kind of types that a check does not leave, if the object literals that it sees have property
names of a certain sort, together with the reasons for which it may stop. -/
structure Confinement (kind : Ty → Prop) (named : List String → Prop)
    (stops : Stop Fault → Prop) : Prop where
  /-- The type of numbers. -/
  number : kind .number
  /-- The type of booleans. -/
  boolean : kind .boolean
  /-- Functions between types of the kind. -/
  function : ∀ {parameters : List (String × Ty)} {result : Ty},
    (∀ member ∈ parameters, kind member.2) → kind result → kind (.function parameters result)
  /-- Objects of types of the kind. -/
  object : ∀ {properties : List (String × Ty)}, named (properties.map Prod.fst) →
    (∀ member ∈ properties, kind member.2) → kind (.object properties)
  /-- The parts of a type of the kind. -/
  part : ∀ {part whole : Ty}, part.IsPart whole → kind whole → kind part
  /-- The unfolding of a type of the kind. -/
  unfolded : ∀ {name : String} {body : Ty}, kind (.mu name body) → kind (Ty.unfolded name body)
  /-- A fault that speaks of types of the kind, and shows first layers of such types, is a reason to
  stop. -/
  fault : ∀ {fault : Fault}, (∀ type ∈ fault.cause.types, kind type) →
    (∀ layer ∈ fault.cause.layers, ∃ type, kind type ∧ layer = type.simplify) →
      stops (.fault fault)
  /-- Types of the kind that are compared without end are a reason to stop. -/
  endless : ∀ {comparison : Comparison} {left right : Ty}, comparison.IsChecked → kind left →
    kind right → (comparison.judge left right).verdict = .endless → stops .exhausted

namespace Confinement

variable {kind : Ty → Prop} {named : List String → Prop} {stops : Stop Fault → Prop}
  {environment : Environment} {α : Type}

/-- Unfolding as far as simplifying does stays within the kind. -/
theorem simplifyFrom (confinement : Confinement kind named stops) (visited : List Ty)
    (unfoldings : Nat) (type : Ty) (holds : kind type) :
    kind (Ty.simplifyFrom visited unfoldings type) := by
  fun_induction Ty.simplifyFrom visited unfoldings type with
  | case1 => exact holds
  | case2 visited unfoldings name body _ _ ih => exact ih (confinement.unfolded holds)
  | case3 => exact holds

/-- Simplifying stays within the kind. -/
theorem simplify (confinement : Confinement kind named stops) {type : Ty} (holds : kind type) :
    kind type.simplify :=
  confinement.simplifyFrom [] _ type holds

/-- A fault that speaks of types of the kind and shows no layers. -/
theorem fail (confinement : Confinement kind named stops) {cause : Cause} {offset : Offset}
    {meets : α → Environment → Prop} (holds : ∀ type ∈ cause.types, kind type)
    (bare : cause.layers = []) :
    (Check.fail cause offset).Meets environment stops meets := by
  apply Check.Meets.fail
  apply confinement.fault holds
  rw [bare]
  exact List.forall_mem_nil _

/-- A fault that shows the first layer of a type of the kind. -/
theorem fail_layer (confinement : Confinement kind named stops) {cause : Cause} {offset : Offset}
    {meets : α → Environment → Prop} {type : Ty} (holds : kind type)
    (speaks : cause.types = [type.simplify]) (shows : cause.layers = [type.simplify]) :
    (Check.fail cause offset).Meets environment stops meets := by
  apply Check.Meets.fail
  apply confinement.fault
  · rw [speaks]
    exact List.forall_mem_singleton.2 (confinement.simplify holds)
  · rw [shows]
    exact List.forall_mem_singleton.2 ⟨type, holds, rfl⟩

/-- A comparison of types of the kind. -/
theorem compare (confinement : Confinement kind named stops) {comparison : Comparison}
    (isChecked : comparison.IsChecked) {left right : Ty} (holds : kind left)
    (holds' : kind right) :
    (Check.compare comparison left right).Meets environment stops fun _ after =>
      after = environment ∧ True := by
  refine ⟨?_, fun _ _ => ⟨rfl, trivial⟩⟩
  intro stop ended
  simp only [Check.compare] at ended
  split at ended
  · cases ended
  · cases ended
  · rename_i verdict
    cases ended
    exact confinement.endless isChecked holds holds' verdict

end Confinement

namespace Checker

/-! ## Steps of the checker -/

/-- Whether the language has a type. -/
def Admits (checker : Checker) (type : Ty) : Prop :=
  (type.isRecursive = true → checker.variant.hasRecursiveTypes = true) ∧
    (type.containsObject = true → checker.variant.hasObjects = true)

variable {checker : Checker} {kind : Ty → Prop} {named : List String → Prop}
  {stops : Stop Fault → Prop} {environment : Environment}

/-- A construct that the language does not have is a fault without types. -/
theorem meets_reject {α : Type} (confinement : Confinement kind named stops) (construct : String)
    (offset : Offset) {meets : α → Environment → Prop} :
    (checker.reject construct offset).Meets environment stops meets := by
  have reported : (Check.report (.rejected construct checker.variant)).Meets environment stops
      fun _ after => after = environment ∧ True :=
    ⟨fun _ ended => (nomatch ended), fun _ _ => ⟨rfl, trivial⟩⟩
  apply reported.bind_keeping
  intro _ _
  exact confinement.fail (List.forall_mem_nil _) rfl

/-- A term passes when the language has its form. -/
theorem meets_admitForm (confinement : Confinement kind named stops) (term : Term) :
    (checker.admitForm term).Meets environment stops fun _ after =>
      after = environment ∧ checker.variant.supports term.form = true := by
  rw [admitForm]
  split
  · rename_i supported
    exact .pure ⟨rfl, supported⟩
  · exact meets_reject confinement _ _

/-- A type passes when the language has it. -/
theorem meets_admitType (confinement : Confinement kind named stops) (offset : Offset)
    (type : Ty) :
    (checker.admitType offset type).Meets environment stops fun _ after =>
      after = environment ∧ checker.Admits type := by
  rw [admitType]
  split
  · exact meets_reject confinement _ _
  · split
    · exact meets_reject confinement _ _
    · rename_i recursive objects
      refine .pure ⟨rfl, ?_, ?_⟩
      · intro isRecursive
        simpa [isRecursive] using recursive
      · intro containsObject
        simpa [containsObject] using objects

/-- Parameters pass when the language has the types of all of them. -/
theorem meets_admitParameters (confinement : Confinement kind named stops) (offset : Offset)
    (parameters : List (String × Ty)) :
    (checker.admitParameters offset parameters).Meets environment stops fun _ after =>
      after = environment ∧ ∀ member ∈ parameters, checker.Admits member.2 := by
  induction parameters with
  | nil => exact .pure ⟨rfl, List.forall_mem_nil _⟩
  | cons parameter rest ih =>
    rw [admitParameters]
    apply (meets_admitType confinement offset parameter.2).bind_keeping
    intro _ admitted
    apply ih.imp
    rintro _ after ⟨same, admitted'⟩
    exact ⟨same, List.forall_mem_cons.2 ⟨admitted, admitted'⟩⟩

/-- A declared result, if there is one, passes when the language has it. -/
theorem meets_admitDeclared (confinement : Confinement kind named stops) (offset : Offset)
    (declared : Option Ty) :
    Check.Meets (declared.forM (checker.admitType offset)) environment stops fun _ after =>
      after = environment ∧ ∀ type ∈ declared, checker.Admits type := by
  cases declared with
  | none => exact .pure ⟨rfl, fun _ isDeclared => nomatch isDeclared⟩
  | some type =>
    apply (meets_admitType confinement offset type).imp
    rintro _ after ⟨same, admitted⟩
    refine ⟨same, ?_⟩
    intro type' isDeclared
    cases isDeclared
    exact admitted

/-- An operand of a type of the kind. -/
theorem meets_expectNumber (confinement : Confinement kind named stops) (operand : Term)
    {type : Ty} (holds : kind type) :
    (expectNumber operand type).Meets environment stops fun _ after =>
      after = environment ∧ True := by
  rw [expectNumber]
  split
  · exact .pure ⟨rfl, trivial⟩
  · exact confinement.fail (List.forall_mem_singleton.2 holds) rfl

/-- A condition of a type of the kind. -/
theorem meets_expectCondition (confinement : Confinement kind named stops) (condition : Term)
    {type : Ty} (holds : kind type) :
    (checker.expectCondition condition type).Meets environment stops fun _ after =>
      after = environment ∧ True := by
  rw [expectCondition]
  split
  · exact confinement.fail (List.forall_mem_singleton.2 holds) rfl
  · exact .pure ⟨rfl, trivial⟩

/-- Two types of the kind in one cause. -/
theorem forall_mem_pair {first second : Ty} (holds : kind first) (holds' : kind second) :
    ∀ type ∈ [first, second], kind type :=
  List.forall_mem_cons.2 ⟨holds, List.forall_mem_singleton.2 holds'⟩

/-- A body and a declared result of the kind. -/
theorem meets_expectResult (confinement : Confinement kind named stops) (body : Term)
    {declared received : Ty} (holds : kind declared) (holds' : kind received) :
    (expectResult body declared received).Meets environment stops fun _ after =>
      after = environment ∧ True := by
  rw [expectResult]
  apply (confinement.compare (.inl rfl) holds' holds).bind_keeping
  intro answer _
  split
  · exact .pure ⟨rfl, trivial⟩
  · exact confinement.fail (forall_mem_pair holds holds') rfl

/-- An argument and a parameter of the kind. -/
theorem meets_fits (confinement : Confinement kind named stops) {received expected : Ty}
    (holds : kind received) (holds' : kind expected) :
    (checker.fits received expected).Meets environment stops fun _ after =>
      after = environment ∧ True := by
  rw [fits]
  split
  · exact confinement.compare (.inr rfl) holds holds'
  · exact confinement.compare (.inl rfl) holds holds'

/-- Branches of the kind have a join of the kind. -/
theorem meets_join (confinement : Confinement kind named stops) (offset : Offset)
    {positive negative : Ty} (holds : kind positive) (holds' : kind negative) :
    (checker.join offset positive negative).Meets environment stops fun type after =>
      after = environment ∧ kind type := by
  rw [join]
  split
  · apply (confinement.compare (.inr rfl) holds' holds).bind_keeping
    intro answer _
    split
    · exact .pure ⟨rfl, holds⟩
    · apply (confinement.compare (.inr rfl) holds holds').bind_keeping
      intro answer _
      split
      · exact .pure ⟨rfl, holds'⟩
      · exact confinement.fail (forall_mem_pair holds holds') rfl
  · apply (confinement.compare (.inl rfl) holds holds').bind_keeping
    intro answer _
    split
    · exact .pure ⟨rfl, holds⟩
    · exact confinement.fail (forall_mem_pair holds holds') rfl

/-! ## Terms -/

/-- Whether checking a term stays within the kind: in an environment of the kind, it gives a type of
the kind and leaves an environment of the kind, or stops for a reason that is allowed. -/
def Confined (checker : Checker) (kind : Ty → Prop) (stops : Stop Fault → Prop) (term : Term) :
    Prop :=
  ∀ environment : Environment, environment.Within kind →
    (checker.typeOf term).Meets environment stops fun type after =>
      kind type ∧ after.Within kind

/-- A check in a copy of an environment of the kind. -/
theorem Confined.withBindings {term : Term} (confined : checker.Confined kind stops term)
    (within : environment.Within kind) {members : List (String × Ty)}
    (holds : ∀ member ∈ members, kind member.2) :
    (Check.withBindings members (checker.typeOf term)).Meets environment stops fun type after =>
      after = environment ∧ kind type :=
  .withBindings ((confined _ (within.declareAll holds)).imp fun _ _ => And.left)

/-- Whether the body of a function literal is confined; there is nothing to say of other terms. -/
def BodyConfined (checker : Checker) (kind : Ty → Prop) (stops : Stop Fault → Prop) :
    Term → Prop
  | .function _ _ _ body => checker.Confined kind stops body
  | _ => True

/-- Arguments and parameters of the kind. -/
theorem meets_checkArguments (confinement : Confinement kind named stops) {arguments : List Term}
    (confined : ∀ argument ∈ arguments, checker.Confined kind stops argument)
    (within : environment.Within kind) {parameters : List (String × Ty)}
    (holds : ∀ member ∈ parameters, kind member.2) :
    (checker.checkArguments arguments parameters).Meets environment stops fun _ after =>
      after.Within kind := by
  induction arguments generalizing parameters environment with
  | nil =>
    rw [checkArguments]
    · exact .pure within
    · simp
  | cons argument arguments ih =>
    cases parameters with
    | nil =>
      rw [checkArguments]
      · exact .pure within
      · simp
    | cons parameter parameters =>
      rw [List.forall_mem_cons] at confined holds
      rw [checkArguments]
      apply (confined.1 environment within).bind
      intro received after ⟨isKind, within⟩
      apply (meets_fits confinement isKind holds.1).bind_keeping
      intro answer _
      split
      · exact ih confined.2 within holds.2
      · exact confinement.fail (forall_mem_pair holds.1 isKind) rfl

/-- The properties of an object literal have types of the kind, under the same names. -/
theorem meets_typesOf {properties : List (String × Term)}
    (confined : ∀ member ∈ properties, checker.Confined kind stops member.2)
    (within : environment.Within kind) :
    (checker.typesOf properties).Meets environment stops fun types after =>
      types.map Prod.fst = properties.map Prod.fst ∧ (∀ member ∈ types, kind member.2) ∧
        after.Within kind := by
  induction properties generalizing environment with
  | nil =>
    rw [typesOf]
    exact .pure ⟨rfl, List.forall_mem_nil _, within⟩
  | cons property properties ih =>
    rw [List.forall_mem_cons] at confined
    rw [typesOf]
    apply (confined.1 environment within).bind
    intro type after ⟨isKind, within⟩
    apply (ih confined.2 within).bind
    intro types after' ⟨names, areKind, within⟩
    refine .pure ⟨?_, List.forall_mem_cons.2 ⟨isKind, areKind⟩, within⟩
    rw [List.map_cons, List.map_cons, names]

/-- A sum, if its operands are confined. -/
theorem confined_add (confinement : Confinement kind named stops) {span : Span}
    {left right : Term} (first : checker.Confined kind stops left)
    (second : checker.Confined kind stops right) :
    checker.Confined kind stops (.add span left right) := by
  intro environment within
  rw [typeOf]
  apply (meets_admitForm confinement _).bind_keeping
  intro _ _
  apply (first environment within).bind
  intro leftType after ⟨isKind, within⟩
  apply (meets_expectNumber confinement left isKind).bind_keeping
  intro _ _
  apply (second after within).bind
  intro rightType after' ⟨isKind, within⟩
  apply (meets_expectNumber confinement right isKind).bind_keeping
  intro _ _
  exact .pure ⟨confinement.number, within⟩

/-- A conditional, if its three parts are confined. -/
theorem confined_conditional (confinement : Confinement kind named stops) {span : Span}
    {condition positive negative : Term} (test : checker.Confined kind stops condition)
    (holds : checker.Confined kind stops positive)
    (fails : checker.Confined kind stops negative) :
    checker.Confined kind stops (.conditional span condition positive negative) := by
  intro environment within
  rw [typeOf]
  apply (meets_admitForm confinement _).bind_keeping
  intro _ _
  apply (test environment within).bind
  intro testType after ⟨isKind, within⟩
  apply (meets_expectCondition confinement condition isKind).bind_keeping
  intro _ _
  apply (holds after within).bind
  intro positiveType after' ⟨isPositive, within⟩
  apply (fails after' within).bind
  intro negativeType after'' ⟨isNegative, within⟩
  apply (meets_join confinement span.start isPositive isNegative).imp
  rintro type _ ⟨rfl, isKind⟩
  exact ⟨isKind, within⟩

/-- A name that is used has a type of the kind. -/
theorem confined_reference (confinement : Confinement kind named stops) {span : Span}
    {name : String} : checker.Confined kind stops (.reference span name) := by
  intro environment within
  rw [typeOf]
  apply (meets_admitForm confinement _).bind_keeping
  intro _ _
  refine ⟨?_, (Check.Ensures.reference name span.start).imp ?_⟩
  · intro stop ended
    simp only [Check.reference, Environment.typeAt] at ended
    cases found : environment.lookup? name with
    | some type => simp [found, Except.mapError] at ended
    | none =>
      simp only [found, Except.mapError, Except.error.injEq] at ended
      rw [← ended]
      exact confinement.fault (List.forall_mem_nil _) (List.forall_mem_nil _)
  · rintro type _ ⟨rfl, found⟩
    exact ⟨within name type found, within⟩

/-- The body of a function literal, in a copy of the environment or in the environment itself, and
what is made of its type. -/
theorem meets_body {body : Term} (inner : checker.Confined kind stops body)
    (within : environment.Within kind) {parameters : List (String × Ty)}
    (holds : ∀ member ∈ parameters, kind member.2) {next : Ty → Check Ty}
    {meets : Ty → Environment → Prop}
    (finished : ∀ bodyType after, kind bodyType ∧ after.Within kind →
      (next bodyType).Meets after stops meets) :
    Check.Meets (if checker.options.copyEnvironments = true then
        Check.withBindings parameters (checker.typeOf body) >>= next
      else Check.declareAll parameters >>= fun _ => checker.typeOf body >>= next)
      environment stops meets := by
  split
  · apply (inner.withBindings within holds).bind_keeping
    intro bodyType isBody
    exact finished bodyType environment ⟨isBody, within⟩
  · have declares : (Check.declareAll parameters).Meets environment stops fun _ after =>
        after = environment.declareAll parameters := by
      refine ⟨fun _ ended => ?_, fun _ _ => rfl⟩
      cases ended
    apply declares.bind
    rintro _ _ rfl
    exact (inner _ (within.declareAll holds)).bind finished

/-- A function literal, if its body is confined. The environment has to be of the kind only when the
language has the types that the literal declares. -/
theorem meets_function (confinement : Confinement kind named stops) {span : Span}
    {parameters : List (String × Ty)} {declared : Option Ty} {body : Term}
    (holds : ∀ member ∈ parameters, checker.Admits member.2 → kind member.2)
    (holds' : ∀ type ∈ declared, checker.Admits type → kind type)
    (inner : checker.Confined kind stops body)
    (within : (∀ member ∈ parameters, kind member.2) → (∀ type ∈ declared, kind type) →
      environment.Within kind) :
    (checker.typeOf (.function span parameters declared body)).Meets environment stops
      fun type after => kind type ∧ after.Within kind := by
  rw [typeOf]
  apply (meets_admitForm confinement _).bind_keeping
  intro _ _
  apply (meets_admitParameters confinement span.start parameters).bind_keeping
  intro _ admitted
  apply (meets_admitDeclared confinement span.start declared).bind_keeping
  intro _ admitted'
  have areKind : ∀ member ∈ parameters, kind member.2 :=
    fun member isMember => holds member isMember (admitted member isMember)
  have isKind : ∀ type ∈ declared, kind type :=
    fun type isDeclared => holds' type isDeclared (admitted' type isDeclared)
  have within := within areKind isKind
  dsimp only
  apply meets_body inner within areKind
  rintro bodyType after ⟨isBody, within'⟩
  cases declared with
  | none => exact .pure ⟨confinement.function areKind isBody, within'⟩
  | some result =>
    apply (meets_expectResult confinement body (isKind result rfl) isBody).bind_keeping
    intro _ _
    exact .pure ⟨confinement.function areKind (isKind result rfl), within'⟩

/-- A call, if the function and the arguments are confined. -/
theorem confined_call (confinement : Confinement kind named stops) {span : Span} {callee : Term}
    {arguments : List Term} (function : checker.Confined kind stops callee)
    (values : ∀ argument ∈ arguments, checker.Confined kind stops argument) :
    checker.Confined kind stops (.call span callee arguments) := by
  intro environment within
  rw [typeOf]
  apply (meets_admitForm confinement _).bind_keeping
  intro _ _
  apply (function environment within).bind
  intro type after ⟨isKind, within⟩
  have simplified := confinement.simplify isKind
  split
  · rename_i parameters result isFunction
    rw [isFunction] at simplified
    have inParameters : ∀ member ∈ parameters, kind member.2 :=
      fun member isMember => confinement.part (.parameter isMember) simplified
    split
    · apply (meets_checkArguments confinement values within inParameters).bind
      intro _ after' within
      exact .pure ⟨confinement.part .result simplified, within⟩
    · exact confinement.fail (List.forall_mem_nil _) rfl
  · exact confinement.fail_layer isKind rfl rfl

/-- A sequence, if its two parts are confined. -/
theorem confined_sequence (confinement : Confinement kind named stops) {span : Span}
    {first rest : Term} (head : checker.Confined kind stops first)
    (tail : checker.Confined kind stops rest) :
    checker.Confined kind stops (.sequence span first rest) := by
  intro environment within
  rw [typeOf]
  apply (meets_admitForm confinement _).bind_keeping
  intro _ _
  apply (head environment within).bind
  intro _ after ⟨_, within⟩
  exact tail after within

/-- The rest of a program, in which one more name is known. -/
theorem meets_rest {rest : Term} (tail : checker.Confined kind stops rest)
    (within : environment.Within kind) (name : String) {type : Ty} (holds : kind type) :
    (Check.withBindings [(name, type)] (checker.typeOf rest)).Meets environment stops
      fun type after => kind type ∧ after.Within kind := by
  apply (tail.withBindings within (List.forall_mem_singleton.2 holds)).imp
  rintro type _ ⟨rfl, isKind⟩
  exact ⟨isKind, within⟩

/-- A constant is known in its own value only when that is a function literal with a declared
result. -/
theorem eq_of_selfType? {value : Term} {type : Ty} (known : checker.selfType? value = some type) :
    ∃ span parameters declared body, value = .function span parameters (some declared) body ∧
      type = .function parameters declared := by
  unfold selfType? at known
  split at known
  · split at known
    · cases known
      exact ⟨_, _, _, _, rfl, rfl⟩
    · cases known
  · cases known

/-- A constant, if its value and the rest are confined. When the constant is known in its own value,
the type under which it is known is of the kind as soon as the language has it. -/
theorem confined_constant (confinement : Confinement kind named stops) {span : Span}
    {name : String} {value rest : Term}
    (holds : ∀ type ∈ value.annotations, checker.Admits type → kind type)
    (inner : checker.Confined kind stops value)
    (inner' : checker.BodyConfined kind stops value) (tail : checker.Confined kind stops rest) :
    checker.Confined kind stops (.constant span name value rest) := by
  intro environment within
  rw [typeOf]
  apply (meets_admitForm confinement _).bind_keeping
  intro _ _
  dsimp only
  split
  · rename_i type known
    obtain ⟨span', parameters, declared, body, rfl, rfl⟩ := eq_of_selfType? known
    simp only [Term.annotations, List.forall_mem_append, List.forall_mem_map,
      Option.mem_toList] at holds
    have known : (∀ member ∈ parameters, kind member.2) → (∀ type ∈ some declared, kind type) →
        (environment.declareAll [(name, .function parameters declared)]).Within kind := by
      intro areKind isKind
      exact within.declare name (confinement.function areKind (isKind declared rfl))
    have checked : (checker.typeOf (.function span' parameters (some declared) body)).Meets
        (environment.declareAll [(name, .function parameters declared)]) stops
        fun type after => kind type ∧ after.Within kind :=
      meets_function confinement holds.1.1 holds.1.2 inner' known
    apply (Check.Meets.withBindings (checked.imp fun _ _ => And.left)).bind_keeping
    intro valueType isKind
    exact meets_rest tail within name isKind
  · apply (inner environment within).bind
    rintro valueType after ⟨isKind, within⟩
    exact meets_rest tail within name isKind

/-- An object literal, if its properties are confined and its names are of the sort. They have to be
only when the language has objects. -/
theorem confined_object (confinement : Confinement kind named stops) {span : Span}
    {properties : List (String × Term)}
    (names : checker.variant.hasObjects = true → named (properties.map Prod.fst))
    (values : ∀ member ∈ properties, checker.Confined kind stops member.2) :
    checker.Confined kind stops (.object span properties) := by
  intro environment within
  rw [typeOf]
  apply (meets_admitForm confinement _).bind_keeping
  intro _ supported
  apply (meets_typesOf values within).bind
  intro types after ⟨sameNames, areKind, within⟩
  exact .pure ⟨confinement.object (sameNames ▸ names supported) areKind, within⟩

/-- A property, if its object is confined. -/
theorem confined_property (confinement : Confinement kind named stops) {span : Span}
    {object : Term} {name : String} (whole : checker.Confined kind stops object) :
    checker.Confined kind stops (.property span object name) := by
  intro environment within
  rw [typeOf]
  apply (meets_admitForm confinement _).bind_keeping
  intro _ _
  apply (whole environment within).bind
  intro type after ⟨isKind, within⟩
  have simplified := confinement.simplify isKind
  split
  · rename_i properties isObject
    rw [isObject] at simplified
    split
    · rename_i known found
      have isMember := Members.mem_of_lookup found
      exact .pure ⟨confinement.part (Ty.IsPart.property isMember) simplified, within⟩
    · exact confinement.fail (List.forall_mem_nil _) rfl
  · exact confinement.fail_layer isKind rfl rfl

/-- A function declaration, if its body and the rest are confined. -/
theorem confined_declaration (confinement : Confinement kind named stops) {span : Span}
    {name : String} {parameters : List (String × Ty)} {declared : Ty} {body rest : Term}
    (holds : ∀ member ∈ parameters, checker.Admits member.2 → kind member.2)
    (holds' : checker.Admits declared → kind declared)
    (inner : checker.Confined kind stops body) (tail : checker.Confined kind stops rest) :
    checker.Confined kind stops (.declaration span name parameters declared body rest) := by
  intro environment within
  rw [typeOf]
  apply (meets_admitForm confinement _).bind_keeping
  intro _ _
  apply (meets_admitParameters confinement span.start parameters).bind_keeping
  intro _ admitted
  apply (meets_admitType confinement span.start declared).bind_keeping
  intro _ admitted'
  have areKind : ∀ member ∈ parameters, kind member.2 :=
    fun member isMember => holds member isMember (admitted member isMember)
  have isKind := holds' admitted'
  have isFunction := confinement.function areKind isKind
  apply (inner.withBindings within (List.forall_mem_cons.2 ⟨isFunction, areKind⟩)).bind_keeping
  intro bodyType isBody
  apply (meets_expectResult confinement body isKind isBody).bind_keeping
  intro _ _
  exact meets_rest tail within name isFunction

/-- A check stays within a kind of types, if the annotations of the term that the language has are
of the kind and, in a language with objects, the names of its object literals of the sort. -/
theorem confined (confinement : Confinement kind named stops) (term : Term)
    (holds : ∀ type ∈ term.annotations, checker.Admits type → kind type)
    (names : ∀ literal ∈ term.literals, checker.variant.hasObjects = true → named literal) :
    checker.Confined kind stops term ∧ checker.BodyConfined kind stops term := by
  induction term with
  | boolean span value =>
    refine ⟨?_, trivial⟩
    intro environment within
    rw [typeOf]
    apply (meets_admitForm confinement _).bind_keeping
    intro _ _
    exact .pure ⟨confinement.boolean, within⟩
  | number span value =>
    refine ⟨?_, trivial⟩
    intro environment within
    rw [typeOf]
    apply (meets_admitForm confinement _).bind_keeping
    intro _ _
    exact .pure ⟨confinement.number, within⟩
  | add span left right leftIH rightIH =>
    simp only [Term.annotations, Term.literals, List.forall_mem_append] at holds names
    have first := leftIH holds.1 names.1
    have second := rightIH holds.2 names.2
    exact ⟨confined_add confinement first.1 second.1, trivial⟩
  | conditional span condition positive negative conditionIH positiveIH negativeIH =>
    simp only [Term.annotations, Term.literals, List.forall_mem_append] at holds names
    have test := conditionIH holds.1.1 names.1.1
    have first := positiveIH holds.1.2 names.1.2
    have second := negativeIH holds.2 names.2
    exact ⟨confined_conditional confinement test.1 first.1 second.1, trivial⟩
  | reference span name => exact ⟨confined_reference confinement, trivial⟩
  | function span parameters declared body bodyIH =>
    simp only [Term.annotations, Term.literals, List.forall_mem_append, List.forall_mem_map,
      Option.mem_toList] at holds names
    have inner := (bodyIH holds.2 names).1
    refine ⟨?_, inner⟩
    intro environment within
    exact meets_function confinement holds.1.1 holds.1.2 inner fun _ _ => within
  | call span callee arguments calleeIH argumentsIH =>
    simp only [Term.annotations, Term.literals, Term.annotationsOf_eq_flatMap,
      Term.literalsOf_eq_flatMap, List.forall_mem_append, List.forall_mem_flatMap] at holds names
    have function := calleeIH holds.1 names.1
    have values : ∀ argument ∈ arguments, checker.Confined kind stops argument :=
      fun argument isMember =>
        (argumentsIH argument isMember (holds.2 argument isMember) (names.2 argument isMember)).1
    exact ⟨confined_call confinement function.1 values, trivial⟩
  | sequence span first rest firstIH restIH =>
    simp only [Term.annotations, Term.literals, List.forall_mem_append] at holds names
    have head := firstIH holds.1 names.1
    have tail := restIH holds.2 names.2
    exact ⟨confined_sequence confinement head.1 tail.1, trivial⟩
  | constant span name value rest valueIH restIH =>
    simp only [Term.annotations, Term.literals, List.forall_mem_append] at holds names
    have inner := valueIH holds.1 names.1
    have tail := restIH holds.2 names.2
    exact ⟨confined_constant confinement holds.1 inner.1 inner.2 tail.1, trivial⟩
  | object span properties propertiesIH =>
    simp only [Term.annotations, Term.literals, Term.annotationsIn_eq_flatMap,
      Term.literalsIn_eq_flatMap, List.forall_mem_cons, List.forall_mem_flatMap] at holds names
    have values : ∀ member ∈ properties, checker.Confined kind stops member.2 :=
      fun member isMember =>
        (propertiesIH member isMember (holds member isMember) (names.2 member isMember)).1
    exact ⟨confined_object confinement names.1 values, trivial⟩
  | property span object name objectIH =>
    exact ⟨confined_property confinement (objectIH holds names).1, trivial⟩
  | declaration span name parameters declared body rest bodyIH restIH =>
    simp only [Term.annotations, Term.literals, List.forall_mem_append, List.forall_mem_map,
      List.forall_mem_singleton] at holds names
    have inner := bodyIH holds.1.2 names.1
    have tail := restIH holds.2 names.2
    exact ⟨confined_declaration confinement holds.1.1.1 holds.1.1.2 inner.1 tail.1, trivial⟩

end Checker

end Equirec
