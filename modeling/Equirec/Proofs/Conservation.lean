import Equirec.Proofs.Formation
import Equirec.Proofs.Gating
import Equirec.Proofs.Names
import Equirec.Proofs.Order

/-!
# Larger languages are conservative

A larger language of the family accepts what a smaller one accepts, with the same type. Two
differences between languages stand in the way. Subtyping replaces equality where arguments and
branches are compared; it relates all well-formed types that are equal, and finds the same branch of
a conditional. In a language with function declarations a constant is known in its own value, which
makes no difference as long as the value does not use the name.

The two checks of a term run in environments that need not be the same: they agree on the free names
of the term.
-/
namespace Equirec

/-! ## Steps that carry over -/

namespace Check

variable {α β γ δ : Type} {environment environment' : Environment} {related : α → β → Prop}
  {related' : γ → δ → Prop}

/-- Whether a step neither looks at the environment nor changes it. -/
def Uniform (step : Check α) : Prop :=
  ∃ result events, ∀ environment, step environment = ⟨result, environment, events⟩

namespace Uniform

/-- The step that only gives a value. -/
theorem pure (value : α) : Uniform (Pure.pure value) :=
  ⟨.ok value, [], fun _ => rfl⟩

/-- A fault. -/
theorem fail (cause : Cause) (offset : Offset) : (Check.fail cause offset : Check α).Uniform :=
  ⟨.error (.fault ⟨cause, offset⟩), [], fun _ => rfl⟩

/-- A comparison. -/
theorem compare (comparison : Comparison) (left right : Ty) :
    Uniform (Check.compare comparison left right) :=
  ⟨_, _, fun _ => rfl⟩

/-- One step and then another. -/
theorem bind {step : Check α} {next : α → Check β} (first : step.Uniform)
    (second : ∀ value, (next value).Uniform) : Uniform (step >>= next) := by
  obtain ⟨result, events, same⟩ := first
  cases result with
  | error stop =>
    refine ⟨.error stop, events, fun environment => ?_⟩
    rw [bind_of_error (by rw [same]), same]
  | ok value =>
    obtain ⟨result', events', same'⟩ := second value
    refine ⟨result', events ++ events', fun environment => ?_⟩
    rw [bind_of_ok (by rw [same]), same, same']

end Uniform

/-- Whether a second step gives a value whenever the first one does, each in its own environment,
with related values and the environments as they were. -/
def Carries (step : Check α) (step' : Check β) (environment environment' : Environment)
    (related : α → β → Prop) : Prop :=
  ∀ value, (step environment).result = .ok value → (step environment).environment = environment ∧
    ∃ value', (step' environment').result = .ok value' ∧
      (step' environment').environment = environment' ∧ related value value'

namespace Carries

/-- Related values. -/
theorem pure {value : α} {value' : β} (holds : related value value') :
    Carries (Pure.pure value) (Pure.pure value') environment environment' related := by
  intro value ended
  cases ended
  exact ⟨rfl, value', rfl, rfl, holds⟩

/-- A fault gives no value. -/
theorem fail {cause : Cause} {offset : Offset} {step' : Check β} :
    Carries (Check.fail cause offset) step' environment environment' related :=
  fun _ ended => nomatch ended

/-- A step that neither looks at the environment nor changes it. -/
theorem of_uniform {step : Check α} (uniform : step.Uniform) :
    Carries step step environment environment' Eq := by
  obtain ⟨result, events, same⟩ := uniform
  intro value ended
  rw [same] at ended
  refine ⟨by rw [same], value, by rw [same, ← ended], by rw [same], rfl⟩

/-- Values may be related in a weaker way. -/
theorem imp {step : Check α} {step' : Check β} {weaker : α → β → Prop}
    (carries : Carries step step' environment environment' related)
    (implies : ∀ value value', related value value' → weaker value value') :
    Carries step step' environment environment' weaker := by
  intro value ended
  obtain ⟨kept, value', ended', kept', holds⟩ := carries value ended
  exact ⟨kept, value', ended', kept', implies value value' holds⟩

/-- What the first step ensures holds of equal values. -/
theorem ensuring {step step' : Check α} {holds : α → Prop}
    (carries : Carries step step' environment environment' Eq)
    (ensures : step.Ensures environment fun value _ => holds value) :
    Carries step step' environment environment' fun value value' =>
      value = value' ∧ holds value := by
  intro value ended
  obtain ⟨kept, value', ended', kept', same⟩ := carries value ended
  exact ⟨kept, value', ended', kept', same, ensures value ended⟩

/-- Steps that carry over, followed by steps that carry over from related values. -/
theorem bind {step : Check α} {step' : Check β} {next : α → Check γ} {next' : β → Check δ}
    (first : Carries step step' environment environment' related)
    (second : ∀ value value', related value value' →
      Carries (next value) (next' value') environment environment' related') :
    Carries (step >>= next) (step' >>= next') environment environment' related' := by
  intro value ended
  cases result : (step environment).result with
  | error stop =>
    rw [bind_of_error result] at ended
    cases ended
  | ok middle =>
    obtain ⟨kept, middle', result', kept', holds⟩ := first middle result
    rw [bind_of_ok result, kept] at ended
    obtain ⟨keptNext, value', ended', keptNext', holds'⟩ := second middle middle' holds value ended
    rw [bind_of_ok result, bind_of_ok result', kept, kept']
    exact ⟨keptNext, value', ended', keptNext', holds'⟩

/-- Steps in copies of the environments. -/
theorem withBindings {members : List (String × Ty)} {step : Check α} {step' : Check β}
    (inner : Carries step step' (environment.declareAll members)
      (environment'.declareAll members) related) :
    Carries (Check.withBindings members step) (Check.withBindings members step')
      environment environment' related := by
  intro value ended
  obtain ⟨_, value', ended', _, holds⟩ := inner value ended
  exact ⟨rfl, value', ended', rfl, holds⟩

/-- The second step alone in a copy of its environment. -/
theorem withBindings_right (members : List (String × Ty)) {step : Check α} {step' : Check β}
    (inner : Carries step step' environment (environment'.declareAll members) related) :
    Carries step (Check.withBindings members step') environment environment' related := by
  intro value ended
  obtain ⟨kept, value', ended', _, holds⟩ := inner value ended
  exact ⟨kept, value', ended', rfl, holds⟩

/-- A name has the same type where environments agree on it. -/
theorem reference {name : String} (same : environment.lookup? name = environment'.lookup? name)
    (offset : Offset) :
    Carries (Check.reference name offset) (Check.reference name offset) environment environment'
      Eq := by
  intro type ended
  obtain ⟨_, found⟩ := Ensures.reference name offset type ended
  refine ⟨rfl, type, ?_, rfl, rfl⟩
  rw [same] at found
  simp only [Check.reference, Environment.typeAt, found]
  rfl

end Carries

end Check

/-! ## Steps of two checkers -/

namespace Checker

open Check (Carries Uniform)
open Environment (AgreeOn)

variable {small large : Checker} {kind : Ty → Prop} {named : List String → Prop}
  {stops : Stop Fault → Prop} {environment environment' : Environment}

/-- Whether a checker allows all that another one does: all its forms, all its types, and, among
types of a kind, all arguments and all branches, with the same type. -/
structure Widens (small large : Checker) (kind : Ty → Prop) : Prop where
  /-- The smaller one works on copies of environments. -/
  copies : small.options.copyEnvironments = true
  /-- The larger one works on copies of environments. -/
  copies' : large.options.copyEnvironments = true
  /-- Both check conditions, or none does. -/
  checks : large.options.checkConditions = small.options.checkConditions
  /-- The larger language has all forms of the smaller. -/
  forms : ∀ form, small.variant.supports form = true → large.variant.supports form = true
  /-- The larger language has recursive types if the smaller has. -/
  recursive : small.variant.hasRecursiveTypes = true → large.variant.hasRecursiveTypes = true
  /-- What fits in the smaller language fits in the larger. -/
  fits : ∀ {received expected : Ty} {environment environment' : Environment}, kind received →
    kind expected → Carries (small.fits received expected) (large.fits received expected)
      environment environment' fun answer answer' => answer = true → answer' = true
  /-- Branches that go together in the smaller language do in the larger, with the same type. -/
  join : ∀ {offset : Offset} {positive negative : Ty} {environment environment' : Environment},
    kind positive → kind negative → Carries (small.join offset positive negative)
      (large.join offset positive negative) environment environment' Eq

/-- The larger language has all types of the smaller. -/
theorem Widens.admits (widens : small.Widens large kind) {type : Ty}
    (admitted : small.Admits type) : large.Admits type :=
  ⟨fun recursive => widens.recursive (admitted.1 recursive),
    fun objects => widens.forms .object (admitted.2 objects)⟩

/-- A form of the smaller language passes in the larger. -/
theorem carries_admitForm (widens : small.Widens large kind) (term : Term) :
    Carries (small.admitForm term) (large.admitForm term) environment environment'
      fun _ _ => True := by
  by_cases supported : small.variant.supports term.form = true
  · rw [admitForm, admitForm, if_pos supported, if_pos (widens.forms _ supported)]
    exact .pure trivial
  · exact fun _ ended => absurd (ensures_admitForm term () ended) supported

/-- A type that the language has passes. -/
theorem admitType_of_admits {checker : Checker} {type : Ty} (admitted : checker.Admits type)
    (offset : Offset) : checker.admitType offset type = pure () := by
  obtain ⟨recursive, objects⟩ := admitted
  cases isRecursive : type.isRecursive <;> cases containsObject : type.containsObject <;>
    simp_all [admitType]

/-- A type of the smaller language passes in the larger. -/
theorem carries_admitType (widens : small.Widens large kind) (offset : Offset) (type : Ty) :
    Carries (small.admitType offset type) (large.admitType offset type) environment environment'
      fun _ _ => True := by
  by_cases admitted : small.Admits type
  · rw [admitType_of_admits admitted, admitType_of_admits (widens.admits admitted)]
    exact .pure trivial
  · exact fun _ ended =>
      absurd ((meets_admitType .anything offset type).ensures () ended).2 admitted

/-- Parameters of the smaller language pass in the larger. -/
theorem carries_admitParameters (widens : small.Widens large kind) (offset : Offset)
    (parameters : List (String × Ty)) :
    Carries (small.admitParameters offset parameters) (large.admitParameters offset parameters)
      environment environment' fun _ _ => True := by
  induction parameters with
  | nil => exact .pure trivial
  | cons parameter rest ih =>
    rw [admitParameters, admitParameters]
    exact (carries_admitType widens offset parameter.2).bind fun _ _ _ => ih

/-- A declared result of the smaller language, if there is one, passes in the larger. -/
theorem carries_admitDeclared (widens : small.Widens large kind) (offset : Offset)
    (declared : Option Ty) :
    Carries (declared.forM (small.admitType offset)) (declared.forM (large.admitType offset))
      environment environment' fun _ _ => True := by
  cases declared with
  | none => exact .pure trivial
  | some type => exact carries_admitType widens offset type

/-- Operands are judged without the environment. -/
theorem uniform_expectNumber (operand : Term) (type : Ty) :
    (expectNumber operand type).Uniform := by
  rw [expectNumber]
  split
  · exact .pure ()
  · exact .fail _ _

/-- Conditions are judged without the environment. -/
theorem uniform_expectCondition (checker : Checker) (condition : Term) (type : Ty) :
    (checker.expectCondition condition type).Uniform := by
  rw [expectCondition]
  split
  · exact .fail _ _
  · exact .pure ()

/-- Results are judged without the environment. -/
theorem uniform_expectResult (body : Term) (declared received : Ty) :
    (expectResult body declared received).Uniform := by
  refine (Uniform.compare _ _ _).bind fun answer => ?_
  split
  · exact .pure ()
  · exact .fail _ _

/-- Branches are judged without the environment. -/
theorem uniform_join (checker : Checker) (offset : Offset) (positive negative : Ty) :
    (checker.join offset positive negative).Uniform := by
  rw [join]
  split
  · refine (Uniform.compare _ _ _).bind fun answer => ?_
    split
    · exact .pure positive
    · refine (Uniform.compare _ _ _).bind fun answer => ?_
      split
      · exact .pure negative
      · exact .fail _ _
  · refine (Uniform.compare _ _ _).bind fun answer => ?_
    split
    · exact .pure positive
    · exact .fail _ _

/-! ## Terms -/

/-- Whether a term is accepted by the larger language with the same type when the smaller accepts
it. The types that are known are of the kind, and so is the type of the term. -/
def Conserves (small large : Checker) (kind : Ty → Prop) (term : Term) : Prop :=
  ∀ ⦃environment environment' : Environment⦄, environment.Within kind →
    AgreeOn (term.freeNames small.variant) environment environment' →
      Carries (small.typeOf term) (large.typeOf term) environment environment' fun type type' =>
        type = type' ∧ kind type

/-- The type of the term is of the kind because all that the smaller language makes is. -/
theorem Conserves.of_carries {term : Term}
    (typed : ∀ environment : Environment, environment.Within kind →
      (small.typeOf term).Ensures environment fun type _ => kind type)
    (carries : ∀ ⦃environment environment' : Environment⦄, environment.Within kind →
      AgreeOn (term.freeNames small.variant) environment environment' →
        Carries (small.typeOf term) (large.typeOf term) environment environment' Eq) :
    small.Conserves large kind term :=
  fun _ _ within agree => (carries within agree).ensuring (typed _ within)

/-- What is known of a term besides the parts that it consists of. -/
structure Settled (small large : Checker) (kind : Ty → Prop) (term : Term) : Prop where
  /-- Its own annotations are of the kind. -/
  annotated : ∀ type ∈ term.ownAnnotations, kind type
  /-- Its type is of the kind. -/
  typed : ∀ environment : Environment, environment.Within kind →
    (small.typeOf term).Ensures environment fun type _ => kind type
  /-- If only the larger language makes constants known in their own values, the term is no constant
  that is used there. -/
  named : small.variant.hasDeclarations = large.variant.hasDeclarations ∨
    term.namesItself small.variant = false

/-- Arguments that the smaller language accepts are accepted by the larger. -/
theorem carries_checkArguments (widens : small.Widens large kind) {arguments : List Term}
    (conserves : ∀ argument ∈ arguments, small.Conserves large kind argument)
    (within : environment.Within kind)
    (agree : AgreeOn (arguments.flatMap (Term.freeNames small.variant)) environment environment')
    {parameters : List (String × Ty)} (areKind : ∀ member ∈ parameters, kind member.2) :
    Carries (small.checkArguments arguments parameters) (large.checkArguments arguments parameters)
      environment environment' fun _ _ => True := by
  induction arguments generalizing parameters with
  | nil =>
    rw [checkArguments, checkArguments]
    · exact .pure trivial
    · simp
    · simp
  | cons argument arguments ih =>
    cases parameters with
    | nil =>
      rw [checkArguments, checkArguments]
      · exact .pure trivial
      · simp
      · simp
    | cons parameter parameters =>
      rw [List.forall_mem_cons] at conserves areKind
      rw [List.flatMap_cons, AgreeOn.append_iff] at agree
      rw [checkArguments, checkArguments]
      refine (conserves.1 within agree.1).bind ?_
      rintro received _ ⟨rfl, isKind⟩
      refine (widens.fits isKind areKind.1).bind fun answer answer' wider => ?_
      cases answer with
      | false => exact .fail
      | true =>
        rw [wider rfl]
        exact ih conserves.2 agree.2 areKind.2

/-- The properties of an object literal have the same types in the larger language. -/
theorem carries_typesOf {properties : List (String × Term)}
    (conserves : ∀ member ∈ properties, small.Conserves large kind member.2)
    (within : environment.Within kind)
    (agree : AgreeOn (properties.flatMap fun member => member.2.freeNames small.variant)
      environment environment') :
    Carries (small.typesOf properties) (large.typesOf properties) environment environment' Eq := by
  induction properties with
  | nil =>
    rw [typesOf, typesOf]
    exact .pure rfl
  | cons property properties ih =>
    rw [List.forall_mem_cons] at conserves
    rw [List.flatMap_cons, AgreeOn.append_iff] at agree
    rw [typesOf, typesOf]
    refine (conserves.1 within agree.1).bind ?_
    rintro type _ ⟨rfl, _⟩
    refine (ih conserves.2 agree.2).bind ?_
    rintro types _ rfl
    exact .pure rfl

/-- Sums, if their operands carry over. -/
theorem conserves_add (widens : small.Widens large kind) {span : Span} {left right : Term}
    (self : small.Settled large kind (.add span left right))
    (first : small.Conserves large kind left) (second : small.Conserves large kind right) :
    small.Conserves large kind (.add span left right) := by
  apply Conserves.of_carries self.typed
  intro environment environment' within agree
  rw [Term.freeNames, AgreeOn.append_iff] at agree
  rw [typeOf, typeOf]
  refine (carries_admitForm widens _).bind fun _ _ _ => ?_
  refine (first within agree.1).bind ?_
  rintro leftType _ ⟨rfl, _⟩
  refine (Carries.of_uniform (uniform_expectNumber left leftType)).bind fun _ _ _ => ?_
  refine (second within agree.2).bind ?_
  rintro rightType _ ⟨rfl, _⟩
  refine (Carries.of_uniform (uniform_expectNumber right rightType)).bind fun _ _ _ => ?_
  exact .pure rfl

/-- Conditionals, if their three parts carry over. -/
theorem conserves_conditional (widens : small.Widens large kind) {span : Span}
    {condition positive negative : Term}
    (self : small.Settled large kind (.conditional span condition positive negative))
    (test : small.Conserves large kind condition) (holds : small.Conserves large kind positive)
    (fails : small.Conserves large kind negative) :
    small.Conserves large kind (.conditional span condition positive negative) := by
  apply Conserves.of_carries self.typed
  intro environment environment' within agree
  rw [Term.freeNames, AgreeOn.append_iff, AgreeOn.append_iff] at agree
  rw [typeOf, typeOf]
  refine (carries_admitForm widens _).bind fun _ _ _ => ?_
  refine (test within agree.1.1).bind ?_
  rintro testType _ ⟨rfl, _⟩
  have judged : large.expectCondition condition testType =
      small.expectCondition condition testType := by
    rw [expectCondition, expectCondition, widens.checks]
  rw [judged]
  refine (Carries.of_uniform (small.uniform_expectCondition _ _)).bind fun _ _ _ => ?_
  refine (holds within agree.1.2).bind ?_
  rintro positiveType _ ⟨rfl, isPositive⟩
  refine (fails within agree.2).bind ?_
  rintro negativeType _ ⟨rfl, isNegative⟩
  exact widens.join isPositive isNegative

/-- Uses of a name. -/
theorem conserves_reference (widens : small.Widens large kind) {span : Span} {name : String}
    (self : small.Settled large kind (.reference span name)) :
    small.Conserves large kind (.reference span name) := by
  apply Conserves.of_carries self.typed
  intro environment environment' within agree
  rw [typeOf, typeOf]
  refine (carries_admitForm widens _).bind fun _ _ _ => ?_
  exact .reference (agree name (List.mem_singleton.2 rfl)) span.start

/-- Function literals, if their bodies carry over. -/
theorem conserves_function (widens : small.Widens large kind) {span : Span}
    {parameters : List (String × Ty)} {declared : Option Ty} {body : Term}
    (self : small.Settled large kind (.function span parameters declared body))
    (inner : small.Conserves large kind body) :
    small.Conserves large kind (.function span parameters declared body) := by
  apply Conserves.of_carries self.typed
  intro environment environment' within agree
  have annotated := self.annotated
  rw [Term.ownAnnotations, List.forall_mem_append, List.forall_mem_map] at annotated
  rw [typeOf, typeOf]
  refine (carries_admitForm widens _).bind fun _ _ _ => ?_
  refine (carries_admitParameters widens span.start parameters).bind fun _ _ _ => ?_
  refine (carries_admitDeclared widens span.start declared).bind fun _ _ _ => ?_
  simp only [widens.copies, widens.copies', if_true]
  have known := within.declareAll annotated.1
  refine (Carries.withBindings (inner known agree.function)).bind ?_
  rintro bodyType _ ⟨rfl, _⟩
  cases declared with
  | none => exact .pure rfl
  | some result =>
    refine (Carries.of_uniform (uniform_expectResult body result bodyType)).bind fun _ _ _ => ?_
    exact .pure rfl

/-- Calls, if the function and the arguments carry over. -/
theorem conserves_call (widens : small.Widens large kind)
    (confinement : Confinement kind named stops) {span : Span} {callee : Term}
    {arguments : List Term} (self : small.Settled large kind (.call span callee arguments))
    (function : small.Conserves large kind callee)
    (values : ∀ argument ∈ arguments, small.Conserves large kind argument) :
    small.Conserves large kind (.call span callee arguments) := by
  apply Conserves.of_carries self.typed
  intro environment environment' within agree
  rw [Term.freeNames, Term.freeNamesOf_eq_flatMap, AgreeOn.append_iff] at agree
  rw [typeOf, typeOf]
  refine (carries_admitForm widens _).bind fun _ _ _ => ?_
  refine (function within agree.1).bind ?_
  rintro calleeType _ ⟨rfl, isKind⟩
  have simplified := confinement.simplify isKind
  generalize calleeType.simplify = layer at simplified
  cases layer with
  | function parameters result =>
    have areKind : ∀ member ∈ parameters, kind member.2 :=
      fun _ isMember => confinement.part (.parameter isMember) simplified
    dsimp only
    split
    · refine (carries_checkArguments widens values within agree.2 areKind).bind fun _ _ _ => ?_
      exact .pure rfl
    · exact .fail
  | _ => exact .fail

/-- Sequences, if their two parts carry over. -/
theorem conserves_sequence (widens : small.Widens large kind) {span : Span} {first rest : Term}
    (self : small.Settled large kind (.sequence span first rest))
    (head : small.Conserves large kind first) (tail : small.Conserves large kind rest) :
    small.Conserves large kind (.sequence span first rest) := by
  apply Conserves.of_carries self.typed
  intro environment environment' within agree
  rw [Term.freeNames, AgreeOn.append_iff] at agree
  rw [typeOf, typeOf]
  refine (carries_admitForm widens _).bind fun _ _ _ => ?_
  refine (head within agree.1).bind fun _ _ _ => ?_
  exact (tail within agree.2).imp fun _ _ => And.left

/-- The rest of a program in which one more name is known carries over if the rest does. -/
theorem carries_rest {rest : Term} (tail : small.Conserves large kind rest)
    (within : environment.Within kind) {name : String} {type : Ty} (isKind : kind type)
    (agree : AgreeOn (rest.freeNames small.variant) (environment.declare name type)
      (environment'.declare name type)) :
    Carries (Check.withBindings [(name, type)] (small.typeOf rest))
      (Check.withBindings [(name, type)] (large.typeOf rest)) environment environment'
      fun type type' => type = type' ∧ kind type :=
  .withBindings (tail (within.declare name isKind) agree)

/-- A constant makes its name known in its own value exactly when it has a type there. -/
theorem knownInValue_eq (checker : Checker) (name : String) (value : Term) :
    Term.knownInValue checker.variant name value =
      if (checker.selfType? value).isSome then [name] else [] := by
  rw [Term.knownInValue]
  cases value with
  | function span parameters declared body =>
    cases declared with
    | none => simp [Term.declaring?, selfType?]
    | some result => cases declares : checker.variant.hasDeclarations <;>
        simp [Term.declaring?, selfType?, declares]
  | _ => simp [Term.declaring?, selfType?]

/-- The type under which a constant is known in its own value is of the kind. -/
theorem kind_of_selfType? (confinement : Confinement kind named stops) {checker : Checker}
    {value : Term} (annotated : ∀ type ∈ value.ownAnnotations, kind type) {type : Ty}
    (known : checker.selfType? value = some type) : kind type := by
  obtain ⟨span, parameters, declared, body, rfl, rfl⟩ := eq_of_selfType? known
  rw [Term.ownAnnotations, List.forall_mem_append, List.forall_mem_map] at annotated
  exact confinement.function annotated.1 (annotated.2 declared (List.mem_singleton.2 rfl))

/-- A constant is known in its own value by both languages, and with the same type, or by none, or
it is known by the larger language only and not used. -/
theorem selfType?_cases (widens : small.Widens large kind) {span : Span} {name : String}
    {value rest : Term} (self : small.Settled large kind (.constant span name value rest)) :
    large.selfType? value = small.selfType? value ∨
      small.selfType? value = none ∧ name ∉ value.freeNames small.variant := by
  cases value with
  | function span' parameters declared body =>
    cases declared with
    | none => exact .inl rfl
    | some result =>
      cases declares : small.variant.hasDeclarations with
      | true =>
        have declares' : large.variant.hasDeclarations = true := widens.forms .declaration declares
        exact .inl (by simp [selfType?, declares, declares'])
      | false =>
        have unknown : small.selfType? (.function span' parameters (some result) body) = none := by
          simp [selfType?, declares]
        rcases self.named with same | unnamed
        · exact .inl (by simp [selfType?, ← same])
        · exact .inr ⟨unknown, by simpa [Term.namesItself, Term.declaring?] using unnamed⟩
  | _ => exact .inl rfl

/-- Constants, if their values and the rests carry over. -/
theorem conserves_constant (widens : small.Widens large kind)
    (confinement : Confinement kind named stops) {span : Span} {name : String} {value rest : Term}
    (self : small.Settled large kind (.constant span name value rest))
    (annotated : ∀ type ∈ value.ownAnnotations, kind type)
    (inner : small.Conserves large kind value) (tail : small.Conserves large kind rest) :
    small.Conserves large kind (.constant span name value rest) := by
  apply Conserves.of_carries self.typed
  intro environment environment' within agree
  obtain ⟨agree, agreeRest⟩ := agree.constant
  rw [knownInValue_eq] at agree
  have finish : ∀ type type', type = type' ∧ kind type →
      Carries (Check.withBindings [(name, type)] (small.typeOf rest))
        (Check.withBindings [(name, type')] (large.typeOf rest)) environment environment' Eq := by
    rintro type _ ⟨rfl, isKind⟩
    exact (carries_rest tail within isKind (agreeRest type)).imp fun _ _ => And.left
  rw [typeOf, typeOf]
  refine (carries_admitForm widens _).bind fun _ _ _ => ?_
  dsimp only
  cases known : small.selfType? value with
  | some type =>
    have same : large.selfType? value = some type := by
      simpa [known] using selfType?_cases widens self
    have isKind := kind_of_selfType? confinement annotated known
    rw [known] at agree
    rw [same]
    exact (carries_rest inner within isKind (agree.declare name type)).bind finish
  | none =>
    have agree : AgreeOn (value.freeNames small.variant) environment environment' := by
      simpa [known, AgreeOn] using agree
    cases known' : large.selfType? value with
    | none => exact (inner within agree).bind finish
    | some type =>
      have isNew : name ∉ value.freeNames small.variant := by
        simpa [known, known'] using selfType?_cases widens self
      have carries := inner within (agree.declare_right isNew type)
      exact (Carries.withBindings_right [(name, type)] carries).bind finish

/-- Object literals, if their properties carry over. -/
theorem conserves_object (widens : small.Widens large kind) {span : Span}
    {properties : List (String × Term)} (self : small.Settled large kind (.object span properties))
    (values : ∀ member ∈ properties, small.Conserves large kind member.2) :
    small.Conserves large kind (.object span properties) := by
  apply Conserves.of_carries self.typed
  intro environment environment' within agree
  rw [Term.freeNames, Term.freeNamesIn_eq_flatMap] at agree
  rw [typeOf, typeOf]
  refine (carries_admitForm widens _).bind fun _ _ _ => ?_
  refine (carries_typesOf values within agree).bind ?_
  rintro types _ rfl
  exact .pure rfl

/-- Property accesses, if their objects carry over. -/
theorem conserves_property (widens : small.Widens large kind) {span : Span} {object : Term}
    {name : String} (self : small.Settled large kind (.property span object name))
    (whole : small.Conserves large kind object) :
    small.Conserves large kind (.property span object name) := by
  apply Conserves.of_carries self.typed
  intro environment environment' within agree
  rw [typeOf, typeOf]
  refine (carries_admitForm widens _).bind fun _ _ _ => ?_
  refine (whole within agree).bind ?_
  rintro objectType _ ⟨rfl, _⟩
  generalize objectType.simplify = layer
  cases layer with
  | object properties =>
    dsimp only
    cases properties.lookup name with
    | some type => exact .pure rfl
    | none => exact .fail
  | _ => exact .fail

/-- Function declarations, if their bodies and the rests carry over. -/
theorem conserves_declaration (widens : small.Widens large kind)
    (confinement : Confinement kind named stops) {span : Span} {name : String}
    {parameters : List (String × Ty)} {declared : Ty} {body rest : Term}
    (self : small.Settled large kind (.declaration span name parameters declared body rest))
    (inner : small.Conserves large kind body) (tail : small.Conserves large kind rest) :
    small.Conserves large kind (.declaration span name parameters declared body rest) := by
  apply Conserves.of_carries self.typed
  intro environment environment' within agree
  obtain ⟨agreeBody, agreeRest⟩ := agree.declaration (.function parameters declared)
  have annotated := self.annotated
  rw [Term.ownAnnotations, List.forall_mem_append, List.forall_mem_map,
    List.forall_mem_singleton] at annotated
  have isKind : kind (.function parameters declared) :=
    confinement.function annotated.1 annotated.2
  have bindings : ∀ member ∈ (name, .function parameters declared) :: parameters,
      kind member.2 := List.forall_mem_cons.2 ⟨isKind, annotated.1⟩
  rw [typeOf, typeOf]
  refine (carries_admitForm widens _).bind fun _ _ _ => ?_
  refine (carries_admitParameters widens span.start parameters).bind fun _ _ _ => ?_
  refine (carries_admitType widens span.start declared).bind fun _ _ _ => ?_
  refine (Carries.withBindings (inner (within.declareAll bindings) agreeBody)).bind ?_
  rintro bodyType _ ⟨rfl, _⟩
  refine (Carries.of_uniform (uniform_expectResult body declared bodyType)).bind fun _ _ _ => ?_
  exact (carries_rest tail within isKind agreeRest).imp fun _ _ => And.left

/-- A term carries over to the larger language if all its subterms are settled. -/
theorem conserves (widens : small.Widens large kind) (confinement : Confinement kind named stops)
    (term : Term) (settled : ∀ subterm ∈ term.subterms, small.Settled large kind subterm) :
    small.Conserves large kind term := by
  induction term using Term.induction_parts with
  | step term ih =>
    rw [Term.subterms_eq_cons, List.forall_mem_cons, List.forall_mem_flatMap] at settled
    obtain ⟨self, settled⟩ := settled
    have parts : ∀ part ∈ term.parts, small.Conserves large kind part :=
      fun part isPart => ih part isPart (settled part isPart)
    cases term with
    | boolean span value =>
      apply Conserves.of_carries self.typed
      intro environment environment' _ _
      rw [typeOf, typeOf]
      exact (carries_admitForm widens _).bind fun _ _ _ => .pure rfl
    | number span value =>
      apply Conserves.of_carries self.typed
      intro environment environment' _ _
      rw [typeOf, typeOf]
      exact (carries_admitForm widens _).bind fun _ _ _ => .pure rfl
    | add span left right =>
      rw [Term.parts, List.forall_mem_cons, List.forall_mem_singleton] at parts
      exact conserves_add widens self parts.1 parts.2
    | conditional span condition positive negative =>
      rw [Term.parts, List.forall_mem_cons, List.forall_mem_cons,
        List.forall_mem_singleton] at parts
      exact conserves_conditional widens self parts.1 parts.2.1 parts.2.2
    | reference span name => exact conserves_reference widens self
    | function span parameters declared body =>
      rw [Term.parts, List.forall_mem_singleton] at parts
      exact conserves_function widens self parts
    | call span callee arguments =>
      rw [Term.parts, List.forall_mem_cons] at parts
      exact conserves_call widens confinement self parts.1 parts.2
    | sequence span first rest =>
      rw [Term.parts, List.forall_mem_cons, List.forall_mem_singleton] at parts
      exact conserves_sequence widens self parts.1 parts.2
    | constant span name value rest =>
      rw [Term.parts, List.forall_mem_cons, List.forall_mem_singleton] at parts settled
      have inner := settled.1 value value.self_mem_subterms
      exact conserves_constant widens confinement self inner.annotated parts.1 parts.2
    | object span properties =>
      rw [Term.parts, List.forall_mem_map] at parts
      exact conserves_object widens self parts
    | property span object name =>
      rw [Term.parts, List.forall_mem_singleton] at parts
      exact conserves_property widens self parts
    | declaration span name parameters declared body rest =>
      rw [Term.parts, List.forall_mem_cons, List.forall_mem_singleton] at parts
      exact conserves_declaration widens confinement self parts.1 parts.2

/-- A term that carries over is accepted by the larger language in the same environment. -/
theorem Conserves.check {term : Term} (conserves : small.Conserves large kind term)
    (within : environment.Within kind) {type : Ty}
    (accepted : (small.check term environment).result = .ok type) :
    (large.check term environment).result = .ok type := by
  obtain ⟨_, type', accepted', _, rfl, _⟩ := conserves within (.refl _ _) type accepted
  exact accepted'

/-! ## The languages of the family -/

/-- Of two languages that compare types in the same way, the one with more forms and types allows
all that the other does. -/
theorem widens_of_usesSubtyping_eq {small large : Variant} (names : large ≠ .arithmetic)
    (objects : small.hasObjects = true → large.hasObjects = true)
    (declarations : small.hasDeclarations = true → large.hasDeclarations = true)
    (recursive : small.hasRecursiveTypes = true → large.hasRecursiveTypes = true)
    (same : large.usesSubtyping = small.usesSubtyping) :
    Widens ⟨small, {}⟩ ⟨large, {}⟩ fun _ => True where
  copies := rfl
  copies' := rfl
  checks := rfl
  forms := by
    intro form supported
    cases form with
    | object | property => exact objects supported
    | declaration => exact declarations supported
    | _ => simp [Variant.supports, names]
  recursive := recursive
  fits := by
    intro received expected environment environment' _ _
    rw [fits, fits, same]
    refine (Carries.of_uniform (.compare _ received expected)).imp ?_
    rintro answer _ rfl
    exact id
  join := by
    intro offset positive negative environment environment' _ _
    have joined : join ⟨large, {}⟩ offset positive negative =
        join ⟨small, {}⟩ offset positive negative := by
      rw [join, join, same]
    rw [joined]
    exact .of_uniform (uniform_join _ offset positive negative)

/-- A language with more forms and types that compares types in the same way accepts what another
one accepts, if constants are known in their own values by both or no constant names itself. -/
theorem check_of_usesSubtyping_eq {small large : Variant} {term : Term} {type : Ty}
    (accepted : (Checker.check ⟨small, {}⟩ term environment).result = .ok type)
    (names : large ≠ .arithmetic) (objects : small.hasObjects = true → large.hasObjects = true)
    (declarations : small.hasDeclarations = true → large.hasDeclarations = true)
    (recursive : small.hasRecursiveTypes = true → large.hasRecursiveTypes = true)
    (same : large.usesSubtyping = small.usesSubtyping)
    (named : small.hasDeclarations = large.hasDeclarations ∨
      ∀ subterm ∈ term.subterms, subterm.namesItself small = false) :
    (Checker.check ⟨large, {}⟩ term environment).result = .ok type := by
  have settled : ∀ subterm ∈ term.subterms,
      Settled ⟨small, {}⟩ ⟨large, {}⟩ (fun _ => True) subterm := by
    intro subterm isSubterm
    refine ⟨fun _ _ => trivial, fun _ _ => .trivial _, ?_⟩
    exact named.imp_right fun unnamed => unnamed subterm isSubterm
  have widens := widens_of_usesSubtyping_eq names objects declarations recursive same
  have conserved := conserves widens .anything term settled
  exact conserved.check (fun _ _ _ => trivial) accepted

/-- The yes of one comparison is the yes of another that relates more and comes to an answer. -/
theorem carries_compare {comparison comparison' : Comparison} {left right left' right' : Ty}
    (ends : (comparison'.judge left' right').verdict ≠ .endless)
    (wider : comparison.relates left right = true → comparison'.relates left' right' = true) :
    Carries (Check.compare comparison left right) (Check.compare comparison' left' right')
      environment environment' fun answer answer' => answer = true → answer' = true := by
  intro answer ended
  refine ⟨rfl, _, Check.compare_result ends environment', rfl, ?_⟩
  intro yes
  exact wider ((Check.Ensures.compare comparison left right answer ended).2 yes)

/-- Subtyping allows all that equality does among well-formed types. -/
theorem widens_subtyping : Widens ⟨.recursive, {}⟩ ⟨.subtyping, {}⟩ Ty.WellFormed where
  copies := rfl
  copies' := rfl
  checks := rfl
  forms _ := id
  recursive := id
  fits := by
    intro received expected environment environment' wellFormed wellFormed'
    have ends := Comparison.judge_ends Comparison.subtyping_reads.asksParts wellFormed.closed
      wellFormed'.closed wellFormed.distinct wellFormed'.distinct
    exact carries_compare ends.1 fun equal =>
      (Ty.isSubtypeOf_of_equals wellFormed wellFormed' equal).1
  join := by
    intro offset positive negative environment environment' wellFormed wellFormed'
    have ends := Comparison.judge_ends Comparison.subtyping_reads.asksParts wellFormed'.closed
      wellFormed.closed wellFormed'.distinct wellFormed.distinct
    -- The larger language asks first whether the second branch fits the first, as equal ones do.
    refine (carries_compare ends.1 fun equal =>
      (Ty.isSubtypeOf_of_equals wellFormed wellFormed' equal).2).bind fun answer answer' wider => ?_
    cases answer with
    | false => exact .fail
    | true =>
      rw [wider rfl]
      exact .pure rfl

/-- All subterms of a well-formed term are settled among well-formed types. -/
theorem settled_of_isWellFormed {term : Term} (wellFormed : term.isWellFormed = true)
    (same : small.variant.hasDeclarations = large.variant.hasDeclarations) :
    ∀ subterm ∈ term.subterms, small.Settled large Ty.WellFormed subterm := by
  intro subterm isSubterm
  have wellFormed : subterm.isWellFormed = true :=
    Term.forall_subterms (fun isPart wellFormed =>
      ((Term.isWellFormed_iff_parts _).1 wellFormed).2.2 _ isPart) wellFormed subterm isSubterm
  refine ⟨((Term.isWellFormed_iff_parts subterm).1 wellFormed).1, ?_, .inl same⟩
  intro environment within
  exact (small.confined_wellFormed wellFormed environment within).ensures.imp fun _ _ => And.left

end Checker

/-- The steps from one language of the family to a larger one, with what they ask of a program and
of the types that are known. -/
inductive Variant.Grows (term : Term) (environment : Environment) : Variant → Variant → Prop where
  /-- Names and functions are added. -/
  | names : Grows term environment .arithmetic .basic
  /-- Objects are added. -/
  | objects : Grows term environment .basic .objects
  /-- Objects and recursive types are added. -/
  | recursion : Grows term environment .functions .recursive
  /-- Subtyping takes the place of equality. All types are well-formed, and no object literal
  repeats a property name. -/
  | subtyping (wellFormed : term.isWellFormed = true) (formed : environment.WellFormed) :
    Grows term environment .recursive .subtyping
  /-- Function declarations are added. No constant names itself. -/
  | declarations (unnamed : ∀ subterm ∈ term.subterms, subterm.namesItself .basic = false) :
    Grows term environment .basic .functions
  /-- Function declarations and recursive types are added. No constant names itself. -/
  | recursiveDeclarations
    (unnamed : ∀ subterm ∈ term.subterms, subterm.namesItself .objects = false) :
    Grows term environment .objects .recursive

namespace Checker

/-- By default, a larger language of the family accepts the terms that a smaller one accepts, with
the same types. -/
theorem check_conservative {small large : Variant} {term : Term} {environment : Environment}
    (grows : Variant.Grows term environment small large) {type : Ty}
    (accepted : (Checker.check ⟨small, {}⟩ term environment).result = .ok type) :
    (Checker.check ⟨large, {}⟩ term environment).result = .ok type := by
  cases grows with
  | names =>
    exact check_of_usesSubtyping_eq accepted (by decide) id id id rfl (.inl rfl)
  | objects =>
    exact check_of_usesSubtyping_eq accepted (by decide) (by decide) id id rfl (.inl rfl)
  | recursion =>
    exact check_of_usesSubtyping_eq accepted (by decide) (by decide) id (by decide) rfl (.inl rfl)
  | subtyping wellFormed formed =>
    have conserved := conserves widens_subtyping Ty.WellFormed.confinement term
      (settled_of_isWellFormed wellFormed rfl)
    exact conserved.check formed accepted
  | declarations unnamed =>
    exact check_of_usesSubtyping_eq accepted (by decide) id (by decide) id rfl (.inr unnamed)
  | recursiveDeclarations unnamed =>
    exact check_of_usesSubtyping_eq accepted (by decide) id (by decide) (by decide) rfl
      (.inr unnamed)

/-- A choice between two spellings of an endless stream has the same type with and without
subtyping, and a constant that shadows a known number has the same type with and without function
declarations. -/
theorem check_conservative_choice :
    let place : Span := ⟨0, 0⟩
    let stream := Ty.mu "S" (.object [("head", .number), ("tail", .function [] (.var "S"))])
    let turned := Ty.object [("tail", .function [] stream), ("head", .number)]
    let parameters := [("b", .boolean), ("s", stream), ("t", turned)]
    let choice : Term := .function place parameters none
      (.conditional place (.reference place "b") (.reference place "s") (.reference place "t"))
    let known := Environment.declare {} "f" .number
    let same : Term := .function place [("x", .number)] (some .number) (.reference place "x")
    let shadowing : Term := .constant place "f" same (.reference place "f")
    let function := Ty.function [("x", .number)] .number
    (Checker.check ⟨.recursive, {}⟩ choice {}).result = .ok (.function parameters stream) ∧
      (Checker.check ⟨.subtyping, {}⟩ choice {}).result = .ok (.function parameters stream) ∧
      (Checker.check ⟨.basic, {}⟩ shadowing known).result = .ok function ∧
      (Checker.check ⟨.functions, {}⟩ shadowing known).result = .ok function := by
  intro place stream turned parameters choice known same shadowing function
  have chosen : (Checker.check ⟨.recursive, {}⟩ choice {}).result =
      .ok (.function parameters stream) := by cbv
  have shadowed : (Checker.check ⟨.basic, {}⟩ shadowing known).result = .ok function := by cbv
  have wellFormed : choice.isWellFormed = true := by decide
  have unnamed : ∀ subterm ∈ shadowing.subterms, subterm.namesItself .basic = false := by decide
  exact ⟨chosen, check_conservative (.subtyping wellFormed Environment.wellFormed_empty) chosen,
    shadowed, check_conservative (.declarations unnamed) shadowed⟩

/-- A constant that names itself is the number that was known before in the basic language, and the
function with function declarations, so only one of the two accepts it. -/
example :
    let place : Span := ⟨0, 0⟩
    let known := Environment.declare {} "f" .number
    let value : Term := .function place [] (some .number) (.reference place "f")
    let term : Term := .constant place "f" value (.reference place "f")
    (Checker.check ⟨.basic, {}⟩ term known).result = .ok (.function [] .number) ∧
      (Checker.check ⟨.functions, {}⟩ term known).result =
        .error (.fault ⟨.returnTypeMismatch .number (.function [] .number), 0⟩) := by
  constructor <;> cbv

end Checker

end Equirec
