import Equirec.Proofs.Steps
import Equirec.Proofs.Strain

/-!
# Checks that agree

Two steps of a check, each in its own environment, agree when they end alike: both with related
values, or both with reasons to stop that are alike. Agreement is passed along from step to step
like the conditions that steps ensure.

A check looks at the first layers of types, compares types and makes new ones. A relation that all
this respects is a congruence (`Congruence`), and for every congruence there is one rule for each
form of terms: checks of two terms agree when the checks of their parts do. What the two terms have
to do with each other is left to those who use the rules.
-/
namespace Equirec

/-! ## Steps -/

/-- Reasons to stop that are alike: faults of one kind at one place or, where comparisons may be
endless, a comparison without end for both. -/
inductive Stop.Alike (endless : Prop) : Stop Fault → Stop Fault → Prop where
  /-- Faults of one kind at one place. -/
  | fault {fault fault' : Fault} (kind : fault.cause.name = fault'.cause.name)
    (place : fault.offset = fault'.offset) : Alike endless (.fault fault) (.fault fault')
  /-- Comparisons without end. -/
  | exhausted (allowed : endless) : Alike endless .exhausted .exhausted

/-- Where comparisons may be endless, every reason to stop is alike to itself. -/
theorem Stop.Alike.refl {endless : Prop} (allowed : endless) (stop : Stop Fault) :
    Stop.Alike endless stop stop := by
  cases stop with
  | fault => exact .fault rfl rfl
  | exhausted => exact .exhausted allowed

namespace Check

/-- Whether two steps, each in its own environment, end alike: with related values and the
environments as they were, or with reasons to stop that are alike. -/
inductive Agree {α β : Type} (alike : Stop Fault → Stop Fault → Prop) (step : Check α)
    (step' : Check β) (environment environment' : Environment) (related : α → β → Prop) :
    Prop where
  /-- Both give a value. -/
  | values {value : α} {value' : β} (ended : (step environment).result = .ok value)
    (ended' : (step' environment').result = .ok value')
    (kept : (step environment).environment = environment)
    (kept' : (step' environment').environment = environment') (holds : related value value') :
    Agree alike step step' environment environment' related
  /-- Both stop. -/
  | stops {stop stop' : Stop Fault} (stopped : (step environment).result = .error stop)
    (stopped' : (step' environment').result = .error stop') (same : alike stop stop') :
    Agree alike step step' environment environment' related

namespace Agree

variable {alike : Stop Fault → Stop Fault → Prop} {α β γ δ : Type}
  {environment environment' : Environment} {related : α → β → Prop} {related' : γ → δ → Prop}

/-- Related values agree. -/
theorem pure {value : α} {value' : β} (holds : related value value') :
    Agree alike (Pure.pure value) (Pure.pure value') environment environment' related :=
  .values rfl rfl rfl rfl holds

/-- Faults that are alike agree. -/
theorem fail {cause cause' : Cause} {offset offset' : Offset}
    (same : alike (.fault ⟨cause, offset⟩) (.fault ⟨cause', offset'⟩)) :
    Agree alike (Check.fail cause offset) (Check.fail cause' offset') environment environment'
      related :=
  .stops rfl rfl same

/-- Steps that agree, followed by steps that agree on related values. -/
theorem bind {step : Check α} {step' : Check β} {next : α → Check γ} {next' : β → Check δ}
    (first : Agree alike step step' environment environment' related)
    (second : ∀ value value', related value value' →
      Agree alike (next value) (next' value') environment environment' related') :
    Agree alike (step >>= next) (step' >>= next') environment environment' related' := by
  cases first with
  | stops stopped stopped' same =>
    refine .stops ?_ ?_ same
    · rw [bind_of_error stopped]
    · rw [bind_of_error stopped']
  | values ended ended' kept kept' holds =>
    cases second _ _ holds with
    | values endedNext endedNext' keptNext keptNext' holdsNext =>
      refine .values ?_ ?_ ?_ ?_ holdsNext
      · rw [bind_of_ok ended, kept]
        exact endedNext
      · rw [bind_of_ok ended', kept']
        exact endedNext'
      · rw [bind_of_ok ended, kept]
        exact keptNext
      · rw [bind_of_ok ended', kept']
        exact keptNext'
    | stops stopped stopped' same =>
      refine .stops ?_ ?_ same
      · rw [bind_of_ok ended, kept]
        exact stopped
      · rw [bind_of_ok ended', kept']
        exact stopped'

/-- Steps in copies of the environments agree where the steps in the copies do. -/
theorem withBindings {members members' : List (String × Ty)} {step : Check α} {step' : Check β}
    (inner : Agree alike step step' (environment.declareAll members)
      (environment'.declareAll members') related) :
    Agree alike (Check.withBindings members step) (Check.withBindings members' step')
      environment environment' related := by
  cases inner with
  | values ended ended' _ _ holds => exact .values ended ended' rfl rfl holds
  | stops stopped stopped' same => exact .stops stopped stopped' same

end Agree

end Check

open Check (Agree)

/-! ## Congruences -/

namespace Ty

/-- First layers of the same form with related parts. -/
inductive SameHead (related : Ty → Ty → Prop) : Ty → Ty → Prop where
  /-- Numbers. -/
  | number : SameHead related .number .number
  /-- Booleans. -/
  | boolean : SameHead related .boolean .boolean
  /-- Functions with as many parameters, related one by one, and related results. -/
  | function {parameters parameters' : List (String × Ty)} {result result' : Ty}
    (places : List.Forall₂ (fun member member' => related member.2 member'.2)
      parameters parameters') (results : related result result') :
    SameHead related (.function parameters result) (.function parameters' result')
  /-- Objects in which related properties, or none, are found under each name. -/
  | object {properties properties' : List (String × Ty)}
    (values : ∀ name, Option.Rel related (properties.lookup name) (properties'.lookup name)) :
    SameHead related (.object properties) (.object properties')
  /-- Names of recursive types. -/
  | var {name name' : String} : SameHead related (.var name) (.var name')
  /-- Recursive types. -/
  | mu {name name' : String} {body body' : Ty} : SameHead related (.mu name body) (.mu name' body')

namespace SameHead

variable {related : Ty → Ty → Prop} {left right : Ty}

/-- Of first layers of the same form, both are numbers or neither is. -/
theorem number_iff (same : SameHead related left right) : left = .number ↔ right = .number := by
  cases same <;> simp

/-- Of first layers of the same form, both are booleans or neither is. -/
theorem boolean_iff (same : SameHead related left right) :
    left = .boolean ↔ right = .boolean := by
  cases same <;> simp

end SameHead

end Ty

/-- A relation on types that a check respects, if the object literals that it sees have property
names of a certain sort, together with what it is for reasons to stop to be alike. -/
structure Congruence (related : Ty → Ty → Prop) (named : List String → Prop)
    (alike : Stop Fault → Stop Fault → Prop) : Prop where
  /-- The type of numbers. -/
  number : related .number .number
  /-- The type of booleans. -/
  boolean : related .boolean .boolean
  /-- Functions with related parameters and results. -/
  function : ∀ {parameters parameters' : List (String × Ty)} {result result' : Ty},
    List.Forall₂ (fun member member' => related member.2 member'.2) parameters parameters' →
      related result result' → related (.function parameters result) (.function parameters' result')
  /-- Objects with the same names and related properties. -/
  object : ∀ {properties properties' : List (String × Ty)}, named (properties.map Prod.fst) →
    List.Forall₂ (fun member member' => member.1 = member'.1 ∧ related member.2 member'.2)
      properties properties' → related (.object properties) (.object properties')
  /-- First layers of related types. -/
  layer : ∀ {left right : Ty}, related left right →
    Ty.SameHead related left.simplify right.simplify
  /-- Comparisons of related types. -/
  compare : ∀ {comparison : Comparison} {left left' right right' : Ty}
    {environment environment' : Environment}, comparison.IsChecked → related left left' →
      related right right' →
        Agree alike (Check.compare comparison left right) (Check.compare comparison left' right')
          environment environment' Eq
  /-- Faults of one kind at one place. -/
  fault : ∀ {fault fault' : Fault}, fault.cause.name = fault'.cause.name →
    fault.offset = fault'.offset → alike (.fault fault) (.fault fault')

namespace Congruence

variable {related : Ty → Ty → Prop} {named : List String → Prop}
  {alike : Stop Fault → Stop Fault → Prop} {environment environment' : Environment} {α β : Type}
  {holds : α → β → Prop}

/-- Faults of one kind at one place agree. -/
theorem fail (congruence : Congruence related named alike) {cause cause' : Cause}
    {offset offset' : Offset} (kind : cause.name = cause'.name) (place : offset = offset') :
    Agree alike (Check.fail cause offset) (Check.fail cause' offset') environment environment'
      holds :=
  .fail (congruence.fault kind place)

/-- Names under which related types, or none, are found agree. -/
theorem reference (congruence : Congruence related named alike) {name name' : String}
    (types : Option.Rel related (environment.lookup? name) (environment'.lookup? name'))
    (offset : Offset) :
    Agree alike (Check.reference name offset) (Check.reference name' offset) environment
      environment' related := by
  generalize found : environment.lookup? name = here, found' : environment'.lookup? name' = there
    at types
  cases types with
  | none =>
    exact .stops (Check.reference_of_none found offset) (Check.reference_of_none found' offset)
      (congruence.fault rfl rfl)
  | some types =>
    exact .values (Check.reference_of_some found offset) (Check.reference_of_some found' offset)
      rfl rfl types

end Congruence

/-! ## Steps of the checker -/

namespace Checker

variable {checker : Checker} {related : Ty → Ty → Prop} {named : List String → Prop}
  {alike : Stop Fault → Stop Fault → Prop} {environment environment' : Environment}

/-- A construct that the language does not have is refused everywhere. -/
theorem agree_reject (congruence : Congruence related named alike) {α β : Type}
    {holds : α → β → Prop} (construct : String) (offset : Offset) :
    Agree alike (checker.reject construct offset) (checker.reject construct offset) environment
      environment' holds :=
  .stops rfl rfl (congruence.fault rfl rfl)

/-- Terms of one form in one place are both of a form that the language has, or neither is. -/
theorem agree_admitForm (congruence : Congruence related named alike) {term term' : Term}
    (form : term.form = term'.form) (place : term.start = term'.start) :
    Agree alike (checker.admitForm term) (checker.admitForm term') environment environment'
      fun _ _ => True := by
  rw [admitForm, admitForm, form, place]
  split
  · exact .pure trivial
  · exact agree_reject congruence _ _

/-- Related annotations that the language has, or lacks in the same way. -/
structure Annotates (checker : Checker) (related : Ty → Ty → Prop) (type type' : Ty) : Prop where
  /-- The types are related. -/
  types : related type type'
  /-- The types are admitted, or refused for the same reason. -/
  admitted : ∀ offset, checker.admitType offset type = checker.admitType offset type'

/-- Annotations are both admitted, or neither is. -/
theorem agree_admitType (congruence : Congruence related named alike) (offset : Offset)
    {type type' : Ty} (annotates : checker.Annotates related type type') :
    Agree alike (checker.admitType offset type) (checker.admitType offset type') environment
      environment' fun _ _ => True := by
  rw [annotates.admitted, admitType]
  split
  · exact agree_reject congruence _ _
  · split
    · exact agree_reject congruence _ _
    · exact .pure trivial

/-- Annotated parameters are all admitted, or are not. -/
theorem agree_admitParameters (congruence : Congruence related named alike) (offset : Offset)
    {parameters parameters' : List (String × Ty)}
    (places : List.Forall₂ (fun member member' => checker.Annotates related member.2 member'.2)
      parameters parameters') :
    Agree alike (checker.admitParameters offset parameters)
      (checker.admitParameters offset parameters') environment environment' fun _ _ => True := by
  induction places with
  | nil => exact .pure trivial
  | cons head _ ih =>
    rw [admitParameters, admitParameters]
    exact (agree_admitType congruence offset head).bind fun _ _ _ => ih

/-- Declared results, if there are any, are both admitted, or neither is. -/
theorem agree_admitDeclared (congruence : Congruence related named alike) (offset : Offset)
    {declared declared' : Option Ty}
    (results : Option.Rel (checker.Annotates related) declared declared') :
    Agree alike (declared.forM (checker.admitType offset))
      (declared'.forM (checker.admitType offset)) environment environment' fun _ _ => True := by
  cases results with
  | none => exact .pure trivial
  | some annotates => exact agree_admitType congruence offset annotates

/-- Related types are both that of numbers, or neither is. -/
theorem agree_expectNumber (congruence : Congruence related named alike)
    {operand operand' : Term} (place : operand.start = operand'.start) {type type' : Ty}
    (types : related type type') :
    Agree alike (expectNumber operand type) (expectNumber operand' type') environment environment'
      fun _ _ => True := by
  simp only [expectNumber, (congruence.layer types).number_iff]
  split
  · exact .pure trivial
  · exact congruence.fail rfl place

/-- Related types are both that of booleans, or neither is. -/
theorem agree_expectCondition (congruence : Congruence related named alike)
    {condition condition' : Term} (place : condition.start = condition'.start) {type type' : Ty}
    (types : related type type') :
    Agree alike (checker.expectCondition condition type)
      (checker.expectCondition condition' type') environment environment' fun _ _ => True := by
  simp only [expectCondition, ne_eq, (congruence.layer types).boolean_iff]
  split
  · exact congruence.fail rfl place
  · exact .pure trivial

/-- Bodies of related types both have related declared types, or neither has. -/
theorem agree_expectResult (congruence : Congruence related named alike) {body body' : Term}
    (place : body.start = body'.start) {declared declared' received received' : Ty}
    (results : related declared declared') (types : related received received') :
    Agree alike (expectResult body declared received) (expectResult body' declared' received')
      environment environment' fun _ _ => True := by
  rw [expectResult, expectResult]
  refine (congruence.compare (.inl rfl) types results).bind ?_
  rintro answer _ rfl
  split
  · exact .pure trivial
  · exact congruence.fail rfl place

/-- Related types both fit related types, or neither does. -/
theorem agree_fits (congruence : Congruence related named alike)
    {received received' expected expected' : Ty} (types : related received received')
    (wanted : related expected expected') :
    Agree alike (checker.fits received expected) (checker.fits received' expected')
      environment environment' Eq := by
  rw [fits, fits]
  split
  · exact congruence.compare (.inr rfl) types wanted
  · exact congruence.compare (.inl rfl) types wanted

/-- Related branches have related joins, or none. -/
theorem agree_join (congruence : Congruence related named alike) (offset : Offset)
    {positive positive' negative negative' : Ty} (holds : related positive positive')
    (fails : related negative negative') :
    Agree alike (checker.join offset positive negative) (checker.join offset positive' negative')
      environment environment' related := by
  rw [join, join]
  split
  · refine (congruence.compare (.inr rfl) fails holds).bind ?_
    rintro answer _ rfl
    split
    · exact .pure holds
    · refine (congruence.compare (.inr rfl) holds fails).bind ?_
      rintro answer _ rfl
      split
      · exact .pure fails
      · exact congruence.fail rfl rfl
  · refine (congruence.compare (.inl rfl) holds fails).bind ?_
    rintro answer _ rfl
    split
    · exact .pure holds
    · exact congruence.fail rfl rfl

/-! ## Terms -/

/-- Whether the checks of two terms that start in the same place agree. -/
structure Agrees (checker : Checker) (related : Ty → Ty → Prop)
    (alike : Stop Fault → Stop Fault → Prop) (environment environment' : Environment)
    (term term' : Term) : Prop where
  /-- The terms start in the same place. -/
  place : term.start = term'.start
  /-- The checks agree, with related types. -/
  types : Agree alike (checker.typeOf term) (checker.typeOf term') environment environment' related

/-- Parts in which one more name is known agree, if they do where it is declared. -/
theorem Agrees.withBinding {name name' : String} {type type' : Ty} {part part' : Term}
    (agrees : checker.Agrees related alike (environment.declare name type)
      (environment'.declare name' type') part part') :
    Agree alike (Check.withBindings [(name, type)] (checker.typeOf part))
      (Check.withBindings [(name', type')] (checker.typeOf part')) environment environment'
      related :=
  .withBindings agrees.types

/-- Arguments agree, if each of them does. -/
theorem agree_checkArguments (congruence : Congruence related named alike)
    {arguments arguments' : List Term}
    (agrees : List.Forall₂ (checker.Agrees related alike environment environment') arguments
      arguments') {parameters parameters' : List (String × Ty)}
    (places : List.Forall₂ (fun member member' => related member.2 member'.2)
      parameters parameters') :
    Agree alike (checker.checkArguments arguments parameters)
      (checker.checkArguments arguments' parameters') environment environment'
      fun _ _ => True := by
  induction agrees generalizing parameters parameters' with
  | nil =>
    rw [checkArguments, checkArguments]
    · exact .pure trivial
    · simp
    · simp
  | cons head _ ih =>
    cases places with
    | nil =>
      rw [checkArguments, checkArguments]
      · exact .pure trivial
      · simp
      · simp
    | cons wanted rest =>
      rw [checkArguments, checkArguments]
      refine head.types.bind fun received received' types => ?_
      refine (agree_fits congruence types wanted).bind ?_
      rintro answer _ rfl
      split
      · exact ih rest
      · exact congruence.fail rfl head.place

/-- The properties of object literals agree, if each of them does. -/
theorem agree_typesOf {properties properties' : List (String × Term)}
    (names : properties.map Prod.fst = properties'.map Prod.fst)
    (agrees : List.Forall₂ (checker.Agrees related alike environment environment')
      (properties.map Prod.snd) (properties'.map Prod.snd)) :
    Agree alike (checker.typesOf properties) (checker.typesOf properties') environment
      environment' fun types types' => types.map Prod.fst = properties.map Prod.fst ∧
        List.Forall₂ (fun member member' => member.1 = member'.1 ∧ related member.2 member'.2)
          types types' := by
  induction properties generalizing properties' with
  | nil =>
    obtain rfl : properties' = [] := List.map_eq_nil_iff.1 names.symm
    rw [typesOf]
    exact .pure ⟨rfl, .nil⟩
  | cons member properties ih =>
    obtain ⟨member', rest, rfl, name, names⟩ := List.map_eq_cons_iff.1 names.symm
    rw [List.map_cons, List.map_cons, List.forall₂_cons] at agrees
    rw [typesOf, typesOf]
    refine agrees.1.types.bind fun type type' types => ?_
    refine (ih names.symm agrees.2).bind ?_
    rintro members members' ⟨sameNames, rest⟩
    refine .pure ⟨?_, .cons ⟨name.symm, types⟩ rest⟩
    rw [List.map_cons, List.map_cons, sameNames]

/-- Boolean literals agree. -/
theorem agrees_boolean (congruence : Congruence related named alike) {span : Span}
    {value value' : Bool} :
    checker.Agrees related alike environment environment' (.boolean span value)
      (.boolean span value') := by
  refine ⟨rfl, ?_⟩
  rw [typeOf, typeOf.eq_def checker (.boolean span value')]
  exact (agree_admitForm congruence rfl rfl).bind fun _ _ _ => .pure congruence.boolean

/-- Number literals agree. -/
theorem agrees_number (congruence : Congruence related named alike) {span : Span}
    {value value' : Double} :
    checker.Agrees related alike environment environment' (.number span value)
      (.number span value') := by
  refine ⟨rfl, ?_⟩
  rw [typeOf, typeOf.eq_def checker (.number span value')]
  exact (agree_admitForm congruence rfl rfl).bind fun _ _ _ => .pure congruence.number

/-- Sums agree, if their operands do. -/
theorem agrees_add (congruence : Congruence related named alike) {span : Span}
    {left left' right right' : Term}
    (first : checker.Agrees related alike environment environment' left left')
    (second : checker.Agrees related alike environment environment' right right') :
    checker.Agrees related alike environment environment' (.add span left right)
      (.add span left' right') := by
  refine ⟨rfl, ?_⟩
  rw [typeOf, typeOf.eq_def checker (.add span left' right')]
  refine (agree_admitForm congruence rfl rfl).bind fun _ _ _ => ?_
  refine first.types.bind fun _ _ leftTypes => ?_
  refine (agree_expectNumber congruence first.place leftTypes).bind fun _ _ _ => ?_
  refine second.types.bind fun _ _ rightTypes => ?_
  refine (agree_expectNumber congruence second.place rightTypes).bind fun _ _ _ => ?_
  exact .pure congruence.number

/-- Conditionals agree, if their three parts do. -/
theorem agrees_conditional (congruence : Congruence related named alike) {span : Span}
    {condition condition' positive positive' negative negative' : Term}
    (test : checker.Agrees related alike environment environment' condition condition')
    (holds : checker.Agrees related alike environment environment' positive positive')
    (fails : checker.Agrees related alike environment environment' negative negative') :
    checker.Agrees related alike environment environment'
      (.conditional span condition positive negative)
      (.conditional span condition' positive' negative') := by
  refine ⟨rfl, ?_⟩
  rw [typeOf, typeOf.eq_def checker (.conditional span condition' positive' negative')]
  refine (agree_admitForm congruence rfl rfl).bind fun _ _ _ => ?_
  refine test.types.bind fun _ _ testTypes => ?_
  refine (agree_expectCondition congruence test.place testTypes).bind fun _ _ _ => ?_
  refine holds.types.bind fun _ _ positiveTypes => ?_
  refine fails.types.bind fun _ _ negativeTypes => ?_
  exact agree_join congruence span.start positiveTypes negativeTypes

/-- References agree, if related types or none are found under the names. -/
theorem agrees_reference (congruence : Congruence related named alike) {span : Span}
    {name name' : String}
    (types : Option.Rel related (environment.lookup? name) (environment'.lookup? name')) :
    checker.Agrees related alike environment environment' (.reference span name)
      (.reference span name') := by
  refine ⟨rfl, ?_⟩
  rw [typeOf, typeOf.eq_def checker (.reference span name')]
  refine (agree_admitForm congruence rfl rfl).bind fun _ _ _ => ?_
  exact congruence.reference types span.start

/-- Function literals agree, if environments are copied and the bodies agree. -/
theorem agrees_function (congruence : Congruence related named alike)
    (copies : checker.options.copyEnvironments = true) {span : Span}
    {parameters parameters' : List (String × Ty)} {declared declared' : Option Ty}
    {body body' : Term}
    (places : List.Forall₂ (fun member member' => checker.Annotates related member.2 member'.2)
      parameters parameters')
    (results : Option.Rel (checker.Annotates related) declared declared')
    (inner : checker.Agrees related alike (environment.declareAll parameters)
      (environment'.declareAll parameters') body body') :
    checker.Agrees related alike environment environment'
      (.function span parameters declared body) (.function span parameters' declared' body') := by
  refine ⟨rfl, ?_⟩
  have types := places.imp fun _ _ annotates => annotates.types
  rw [typeOf, typeOf.eq_def checker (.function span parameters' declared' body')]
  refine (agree_admitForm congruence rfl rfl).bind fun _ _ _ => ?_
  refine (agree_admitParameters congruence span.start places).bind fun _ _ _ => ?_
  refine (agree_admitDeclared congruence span.start results).bind fun _ _ _ => ?_
  simp only [copies, if_true]
  refine inner.types.withBindings.bind fun _ _ bodyTypes => ?_
  cases results with
  | none => exact .pure (congruence.function types bodyTypes)
  | some result =>
    refine (agree_expectResult congruence inner.place result.types bodyTypes).bind fun _ _ _ => ?_
    exact .pure (congruence.function types result.types)

/-- Calls agree, if the functions and the arguments do. -/
theorem agrees_call (congruence : Congruence related named alike) {span : Span}
    {callee callee' : Term} {arguments arguments' : List Term}
    (function : checker.Agrees related alike environment environment' callee callee')
    (values : List.Forall₂ (checker.Agrees related alike environment environment') arguments
      arguments') :
    checker.Agrees related alike environment environment' (.call span callee arguments)
      (.call span callee' arguments') := by
  refine ⟨rfl, ?_⟩
  rw [typeOf, typeOf.eq_def checker (.call span callee' arguments')]
  refine (agree_admitForm congruence rfl rfl).bind fun _ _ _ => ?_
  refine function.types.bind fun type type' types => ?_
  have heads := congruence.layer types
  generalize type.simplify = head, type'.simplify = head' at heads
  cases heads with
  | function places results =>
    simp only [places.length_eq, values.length_eq]
    split
    · refine (agree_checkArguments congruence values places).bind fun _ _ _ => ?_
      exact .pure results
    · exact congruence.fail rfl rfl
  | _ => exact congruence.fail rfl function.place

/-- Sequences agree, if their two parts do. -/
theorem agrees_sequence (congruence : Congruence related named alike) {span : Span}
    {first first' rest rest' : Term}
    (head : checker.Agrees related alike environment environment' first first')
    (tail : checker.Agrees related alike environment environment' rest rest') :
    checker.Agrees related alike environment environment' (.sequence span first rest)
      (.sequence span first' rest') := by
  refine ⟨rfl, ?_⟩
  rw [typeOf, typeOf.eq_def checker (.sequence span first' rest')]
  refine (agree_admitForm congruence rfl rfl).bind fun _ _ _ => ?_
  exact head.types.bind fun _ _ _ => tail.types

/-- Function literals are known in their own values by related types, or neither is. -/
theorem selfType?_function_rel (congruence : Congruence related named alike) {span span' : Span}
    {parameters parameters' : List (String × Ty)} {declared declared' : Option Ty}
    {body body' : Term}
    (places : List.Forall₂ (fun member member' => checker.Annotates related member.2 member'.2)
      parameters parameters')
    (results : Option.Rel (checker.Annotates related) declared declared') :
    Option.Rel related (checker.selfType? (.function span parameters declared body))
      (checker.selfType? (.function span' parameters' declared' body')) := by
  cases results with
  | none => exact .none
  | some result =>
    rw [selfType?, selfType?]
    split
    · exact .some (congruence.function (places.imp fun _ _ annotates => annotates.types)
        result.types)
    · exact .none

/-- Constants agree, if their values do, with the constants known in them or not, and the rests do
for all related types of the constants. -/
theorem agrees_constant (congruence : Congruence related named alike) {span : Span}
    {name name' : String} {value value' rest rest' : Term}
    (self : Option.Rel related (checker.selfType? value) (checker.selfType? value'))
    (unknown : checker.selfType? value = none → checker.selfType? value' = none →
      checker.Agrees related alike environment environment' value value')
    (known : ∀ type type', checker.selfType? value = some type →
      checker.selfType? value' = some type' → related type type' →
        checker.Agrees related alike (environment.declare name type)
          (environment'.declare name' type') value value')
    (tail : ∀ type type', related type type' →
      checker.Agrees related alike (environment.declare name type)
        (environment'.declare name' type') rest rest') :
    checker.Agrees related alike environment environment' (.constant span name value rest)
      (.constant span name' value' rest') := by
  refine ⟨rfl, ?_⟩
  rw [typeOf, typeOf.eq_def checker (.constant span name' value' rest')]
  refine (agree_admitForm congruence rfl rfl).bind fun _ _ _ => ?_
  dsimp only
  generalize checker.selfType? value = type, checker.selfType? value' = type' at self unknown known
  cases self with
  | none => exact (unknown rfl rfl).types.bind fun _ _ types => (tail _ _ types).withBinding
  | some self =>
    exact (known _ _ rfl rfl self).withBinding.bind fun _ _ types => (tail _ _ types).withBinding

/-- Object literals agree, if their properties do. -/
theorem agrees_object (congruence : Congruence related named alike) {span : Span}
    {properties properties' : List (String × Term)} (sort : named (properties.map Prod.fst))
    (names : properties.map Prod.fst = properties'.map Prod.fst)
    (values : List.Forall₂ (checker.Agrees related alike environment environment')
      (properties.map Prod.snd) (properties'.map Prod.snd)) :
    checker.Agrees related alike environment environment' (.object span properties)
      (.object span properties') := by
  refine ⟨rfl, ?_⟩
  rw [typeOf, typeOf.eq_def checker (.object span properties')]
  refine (agree_admitForm congruence rfl rfl).bind fun _ _ _ => ?_
  refine (agree_typesOf names values).bind ?_
  rintro types types' ⟨sameNames, members⟩
  exact .pure (congruence.object (sameNames ▸ sort) members)

/-- Property accesses agree, if their objects do. -/
theorem agrees_property (congruence : Congruence related named alike) {span : Span}
    {object object' : Term} {name : String}
    (whole : checker.Agrees related alike environment environment' object object') :
    checker.Agrees related alike environment environment' (.property span object name)
      (.property span object' name) := by
  refine ⟨rfl, ?_⟩
  rw [typeOf, typeOf.eq_def checker (.property span object' name)]
  refine (agree_admitForm congruence rfl rfl).bind fun _ _ _ => ?_
  refine whole.types.bind fun type type' types => ?_
  have heads := congruence.layer types
  generalize type.simplify = head, type'.simplify = head' at heads
  cases heads with
  | @object properties properties' values =>
    have found := values name
    dsimp only
    generalize properties.lookup name = known, properties'.lookup name = known' at found
    cases found with
    | none => exact congruence.fail rfl rfl
    | some types => exact .pure types
  | _ => exact congruence.fail rfl whole.place

/-- Function declarations agree, if their bodies and the rests do. -/
theorem agrees_declaration (congruence : Congruence related named alike) {span : Span}
    {name name' : String} {parameters parameters' : List (String × Ty)} {declared declared' : Ty}
    {body body' rest rest' : Term}
    (places : List.Forall₂ (fun member member' => checker.Annotates related member.2 member'.2)
      parameters parameters')
    (results : checker.Annotates related declared declared')
    (inner : checker.Agrees related alike
      (environment.declareAll ((name, .function parameters declared) :: parameters))
      (environment'.declareAll ((name', .function parameters' declared') :: parameters'))
      body body')
    (tail : checker.Agrees related alike
      (environment.declare name (.function parameters declared))
      (environment'.declare name' (.function parameters' declared')) rest rest') :
    checker.Agrees related alike environment environment'
      (.declaration span name parameters declared body rest)
      (.declaration span name' parameters' declared' body' rest') := by
  refine ⟨rfl, ?_⟩
  rw [typeOf, typeOf.eq_def checker (.declaration span name' parameters' declared' body' rest')]
  refine (agree_admitForm congruence rfl rfl).bind fun _ _ _ => ?_
  refine (agree_admitParameters congruence span.start places).bind fun _ _ _ => ?_
  refine (agree_admitType congruence span.start results).bind fun _ _ _ => ?_
  refine inner.types.withBindings.bind fun _ _ bodyTypes => ?_
  refine (agree_expectResult congruence inner.place results.types bodyTypes).bind fun _ _ _ => ?_
  exact tail.withBinding

end Checker

end Equirec
