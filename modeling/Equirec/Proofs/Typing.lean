import Equirec.Proofs.Machine
import Equirec.Proofs.Steps

/-!
# Typing rules

The rules say which types a term has in an environment, without an order in which anything is
checked. Every rule lets a type that can be used as another stand in for it, so a term that has a
type has every type that this one can be used as (`Term.HasType.subsume`). The checker is stricter:
it asks for equal types in some places and gives a term one type only. What it accepts has its type
by the rules (`Checker.types`).
-/
namespace Equirec

open Check (Ensures)
open Ty (UsableAs)

/-! ## Well-formed programs -/

namespace Term

mutual

/-- Whether all annotations of a term are well-formed types and no object literal in it repeats a
property name. -/
def isWellFormed : Term → Bool
  | .boolean .. | .number .. | .reference .. => true
  | .add _ left right => left.isWellFormed && right.isWellFormed
  | .conditional _ condition positive negative =>
    condition.isWellFormed && positive.isWellFormed && negative.isWellFormed
  | .function _ parameters declared body =>
    parameters.all (fun member => decide member.2.WellFormed) &&
      declared.all (fun type => decide type.WellFormed) && body.isWellFormed
  | .call _ callee arguments => callee.isWellFormed && areWellFormed arguments
  | .sequence _ first rest => first.isWellFormed && rest.isWellFormed
  | .constant _ _ value rest => value.isWellFormed && rest.isWellFormed
  | .object _ properties =>
    decide (properties.map Prod.fst).Nodup && isWellFormedIn properties
  | .property _ whole _ => whole.isWellFormed
  | .declaration _ _ parameters declared body rest =>
    parameters.all (fun member => decide member.2.WellFormed) && decide declared.WellFormed &&
      body.isWellFormed && rest.isWellFormed

/-- Whether all of several terms are well-formed. -/
def areWellFormed : List Term → Bool
  | [] => true
  | term :: rest => term.isWellFormed && areWellFormed rest

/-- Whether the values of all properties of an object literal are well-formed. -/
def isWellFormedIn : List (String × Term) → Bool
  | [] => true
  | (_, term) :: rest => term.isWellFormed && isWellFormedIn rest

end

@[simp]
theorem areWellFormed_eq_all (terms : List Term) :
    areWellFormed terms = terms.all isWellFormed := by
  induction terms with
  | nil => rfl
  | cons term rest ih => simp [areWellFormed, ih]

@[simp]
theorem isWellFormedIn_eq_all (properties : List (String × Term)) :
    isWellFormedIn properties = properties.all fun member => member.2.isWellFormed := by
  induction properties with
  | nil => rfl
  | cons member rest ih => simp [isWellFormedIn, ih]

end Term

namespace Environment

/-- Whether an environment gives only well-formed types to names. -/
def WellFormed (environment : Environment) : Prop :=
  ∀ name type, environment.lookup? name = some type → type.WellFormed

/-- The environment of a program gives no types. -/
theorem wellFormed_empty : WellFormed {} :=
  fun _ _ found => nomatch found

namespace WellFormed

/-- A well-formed type may be declared. -/
theorem declare {environment : Environment} (formed : environment.WellFormed) (name : String)
    {type : Ty} (wellFormed : type.WellFormed) : (environment.declare name type).WellFormed :=
  Within.declare formed name wellFormed

/-- Well-formed types may be declared one after the other. -/
theorem declareAll {environment : Environment} (formed : environment.WellFormed)
    {members : List (String × Ty)} (wellFormed : ∀ member ∈ members, member.2.WellFormed) :
    (environment.declareAll members).WellFormed :=
  Within.declareAll formed wellFormed

end WellFormed

end Environment

/-! ## The rules -/

namespace Term

mutual

/-- The types that a term has in an environment. -/
inductive HasType : Term → Environment → Ty → Prop where
  /-- A boolean literal. -/
  | boolean {span : Span} {value : Bool} {environment : Environment} {type : Ty}
    (usable : UsableAs .boolean type) : HasType (.boolean span value) environment type
  /-- A number literal. -/
  | number {span : Span} {value : Double} {environment : Environment} {type : Ty}
    (usable : UsableAs .number type) : HasType (.number span value) environment type
  /-- The sum of two numbers is a number. -/
  | add {span : Span} {left right : Term} {environment : Environment} {type : Ty}
    (first : HasType left environment .number) (second : HasType right environment .number)
    (usable : UsableAs .number type) : HasType (.add span left right) environment type
  /-- A conditional has the types that both branches have. -/
  | conditional {span : Span} {condition positive negative : Term} {environment : Environment}
    {type : Ty} (test : HasType condition environment .boolean)
    (holds : HasType positive environment type) (fails : HasType negative environment type) :
    HasType (.conditional span condition positive negative) environment type
  /-- A name has its type. -/
  | reference {span : Span} {name : String} {environment : Environment} {known type : Ty}
    (found : environment.lookup? name = some known) (usable : UsableAs known type) :
    HasType (.reference span name) environment type
  /-- A function literal, whatever result it declares. -/
  | function {span : Span} {parameters : List (String × Ty)} {declared : Option Ty} {body : Term}
    {environment : Environment} {result type : Ty}
    (wellFormed : (Ty.function parameters result).WellFormed)
    (inner : HasType body (environment.declareAll parameters) result)
    (usable : UsableAs (.function parameters result) type) :
    HasType (.function span parameters declared body) environment type
  /-- A call with an argument for each parameter. -/
  | call {span : Span} {callee : Term} {arguments : List Term} {environment : Environment}
    {parameters : List (String × Ty)} {result type : Ty}
    (function : HasType callee environment (.function parameters result))
    (values : HaveTypes arguments environment parameters) (usable : UsableAs result type) :
    HasType (.call span callee arguments) environment type
  /-- A term whose value is dropped may have any type. -/
  | sequence {span : Span} {first rest : Term} {environment : Environment} {dropped type : Ty}
    (head : HasType first environment dropped) (tail : HasType rest environment type) :
    HasType (.sequence span first rest) environment type
  /-- A constant that is not known in its own value. -/
  | constant {span : Span} {name : String} {value rest : Term} {environment : Environment}
    {known type : Ty} (plain : value.declaring? = none) (inner : HasType value environment known)
    (tail : HasType rest (environment.declare name known) type) :
    HasType (.constant span name value rest) environment type
  /-- A constant that is known in its own value, a function with a declared result. -/
  | recursive {span : Span} {name : String} {value rest body : Term} {environment : Environment}
    {parameters : List (String × Ty)} {declared type : Ty}
    (declares : value.declaring? = some (parameters, declared, body))
    (wellFormed : (Ty.function parameters declared).WellFormed)
    (inner : HasType body
      ((environment.declare name (.function parameters declared)).declareAll parameters) declared)
    (tail : HasType rest (environment.declare name (.function parameters declared)) type) :
    HasType (.constant span name value rest) environment type
  /-- An object literal. -/
  | object {span : Span} {properties : List (String × Term)} {environment : Environment}
    {types : List (String × Ty)} {type : Ty}
    (values : MembersHaveTypes properties environment types)
    (usable : UsableAs (.object types) type) :
    HasType (.object span properties) environment type
  /-- A property that the type of the object has. -/
  | property {span : Span} {object : Term} {name : String} {environment : Environment}
    {types : List (String × Ty)} {known type : Ty}
    (whole : HasType object environment (.object types)) (found : types.lookup name = some known)
    (usable : UsableAs known type) : HasType (.property span object name) environment type
  /-- The declaration of a function, which is known in its own body. -/
  | declaration {span : Span} {name : String} {parameters : List (String × Ty)} {declared : Ty}
    {body rest : Term} {environment : Environment} {type : Ty}
    (wellFormed : (Ty.function parameters declared).WellFormed)
    (inner : HasType body
      ((environment.declare name (.function parameters declared)).declareAll parameters) declared)
    (tail : HasType rest (environment.declare name (.function parameters declared)) type) :
    HasType (.declaration span name parameters declared body rest) environment type

/-- Arguments have the types of parameters, one by one. -/
inductive HaveTypes : List Term → Environment → List (String × Ty) → Prop where
  /-- No arguments for no parameters. -/
  | nil {environment : Environment} : HaveTypes [] environment []
  /-- One more argument and one more parameter. -/
  | cons {argument : Term} {arguments : List Term} {environment : Environment} {name : String}
    {type : Ty} {parameters : List (String × Ty)} (head : HasType argument environment type)
    (tail : HaveTypes arguments environment parameters) :
    HaveTypes (argument :: arguments) environment ((name, type) :: parameters)

/-- The properties of an object literal have the types of the same names, in order. -/
inductive MembersHaveTypes : List (String × Term) → Environment → List (String × Ty) → Prop where
  /-- No properties. -/
  | nil {environment : Environment} : MembersHaveTypes [] environment []
  /-- One more property. -/
  | cons {name : String} {value : Term} {properties : List (String × Term)}
    {environment : Environment} {type : Ty} {types : List (String × Ty)}
    (head : HasType value environment type) (tail : MembersHaveTypes properties environment types) :
    MembersHaveTypes ((name, value) :: properties) environment ((name, type) :: types)

end

/-- A term that declares its result is a function literal. -/
theorem eq_of_declaring? {value body : Term} {parameters : List (String × Ty)} {declared : Ty}
    (declares : value.declaring? = some (parameters, declared, body)) :
    ∃ span, value = .function span parameters (some declared) body := by
  unfold declaring? at declares
  split at declares
  · cases declares
    exact ⟨_, rfl⟩
  · cases declares

/-- The declared type of a well-formed function literal is well-formed. -/
theorem wellFormed_of_declaring? {value body : Term} {parameters : List (String × Ty)}
    {declared : Ty} (wellFormed : value.isWellFormed = true)
    (declares : value.declaring? = some (parameters, declared, body)) :
    (Ty.function parameters declared).WellFormed := by
  obtain ⟨span, rfl⟩ := eq_of_declaring? declares
  simp only [isWellFormed, Bool.and_eq_true, List.all_eq_true, decide_eq_true_eq,
    Option.all_some] at wellFormed
  exact .function wellFormed.1.1 wellFormed.1.2

/-- A term has every type that one of its types can be used as. -/
theorem HasType.subsume {term : Term} {environment : Environment} {type type' : Ty}
    (typed : term.HasType environment type) (usable : UsableAs type type') :
    term.HasType environment type' := by
  -- Where a rule hands its type on to a part, the part is taken up instead.
  induction term generalizing environment type type' with
  | boolean =>
    cases typed with
    | boolean usable' => exact .boolean (usable'.trans usable)
  | number =>
    cases typed with
    | number usable' => exact .number (usable'.trans usable)
  | add =>
    cases typed with
    | add first second usable' => exact .add first second (usable'.trans usable)
  | conditional span condition positive negative _ positiveIH negativeIH =>
    cases typed with
    | conditional test holds fails =>
      exact .conditional test (positiveIH holds usable) (negativeIH fails usable)
  | reference =>
    cases typed with
    | reference found usable' => exact .reference found (usable'.trans usable)
  | function =>
    cases typed with
    | function wellFormed inner usable' => exact .function wellFormed inner (usable'.trans usable)
  | call =>
    cases typed with
    | call function values usable' => exact .call function values (usable'.trans usable)
  | sequence span first rest _ restIH =>
    cases typed with
    | sequence head tail => exact .sequence head (restIH tail usable)
  | constant span name value rest _ restIH =>
    cases typed with
    | constant plain inner tail => exact .constant plain inner (restIH tail usable)
    | recursive declares wellFormed inner tail =>
      exact .recursive declares wellFormed inner (restIH tail usable)
  | object =>
    cases typed with
    | object values usable' => exact .object values (usable'.trans usable)
  | property =>
    cases typed with
    | property whole found usable' => exact .property whole found (usable'.trans usable)
  | declaration span name parameters declared body rest _ restIH =>
    cases typed with
    | declaration wellFormed inner tail =>
      exact .declaration wellFormed inner (restIH tail usable)

/-- The body of a function literal has the result of each type of the literal with the same
parameters. -/
theorem HasType.inner {span : Span} {parameters : List (String × Ty)} {declared : Option Ty}
    {body : Term} {environment : Environment} {result : Ty}
    (typed : (Term.function span parameters declared body).HasType environment
      (.function parameters result)) :
    body.HasType (environment.declareAll parameters) result := by
  cases typed with
  | function _ inner usable =>
    cases usable.layer rfl rfl with
    | function _ results => exact inner.subsume results

end Term

/-! ## What the checker accepts -/

namespace Checker

/-- A checker with both switches on, of a language with function declarations. -/
structure Strict (checker : Checker) : Prop where
  /-- The language has function declarations. -/
  declares : checker.variant.hasDeclarations = true
  /-- Conditions have to be booleans. -/
  checks : checker.options.checkConditions = true
  /-- A function literal has its own copy of the environment. -/
  copies : checker.options.copyEnvironments = true

/-- Whether a type that the checker gives to a term is well-formed and one of those that the term
has by the rules, and whether the checker leaves the environment as it is. -/
def Types (checker : Checker) (term : Term) : Prop :=
  ∀ environment : Environment, environment.WellFormed →
    (checker.typeOf term).Ensures environment fun type after =>
      after = environment ∧ type.WellFormed ∧ term.HasType environment type

variable {checker : Checker} {environment : Environment}

/-- Arguments that are accepted have the types of the parameters. -/
theorem ensures_checkArguments {arguments : List Term}
    (types : ∀ argument ∈ arguments, checker.Types argument) (formed : environment.WellFormed)
    {parameters : List (String × Ty)} (wellFormed : ∀ member ∈ parameters, member.2.WellFormed)
    (count : parameters.length = arguments.length) :
    (checker.checkArguments arguments parameters).Ensures environment fun _ after =>
      after = environment ∧ Term.HaveTypes arguments environment parameters := by
  induction arguments generalizing parameters with
  | nil =>
    rw [List.length_nil, List.length_eq_zero_iff] at count
    rw [count]
    exact .pure ⟨rfl, .nil⟩
  | cons argument arguments ih =>
    cases parameters with
    | nil => simp at count
    | cons parameter parameters =>
      rw [List.forall_mem_cons] at types wellFormed
      rw [checkArguments]
      refine (types.1 environment formed).bind_keeping fun received ⟨formed', typed⟩ => ?_
      refine (checker.ensures_fits formed' wellFormed.1).bind_keeping fun answer usable => ?_
      split
      · rename_i yes
        refine (ih types.2 wellFormed.2 (Nat.succ.inj count)).imp ?_
        rintro _ after ⟨same, rest⟩
        exact ⟨same, .cons (typed.subsume (usable yes)) rest⟩
      · exact .fail

/-- The types of the properties of an object literal are well-formed and have the same names. -/
theorem ensures_typesOf {properties : List (String × Term)}
    (types : ∀ member ∈ properties, checker.Types member.2) (formed : environment.WellFormed) :
    (checker.typesOf properties).Ensures environment fun members after =>
      after = environment ∧ members.map Prod.fst = properties.map Prod.fst ∧
        (∀ member ∈ members, member.2.WellFormed) ∧
          Term.MembersHaveTypes properties environment members := by
  induction properties with
  | nil =>
    rw [typesOf]
    exact .pure ⟨rfl, rfl, List.forall_mem_nil _, .nil⟩
  | cons property properties ih =>
    rw [List.forall_mem_cons] at types
    rw [typesOf]
    refine (types.1 environment formed).bind_keeping fun type ⟨wellFormed, typed⟩ => ?_
    refine (ih types.2).bind_keeping fun members ⟨names, wellFormed', typed'⟩ => ?_
    refine .pure ⟨rfl, ?_, ?_, .cons typed typed'⟩
    · rw [List.map_cons, List.map_cons, names]
    · exact List.forall_mem_cons.2 ⟨wellFormed, wellFormed'⟩

/-- A sum has the type that it is given, if its operands have theirs. -/
theorem types_add {span : Span} {left right : Term} (first : checker.Types left)
    (second : checker.Types right) : checker.Types (.add span left right) := by
  intro environment formed
  rw [typeOf]
  refine (checker.keeps_admitForm _).bind fun _ => ?_
  refine (first environment formed).bind_keeping fun leftType ⟨leftFormed, leftTyped⟩ => ?_
  refine (ensures_expectNumber left leftFormed).bind_keeping fun _ leftUsable => ?_
  refine (second environment formed).bind_keeping fun rightType ⟨rightFormed, rightTyped⟩ => ?_
  refine (ensures_expectNumber right rightFormed).bind_keeping fun _ rightUsable => ?_
  have formed : Ty.number.WellFormed := by decide
  exact .pure ⟨rfl, formed, .add (leftTyped.subsume leftUsable) (rightTyped.subsume rightUsable)
    (.refl formed)⟩

/-- A conditional has the type that it is given, if its three parts have theirs. -/
theorem types_conditional (strict : checker.Strict) {span : Span}
    {condition positive negative : Term} (test : checker.Types condition)
    (holds : checker.Types positive) (fails : checker.Types negative) :
    checker.Types (.conditional span condition positive negative) := by
  intro environment formed
  rw [typeOf]
  refine (checker.keeps_admitForm _).bind fun _ => ?_
  refine (test environment formed).bind_keeping fun testType ⟨testFormed, testTyped⟩ => ?_
  refine (ensures_expectCondition strict.checks condition testFormed).bind_keeping
    fun _ testUsable => ?_
  refine (holds environment formed).bind_keeping fun _ ⟨positiveFormed, positiveTyped⟩ => ?_
  refine (fails environment formed).bind_keeping fun _ ⟨negativeFormed, negativeTyped⟩ => ?_
  refine (checker.ensures_join span.start positiveFormed negativeFormed).imp ?_
  rintro type after ⟨same, wellFormed, positiveUsable, negativeUsable⟩
  exact ⟨same, wellFormed, .conditional (testTyped.subsume testUsable)
    (positiveTyped.subsume positiveUsable) (negativeTyped.subsume negativeUsable)⟩

/-- A function literal has the type that it is given, if its body has its own. -/
theorem types_function (strict : checker.Strict) {span : Span} {parameters : List (String × Ty)}
    {declared : Option Ty} {body : Term}
    (wellFormed : ∀ member ∈ parameters, member.2.WellFormed)
    (wellFormed' : ∀ type ∈ declared, type.WellFormed) (inner : checker.Types body) :
    checker.Types (.function span parameters declared body) := by
  intro environment formed
  rw [typeOf]
  refine (checker.keeps_admitForm _).bind fun _ => ?_
  refine (checker.keeps_admitParameters span.start parameters).bind fun _ => ?_
  refine (checker.keeps_admitDeclared span.start declared).bind fun _ => ?_
  simp only [strict.copies, if_true]
  have known := formed.declareAll wellFormed
  refine (Ensures.withBindings ((inner _ known).imp fun _ _ => And.right)).bind_keeping
    fun bodyType ⟨bodyFormed, bodyTyped⟩ => ?_
  cases declared with
  | some result =>
    have resultFormed := wellFormed' result rfl
    refine (ensures_expectResult body resultFormed bodyFormed).bind_keeping fun _ usable => ?_
    have whole := Ty.WellFormed.function wellFormed resultFormed
    exact .pure ⟨rfl, whole, .function whole (bodyTyped.subsume usable) (.refl whole)⟩
  | none =>
    have whole := Ty.WellFormed.function wellFormed bodyFormed
    exact .pure ⟨rfl, whole, .function whole bodyTyped (.refl whole)⟩

/-- A call has the type that it is given, if the function and the arguments have theirs. -/
theorem types_call {span : Span} {callee : Term} {arguments : List Term}
    (function : checker.Types callee) (values : ∀ argument ∈ arguments, checker.Types argument) :
    checker.Types (.call span callee arguments) := by
  intro environment formed
  rw [typeOf]
  refine (checker.keeps_admitForm _).bind fun _ => ?_
  refine (function environment formed).bind_keeping fun type ⟨wellFormed, typed⟩ => ?_
  have simplified := wellFormed.simplify
  have usable := wellFormed.usableAs_simplify
  split
  · rename_i parameters result isFunction
    rw [isFunction] at simplified usable
    split
    · rename_i count
      have inParameters : ∀ member ∈ parameters, member.2.WellFormed :=
        fun member isMember => simplified.part (.parameter isMember)
      refine (ensures_checkArguments values formed inParameters count).bind_keeping
        fun _ typed' => ?_
      have inResult := simplified.part .result
      exact .pure ⟨rfl, inResult, .call (typed.subsume usable) typed' (.refl inResult)⟩
    · exact .fail
  · exact .fail

/-- A sequence has the type that it is given, if its two parts have theirs. -/
theorem types_sequence {span : Span} {first rest : Term} (head : checker.Types first)
    (tail : checker.Types rest) : checker.Types (.sequence span first rest) := by
  intro environment formed
  rw [typeOf]
  refine (checker.keeps_admitForm _).bind fun _ => ?_
  refine (head environment formed).bind_keeping fun dropped ⟨_, typed⟩ => ?_
  refine (tail environment formed).imp ?_
  rintro type after ⟨same, wellFormed, typed'⟩
  exact ⟨same, wellFormed, .sequence typed typed'⟩

/-- The rest of a program, in which one more name is known. -/
theorem ensures_rest {rest : Term} (types : checker.Types rest) (formed : environment.WellFormed)
    (name : String) {type : Ty} (wellFormed : type.WellFormed) :
    (Check.withBindings [(name, type)] (checker.typeOf rest)).Ensures environment
      fun type' after => after = environment ∧
        type'.WellFormed ∧ rest.HasType (environment.declare name type) type' :=
  .withBindings ((types _ (formed.declare name wellFormed)).imp fun _ _ => And.right)

/-- A constant is known in its own value exactly when the value is a function with a declared
result, and then by the declared type. -/
theorem selfType?_eq (strict : checker.Strict) (value : Term) :
    checker.selfType? value =
      value.declaring?.map fun (parameters, declared, _) => .function parameters declared := by
  cases value with
  | function span parameters declared body =>
    cases declared with
    | none => rfl
    | some result => simp [selfType?, Term.declaring?, strict.declares]
  | _ => rfl

/-- A function literal that declares its result is given its declared type. -/
theorem ensures_declaring (strict : checker.Strict) (span : Span)
    (parameters : List (String × Ty)) (declared : Ty) (body : Term) :
    (checker.typeOf (.function span parameters (some declared) body)).Ensures environment
      fun type _ => type = .function parameters declared := by
  rw [typeOf]
  refine (checker.keeps_admitForm _).bind fun _ => ?_
  refine (checker.keeps_admitParameters span.start parameters).bind fun _ => ?_
  refine (checker.keeps_admitDeclared span.start (some declared)).bind fun _ => ?_
  simp only [strict.copies, if_true]
  refine (Ensures.trivial _).bind fun bodyType _ _ => ?_
  refine (Ensures.trivial _).bind fun _ _ _ => ?_
  exact .pure rfl

/-- The value of a constant that is known in it, a function with a declared result. -/
theorem ensures_recursive (strict : checker.Strict) {span : Span}
    {parameters : List (String × Ty)} {declared : Ty} {body : Term}
    (inner : checker.Types (.function span parameters (some declared) body))
    (formed : environment.WellFormed) (name : String)
    (wellFormed : (Ty.function parameters declared).WellFormed) :
    (Check.withBindings [(name, .function parameters declared)]
      (checker.typeOf (.function span parameters (some declared) body))).Ensures environment
      fun type after => after = environment ∧ type = .function parameters declared ∧
        body.HasType
          ((environment.declare name (.function parameters declared)).declareAll parameters)
          declared := by
  have typed := inner _ (formed.declare name wellFormed)
  have declared := typed.and (ensures_declaring strict span parameters declared body)
  refine .withBindings (declared.imp ?_)
  rintro type after ⟨⟨_, _, typed⟩, rfl⟩
  exact ⟨rfl, typed.inner⟩

/-- A program with a constant has the type that it is given, if the value and the rest have
theirs. -/
theorem types_constant (strict : checker.Strict) {span : Span} {name : String}
    {value rest : Term} (wellFormed : value.isWellFormed = true) (inner : checker.Types value)
    (tail : checker.Types rest) : checker.Types (.constant span name value rest) := by
  intro environment formed
  rw [typeOf]
  refine (checker.keeps_admitForm _).bind fun _ => ?_
  simp only [selfType?_eq strict]
  cases declares : value.declaring? with
  | none =>
    refine (inner environment formed).bind_keeping fun known ⟨knownFormed, typed⟩ => ?_
    refine (ensures_rest tail formed name knownFormed).imp ?_
    rintro type after ⟨same, wellFormed, typed'⟩
    exact ⟨same, wellFormed, .constant declares typed typed'⟩
  | some function =>
    obtain ⟨parameters, declared, body⟩ := function
    obtain ⟨span', rfl⟩ := Term.eq_of_declaring? declares
    have knownFormed := Term.wellFormed_of_declaring? wellFormed declares
    refine (ensures_recursive strict inner formed name knownFormed).bind_keeping ?_
    rintro _ ⟨rfl, typed⟩
    refine (ensures_rest tail formed name knownFormed).imp ?_
    rintro type after ⟨same, wellFormed, typed'⟩
    exact ⟨same, wellFormed, .recursive declares knownFormed typed typed'⟩

/-- An object literal has the type that it is given, if its properties have theirs. -/
theorem types_object {span : Span} {properties : List (String × Term)}
    (distinct : (properties.map Prod.fst).Nodup)
    (values : ∀ member ∈ properties, checker.Types member.2) :
    checker.Types (.object span properties) := by
  intro environment formed
  rw [typeOf]
  refine (checker.keeps_admitForm _).bind fun _ => ?_
  refine (ensures_typesOf values formed).bind_keeping fun types ⟨names, wellFormed, typed⟩ => ?_
  have whole := Ty.WellFormed.object (names ▸ distinct) wellFormed
  exact .pure ⟨rfl, whole, .object typed (.refl whole)⟩

/-- A property has the type that it is given, if the object has its own. -/
theorem types_property {span : Span} {object : Term} {name : String}
    (whole : checker.Types object) : checker.Types (.property span object name) := by
  intro environment formed
  rw [typeOf]
  refine (checker.keeps_admitForm _).bind fun _ => ?_
  refine (whole environment formed).bind_keeping fun type ⟨wellFormed, typed⟩ => ?_
  have simplified := wellFormed.simplify
  have usable := wellFormed.usableAs_simplify
  split
  · rename_i properties isObject
    rw [isObject] at simplified usable
    split
    · rename_i known found
      have isMember := Members.mem_of_lookup found
      have knownFormed : known.WellFormed := simplified.part (Ty.IsPart.property isMember)
      exact .pure ⟨rfl, knownFormed, .property (typed.subsume usable) found (.refl knownFormed)⟩
    · exact .fail
  · exact .fail

/-- A program with a function declaration has the type that it is given, if the body and the rest
have theirs. -/
theorem types_declaration {span : Span} {name : String} {parameters : List (String × Ty)}
    {declared : Ty} {body rest : Term}
    (wellFormed : ∀ member ∈ parameters, member.2.WellFormed)
    (wellFormed' : declared.WellFormed) (inner : checker.Types body)
    (tail : checker.Types rest) :
    checker.Types (.declaration span name parameters declared body rest) := by
  intro environment formed
  rw [typeOf]
  have whole := Ty.WellFormed.function wellFormed wellFormed'
  have known : (environment.declareAll
      ((name, .function parameters declared) :: parameters)).WellFormed :=
    (formed.declare name whole).declareAll wellFormed
  refine (checker.keeps_admitForm _).bind fun _ => ?_
  refine (checker.keeps_admitParameters span.start parameters).bind fun _ => ?_
  refine (checker.keeps_admitType span.start declared).bind fun _ => ?_
  refine (Ensures.withBindings ((inner _ known).imp fun _ _ => And.right)).bind_keeping
    fun bodyType ⟨bodyFormed, bodyTyped⟩ => ?_
  refine (ensures_expectResult body wellFormed' bodyFormed).bind_keeping fun _ usable => ?_
  refine (ensures_rest tail formed name whole).imp ?_
  rintro type after ⟨same, formed', typed⟩
  exact ⟨same, formed', .declaration whole (bodyTyped.subsume usable) typed⟩

/-- What the checker accepts has its type by the rules. -/
theorem types (strict : checker.Strict) (term : Term) (wellFormed : term.isWellFormed = true) :
    checker.Types term := by
  induction term with
  | boolean span value =>
    intro environment _
    rw [typeOf]
    have formed : Ty.boolean.WellFormed := by decide
    exact (checker.keeps_admitForm _).bind fun _ => .pure ⟨rfl, formed, .boolean (.refl formed)⟩
  | number span value =>
    intro environment _
    rw [typeOf]
    have formed : Ty.number.WellFormed := by decide
    exact (checker.keeps_admitForm _).bind fun _ => .pure ⟨rfl, formed, .number (.refl formed)⟩
  | add span left right leftIH rightIH =>
    simp only [Term.isWellFormed, Bool.and_eq_true] at wellFormed
    exact types_add (leftIH wellFormed.1) (rightIH wellFormed.2)
  | conditional span condition positive negative conditionIH positiveIH negativeIH =>
    simp only [Term.isWellFormed, Bool.and_eq_true] at wellFormed
    exact types_conditional strict (conditionIH wellFormed.1.1) (positiveIH wellFormed.1.2)
      (negativeIH wellFormed.2)
  | reference span name =>
    intro environment formed
    rw [typeOf]
    refine (checker.keeps_admitForm _).bind fun _ => ?_
    refine (Ensures.reference name span.start).imp ?_
    rintro type after ⟨same, found⟩
    have wellFormed := formed name type found
    exact ⟨same, wellFormed, .reference found (.refl wellFormed)⟩
  | function span parameters declared body bodyIH =>
    simp only [Term.isWellFormed, Bool.and_eq_true, List.all_eq_true, decide_eq_true_eq,
      Option.all_eq_true] at wellFormed
    exact types_function strict wellFormed.1.1 wellFormed.1.2 (bodyIH wellFormed.2)
  | call span callee arguments calleeIH argumentsIH =>
    simp only [Term.isWellFormed, Term.areWellFormed_eq_all, Bool.and_eq_true,
      List.all_eq_true] at wellFormed
    exact types_call (calleeIH wellFormed.1) fun argument isMember =>
      argumentsIH argument isMember (wellFormed.2 argument isMember)
  | sequence span first rest firstIH restIH =>
    simp only [Term.isWellFormed, Bool.and_eq_true] at wellFormed
    exact types_sequence (firstIH wellFormed.1) (restIH wellFormed.2)
  | constant span name value rest valueIH restIH =>
    simp only [Term.isWellFormed, Bool.and_eq_true] at wellFormed
    exact types_constant strict wellFormed.1 (valueIH wellFormed.1) (restIH wellFormed.2)
  | object span properties propertiesIH =>
    simp only [Term.isWellFormed, Term.isWellFormedIn_eq_all, Bool.and_eq_true,
      decide_eq_true_eq, List.all_eq_true] at wellFormed
    exact types_object wellFormed.1 fun member isMember =>
      propertiesIH member isMember (wellFormed.2 member isMember)
  | property span object name objectIH => exact types_property (objectIH wellFormed)
  | declaration span name parameters declared body rest bodyIH restIH =>
    simp only [Term.isWellFormed, Bool.and_eq_true, List.all_eq_true,
      decide_eq_true_eq] at wellFormed
    exact types_declaration wellFormed.1.1.1 wellFormed.1.1.2 (bodyIH wellFormed.1.2)
      (restIH wellFormed.2)

end Checker

end Equirec
