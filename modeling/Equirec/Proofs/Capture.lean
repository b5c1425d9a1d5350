import Equirec.Proofs.Framing

/-!
# What stays known without copies of environments

When environments are not copied for function literals, their parameters stay known after them. Two
things may then go wrong: a name that is used later may be taken for such a parameter though it
means something else, or though it means nothing. Neither happens to a term that is accepted with
copies of environments and whose bound names differ from each other and from the names that are
known around it. All its free names are known (`Checker.usesKnown`), so none of them is one that it
binds, and the check comes to the same without copies (`Checker.typeOf_copying_false`). All that it
leaves behind are parameters of function literals.
-/
namespace Equirec

/-! ## Names that are known -/

namespace Environment

/-- Whether an environment gives types to some names. -/
def Knows (environment : Environment) (names : List String) : Prop :=
  ∀ name ∈ names, environment.contains name = true

variable {environment : Environment} {names names' : List String}

/-- The names of two lists are known when those of each are. -/
theorem Knows.append (knows : environment.Knows names) (knows' : environment.Knows names') :
    environment.Knows (names ++ names') :=
  List.forall_mem_append.2 ⟨knows, knows'⟩

/-- What is known after some declarations is declared or known before. -/
theorem Knows.of_declareAll {members : List (String × Ty)}
    (knows : (environment.declareAll members).Knows names) :
    environment.Knows (names.filter (· ∉ members.map Prod.fst)) := by
  intro name isName
  rw [List.mem_filter, decide_eq_true_eq] at isName
  have known := knows name isName.1
  rwa [contains, lookup?_declareAll_of_not_mem environment isName.2] at known

end Environment

/-- A step that does not look at the environment leaves it as it is. -/
theorem Check.Uniform.keeps {α : Type} {step : Check α} (uniform : step.Uniform)
    (environment : Environment) : step.Keeps environment :=
  fun _ _ => uniform.steady environment

namespace Checker

open Check (Ensures)

variable {checker : Checker} {environment : Environment}

/-- Whether all free names of a term are known when it is accepted. -/
def UsesKnown (checker : Checker) (term : Term) : Prop :=
  ∀ environment : Environment, (checker.typeOf term).Ensures environment fun _ after =>
    after = environment ∧ environment.Knows (term.freeNames checker.variant)

/-- All arguments are looked at, if there are as many as parameters. -/
theorem ensures_checkArguments_knows {arguments : List Term}
    (uses : ∀ argument ∈ arguments, checker.UsesKnown argument) {parameters : List (String × Ty)}
    (count : parameters.length = arguments.length) :
    (checker.checkArguments arguments parameters).Ensures environment fun _ after =>
      after = environment ∧
        environment.Knows (arguments.flatMap (Term.freeNames checker.variant)) := by
  induction arguments generalizing parameters with
  | nil =>
    rw [checkArguments]
    · exact .pure ⟨rfl, List.forall_mem_nil _⟩
    · simp
  | cons argument arguments ih =>
    cases parameters with
    | nil => simp at count
    | cons parameter parameters =>
      rw [List.forall_mem_cons] at uses
      rw [checkArguments]
      refine (uses.1 environment).bind_keeping fun received known => ?_
      refine ((Check.Uniform.compare _ _ _).keeps environment).bind fun answer => ?_
      split
      · refine (ih uses.2 (Nat.succ.inj count)).imp ?_
        rintro _ after ⟨same, rest⟩
        exact ⟨same, known.append rest⟩
      · exact .fail

/-- All properties of an object literal are looked at. -/
theorem ensures_typesOf_knows {properties : List (String × Term)}
    (uses : ∀ member ∈ properties, checker.UsesKnown member.2) :
    (checker.typesOf properties).Ensures environment fun _ after =>
      after = environment ∧
        environment.Knows
          (properties.flatMap fun member => member.2.freeNames checker.variant) := by
  induction properties with
  | nil =>
    rw [typesOf]
    exact .pure ⟨rfl, List.forall_mem_nil _⟩
  | cons property properties ih =>
    rw [List.forall_mem_cons] at uses
    rw [typesOf]
    refine (uses.1 environment).bind_keeping fun type known => ?_
    refine (ih uses.2).bind_keeping fun types rest => ?_
    exact .pure ⟨rfl, known.append rest⟩

/-- A part in a copy of the environment uses what is known before and what is bound for it. -/
theorem UsesKnown.withBindings {part : Term} (uses : checker.UsesKnown part)
    (members : List (String × Ty)) :
    (Check.withBindings members (checker.typeOf part)).Ensures environment fun _ after =>
      after = environment ∧ environment.Knows
        ((part.freeNames checker.variant).filter (· ∉ members.map Prod.fst)) :=
  .withBindings ((uses _).imp fun _ _ known => known.2.of_declareAll)

/-- Function literals, if their bodies use known names. -/
theorem usesKnown_function (copies : checker.options.copyEnvironments = true) {span : Span}
    {parameters : List (String × Ty)} {declared : Option Ty} {body : Term}
    (inner : checker.UsesKnown body) :
    checker.UsesKnown (.function span parameters declared body) := by
  intro environment
  rw [typeOf, Term.freeNames]
  refine ((checker.uniform_admitForm _).keeps environment).bind fun _ => ?_
  refine ((checker.uniform_admitParameters _ _).keeps environment).bind fun _ => ?_
  refine ((checker.uniform_admitDeclared _ _).keeps environment).bind fun _ => ?_
  simp only [copies, if_true]
  refine (inner.withBindings parameters).bind_keeping fun bodyType known => ?_
  cases declared with
  | none => exact .pure ⟨rfl, known⟩
  | some result =>
    refine ((uniform_expectResult body result bodyType).keeps environment).bind fun _ => ?_
    exact .pure ⟨rfl, known⟩

/-- Constants, if their values and the rests use known names. -/
theorem usesKnown_constant {span : Span} {name : String} {value rest : Term}
    (inner : checker.UsesKnown value) (tail : checker.UsesKnown rest) :
    checker.UsesKnown (.constant span name value rest) := by
  intro environment
  have finish : ∀ type : Ty, environment.Knows ((value.freeNames checker.variant).filter
      (· ∉ Term.knownInValue checker.variant name value)) →
      (Check.withBindings [(name, type)] (checker.typeOf rest)).Ensures environment fun _ after =>
        after = environment ∧
          environment.Knows ((Term.constant span name value rest).freeNames checker.variant) := by
    intro type known
    refine (tail.withBindings [(name, type)]).imp ?_
    rintro _ after ⟨same, known'⟩
    exact ⟨same, known.append known'⟩
  rw [typeOf]
  refine ((checker.uniform_admitForm _).keeps environment).bind fun _ => ?_
  rw [knownInValue_eq] at finish
  dsimp only
  cases known : checker.selfType? value with
  | some type =>
    rw [known] at finish
    exact (inner.withBindings [(name, type)]).bind_keeping finish
  | none =>
    rw [known] at finish
    refine (inner environment).bind_keeping fun type known => finish type ?_
    simpa using known

/-- Function declarations, if their bodies and the rests use known names. -/
theorem usesKnown_declaration {span : Span} {name : String} {parameters : List (String × Ty)}
    {declared : Ty} {body rest : Term} (inner : checker.UsesKnown body)
    (tail : checker.UsesKnown rest) :
    checker.UsesKnown (.declaration span name parameters declared body rest) := by
  intro environment
  rw [typeOf, Term.freeNames]
  refine ((checker.uniform_admitForm _).keeps environment).bind fun _ => ?_
  refine ((checker.uniform_admitParameters _ _).keeps environment).bind fun _ => ?_
  refine ((checker.uniform_admitType _ _).keeps environment).bind fun _ => ?_
  refine (inner.withBindings _).bind_keeping fun bodyType known => ?_
  refine ((uniform_expectResult body declared bodyType).keeps environment).bind fun _ => ?_
  refine (tail.withBindings _).imp ?_
  rintro _ after ⟨same, known'⟩
  exact ⟨same, known.append known'⟩

/-- With environments copied, all free names of a term that is accepted are known. -/
theorem usesKnown (copies : checker.options.copyEnvironments = true) (term : Term) :
    checker.UsesKnown term := by
  induction term with
  | boolean span value =>
    intro environment
    rw [typeOf]
    refine ((checker.uniform_admitForm _).keeps environment).bind fun _ => ?_
    exact .pure ⟨rfl, List.forall_mem_nil _⟩
  | number span value =>
    intro environment
    rw [typeOf]
    refine ((checker.uniform_admitForm _).keeps environment).bind fun _ => ?_
    exact .pure ⟨rfl, List.forall_mem_nil _⟩
  | add span left right leftIH rightIH =>
    intro environment
    rw [typeOf, Term.freeNames]
    refine ((checker.uniform_admitForm _).keeps environment).bind fun _ => ?_
    refine (leftIH environment).bind_keeping fun leftType known => ?_
    refine ((uniform_expectNumber left leftType).keeps environment).bind fun _ => ?_
    refine (rightIH environment).bind_keeping fun rightType known' => ?_
    refine ((uniform_expectNumber right rightType).keeps environment).bind fun _ => ?_
    exact .pure ⟨rfl, known.append known'⟩
  | conditional span condition positive negative conditionIH positiveIH negativeIH =>
    intro environment
    rw [typeOf, Term.freeNames]
    refine ((checker.uniform_admitForm _).keeps environment).bind fun _ => ?_
    refine (conditionIH environment).bind_keeping fun testType known => ?_
    refine ((checker.uniform_expectCondition _ testType).keeps environment).bind fun _ => ?_
    refine (positiveIH environment).bind_keeping fun positiveType known' => ?_
    refine (negativeIH environment).bind_keeping fun negativeType known'' => ?_
    refine ((checker.uniform_join _ positiveType negativeType).keeps environment).imp ?_
    intro _ after same
    exact ⟨same, (known.append known').append known''⟩
  | reference span name =>
    intro environment
    rw [typeOf, Term.freeNames]
    refine ((checker.uniform_admitForm _).keeps environment).bind fun _ => ?_
    refine (Ensures.reference name span.start).imp ?_
    rintro type after ⟨same, found⟩
    refine ⟨same, List.forall_mem_singleton.2 ?_⟩
    rw [Environment.contains, found, Option.isSome_some]
  | function span parameters declared body bodyIH => exact usesKnown_function copies bodyIH
  | call span callee arguments calleeIH argumentsIH =>
    intro environment
    rw [typeOf, Term.freeNames, Term.freeNamesOf_eq_flatMap]
    refine ((checker.uniform_admitForm _).keeps environment).bind fun _ => ?_
    refine (calleeIH environment).bind_keeping fun calleeType known => ?_
    split
    · split
      · rename_i count
        refine (ensures_checkArguments_knows argumentsIH count).bind_keeping fun _ known' => ?_
        exact .pure ⟨rfl, known.append known'⟩
      · exact .fail
    · exact .fail
  | sequence span first rest firstIH restIH =>
    intro environment
    rw [typeOf, Term.freeNames]
    refine ((checker.uniform_admitForm _).keeps environment).bind fun _ => ?_
    refine (firstIH environment).bind_keeping fun _ known => ?_
    refine (restIH environment).imp ?_
    rintro _ after ⟨same, known'⟩
    exact ⟨same, known.append known'⟩
  | constant span name value rest valueIH restIH => exact usesKnown_constant valueIH restIH
  | object span properties propertiesIH =>
    intro environment
    rw [typeOf, Term.freeNames, Term.freeNamesIn_eq_flatMap]
    refine ((checker.uniform_admitForm _).keeps environment).bind fun _ => ?_
    refine (ensures_typesOf_knows propertiesIH).bind_keeping fun types known => ?_
    exact .pure ⟨rfl, known⟩
  | property span object label objectIH =>
    intro environment
    rw [typeOf, Term.freeNames]
    refine ((checker.uniform_admitForm _).keeps environment).bind fun _ => ?_
    refine (objectIH environment).bind_keeping fun objectType known => ?_
    split
    · split
      · exact .pure ⟨rfl, known⟩
      · exact .fail
    · exact .fail
  | declaration span name parameters declared body rest bodyIH restIH =>
    exact usesKnown_declaration bodyIH restIH

/-! ## Checks without copies -/

/-- A check of a term whose bound names differ from each other and from its free names comes to the
same with and without copies of environments. Without them it leaves at most parameters of function
literals behind. -/
theorem typeOf_copying_false (checker : Checker) {term : Term}
    (apart : term.BindsApart (term.freeNames checker.variant)) (environment : Environment) :
    ((checker.copying false).typeOf term environment).result =
        ((checker.copying true).typeOf term environment).result ∧
      Environment.Gains term.literalParameters environment
        ((checker.copying false).typeOf term environment).environment := by
  have clears : checker.Clears false (term.freeNames checker.variant) term.literalParameters term :=
    ⟨List.Subset.refl _, fun _ => apart, List.Subset.refl _⟩
  obtain ⟨result, events, after, ended, ended', _, gains⟩ :=
    checker.tracked false term clears environment (.refl _ _)
  rw [ended, ended']
  exact ⟨rfl, gains⟩

/-- A term that is accepted with copies of environments, and whose bound names differ from each
other and are not known around it, is accepted without copies, with the same type. Every name that
is then known by another type than before, or was not known before, is a parameter of a function
literal in the term, and known by the type with which it is annotated. -/
theorem typeOf_leaky (variant : Variant) (checks : Bool) {term : Term} {environment : Environment}
    (distinct : term.binders.Nodup)
    (absent : ∀ name ∈ term.binders, environment.contains name = false) {type : Ty}
    (accepted : (typeOf ⟨variant, { checkConditions := checks, copyEnvironments := true }⟩
      term environment).result = .ok type) :
    let leaky := typeOf ⟨variant, { checkConditions := checks, copyEnvironments := false }⟩
      term environment
    leaky.result = .ok type ∧
      ∀ name, leaky.environment.lookup? name ≠ environment.lookup? name →
        ∃ annotated, (name, annotated) ∈ term.literalParameters ∧
          leaky.environment.lookup? name = some annotated := by
  let checker : Checker := ⟨variant, { checkConditions := checks, copyEnvironments := true }⟩
  have known : environment.Knows (term.freeNames variant) :=
    (usesKnown (rfl : checker.options.copyEnvironments = true) term environment type accepted).2
  have apart : term.BindsApart (term.freeNames variant) := by
    refine ⟨distinct, fun name isFree isBound => ?_⟩
    have unknown := absent name isBound
    rw [known name isFree] at unknown
    cases unknown
  obtain ⟨same, gains⟩ := checker.typeOf_copying_false apart environment
  refine ⟨same.trans accepted, fun name changed => ?_⟩
  exact (gains name).resolve_left changed

/-- A function literal, and after it a term. -/
def afterIdentity (rest : Term) : Term :=
  let place : Span := ⟨0, 0⟩
  .sequence place (.function place [("x", .number)] none (.reference place "x")) rest

/-- A constant that is called with a flag. -/
def flagged : Term :=
  let place : Span := ⟨0, 0⟩
  .constant place "g" (.function place [("y", .boolean)] (some .boolean) (.reference place "y"))
    (.call place (.reference place "g") [.reference place "flag"])

/-- The parameter of the first function stays known after the check. That of the second does not,
because the value of a constant that may call itself has a copy of the environment all the same. -/
theorem typeOf_leaky_flagged :
    let term := afterIdentity flagged
    let environment := Environment.declare {} "flag" .boolean
    let leaky := typeOf ⟨.recursive, { copyEnvironments := false }⟩ term environment
    term.binders.Nodup ∧ (∀ name ∈ term.binders, environment.contains name = false) ∧
      (typeOf ⟨.recursive, {}⟩ term environment).result = .ok .boolean ∧
      leaky.result = .ok .boolean ∧
      leaky.environment.lookup? "x" = some .number ∧ leaky.environment.lookup? "y" = none ∧
      ∀ name, leaky.environment.lookup? name ≠ environment.lookup? name →
        ∃ annotated, (name, annotated) ∈ [("x", Ty.number), ("y", .boolean)] ∧
          leaky.environment.lookup? name = some annotated := by
  intro term environment leaky
  have distinct : term.binders.Nodup := by decide
  have absent : ∀ name ∈ term.binders, environment.contains name = false := by decide
  have accepted : (typeOf ⟨.recursive, {}⟩ term environment).result = .ok .boolean := by cbv
  obtain ⟨accepted', changes⟩ := typeOf_leaky .recursive true distinct absent accepted
  exact ⟨distinct, absent, accepted, accepted', by cbv, by cbv, changes⟩

/-- A parameter that has the name of something known around it takes its place. -/
example :
    let term := afterIdentity (.reference ⟨0, 0⟩ "x")
    let environment := Environment.declare {} "x" .boolean
    (typeOf ⟨.basic, {}⟩ term environment).result = .ok .boolean ∧
      (typeOf ⟨.basic, { copyEnvironments := false }⟩ term environment).result = .ok .number := by
  constructor <;> rfl

end Checker

end Equirec
