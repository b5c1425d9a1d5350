import Equirec.Proofs.Conservation

/-!
# What a check takes from its environment

With environments copied for function literals, a check looks up the free names of its term and
nothing else, and leaves the environment as it found it, whether it accepts the term or not
(`Checker.typeOf_of_agreeOn`).

Without copies the parameters of function literals stay in the environment. That makes no difference
as long as the names that a term binds differ from each other and from the names that are looked up
outside of their scopes. Both facts come from one comparison of two runs, of which the first copies
environments and the second may do so or not (`Checker.tracked`).
-/
namespace Equirec

/-! ## Environments -/

namespace Environment

/-- Declarations leave other names alone. -/
theorem lookup?_declareAll_of_not_mem (environment : Environment) {members : List (String × Ty)}
    {name : String} (unbound : name ∉ members.map Prod.fst) :
    (environment.declareAll members).lookup? name = environment.lookup? name := by
  induction members generalizing environment with
  | nil => rfl
  | cons member rest ih =>
    rw [List.map_cons, List.mem_cons, not_or] at unbound
    have declared := lookup?_declare_of_ne environment member.1 name member.2 unbound.1
    exact (ih (environment.declare member.1 member.2) unbound.2).trans declared

/-- Declarations that both environments make extend the names on which they agree. -/
theorem AgreeOn.declareAll_append {names : List String} {left right : Environment}
    (agree : AgreeOn names left right) (members : List (String × Ty)) :
    AgreeOn (members.map Prod.fst ++ names) (left.declareAll members)
      (right.declareAll members) := by
  apply AgreeOn.declareAll
  intro name isFree
  rw [List.mem_filter, List.mem_append, decide_eq_true_eq] at isFree
  exact agree name (isFree.1.resolve_left isFree.2)

/-- Whether an environment differs from an earlier one at most by names that now have the types of
some members. -/
def Gains (members : List (String × Ty)) (before after : Environment) : Prop :=
  ∀ name, after.lookup? name = before.lookup? name ∨
    ∃ type, (name, type) ∈ members ∧ after.lookup? name = some type

namespace Gains

variable {members : List (String × Ty)} {first second third : Environment}

/-- An environment differs from itself in nothing. -/
theorem refl (members : List (String × Ty)) (environment : Environment) :
    Gains members environment environment :=
  fun _ => .inl rfl

/-- Members may be gained in two steps. -/
theorem trans (gains : Gains members first second) (gains' : Gains members second third) :
    Gains members first third := by
  intro name
  rcases gains' name with same | gained
  · rw [same]
    exact gains name
  · exact .inr gained

/-- Declarations of members gain nothing else. -/
theorem declareAll {parameters : List (String × Ty)} (areMembers : parameters ⊆ members)
    (environment : Environment) :
    Gains members environment (environment.declareAll parameters) := by
  induction parameters generalizing environment with
  | nil => exact .refl members environment
  | cons parameter rest ih =>
    rw [List.cons_subset] at areMembers
    refine .trans ?_ (ih areMembers.2 (environment.declare parameter.1 parameter.2))
    intro name
    by_cases same : name = parameter.1
    · rw [same, lookup?_declare_self]
      exact .inr ⟨parameter.2, areMembers.1, rfl⟩
    · exact .inl (lookup?_declare_of_ne environment parameter.1 name parameter.2 same)

end Gains

end Environment

/-! ## Steps -/

namespace Check

open Environment (AgreeOn Gains)

variable {α β : Type} {step : Check α}

instance : LawfulMonad Check := LawfulMonad.mk' Check
  (by
    intro α step
    funext environment
    cases ended : (step environment).result with
    | ok value =>
      refine (bind_of_ok ended).trans ?_
      simp [Check.pure, ← ended]
    | error stop =>
      refine (bind_of_error ended).trans ?_
      simp [← ended])
  (by
    intro α β value next
    funext environment
    exact bind_of_ok rfl)
  (by
    intro α β γ step next last
    funext environment
    cases ended : (step environment).result with
    | error stop =>
      have stopped : ((step >>= next) environment).result = .error stop := by
        rw [bind_of_error ended]
      rw [bind_of_error stopped, bind_of_error ended, bind_of_error ended]
    | ok value =>
      cases ended' : (next value (step environment).environment).result with
      | error stop =>
        have stopped : ((step >>= next) environment).result = .error stop := by
          rw [bind_of_ok ended, ended']
        rw [bind_of_error stopped, bind_of_ok ended, bind_of_ok ended, bind_of_error ended']
      | ok value' =>
        have given : ((step >>= next) environment).result = .ok value' := by
          rw [bind_of_ok ended, ended']
        rw [bind_of_ok given, bind_of_ok ended, bind_of_ok ended, bind_of_ok ended']
        simp)

/-- Whether a step leaves every environment as it is, however it ends. -/
def Steady (step : Check α) : Prop :=
  ∀ environment, (step environment).environment = environment

/-- Steps in copies of the environment are steady. -/
theorem Steady.withBindings (members : List (String × Ty)) (step : Check α) :
    (Check.withBindings members step).Steady :=
  fun _ => rfl

/-- Steps that do not look at the environment are steady. -/
theorem Uniform.steady (uniform : step.Uniform) : step.Steady := by
  obtain ⟨result, events, same⟩ := uniform
  intro environment
  rw [same]

/-- One steady step and then another. -/
theorem Steady.bind {next : α → Check β} (first : step.Steady)
    (second : ∀ value, (next value).Steady) : Steady (step >>= next) := by
  intro environment
  cases ended : (step environment).result with
  | error stop =>
    rw [bind_of_error ended]
    exact first environment
  | ok value =>
    rw [bind_of_ok ended]
    exact (second value _).trans (first environment)

/-- Whether a second step does what a first one does, in every environment that agrees on some names
with that of the first. Both give the same value or stop for the same reason, with the same events.
The first step leaves its environment as it is. The second one may declare some members, but no
other type for one of the names. -/
def Tracks (names : List String) (members : List (String × Ty)) (step step' : Check α)
    (environment : Environment) : Prop :=
  ∀ environment', AgreeOn names environment environment' → ∃ result events after,
    step environment = ⟨result, environment, events⟩ ∧
      step' environment' = ⟨result, after, events⟩ ∧
      AgreeOn names environment after ∧ Gains members environment' after

namespace Tracks

variable {names : List String} {members : List (String × Ty)} {environment : Environment}

/-- A step that does not look at the environment does the same everywhere. -/
theorem of_uniform (uniform : step.Uniform) :
    Tracks names members step step environment := by
  obtain ⟨result, events, same⟩ := uniform
  intro environment' agree
  exact ⟨result, events, environment', same _, same _, agree, .refl _ _⟩

/-- The step that only gives a value. -/
theorem pure (value : α) :
    Tracks names members (Pure.pure value) (Pure.pure value) environment :=
  of_uniform (.pure value)

/-- A fault. -/
theorem fail (cause : Cause) (offset : Offset) :
    Tracks names members (Check.fail cause offset : Check α) (Check.fail cause offset)
      environment :=
  of_uniform (.fail cause offset)

/-- One step and then another. -/
theorem bind {step' : Check α} {next next' : α → Check β}
    (first : Tracks names members step step' environment)
    (second : ∀ value, Tracks names members (next value) (next' value) environment) :
    Tracks names members (step >>= next) (step' >>= next') environment := by
  intro environment' agree
  obtain ⟨result, events, after, ended, ended', agree, gains⟩ := first environment' agree
  cases result with
  | error stop =>
    refine ⟨.error stop, events, after, ?_, ?_, agree, gains⟩
    · rw [bind_of_error (by rw [ended]), ended]
    · rw [bind_of_error (by rw [ended']), ended']
  | ok value =>
    obtain ⟨result, events', last, next, next', agree, gains'⟩ := second value after agree
    refine ⟨result, events ++ events', last, ?_, ?_, agree, gains.trans gains'⟩
    · rw [bind_of_ok (by rw [ended]), ended, next]
    · rw [bind_of_ok (by rw [ended']), ended', next']

/-- The use of one of the names. -/
theorem reference {name : String} (isName : name ∈ names) (offset : Offset) :
    Tracks names members (Check.reference name offset) (Check.reference name offset)
      environment := by
  intro environment' agree
  refine ⟨_, [], environment', rfl, ?_, agree, .refl _ _⟩
  simp only [Check.reference, Environment.typeAt, agree name isName]

/-- Steps in copies of the environments, in which more names are known. -/
theorem withBindings (bindings : List (String × Ty)) {step' : Check α}
    (inner : Tracks (bindings.map Prod.fst ++ names) members step step'
      (environment.declareAll bindings)) :
    Tracks names members (Check.withBindings bindings step) (Check.withBindings bindings step')
      environment := by
  intro environment' agree
  obtain ⟨result, events, _, ended, ended', _, _⟩ := inner _ (agree.declareAll_append bindings)
  refine ⟨result, events, environment', ?_, ?_, agree, .refl _ _⟩
  · rw [Check.withBindings, ended]
  · rw [Check.withBindings, ended']

/-- A step in a copy of the environment, and one in the environment itself, in which new names stay
known. -/
theorem declareAll {parameters : List (String × Ty)} (areMembers : parameters ⊆ members)
    (areNew : ∀ name ∈ names, name ∉ parameters.map Prod.fst) {step' : Check α}
    (inner : Tracks (parameters.map Prod.fst ++ names) members step step'
      (environment.declareAll parameters)) :
    Tracks names members (Check.withBindings parameters step)
      (Check.declareAll parameters >>= fun _ => step') environment := by
  intro environment' agree
  obtain ⟨result, events, after, ended, ended', agreeAfter, gains⟩ :=
    inner _ (agree.declareAll_append parameters)
  refine ⟨result, events, after, ?_, ?_, ?_, (Gains.declareAll areMembers environment').trans gains⟩
  · rw [Check.withBindings, ended]
  · rw [bind_of_ok rfl]
    simp only [Check.declareAll, ended', List.nil_append]
  · intro name isName
    rw [← agreeAfter name (List.mem_append_right _ isName)]
    exact (environment.lookup?_declareAll_of_not_mem (areNew name isName)).symm

end Tracks

end Check

/-! ## Bound names -/

namespace Term

/-- The names that a term binds itself, apart from its parts. -/
def ownBinders : Term → List String
  | .function _ parameters _ _ => parameters.map Prod.fst
  | .constant _ name _ _ => [name]
  | .declaration _ name parameters _ _ _ => name :: parameters.map Prod.fst
  | _ => []

/-- The names that a term binds, each as often as it is bound. -/
def binders (term : Term) : List String :=
  term.subterms.flatMap ownBinders

/-- The parameters of a term that is a function literal. -/
def ownParameters : Term → List (String × Ty)
  | .function _ parameters _ _ => parameters
  | _ => []

/-- The parameters of the function literals in a term. -/
def literalParameters (term : Term) : List (String × Ty) :=
  term.subterms.flatMap ownParameters

variable {term : Term} {variant : Variant} {names : List String}

/-- The binders of a term are its own and those of its parts. -/
theorem binders_eq_append (term : Term) :
    term.binders = term.ownBinders ++ term.parts.flatMap binders := by
  rw [binders, subterms_eq_cons, List.flatMap_cons, List.flatMap_assoc]
  rfl

/-- The parameters of the function literals in a term are its own and those in its parts. -/
theorem literalParameters_eq_append (term : Term) :
    term.literalParameters = term.ownParameters ++ term.parts.flatMap literalParameters := by
  rw [literalParameters, subterms_eq_cons, List.flatMap_cons, List.flatMap_assoc]
  rfl

/-- A free name of a part is free in the term or bound by it. -/
theorem mem_freeNames_or_ownBinders {part : Term} {name : String} (isPart : part ∈ term.parts)
    (isFree : name ∈ part.freeNames variant) :
    name ∈ term.freeNames variant ∨ name ∈ term.ownBinders := by
  cases term with
  | boolean | number | reference => cases isPart
  | function span parameters declared body =>
    obtain rfl := List.mem_singleton.1 isPart
    by_cases bound : name ∈ parameters.map Prod.fst
    · exact .inr bound
    · exact .inl (by simpa [freeNames, isFree] using bound)
  | constant span label value rest =>
    by_cases same : name = label
    · exact .inr (List.mem_singleton.2 same)
    · have unbound : name ∉ knownInValue variant label value := by
        rw [knownInValue]
        split <;> simp [same]
      rw [parts, List.mem_pair] at isPart
      rcases isPart with rfl | rfl
      · exact .inl (by simp [freeNames, isFree, unbound])
      · exact .inl (by simp [freeNames, isFree, same])
  | declaration span label parameters declared body rest =>
    by_cases bound : name ∈ label :: parameters.map Prod.fst
    · exact .inr bound
    · have differs := List.ne_of_not_mem_cons bound
      rw [parts, List.mem_pair] at isPart
      rcases isPart with rfl | rfl
      · exact .inl (by
          rw [freeNames, List.mem_append, List.mem_filter, decide_eq_true_eq]
          exact .inl ⟨isFree, bound⟩)
      · exact .inl (by simp [freeNames, isFree, differs])
  | object span properties =>
    obtain ⟨member, isMember, rfl⟩ := List.mem_map.1 isPart
    rw [freeNames, freeNamesIn_eq_flatMap]
    exact .inl (List.mem_flatMap.2 ⟨member, isMember, isFree⟩)
  | call span callee arguments =>
    rw [freeNames, freeNamesOf_eq_flatMap, List.mem_append]
    rcases List.mem_cons.1 isPart with rfl | isArgument
    · exact .inl (.inl isFree)
    · exact .inl (.inr (List.mem_flatMap.2 ⟨part, isArgument, isFree⟩))
  | _ =>
    simp only [parts, List.mem_cons, List.not_mem_nil, or_false] at isPart
    left
    rw [freeNames]
    grind

/-- Whether the names that a term binds differ from each other and from some other names. -/
structure BindsApart (term : Term) (names : List String) : Prop where
  /-- The names that the term binds differ from each other. -/
  distinct : term.binders.Nodup
  /-- They differ from the other names. -/
  apart : ∀ name ∈ names, name ∉ term.binders

/-- The names that a part binds also differ from those that the term binds itself. -/
theorem BindsApart.part {part : Term} (apart : term.BindsApart names)
    (isPart : part ∈ term.parts) : part.BindsApart (term.ownBinders ++ names) := by
  obtain ⟨distinct, apart⟩ := apart
  rw [binders_eq_append] at distinct apart
  obtain ⟨_, inParts, differ⟩ := List.nodup_append.1 distinct
  have isBinder : ∀ name ∈ part.binders, name ∈ term.parts.flatMap binders :=
    fun name bound => List.mem_flatMap.2 ⟨part, isPart, bound⟩
  refine ⟨(List.nodup_flatMap.1 inParts).1 part isPart, ?_⟩
  intro name isName bound
  rcases List.mem_append.1 isName with isOwn | isOther
  · exact differ name isOwn name (isBinder name bound) rfl
  · exact apart name isOther (List.mem_append_right _ (isBinder name bound))

end Term

/-! ## Two checkers -/

namespace Checker

open Check (Tracks Uniform)
open Environment (AgreeOn)

/-- The checker that differs at most in whether environments are copied. -/
def copying (checker : Checker) (copies : Bool) : Checker :=
  { checker with options := { checker.options with copyEnvironments := copies } }

variable {checker : Checker} {copies : Bool} {names : List String}
  {members : List (String × Ty)} {environment : Environment}

/-! Of the steps that a check makes besides its recursion, none depends on whether environments are
copied, and none looks at the environment. -/

@[simp]
theorem copying_admitForm (checker : Checker) (copies : Bool) :
    (checker.copying copies).admitForm = checker.admitForm :=
  rfl

@[simp]
theorem copying_admitType (checker : Checker) (copies : Bool) :
    (checker.copying copies).admitType = checker.admitType :=
  rfl

@[simp]
theorem copying_admitParameters (checker : Checker) (copies : Bool) (offset : Offset)
    (parameters : List (String × Ty)) :
    (checker.copying copies).admitParameters offset parameters =
      checker.admitParameters offset parameters := by
  induction parameters with
  | nil => rfl
  | cons parameter rest ih => rw [admitParameters, admitParameters, ih, copying_admitType]

@[simp]
theorem copying_selfType? (checker : Checker) (copies : Bool) :
    (checker.copying copies).selfType? = checker.selfType? :=
  rfl

/-- A construct is refused without looking at the environment. -/
theorem uniform_reject {α : Type} (checker : Checker) (construct : String) (offset : Offset) :
    (checker.reject construct offset : Check α).Uniform :=
  ⟨.error (.fault ⟨.unsupportedConstruct construct checker.variant, offset⟩),
    [.rejected construct checker.variant], fun _ => rfl⟩

/-- A form that the language has passes. -/
theorem admitForm_of_supports {term : Term}
    (supported : checker.variant.supports term.form = true) : checker.admitForm term = pure () :=
  if_pos supported

/-- Forms are admitted without looking at the environment. -/
theorem uniform_admitForm (checker : Checker) (term : Term) :
    (checker.admitForm term).Uniform := by
  rw [admitForm]
  split
  · exact .pure ()
  · exact checker.uniform_reject _ _

/-- So are types. -/
theorem uniform_admitType (checker : Checker) (offset : Offset) (type : Ty) :
    (checker.admitType offset type).Uniform := by
  rw [admitType]
  split
  · exact checker.uniform_reject _ _
  · split
    · exact checker.uniform_reject _ _
    · exact .pure ()

/-- So are parameters. -/
theorem uniform_admitParameters (checker : Checker) (offset : Offset)
    (parameters : List (String × Ty)) : (checker.admitParameters offset parameters).Uniform := by
  induction parameters with
  | nil => exact .pure ()
  | cons parameter rest ih =>
    rw [admitParameters]
    exact (checker.uniform_admitType offset parameter.2).bind fun _ => ih

/-- So is a declared result. -/
theorem uniform_admitDeclared (checker : Checker) (offset : Offset) (declared : Option Ty) :
    Uniform (declared.forM (checker.admitType offset)) := by
  cases declared with
  | none => exact .pure ()
  | some type => exact checker.uniform_admitType offset type

/-! ## Terms -/

/-- Whether a term can be checked without copies of environments while some names are looked up: its
free names are among them, none of them is bound in the term, and all that function literals in it
may leave behind are some members. -/
structure Clears (checker : Checker) (copies : Bool) (names : List String)
    (members : List (String × Ty)) (term : Term) : Prop where
  /-- The free names of the term are among the names. -/
  free : term.freeNames checker.variant ⊆ names
  /-- Without copies of environments, no name is bound twice, and none of the names is bound. -/
  apart : copies = false → term.BindsApart names
  /-- The parameters of function literals are among the members. -/
  leaves : term.literalParameters ⊆ members

/-- What a part of a term may look up is what the term may look up and what it binds. -/
theorem Clears.part {term part : Term} (clears : checker.Clears copies names members term)
    (isPart : part ∈ term.parts) :
    checker.Clears copies (term.ownBinders ++ names) members part := by
  refine ⟨?_, fun leaky => (clears.apart leaky).part isPart, ?_⟩
  · intro name isFree
    rcases Term.mem_freeNames_or_ownBinders isPart isFree with isFree | isBound
    · exact List.mem_append_right _ (clears.free isFree)
    · exact List.mem_append_left _ isBound
  · intro member isParameter
    apply clears.leaves
    rw [Term.literalParameters_eq_append]
    exact List.mem_append_right _ (List.mem_flatMap.2 ⟨part, isPart, isParameter⟩)

/-- Fewer names may be looked up, as long as the free names are among them. -/
theorem Clears.narrow {term : Term} {fewer : List String}
    (clears : checker.Clears copies names members term) (within : fewer ⊆ names)
    (free : term.freeNames checker.variant ⊆ fewer) : checker.Clears copies fewer members term where
  free := free
  apart leaky := ⟨(clears.apart leaky).distinct, fun name isName =>
    (clears.apart leaky).apart name (within isName)⟩
  leaves := clears.leaves

/-- Whether a check of a term that may or may not copy environments does what the check that does
copy them does. -/
def Tracked (checker : Checker) (copies : Bool) (term : Term) : Prop :=
  ∀ ⦃names : List String⦄ ⦃members : List (String × Ty)⦄ ⦃environment : Environment⦄,
    checker.Clears copies names members term →
      Tracks names members ((checker.copying true).typeOf term)
        ((checker.copying copies).typeOf term) environment

/-- Arguments, if each of them is tracked. -/
theorem tracks_checkArguments {arguments : List Term}
    (tracks : ∀ argument ∈ arguments, Tracks names members ((checker.copying true).typeOf argument)
      ((checker.copying copies).typeOf argument) environment)
    (parameters : List (String × Ty)) :
    Tracks names members ((checker.copying true).checkArguments arguments parameters)
      ((checker.copying copies).checkArguments arguments parameters) environment := by
  induction arguments generalizing parameters with
  | nil =>
    rw [checkArguments, checkArguments]
    · exact .pure ()
    · simp
    · simp
  | cons argument arguments ih =>
    cases parameters with
    | nil =>
      rw [checkArguments, checkArguments]
      · exact .pure ()
      · simp
      · simp
    | cons parameter parameters =>
      rw [List.forall_mem_cons] at tracks
      rw [checkArguments, checkArguments]
      refine tracks.1.bind fun received => ?_
      refine (Tracks.of_uniform (.compare _ received parameter.2)).bind fun answer => ?_
      split
      · exact ih tracks.2 parameters
      · exact .fail _ _

/-- The properties of an object literal, if each of them is tracked. -/
theorem tracks_typesOf {properties : List (String × Term)}
    (tracks : ∀ value ∈ properties.map Prod.snd, Tracks names members
      ((checker.copying true).typeOf value) ((checker.copying copies).typeOf value) environment) :
    Tracks names members ((checker.copying true).typesOf properties)
      ((checker.copying copies).typesOf properties) environment := by
  induction properties with
  | nil =>
    rw [typesOf, typesOf]
    exact .pure []
  | cons property properties ih =>
    rw [List.map_cons, List.forall_mem_cons] at tracks
    rw [typesOf, typesOf]
    refine tracks.1.bind fun type => ?_
    refine (ih tracks.2).bind fun types => ?_
    exact .pure _

/-- The body of a function literal, in a copy of the environment or in the environment itself, and
what is made of its type. -/
theorem tracks_body {span : Span} {parameters : List (String × Ty)} {declared : Option Ty}
    {body : Term} (inner : checker.Tracked copies body)
    (clears : checker.Clears copies names members (.function span parameters declared body))
    {next : Ty → Check Ty}
    (finished : ∀ bodyType, Tracks names members (next bodyType) (next bodyType) environment) :
    Tracks names members
      (Check.withBindings parameters ((checker.copying true).typeOf body) >>= next)
      (if copies = true then
        Check.withBindings parameters ((checker.copying copies).typeOf body) >>= next
      else Check.declareAll parameters >>= fun _ => (checker.copying copies).typeOf body >>= next)
      environment := by
  have tracks := @inner _ _ (environment.declareAll parameters)
    (clears.part (List.mem_singleton_self body))
  split
  · exact tracks.withBindings.bind finished
  · rename_i leaky
    have own := clears.leaves
    rw [Term.literalParameters_eq_append, List.append_subset] at own
    have areNew : ∀ name ∈ names, name ∉ parameters.map Prod.fst := by
      intro name isName isBound
      apply (clears.apart (Bool.eq_false_of_not_eq_true leaky)).apart name isName
      rw [Term.binders_eq_append]
      exact List.mem_append_left _ isBound
    rw [← bind_assoc]
    exact (tracks.declareAll own.1 areNew).bind finished

/-- Function literals, if their bodies are tracked. -/
theorem tracked_function {span : Span} {parameters : List (String × Ty)} {declared : Option Ty}
    {body : Term} (inner : checker.Tracked copies body) :
    checker.Tracked copies (.function span parameters declared body) := by
  intro names members environment clears
  rw [typeOf, typeOf]
  simp only [copying_admitForm, copying_admitParameters, copying_admitType]
  refine (Tracks.of_uniform (checker.uniform_admitForm _)).bind fun _ => ?_
  refine (Tracks.of_uniform (checker.uniform_admitParameters _ _)).bind fun _ => ?_
  refine (Tracks.of_uniform (checker.uniform_admitDeclared _ _)).bind fun _ => ?_
  apply tracks_body inner clears
  intro bodyType
  cases declared with
  | none => exact .pure _
  | some result =>
    refine (Tracks.of_uniform (uniform_expectResult body result bodyType)).bind fun _ => ?_
    exact .pure _

/-- Constants, if their values and the rests are tracked. -/
theorem tracked_constant {span : Span} {name : String} {value rest : Term}
    (inner : checker.Tracked copies value) (tail : checker.Tracked copies rest) :
    checker.Tracked copies (.constant span name value rest) := by
  intro names members environment clears
  have inValue := clears.part (List.mem_cons_self : value ∈ [value, rest])
  have inRest := clears.part (List.mem_cons_of_mem value (List.mem_singleton_self rest))
  have finish : ∀ type, Tracks names members
      (Check.withBindings [(name, type)] ((checker.copying true).typeOf rest))
      (Check.withBindings [(name, type)] ((checker.copying copies).typeOf rest)) environment :=
    fun type => .withBindings [(name, type)] (tail inRest)
  rw [typeOf, typeOf]
  simp only [copying_admitForm, copying_selfType?]
  refine (Tracks.of_uniform (checker.uniform_admitForm _)).bind fun _ => ?_
  cases known : checker.selfType? value with
  | some type => exact (Tracks.withBindings [(name, type)] (inner inValue)).bind finish
  | none =>
    -- The constant is not known in its value, where its name may still be one of those around.
    have free : value.freeNames checker.variant ⊆ names := by
      have inTerm := clears.free
      rw [Term.freeNames, List.append_subset, knownInValue_eq, known] at inTerm
      simpa using inTerm.1
    exact (inner (inValue.narrow (List.subset_append_right _ _) free)).bind finish

/-- Function declarations, if their bodies and the rests are tracked. -/
theorem tracked_declaration {span : Span} {name : String} {parameters : List (String × Ty)}
    {declared : Ty} {body rest : Term} (inner : checker.Tracked copies body)
    (tail : checker.Tracked copies rest) :
    checker.Tracked copies (.declaration span name parameters declared body rest) := by
  intro names members environment clears
  have inBody := clears.part (List.mem_cons_self : body ∈ [body, rest])
  have inRest := clears.part (List.mem_cons_of_mem body (List.mem_singleton_self rest))
  rw [typeOf, typeOf]
  simp only [copying_admitForm, copying_admitParameters, copying_admitType]
  refine (Tracks.of_uniform (checker.uniform_admitForm _)).bind fun _ => ?_
  refine (Tracks.of_uniform (checker.uniform_admitParameters _ _)).bind fun _ => ?_
  refine (Tracks.of_uniform (checker.uniform_admitType _ _)).bind fun _ => ?_
  refine (Tracks.withBindings _ (inner inBody)).bind fun bodyType => ?_
  refine (Tracks.of_uniform (uniform_expectResult body declared bodyType)).bind fun _ => ?_
  -- The parameters are not known in the rest.
  have free : rest.freeNames checker.variant ⊆ name :: names := by
    have inTerm := clears.free
    rw [Term.freeNames, List.append_subset] at inTerm
    intro other isFree
    by_cases same : other = name
    · exact List.mem_cons.2 (.inl same)
    · exact List.mem_cons_of_mem name (inTerm.2 (by simp [isFree, same]))
  have within : name :: names ⊆ name :: parameters.map Prod.fst ++ names :=
    List.cons_subset_cons name (List.subset_append_right _ _)
  exact .withBindings [(name, .function parameters declared)] (tail (inRest.narrow within free))

/-- The parts of a term that binds no names itself are checked among the same names. -/
theorem Clears.tracks {term : Term} (clears : checker.Clears copies names members term)
    (bindsNone : term.ownBinders = []) (tracked : ∀ part ∈ term.parts, checker.Tracked copies part)
    (environment : Environment) :
    ∀ part ∈ term.parts, Tracks names members ((checker.copying true).typeOf part)
      ((checker.copying copies).typeOf part) environment := by
  intro part isPart
  have inPart := clears.part isPart
  rw [bindsNone, List.nil_append] at inPart
  exact tracked part isPart inPart

/-- A check that may or may not copy environments does what the check that copies them does, as far
as the names of the term allow. -/
theorem tracked (checker : Checker) (copies : Bool) (term : Term) :
    checker.Tracked copies term := by
  induction term using Term.induction_parts with
  | step term ih =>
    cases term with
    | boolean span value =>
      intro names members environment _
      rw [typeOf, typeOf]
      exact (Tracks.of_uniform (checker.uniform_admitForm _)).bind fun _ => .pure _
    | number span value =>
      intro names members environment _
      rw [typeOf, typeOf]
      exact (Tracks.of_uniform (checker.uniform_admitForm _)).bind fun _ => .pure _
    | add span left right =>
      intro names members environment clears
      have tracks := clears.tracks rfl ih environment
      rw [Term.parts, List.forall_mem_cons, List.forall_mem_singleton] at tracks
      rw [typeOf, typeOf]
      refine (Tracks.of_uniform (checker.uniform_admitForm _)).bind fun _ => ?_
      refine tracks.1.bind fun leftType => ?_
      refine (Tracks.of_uniform (uniform_expectNumber left leftType)).bind fun _ => ?_
      refine tracks.2.bind fun rightType => ?_
      refine (Tracks.of_uniform (uniform_expectNumber right rightType)).bind fun _ => ?_
      exact .pure _
    | conditional span condition positive negative =>
      intro names members environment clears
      have tracks := clears.tracks rfl ih environment
      rw [Term.parts, List.forall_mem_cons, List.forall_mem_cons,
        List.forall_mem_singleton] at tracks
      rw [typeOf, typeOf]
      refine (Tracks.of_uniform (checker.uniform_admitForm _)).bind fun _ => ?_
      refine tracks.1.bind fun testType => ?_
      refine (Tracks.of_uniform (checker.uniform_expectCondition _ testType)).bind fun _ => ?_
      refine tracks.2.1.bind fun positiveType => ?_
      refine tracks.2.2.bind fun negativeType => ?_
      exact .of_uniform (checker.uniform_join span.start positiveType negativeType)
    | reference span name =>
      intro names members environment clears
      rw [typeOf, typeOf]
      refine (Tracks.of_uniform (checker.uniform_admitForm _)).bind fun _ => ?_
      exact .reference (clears.free (List.mem_singleton_self name)) span.start
    | function span parameters declared body =>
      exact tracked_function (ih body (List.mem_singleton_self body))
    | call span callee arguments =>
      intro names members environment clears
      have tracks := clears.tracks rfl ih environment
      rw [Term.parts, List.forall_mem_cons] at tracks
      rw [typeOf, typeOf]
      refine (Tracks.of_uniform (checker.uniform_admitForm _)).bind fun _ => ?_
      refine tracks.1.bind fun calleeType => ?_
      split
      · split
        · refine (tracks_checkArguments tracks.2 _).bind fun _ => ?_
          exact .pure _
        · exact .fail _ _
      · exact .fail _ _
    | sequence span first rest =>
      intro names members environment clears
      have tracks := clears.tracks rfl ih environment
      rw [Term.parts, List.forall_mem_cons, List.forall_mem_singleton] at tracks
      rw [typeOf, typeOf]
      refine (Tracks.of_uniform (checker.uniform_admitForm _)).bind fun _ => ?_
      exact tracks.1.bind fun _ => tracks.2
    | constant span name value rest =>
      rw [Term.parts, List.forall_mem_cons, List.forall_mem_singleton] at ih
      exact tracked_constant ih.1 ih.2
    | object span properties =>
      intro names members environment clears
      have tracks := clears.tracks rfl ih environment
      rw [typeOf, typeOf]
      refine (Tracks.of_uniform (checker.uniform_admitForm _)).bind fun _ => ?_
      refine (tracks_typesOf tracks).bind fun types => ?_
      exact .pure _
    | property span object name =>
      intro names members environment clears
      have tracks := clears.tracks rfl ih environment
      rw [Term.parts, List.forall_mem_singleton] at tracks
      rw [typeOf, typeOf]
      refine (Tracks.of_uniform (checker.uniform_admitForm _)).bind fun _ => ?_
      refine tracks.bind fun objectType => ?_
      split
      · split
        · exact .pure _
        · exact .fail _ _
      · exact .fail _ _
    | declaration span name parameters declared body rest =>
      rw [Term.parts, List.forall_mem_cons, List.forall_mem_singleton] at ih
      exact tracked_declaration ih.1 ih.2

/-- Nothing changes for a checker that copies environments already. -/
theorem copying_true (copies : checker.options.copyEnvironments = true) :
    checker.copying true = checker := by
  rw [copying, ← copies]

/-- With environments copied, a check does the same in environments that agree on the free names of
the term. -/
theorem tracks_typeOf (copies : checker.options.copyEnvironments = true) (term : Term)
    (environment : Environment) :
    Tracks (term.freeNames checker.variant) term.literalParameters (checker.typeOf term)
      (checker.typeOf term) environment := by
  have clears : checker.Clears true (term.freeNames checker.variant) term.literalParameters term :=
    ⟨List.Subset.refl _, by simp, List.Subset.refl _⟩
  have tracks := @tracked checker true term _ _ environment clears
  rwa [copying_true copies] at tracks

/-- With environments copied, a check leaves the environment as it was, however it ends. -/
theorem steady_typeOf (copies : checker.options.copyEnvironments = true) (term : Term) :
    (checker.typeOf term).Steady := by
  intro environment
  obtain ⟨result, events, _, ended, _⟩ :=
    tracks_typeOf copies term environment environment (.refl _ _)
  rw [ended]

/-- With environments copied, the check of a term comes to the same in environments that agree on
the free names of the term, and reports the same events. It leaves each environment as it was. All
this holds whether the term is accepted or refused, or a comparison does not end. -/
theorem typeOf_of_agreeOn (checker : Checker) (copies : checker.options.copyEnvironments = true)
    (term : Term) {environment environment' : Environment}
    (agree : AgreeOn (term.freeNames checker.variant) environment environment') :
    (checker.typeOf term environment).result = (checker.typeOf term environment').result ∧
      (checker.typeOf term environment).events = (checker.typeOf term environment').events ∧
      (checker.typeOf term environment).environment = environment ∧
      (checker.typeOf term environment').environment = environment' := by
  obtain ⟨result, events, after, ended, ended', _⟩ :=
    tracks_typeOf copies term environment environment' agree
  have steady := steady_typeOf copies term
  exact ⟨by rw [ended, ended'], by rw [ended, ended'], steady environment, steady environment'⟩

/-- A constant that calls itself with the sum of its parameter and a limit, and is then called with
a boolean. -/
def miscalled : Term :=
  let place : Span := ⟨0, 0⟩
  let sum : Term := .add place (.reference place "x") (.reference place "limit")
  let again : Term := .call place (.reference place "f") [sum]
  .constant place "f" (.function place [("x", .number)] (some .number) again)
    (.call place (.reference place "f") [.boolean ⟨7, 11⟩ true])

/-- Only the limit is free in it. What else is known by the names of the constant and its parameter
changes neither the fault nor its place, and stays known. -/
theorem typeOf_of_agreeOn_miscalled :
    let checker : Checker := ⟨.recursive, {}⟩
    let known := Environment.declare {} "limit" .number
    let shadowed := (known.declare "f" .boolean).declare "x" .boolean
    let refusal : Except (Stop Fault) Ty :=
      .error (.fault ⟨.argumentTypeMismatch .number .boolean, 7⟩)
    AgreeOn (miscalled.freeNames .recursive) known shadowed ∧
      (checker.typeOf miscalled known).result = refusal ∧
      (checker.typeOf miscalled shadowed).result = refusal ∧
      (checker.typeOf miscalled shadowed).environment = shadowed := by
  intro checker known shadowed refusal
  have free : miscalled.freeNames .recursive = ["limit"] := by decide
  have agree : AgreeOn (miscalled.freeNames .recursive) known shadowed := by
    rw [free]
    exact List.forall_mem_singleton.2 rfl
  have refused : (checker.typeOf miscalled known).result = refusal := by cbv
  obtain ⟨same, _, _, kept⟩ := typeOf_of_agreeOn checker rfl miscalled agree
  exact ⟨agree, refused, same ▸ refused, kept⟩

end Checker

end Equirec
