import Equirec.Proofs.Typing

/-!
# Accepted programs do not get stuck

A state of the machine is safe when what it evaluates or returns has the type that the frames wait
for. A safe state is the end or makes a step to a safe state (`State.Safe.step`), so no number of
steps leads from a safe state to a stuck one. The evaluation of a program that the checker accepts
begins in a safe state.
-/
namespace Equirec

open Ty (UsableAs UsableLayer)

/-! ## Values -/

/-- The environment in which a function knows itself by its name, if it has one. -/
def Environment.declareSelf (environment : Environment) (self : Option String) (type : Ty) :
    Environment :=
  match self with
  | some name => environment.declare name type
  | none => environment

namespace Value

mutual

/-- The types that a value has. -/
inductive HasType : Value → Ty → Prop where
  /-- A number. -/
  | number {value : Double} {type : Ty} (usable : UsableAs .number type) :
    HasType (.number value) type
  /-- A boolean. -/
  | boolean {value : Bool} {type : Ty} (usable : UsableAs .boolean type) :
    HasType (.boolean value) type
  /-- A function whose body has the result where the values that were known have their types. -/
  | function {self : Option String} {bindings : Bindings} {parameters : List (String × Ty)}
    {body : Term} {environment : Environment} {result type : Ty}
    (wellFormed : (Ty.function parameters result).WellFormed)
    (known : MembersHaveTypes bindings environment.bindings)
    (inner : body.HasType
      ((environment.declareSelf self (.function parameters result)).declareAll parameters) result)
    (usable : UsableAs (.function parameters result) type) :
    HasType (.function self bindings parameters body) type
  /-- An object. -/
  | object {properties : List (String × Value)} {types : List (String × Ty)} {type : Ty}
    (values : MembersHaveTypes properties types) (usable : UsableAs (.object types) type) :
    HasType (.object properties) type

/-- Values have the types of the same names, in order. -/
inductive MembersHaveTypes : List (String × Value) → List (String × Ty) → Prop where
  /-- No values. -/
  | nil : MembersHaveTypes [] []
  /-- One more value. -/
  | cons {name : String} {value : Value} {members : List (String × Value)} {type : Ty}
    {types : List (String × Ty)} (head : HasType value type)
    (tail : MembersHaveTypes members types) :
    MembersHaveTypes ((name, value) :: members) ((name, type) :: types)

end

/-- A value has every type that one of its types can be used as. -/
theorem HasType.subsume {value : Value} {type type' : Ty} (typed : value.HasType type)
    (usable : UsableAs type type') : value.HasType type' := by
  cases typed with
  | number usable' => exact .number (usable'.trans usable)
  | boolean usable' => exact .boolean (usable'.trans usable)
  | function wellFormed known inner usable' =>
    exact .function wellFormed known inner (usable'.trans usable)
  | object values usable' => exact .object values (usable'.trans usable)

/-- A value of the type of numbers is a number. -/
theorem HasType.exists_number {value : Value} (typed : value.HasType .number) :
    ∃ number, value = .number number := by
  cases typed with
  | number => exact ⟨_, rfl⟩
  | boolean usable => cases usable.layer rfl rfl
  | function _ _ _ usable => cases usable.layer rfl rfl
  | object _ usable => cases usable.layer rfl rfl

/-- A value of the type of booleans is a boolean. -/
theorem HasType.exists_boolean {value : Value} (typed : value.HasType .boolean) :
    ∃ truth, value = .boolean truth := by
  cases typed with
  | number usable => cases usable.layer rfl rfl
  | boolean => exact ⟨_, rfl⟩
  | function _ _ _ usable => cases usable.layer rfl rfl
  | object _ usable => cases usable.layer rfl rfl

namespace MembersHaveTypes

/-- A name that has a type has a value of that type. -/
theorem exists_lookup {members : List (String × Value)} {types : List (String × Ty)}
    (typed : MembersHaveTypes members types) {name : String} {type : Ty}
    (found : types.lookup name = some type) :
    ∃ value, members.lookup name = some value ∧ value.HasType type := by
  induction members generalizing types with
  | nil =>
    cases typed
    simp at found
  | cons member members ih =>
    cases typed with
    | @cons label value _ type' types head tail =>
      by_cases same : name = label
      · subst same
        rw [List.lookup_cons_self, Option.some.injEq] at found
        exact ⟨value, List.lookup_cons_self, found ▸ head⟩
      · have differ : (name == label) = false := by simpa using same
        rw [List.lookup_cons, differ] at found
        rw [List.lookup_cons, differ]
        exact ih tail found

/-- One more value may come last. -/
theorem concat {members : List (String × Value)} {types : List (String × Ty)}
    (typed : MembersHaveTypes members types) (name : String) {value : Value} {type : Ty}
    (last : value.HasType type) :
    MembersHaveTypes (members ++ [(name, value)]) (types ++ [(name, type)]) := by
  induction members generalizing types with
  | nil =>
    cases typed
    exact .cons last .nil
  | cons member members ih =>
    cases typed with
    | cons head tail => exact .cons head (ih tail)

/-- Arguments with the types of parameters may be bound to them. -/
theorem bindAll {bindings : Bindings} {environment : Environment}
    (known : MembersHaveTypes bindings environment.bindings) {arguments : List Value}
    {parameters : List (String × Ty)}
    (values : List.Forall₂ (fun value member => value.HasType member.2) arguments parameters) :
    MembersHaveTypes (bindings.bindAll parameters arguments)
      (environment.declareAll parameters).bindings := by
  induction values generalizing bindings environment with
  | nil => exact known
  | cons head tail ih => exact ih (.cons head known)

end MembersHaveTypes

/-- A function that knows itself may be bound to its name. -/
theorem MembersHaveTypes.bindSelf {bindings : Bindings} {environment : Environment}
    (known : MembersHaveTypes bindings environment.bindings) {name : String}
    {parameters : List (String × Ty)} {result : Ty} {body : Term}
    (wellFormed : (Ty.function parameters result).WellFormed)
    (inner : body.HasType
      ((environment.declare name (.function parameters result)).declareAll parameters) result) :
    MembersHaveTypes ((name, .function (some name) bindings parameters body) :: bindings)
      (environment.declare name (.function parameters result)).bindings :=
  .cons (.function wellFormed known inner (.refl wellFormed)) known

/-- The bindings in which the body of a function is evaluated have the types with which the body
was checked. -/
theorem MembersHaveTypes.enter {self : Option String} {bindings : Bindings}
    {environment : Environment} (known : MembersHaveTypes bindings environment.bindings)
    {parameters : List (String × Ty)} {result : Ty} {body : Term}
    (wellFormed : (Ty.function parameters result).WellFormed)
    (inner : body.HasType
      ((environment.declareSelf self (.function parameters result)).declareAll parameters) result)
    {arguments : List Value}
    (values : List.Forall₂ (fun value member => value.HasType member.2) arguments parameters) :
    MembersHaveTypes (Bindings.enter self bindings parameters body arguments)
      ((environment.declareSelf self (.function parameters result)).declareAll
        parameters).bindings := by
  cases self with
  | none => exact known.bindAll values
  | some name => exact (known.bindSelf wellFormed inner).bindAll values

end Value

/-! ## States -/

/-- Frames that wait for a value of a type. -/
inductive Frame.Await : List Frame → Ty → Prop where
  /-- Nothing waits at the end of the evaluation. -/
  | nil {type : Ty} : Await [] type
  /-- The first operand of a sum. -/
  | addLeft {bindings : Bindings} {environment : Environment} {right : Term}
    {frames : List Frame} {type : Ty} (known : Value.MembersHaveTypes bindings environment.bindings)
    (second : right.HasType environment .number) (usable : UsableAs .number type)
    (outer : Await frames type) : Await (.addLeft bindings right :: frames) .number
  /-- The second operand of a sum. -/
  | addRight {left : Value} {frames : List Frame} {type : Ty} (first : left.HasType .number)
    (usable : UsableAs .number type) (outer : Await frames type) :
    Await (.addRight left :: frames) .number
  /-- The condition of a conditional. -/
  | branch {bindings : Bindings} {environment : Environment} {positive negative : Term}
    {frames : List Frame} {type : Ty} (known : Value.MembersHaveTypes bindings environment.bindings)
    (holds : positive.HasType environment type) (fails : negative.HasType environment type)
    (outer : Await frames type) : Await (.branch bindings positive negative :: frames) .boolean
  /-- The function of a call. -/
  | callee {bindings : Bindings} {environment : Environment} {arguments : List Term}
    {parameters : List (String × Ty)} {result type : Ty} {frames : List Frame}
    (known : Value.MembersHaveTypes bindings environment.bindings)
    (values : Term.HaveTypes arguments environment parameters) (usable : UsableAs result type)
    (outer : Await frames type) :
    Await (.callee bindings arguments :: frames) (.function parameters result)
  /-- An argument of a call, of the type of the first parameter that is left. -/
  | argument {callee : Value} {done : List Value} {bindings : Bindings} {rest : List Term}
    {environment : Environment} {before after : List (String × Ty)} {name : String}
    {expected result type : Ty} {frames : List Frame}
    (function : callee.HasType (.function (before ++ (name, expected) :: after) result))
    (values : List.Forall₂ (fun value member => value.HasType member.2) done before)
    (known : Value.MembersHaveTypes bindings environment.bindings)
    (later : Term.HaveTypes rest environment after) (usable : UsableAs result type)
    (outer : Await frames type) :
    Await (.argument callee done bindings rest :: frames) expected
  /-- A value that is dropped. -/
  | discard {bindings : Bindings} {environment : Environment} {rest : Term} {frames : List Frame}
    {dropped type : Ty} (known : Value.MembersHaveTypes bindings environment.bindings)
    (tail : rest.HasType environment type) (outer : Await frames type) :
    Await (.discard bindings rest :: frames) dropped
  /-- The value of a constant. -/
  | constant {bindings : Bindings} {environment : Environment} {name : String} {rest : Term}
    {frames : List Frame} {expected type : Ty}
    (known : Value.MembersHaveTypes bindings environment.bindings)
    (tail : rest.HasType (environment.declare name expected) type) (outer : Await frames type) :
    Await (.constant bindings name rest :: frames) expected
  /-- A property of an object literal. -/
  | member {done : List (String × Value)} {bindings : Bindings} {rest : List (String × Term)}
    {environment : Environment} {before after : List (String × Ty)} {name : String}
    {expected type : Ty} {frames : List Frame} (values : Value.MembersHaveTypes done before)
    (known : Value.MembersHaveTypes bindings environment.bindings)
    (later : Term.MembersHaveTypes rest environment after)
    (usable : UsableAs (.object (before ++ (name, expected) :: after)) type)
    (outer : Await frames type) : Await (.member done name bindings rest :: frames) expected
  /-- The object of which a property is read. -/
  | property {name : String} {types : List (String × Ty)} {found type : Ty} {frames : List Frame}
    (isProperty : types.lookup name = some found) (usable : UsableAs found type)
    (outer : Await frames type) : Await (.property name :: frames) (.object types)

namespace State

/-- States in which what is evaluated or returned has the type that the frames wait for. -/
inductive Safe : State → Prop where
  /-- A term is evaluated. -/
  | evaluating {term : Term} {bindings : Bindings} {frames : List Frame}
    {environment : Environment} {type : Ty}
    (known : Value.MembersHaveTypes bindings environment.bindings)
    (typed : term.HasType environment type) (outer : Frame.Await frames type) :
    Safe (.evaluating term bindings frames)
  /-- A value is returned. -/
  | returning {value : Value} {frames : List Frame} {type : Ty} (typed : value.HasType type)
    (outer : Frame.Await frames type) : Safe (.returning value frames)

/-- Whether a step was made, and to a safe state. -/
def Advances (next : Option State) : Prop :=
  ∃ state, next = some state ∧ state.Safe

variable {bindings : Bindings} {environment : Environment} {frames : List Frame} {type : Ty}

/-- A function may be called with arguments of the types of its parameters. -/
theorem advances_call {callee : Value} {arguments : List Value}
    {parameters : List (String × Ty)} {result : Ty}
    (function : callee.HasType (.function parameters result))
    (values : List.Forall₂ (fun value member => value.HasType member.2) arguments parameters)
    (usable : UsableAs result type) (outer : Frame.Await frames type) :
    Advances (call callee arguments frames) := by
  cases function with
  | number usable => cases usable.layer rfl rfl
  | boolean usable => cases usable.layer rfl rfl
  | @function _ _ parameters' _ _ _ _ wellFormed known inner usable' =>
    cases usable'.layer rfl rfl with
    | function places results =>
      have count : parameters'.length = arguments.length :=
        places.length_eq.trans values.length_eq.symm
      have values' : List.Forall₂ (fun value member => value.HasType member.2) arguments
          parameters' := by
        refine (Members.forall₂_comp values places.flip).imp ?_
        rintro value member ⟨between, typed, usable⟩
        exact typed.subsume usable
      rw [call, if_pos count]
      exact ⟨_, rfl, .evaluating (known.enter wellFormed inner values')
        (inner.subsume (results.trans usable)) outer⟩
  | object _ usable => cases usable.layer rfl rfl

/-- A call goes on to its next argument, or its function is called. -/
theorem advances_supply {callee : Value} {done : List Value} {rest : List Term}
    {before after : List (String × Ty)} {result : Ty}
    (function : callee.HasType (.function (before ++ after) result))
    (values : List.Forall₂ (fun value member => value.HasType member.2) done before)
    (known : Value.MembersHaveTypes bindings environment.bindings)
    (later : Term.HaveTypes rest environment after) (usable : UsableAs result type)
    (outer : Frame.Await frames type) :
    Advances (supply callee done bindings rest frames) := by
  cases later with
  | nil =>
    rw [List.append_nil] at function
    exact advances_call function values usable outer
  | cons head tail =>
    exact ⟨_, rfl, .evaluating known head (.argument function values known tail usable outer)⟩

/-- An object literal goes on to its next property, or the object is returned. -/
theorem safe_collect {done : List (String × Value)} {rest : List (String × Term)}
    {before after : List (String × Ty)} (values : Value.MembersHaveTypes done before)
    (known : Value.MembersHaveTypes bindings environment.bindings)
    (later : Term.MembersHaveTypes rest environment after)
    (usable : UsableAs (.object (before ++ after)) type) (outer : Frame.Await frames type) :
    (collect done bindings rest frames).Safe := by
  cases later with
  | nil =>
    rw [List.append_nil] at usable
    exact .returning (.object values usable) outer
  | cons head tail => exact .evaluating known head (.member values known tail usable outer)

/-- A property of the type of an object can be read from the object. -/
theorem advances_property {value : Value} {types : List (String × Ty)} {name : String}
    {found : Ty} (typed : value.HasType (.object types))
    (isProperty : types.lookup name = some found) (usable : UsableAs found type)
    (outer : Frame.Await frames type) (sum : Double → Double → Double) :
    Advances (resume sum value (.property name) frames) := by
  cases typed with
  | number usable => cases usable.layer rfl rfl
  | boolean usable => cases usable.layer rfl rfl
  | function _ _ _ usable => cases usable.layer rfl rfl
  | @object properties types' _ values usable' =>
    cases usable'.layer rfl rfl with
    | object names related =>
      have isMember := Members.mem_of_lookup isProperty
      have isName := names name (List.mem_map_of_mem isMember)
      obtain ⟨found', isProperty'⟩ := Members.exists_lookup_of_mem_names isName
      obtain ⟨member, isRead, typed⟩ := values.exists_lookup isProperty'
      have usable'' := related name found' found (Members.mem_of_lookup isProperty') isMember
      rw [resume, isRead]
      exact ⟨_, rfl, .returning (typed.subsume (usable''.trans usable)) outer⟩

/-- The innermost frame goes on with a value of the type that it waits for. -/
theorem advances_resume {value : Value} {frame : Frame} (typed : value.HasType type)
    (awaits : Frame.Await (frame :: frames) type) (sum : Double → Double → Double) :
    Advances (resume sum value frame frames) := by
  cases awaits with
  | addLeft known second usable outer =>
    exact ⟨_, rfl, .evaluating known second (.addRight typed usable outer)⟩
  | addRight first usable outer =>
    obtain ⟨left, rfl⟩ := first.exists_number
    obtain ⟨right, rfl⟩ := typed.exists_number
    exact ⟨_, rfl, .returning (.number usable) outer⟩
  | branch known holds fails outer =>
    obtain ⟨truth, rfl⟩ := typed.exists_boolean
    cases truth with
    | true => exact ⟨_, rfl, .evaluating known holds outer⟩
    | false => exact ⟨_, rfl, .evaluating known fails outer⟩
  | @callee _ _ _ parameters result _ _ known values usable outer =>
    have function : value.HasType (.function ([] ++ parameters) result) := typed
    exact advances_supply function .nil known values usable outer
  | @argument _ done _ _ _ before _ name _ _ _ _ function values known later usable outer =>
    rw [List.append_cons] at function
    have last : List.Forall₂ (fun value member => value.HasType member.2) [value]
        [(name, type)] := .cons typed .nil
    exact advances_supply function (List.rel_append values last) known later usable outer
  | discard known tail outer => exact ⟨_, rfl, .evaluating known tail outer⟩
  | @constant bindings environment name _ _ _ _ known tail outer =>
    have known' : Value.MembersHaveTypes ((name, value) :: bindings)
        (environment.declare name type).bindings := .cons typed known
    exact ⟨_, rfl, .evaluating known' tail outer⟩
  | member values known later usable outer =>
    rw [List.append_cons] at usable
    exact ⟨_, rfl, safe_collect (values.concat _ typed) known later usable outer⟩
  | property isProperty usable outer => exact advances_property typed isProperty usable outer sum

/-- A term that has the type that the frames wait for makes a step. -/
theorem advances_evaluate {term : Term}
    (known : Value.MembersHaveTypes bindings environment.bindings)
    (typed : term.HasType environment type) (outer : Frame.Await frames type)
    (sum : Double → Double → Double) : Advances (step sum (.evaluating term bindings frames)) := by
  cases typed with
  | boolean usable => exact ⟨_, rfl, .returning (.boolean usable) outer⟩
  | number usable => exact ⟨_, rfl, .returning (.number usable) outer⟩
  | add first second usable =>
    exact ⟨_, rfl, .evaluating known first (.addLeft known second usable outer)⟩
  | conditional test holds fails =>
    exact ⟨_, rfl, .evaluating known test (.branch known holds fails outer)⟩
  | reference found usable =>
    obtain ⟨value, isBound, typed⟩ := known.exists_lookup found
    rw [step, isBound]
    exact ⟨_, rfl, .returning (typed.subsume usable) outer⟩
  | function wellFormed inner usable =>
    exact ⟨_, rfl, .returning (.function wellFormed known inner usable) outer⟩
  | call function values usable =>
    exact ⟨_, rfl, .evaluating known function (.callee known values usable outer)⟩
  | sequence head tail => exact ⟨_, rfl, .evaluating known head (.discard known tail outer)⟩
  | constant plain inner tail =>
    rw [step, plain]
    exact ⟨_, rfl, .evaluating known inner (.constant known tail outer)⟩
  | recursive declares wellFormed inner tail =>
    rw [step, declares]
    exact ⟨_, rfl, .evaluating (known.bindSelf wellFormed inner) tail outer⟩
  | object values usable => exact ⟨_, rfl, safe_collect .nil known values usable outer⟩
  | property whole found usable =>
    exact ⟨_, rfl, .evaluating known whole (.property found usable outer)⟩
  | declaration wellFormed inner tail =>
    exact ⟨_, rfl, .evaluating (known.bindSelf wellFormed inner) tail outer⟩

/-- A safe state is the end, or it makes a step to a safe state. -/
theorem Safe.step {state : State} (safe : state.Safe) (sum : Double → Double → Double) :
    state.IsFinal ∨ Advances (State.step sum state) := by
  cases safe with
  | evaluating known typed outer => exact .inr (advances_evaluate known typed outer sum)
  | @returning value frames _ typed outer =>
    cases frames with
    | nil => exact .inl ⟨value, rfl⟩
    | cons frame frames => exact .inr (advances_resume typed outer sum)

/-- Safe states stay safe. -/
theorem Safe.run {state : State} (safe : state.Safe) (sum : Double → Double → Double)
    (steps : Nat) : (State.run sum steps state).Safe := by
  induction steps generalizing state with
  | zero => exact safe
  | succ steps ih =>
    rw [State.run]
    split
    · rename_i next made
      rcases safe.step sum with ⟨value, rfl⟩ | ⟨next', made', safe'⟩
      · cases made
      · rw [made, Option.some.injEq] at made'
        exact ih (made' ▸ safe')
    · exact safe

/-- A safe state is not stuck. -/
theorem Safe.not_isStuck {state : State} (safe : state.Safe) (sum : Double → Double → Double) :
    ¬ state.IsStuck sum := by
  rintro ⟨none, unfinished⟩
  rcases safe.step sum with final | ⟨next, made, _⟩
  · exact unfinished final
  · rw [none] at made
    cases made

/-- The evaluation of a program that a strict checker accepts begins in a safe state. -/
theorem safe_start {checker : Checker} (strict : checker.Strict) {term : Term}
    (wellFormed : term.isWellFormed = true)
    (accepted : (checker.check term {}).result = .ok type) : (start term).Safe := by
  obtain ⟨_, _, typed⟩ :=
    checker.types strict term wellFormed {} Environment.wellFormed_empty type accepted
  exact .evaluating .nil typed .nil

/-- A well-formed program that the checker accepts by default, in a language with function
declarations, never gets stuck, however far it is evaluated and whatever sums come to. -/
theorem not_isStuck_of_check {variant : Variant} (declares : variant.hasDeclarations = true)
    {term : Term} (wellFormed : term.isWellFormed = true) {type : Ty}
    (accepted : (Checker.check ⟨variant, {}⟩ term {}).result = .ok type)
    (sum : Double → Double → Double) (steps : Nat) :
    ¬ (run sum steps (start term)).IsStuck sum := by
  have strict : Checker.Strict ⟨variant, {}⟩ := ⟨declares, rfl, rfl⟩
  have safe := safe_start strict wellFormed accepted
  exact (safe.run sum steps).not_isStuck sum

/-- A program that declares endless streams of one number, and passes one to a function that asks
for its head only. -/
def streamHead : Term :=
  let place : Span := ⟨0, 0⟩
  let stream : Ty := .mu "S" (.object [("head", .number), ("tail", .function [] (.var "S"))])
  .declaration place "repeat" [("n", .number)] stream
    (.object place [("head", .reference place "n"),
      ("tail", .function place [] none
        (.call place (.reference place "repeat") [.reference place "n"]))])
    (.call place
      (.function place [("s", .object [("head", .number)])] none
        (.property place (.reference place "s") "head"))
      [.call place (.reference place "repeat")
        [.add place (.number place ⟨0⟩) (.number place ⟨0⟩)]])

/-- The program of streams is accepted with subtyping and does not get stuck. -/
theorem not_isStuck_streamHead :
    (Checker.check ⟨.subtyping, {}⟩ streamHead {}).result = .ok .number ∧
      ¬ (run (fun left _ => left) 24 (start streamHead)).IsStuck fun left _ => left := by
  have accepted : (Checker.check ⟨.subtyping, {}⟩ streamHead {}).result = .ok .number := by cbv
  exact ⟨accepted, not_isStuck_of_check (by decide) (by decide) accepted (fun left _ => left) 24⟩

end State

end Equirec
