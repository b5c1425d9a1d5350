import Equirec.Term

/-!
# Evaluation

Terms are evaluated by value and from left to right. The machine either evaluates a term, with the
values of the names that are known there, or returns a value to the innermost of the frames that
wait for one. It makes one step at a time, and a step that no rule allows is not made: calling what
is not a function or with another number of arguments, adding what is not a number, branching on
what is not a boolean, reading a property that is missing or a name that is not bound. A state is
stuck when it can make no step and is not the end.

How numbers are added is left open. Types are carried along in parameters and never looked at.
-/
namespace Equirec

/-- What a term comes to. -/
inductive Value where
  /-- A number. -/
  | number (value : Double)
  /-- A boolean. -/
  | boolean (value : Bool)
  /-- A function: the name by which it knows itself, if any, the values that were known where it was
  made, its parameters and its body. -/
  | function (self : Option String) (bindings : List (String × Value))
    (parameters : List (String × Ty)) (body : Term)
  /-- An object with its properties. -/
  | object (properties : List (String × Value))

/-- The values of names, latest first. -/
abbrev Bindings := List (String × Value)

/-- Bindings with parameters bound to arguments one after the other. -/
def Bindings.bindAll (bindings : Bindings) : List (String × Ty) → List Value → Bindings
  | (name, _) :: parameters, argument :: arguments =>
    Bindings.bindAll ((name, argument) :: bindings) parameters arguments
  | _, _ => bindings

/-- The bindings in which the body of a function is evaluated: it knows itself by its name, and its
parameters come after. -/
def Bindings.enter (self : Option String) (bindings : Bindings) (parameters : List (String × Ty))
    (body : Term) (arguments : List Value) : Bindings :=
  match self with
  | some name =>
    Bindings.bindAll ((name, .function self bindings parameters body) :: bindings) parameters
      arguments
  | none => Bindings.bindAll bindings parameters arguments

/-- What waits for a value. -/
inductive Frame where
  /-- The first operand of a sum; the second comes next. -/
  | addLeft (bindings : Bindings) (right : Term)
  /-- The second operand of a sum. -/
  | addRight (left : Value)
  /-- The condition of a conditional. -/
  | branch (bindings : Bindings) (positive negative : Term)
  /-- The function of a call; the arguments come next. -/
  | callee (bindings : Bindings) (arguments : List Term)
  /-- An argument of a call, after those that are done and before the rest. -/
  | argument (callee : Value) (done : List Value) (bindings : Bindings) (rest : List Term)
  /-- A value that is dropped. -/
  | discard (bindings : Bindings) (rest : Term)
  /-- The value of a constant. -/
  | constant (bindings : Bindings) (name : String) (rest : Term)
  /-- A property of an object literal, after those that are done and before the rest. -/
  | member (done : List (String × Value)) (name : String) (bindings : Bindings)
    (rest : List (String × Term))
  /-- The object of which a property is read. -/
  | property (name : String)

/-- A state of the machine. -/
inductive State where
  /-- A term is evaluated. -/
  | evaluating (term : Term) (bindings : Bindings) (frames : List Frame)
  /-- A value is returned. -/
  | returning (value : Value) (frames : List Frame)

/-- The parameters, the declared result and the body of a function literal that declares its
result. A constant is known in a value of this form. -/
def Term.declaring? : Term → Option (List (String × Ty) × Ty × Term)
  | .function _ parameters (some declared) body => some (parameters, declared, body)
  | _ => none

namespace State

/-- The evaluation of a program begins. -/
def start (term : Term) : State :=
  .evaluating term [] []

/-- Calls a value with arguments. -/
def call (callee : Value) (arguments : List Value) (frames : List Frame) : Option State :=
  match callee with
  | .function self bindings parameters body =>
    if parameters.length = arguments.length then
      some (.evaluating body (Bindings.enter self bindings parameters body arguments) frames)
    else none
  | _ => none

/-- Goes on with the arguments of a call. -/
def supply (callee : Value) (done : List Value) (bindings : Bindings) (rest : List Term)
    (frames : List Frame) : Option State :=
  match rest with
  | [] => call callee done frames
  | argument :: rest =>
    some (.evaluating argument bindings (.argument callee done bindings rest :: frames))

/-- Goes on with the properties of an object literal. -/
def collect (done : List (String × Value)) (bindings : Bindings) (rest : List (String × Term))
    (frames : List Frame) : State :=
  match rest with
  | [] => .returning (.object done) frames
  | (name, term) :: rest =>
    .evaluating term bindings (.member done name bindings rest :: frames)

/-- Gives a value to the frame that waits for it. -/
def resume (sum : Double → Double → Double) (value : Value) (frame : Frame)
    (frames : List Frame) : Option State :=
  match frame with
  | .addLeft bindings right => some (.evaluating right bindings (.addRight value :: frames))
  | .addRight left =>
    match left, value with
    | .number left, .number right => some (.returning (.number (sum left right)) frames)
    | _, _ => none
  | .branch bindings positive negative =>
    match value with
    | .boolean true => some (.evaluating positive bindings frames)
    | .boolean false => some (.evaluating negative bindings frames)
    | _ => none
  | .callee bindings arguments => supply value [] bindings arguments frames
  | .argument callee done bindings rest => supply callee (done ++ [value]) bindings rest frames
  | .discard bindings rest => some (.evaluating rest bindings frames)
  | .constant bindings name rest => some (.evaluating rest ((name, value) :: bindings) frames)
  | .member done name bindings rest =>
    some (collect (done ++ [(name, value)]) bindings rest frames)
  | .property name =>
    match value with
    | .object properties => (properties.lookup name).map (.returning · frames)
    | _ => none

/-- One step, if one can be made. -/
def step (sum : Double → Double → Double) : State → Option State
  | .evaluating term bindings frames =>
    match term with
    | .boolean _ value => some (.returning (.boolean value) frames)
    | .number _ value => some (.returning (.number value) frames)
    | .add _ left right => some (.evaluating left bindings (.addLeft bindings right :: frames))
    | .conditional _ condition positive negative =>
      some (.evaluating condition bindings (.branch bindings positive negative :: frames))
    | .reference _ name => (bindings.lookup name).map (.returning · frames)
    | .function _ parameters _ body =>
      some (.returning (.function none bindings parameters body) frames)
    | .call _ callee arguments =>
      some (.evaluating callee bindings (.callee bindings arguments :: frames))
    | .sequence _ first rest =>
      some (.evaluating first bindings (.discard bindings rest :: frames))
    | .constant _ name value rest =>
      match value.declaring? with
      | some (parameters, _, body) =>
        let function := .function (some name) bindings parameters body
        some (.evaluating rest ((name, function) :: bindings) frames)
      | none => some (.evaluating value bindings (.constant bindings name rest :: frames))
    | .object _ properties => some (collect [] bindings properties frames)
    | .property _ object name =>
      some (.evaluating object bindings (.property name :: frames))
    | .declaration _ name parameters _ body rest =>
      let function := .function (some name) bindings parameters body
      some (.evaluating rest ((name, function) :: bindings) frames)
  | .returning value frames =>
    match frames with
    | [] => none
    | frame :: frames => resume sum value frame frames

/-- The state after a number of steps, or the last one before that. -/
def run (sum : Double → Double → Double) : Nat → State → State
  | 0, state => state
  | steps + 1, state =>
    match step sum state with
    | some next => run sum steps next
    | none => state

/-- Whether a state is the end of an evaluation: a value that nothing waits for. -/
def IsFinal (state : State) : Prop :=
  ∃ value, state = .returning value []

/-- Whether a state can make no step and is not the end. -/
def IsStuck (sum : Double → Double → Double) (state : State) : Prop :=
  step sum state = none ∧ ¬ state.IsFinal

end State

end Equirec
