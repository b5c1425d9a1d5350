import Equirec.Checker.Event
import Equirec.Environment

/-!
# Steps of a check

A step of a check works in an environment, which it may change, and ends with a value or a stop.
Either way it leaves an environment and the events that happened, in order. What a step does depends
on the environment alone and never on earlier events.
-/
namespace Equirec

/-- How a step of a check ends. -/
structure Outcome (α : Type) where
  /-- The value, or why there is none. -/
  result : Except (Stop Fault) α
  /-- The environment after the step. -/
  environment : Environment
  /-- What happened, in order. -/
  events : List Event

/-- A step of a check. -/
def Check (α : Type) : Type :=
  Environment → Outcome α

namespace Check

variable {α β : Type}

/-- The step that only gives a value. -/
protected def pure (value : α) : Check α := fun environment =>
  { result := .ok value, environment, events := [] }

/-- One step and then another that may use its value; a stop of the first ends both. -/
protected def bind (step : Check α) (next : α → Check β) : Check β := fun environment =>
  let first := step environment
  match first.result with
  | .ok value =>
    let second := next value first.environment
    { second with events := first.events ++ second.events }
  | .error stop => { first with result := .error stop }

instance : Monad Check where
  pure := Check.pure
  bind := Check.bind

/-- A step that gives a value is followed by the next one, in the environment that it left. -/
theorem bind_of_ok {step : Check α} {next : α → Check β} {environment : Environment} {value : α}
    (ended : (step environment).result = .ok value) :
    (step >>= next) environment =
      { next value (step environment).environment with
        events := (step environment).events ++
          (next value (step environment).environment).events } := by
  show Check.bind step next environment = _
  rw [Check.bind, ended]

/-- A step that stops is followed by nothing. -/
theorem bind_of_error {step : Check α} {next : α → Check β} {environment : Environment}
    {stop : Stop Fault} (ended : (step environment).result = .error stop) :
    (step >>= next) environment =
      ⟨.error stop, (step environment).environment, (step environment).events⟩ := by
  show Check.bind step next environment = _
  rw [Check.bind, ended]

/-- Ends with a fault. -/
def fail (cause : Cause) (offset : Offset) : Check α := fun environment =>
  { result := .error (.fault ⟨cause, offset⟩), environment, events := [] }

/-- The type of a name that is used at a place. -/
def reference (name : String) (offset : Offset) : Check Ty := fun environment =>
  { result := (environment.typeAt name offset).mapError .fault, environment, events := [] }

/-- Adds declarations to the present environment. -/
def declareAll (members : List (String × Ty)) : Check Unit := fun environment =>
  { result := .ok (), environment := environment.declareAll members, events := [] }

/-- Performs a step in a copy of the environment with more declarations; the present environment
stays as it is. -/
def withBindings (members : List (String × Ty)) (step : Check α) : Check α := fun environment =>
  { step (environment.declareAll members) with environment }

/-- Reports an event. -/
def report (event : Event) : Check Unit := fun environment =>
  { result := .ok (), environment, events := [event] }

/-- Whether two types are related by a comparison. -/
def compare (comparison : Comparison) (left right : Ty) : Check Bool := fun environment =>
  let decision := comparison.judge left right
  { result :=
      match decision.verdict with
      | .holds => .ok true
      | .fails => .ok false
      | .endless => .error .exhausted
    environment
    events := decision.unfoldings.map .unfolded }

end Check

end Equirec
