import Equirec.Comparison
import Equirec.Fault

/-!
# What a checker reports

While it works, a checker reports what it does as a list of events. Whoever wants a log renders the
events; the check itself does not depend on them.
-/
namespace Equirec

/-- The switches of a checker. With both on, a program that is accepted cannot go wrong. -/
structure Options where
  /-- Whether conditions have to be booleans. -/
  checkConditions : Bool := true
  /-- Whether a function literal has its own copy of the environment. Without it, parameters stay
  known after the function. -/
  copyEnvironments : Bool := true
  deriving DecidableEq

/-- The options as the report of a check shows them. -/
def Options.render (options : Options) : String :=
  "CheckerOptions \x7b check_conditions: " ++ toString options.checkConditions ++
    ", copy_environments: " ++ toString options.copyEnvironments ++ " \x7d"

/-- How much detail an event is. -/
inductive Level where
  /-- A step of a check. -/
  | debug
  /-- A step of a comparison of types. -/
  | trace
  deriving DecidableEq

/-- Something that a checker reports. -/
inductive Event where
  /-- The check of a program begins. -/
  | started (variant : Variant) (options : Options)
  /-- A term or a type is not part of the language. -/
  | rejected (construct : String) (variant : Variant)
  /-- A comparison has unfolded a type. -/
  | unfolded (unfolding : Unfolding)
  /-- The check has ended with the type of the program. -/
  | typed (type : Ty)
  /-- The check has ended with a fault. -/
  | failed (cause : Cause)
  deriving DecidableEq

namespace Event

/-- How much detail an event is. -/
def level : Event → Level
  | unfolded _ => .trace
  | started .. | rejected .. | typed _ | failed _ => .debug

/-- The text of an event. -/
def message : Event → String
  | started variant options =>
    "checking program with the " ++ variant.name ++ " checker (" ++ options.render ++ ")"
  | rejected construct variant =>
    construct ++ " rejected by the " ++ variant.name ++ " checker"
  | unfolded unfolding =>
    "unfolded " ++ unfolding.before.render ++ " to " ++ unfolding.after.render
  | typed type => "program has type " ++ type.render
  | failed cause => "type checking failed: " ++ cause.message

end Event

end Equirec
