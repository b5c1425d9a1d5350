import Equirec.Ty

/-!
# Substitution and unfolding

Substitution replaces a variable by a type wherever the variable is free. It does not rename
binders, so a free variable of the replacement that meets a binder of its own name is captured by
it. Unfolding a recursive type replaces its variable by the type itself.
-/
namespace Equirec.Ty

mutual

/-- A type with every free occurrence of a variable replaced. -/
def subst (type : Ty) (name : String) (replacement : Ty) : Ty :=
  match type with
  | .number => .number
  | .boolean => .boolean
  | .function parameters result =>
    .function (substIn parameters name replacement) (result.subst name replacement)
  | .object properties => .object (substIn properties name replacement)
  | .var other => if other = name then replacement else .var other
  | .mu bound body =>
    if bound = name then .mu bound body else .mu bound (body.subst name replacement)

/-- Members with every free occurrence of a variable replaced. -/
def substIn (members : List (String × Ty)) (name : String) (replacement : Ty) :
    List (String × Ty) :=
  match members with
  | [] => []
  | (label, type) :: rest => (label, type.subst name replacement) :: substIn rest name replacement

end

@[simp]
theorem substIn_eq_map (members : List (String × Ty)) (name : String) (replacement : Ty) :
    substIn members name replacement =
      members.map fun member => (member.1, member.2.subst name replacement) := by
  induction members with
  | nil => rfl
  | cons member rest ih => simp [substIn, ih]

/-- The recursive type with the given variable and body, unfolded once. -/
def unfolded (name : String) (body : Ty) : Ty :=
  body.subst name (.mu name body)

/-- A recursive type unfolded once; other types have no unfolding. -/
def unfolding? : Ty → Option Ty
  | .mu name body => some (unfolded name body)
  | _ => none

end Equirec.Ty
