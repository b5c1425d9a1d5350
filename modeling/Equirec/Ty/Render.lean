import Equirec.Ty

/-!
# The text of a type

Types are shown in the notation in which programs write them: `(x: number) => boolean` for
functions and `{ a: number; b: boolean }` for objects. A recursive type, which programs can
only declare by name, is shown as its binder and its body.
-/
namespace Equirec.Ty

mutual

/-- The text of a type. -/
def render : Ty → String
  | .number => "number"
  | .boolean => "boolean"
  | .function parameters result =>
    "(" ++ String.intercalate ", " (renderMembers parameters) ++ ") => " ++ result.render
  | .object properties =>
    if properties.isEmpty then "\x7b\x7d"
    else "\x7b " ++ String.intercalate "; " (renderMembers properties) ++ " \x7d"
  | .var name => name
  | .mu name body => "μ" ++ name ++ "." ++ body.render

/-- The texts of members, each with its name. -/
def renderMembers : List (String × Ty) → List String
  | [] => []
  | (name, type) :: rest => (name ++ ": " ++ type.render) :: renderMembers rest

end

@[simp]
theorem renderMembers_eq_map (members : List (String × Ty)) :
    renderMembers members = members.map fun member => member.1 ++ ": " ++ member.2.render := by
  induction members with
  | nil => rfl
  | cons member rest ih => simp [renderMembers, ih]

end Equirec.Ty
