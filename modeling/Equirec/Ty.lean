/-!
# Types

The types of the language are numbers, booleans, functions with named parameters, objects with
named properties, type variables, and recursive types, which bind a variable that stands for the
whole type. A recursive type denotes the infinite tree that its unfoldings approach. Names are
kept as written: which types are the same up to the names of binders is decided elsewhere.

Functions on types come in pairs, one for a type and one for the members (parameters or
properties) of a type. The companion of each pair is expressed through list operations by a
`simp` lemma beside it, and `Ty.induction` is induction in the same terms.
-/
namespace Equirec

/-- A type. -/
inductive Ty where
  /-- The type of numbers. -/
  | number
  /-- The type of booleans. -/
  | boolean
  /-- A function from its named parameters, in order, to its result. -/
  | function (parameters : List (String × Ty)) (result : Ty)
  /-- An object with its named properties, in order; a name may be repeated, and then its first
  property is the one that is seen. -/
  | object (properties : List (String × Ty))
  /-- A type variable. -/
  | var (name : String)
  /-- A recursive type: inside the body, the name stands for this type itself. -/
  | mu (name : String) (body : Ty)
  deriving Inhabited

namespace Ty

/-- Induction on types, with the hypothesis for members stated for each member of the list. -/
@[elab_as_elim, induction_eliminator]
theorem induction {motive : Ty → Prop}
    (number : motive .number) (boolean : motive .boolean)
    (function : ∀ parameters result, (∀ member ∈ parameters, motive member.2) → motive result →
      motive (.function parameters result))
    (object : ∀ properties, (∀ member ∈ properties, motive member.2) →
      motive (.object properties))
    (var : ∀ name, motive (.var name))
    (mu : ∀ name body, motive body → motive (.mu name body)) (type : Ty) : motive type :=
  @Ty.rec motive (fun members => ∀ member ∈ members, motive member.2)
    (fun member => motive member.2) number boolean function object var mu
    (fun _ isMember => nomatch isMember)
    (fun _ _ head tail _ isMember =>
      (List.mem_cons.1 isMember).elim (fun same => same ▸ head) (tail _))
    (fun _ _ type => type) type

mutual

/-- Decides whether two types are written the same. -/
def decEq (left right : Ty) : Decidable (left = right) :=
  match left, right with
  | .number, .number => isTrue rfl
  | .boolean, .boolean => isTrue rfl
  | .function parameters result, .function parameters' result' =>
    match decEqMembers parameters parameters', decEq result result' with
    | isTrue sameParameters, isTrue sameResult => isTrue (by rw [sameParameters, sameResult])
    | isFalse differ, _ => isFalse (by simp [differ])
    | _, isFalse differ => isFalse (by simp [differ])
  | .object properties, .object properties' =>
    match decEqMembers properties properties' with
    | isTrue same => isTrue (by rw [same])
    | isFalse differ => isFalse (by simp [differ])
  | .var name, .var name' =>
    if same : name = name' then isTrue (by rw [same]) else isFalse (by simp [same])
  | .mu name body, .mu name' body' =>
    if sameName : name = name' then
      match decEq body body' with
      | isTrue same => isTrue (by rw [sameName, same])
      | isFalse differ => isFalse (by simp [differ])
    else isFalse (by simp [sameName])
  | .number, .boolean | .number, .function .. | .number, .object _ | .number, .var _
  | .number, .mu .. | .boolean, .number | .boolean, .function .. | .boolean, .object _
  | .boolean, .var _ | .boolean, .mu .. | .function .., .number | .function .., .boolean
  | .function .., .object _ | .function .., .var _ | .function .., .mu .. | .object _, .number
  | .object _, .boolean | .object _, .function .. | .object _, .var _ | .object _, .mu ..
  | .var _, .number | .var _, .boolean | .var _, .function .. | .var _, .object _
  | .var _, .mu .. | .mu .., .number | .mu .., .boolean | .mu .., .function ..
  | .mu .., .object _ | .mu .., .var _ => isFalse (by simp)

/-- Decides whether two lists of members are written the same. -/
def decEqMembers (left right : List (String × Ty)) : Decidable (left = right) :=
  match left, right with
  | [], [] => isTrue rfl
  | (name, type) :: rest, (name', type') :: rest' =>
    if sameName : name = name' then
      match decEq type type', decEqMembers rest rest' with
      | isTrue sameType, isTrue sameRest => isTrue (by rw [sameName, sameType, sameRest])
      | isFalse differ, _ => isFalse (by simp [differ])
      | _, isFalse differ => isFalse (by simp [differ])
    else isFalse (by simp [sameName])
  | [], _ :: _ => isFalse (by simp)
  | _ :: _, [] => isFalse (by simp)

end

instance : DecidableEq Ty := decEq

mutual

/-- The number of nodes of a type. -/
def size : Ty → Nat
  | .number | .boolean | .var _ => 1
  | .function parameters result => sizes parameters + result.size + 1
  | .object properties => sizes properties + 1
  | .mu _ body => body.size + 1

/-- The number of nodes of all members together. -/
def sizes : List (String × Ty) → Nat
  | [] => 0
  | (_, type) :: rest => type.size + sizes rest

end

/-- Every type has at least its root. -/
theorem size_pos (type : Ty) : 0 < type.size := by
  cases type <;> simp [size]

mutual

/-- Whether a variable occurs free in a type. -/
def occurs (name : String) : Ty → Bool
  | .number | .boolean => false
  | .function parameters result => occursIn name parameters || result.occurs name
  | .object properties => occursIn name properties
  | .var other => other == name
  | .mu bound body => bound != name && body.occurs name

/-- Whether a variable occurs free in some member. -/
def occursIn (name : String) : List (String × Ty) → Bool
  | [] => false
  | (_, type) :: rest => type.occurs name || occursIn name rest

end

@[simp]
theorem occursIn_eq_any (name : String) (members : List (String × Ty)) :
    occursIn name members = members.any fun member => member.2.occurs name := by
  induction members with
  | nil => rfl
  | cons member rest ih => simp [occursIn, ih]

/-- Whether every free occurrence of a variable lies inside a function or an object, so that the
recursive type binding it has a first layer. -/
def isGuarded (name : String) : Ty → Bool
  | .var other => other != name
  | .mu bound body => bound == name || body.isGuarded name
  | .number | .boolean | .function .. | .object _ => true

mutual

/-- Whether a type mentions a variable or a recursive type anywhere. -/
def isRecursive : Ty → Bool
  | .number | .boolean => false
  | .function parameters result => isRecursiveIn parameters || result.isRecursive
  | .object properties => isRecursiveIn properties
  | .var _ | .mu .. => true

/-- Whether some member mentions a variable or a recursive type. -/
def isRecursiveIn : List (String × Ty) → Bool
  | [] => false
  | (_, type) :: rest => type.isRecursive || isRecursiveIn rest

end

@[simp]
theorem isRecursiveIn_eq_any (members : List (String × Ty)) :
    isRecursiveIn members = members.any fun member => member.2.isRecursive := by
  induction members with
  | nil => rfl
  | cons member rest ih => simp [isRecursiveIn, ih]

mutual

/-- Whether a type mentions an object type anywhere. -/
def containsObject : Ty → Bool
  | .number | .boolean | .var _ => false
  | .function parameters result => containsObjectIn parameters || result.containsObject
  | .object _ => true
  | .mu _ body => body.containsObject

/-- Whether some member mentions an object type. -/
def containsObjectIn : List (String × Ty) → Bool
  | [] => false
  | (_, type) :: rest => type.containsObject || containsObjectIn rest

end

@[simp]
theorem containsObjectIn_eq_any (members : List (String × Ty)) :
    containsObjectIn members = members.any fun member => member.2.containsObject := by
  induction members with
  | nil => rfl
  | cons member rest ih => simp [containsObjectIn, ih]

end Ty

end Equirec
