import Equirec.Environment
import Equirec.Proofs.Machine
import Equirec.Variant

/-!
# Free names

The names that a term takes from its environment. Parameters are known in the body of their
function, a declared function in its body and in the rest of the program, and a constant in the rest
of the program. Where there are function declarations, a constant is also known in its own value
when that is a function literal with a declared result.

Of two environments that agree on the free names of a term, the copies in which one of its parts is
checked agree on the free names of the part (`Environment.AgreeOn.function` and its companions).
-/
namespace Equirec

namespace Term

/-- The names that a constant of some name makes known in its own value. -/
def knownInValue (variant : Variant) (name : String) (value : Term) : List String :=
  if variant.hasDeclarations && value.declaring?.isSome then [name] else []

mutual

/-- The names that a term uses and does not bind, in the scopes of a language. -/
def freeNames (variant : Variant) : Term → List String
  | .boolean .. | .number .. => []
  | .add _ left right => left.freeNames variant ++ right.freeNames variant
  | .conditional _ condition positive negative =>
    condition.freeNames variant ++ positive.freeNames variant ++ negative.freeNames variant
  | .reference _ name => [name]
  | .function _ parameters _ body =>
    (body.freeNames variant).filter (· ∉ parameters.map Prod.fst)
  | .call _ callee arguments => callee.freeNames variant ++ freeNamesOf variant arguments
  | .sequence _ first rest => first.freeNames variant ++ rest.freeNames variant
  | .constant _ name value rest =>
    (value.freeNames variant).filter (· ∉ knownInValue variant name value) ++
      (rest.freeNames variant).filter (· ∉ [name])
  | .object _ properties => freeNamesIn variant properties
  | .property _ whole _ => whole.freeNames variant
  | .declaration _ name parameters _ body rest =>
    (body.freeNames variant).filter (· ∉ name :: parameters.map Prod.fst) ++
      (rest.freeNames variant).filter (· ∉ [name])

/-- The names that several terms use and do not bind. -/
def freeNamesOf (variant : Variant) : List Term → List String
  | [] => []
  | term :: rest => term.freeNames variant ++ freeNamesOf variant rest

/-- The names that the properties of an object literal use and do not bind. -/
def freeNamesIn (variant : Variant) : List (String × Term) → List String
  | [] => []
  | (_, term) :: rest => term.freeNames variant ++ freeNamesIn variant rest

end

@[simp]
theorem freeNamesOf_eq_flatMap (variant : Variant) (terms : List Term) :
    freeNamesOf variant terms = terms.flatMap (freeNames variant) := by
  induction terms with
  | nil => rfl
  | cons term rest ih => simp [freeNamesOf, ih]

@[simp]
theorem freeNamesIn_eq_flatMap (variant : Variant) (properties : List (String × Term)) :
    freeNamesIn variant properties =
      properties.flatMap fun member => member.2.freeNames variant := by
  induction properties with
  | nil => rfl
  | cons member rest ih => simp [freeNamesIn, ih]

/-- Whether a term is a constant whose name occurs free in its value, a function literal with a
declared result. Whether that is the constant itself depends on the language. -/
def namesItself (variant : Variant) : Term → Bool
  | .constant _ name value _ =>
    value.declaring?.isSome && (value.freeNames variant).contains name
  | _ => false

end Term

namespace Environment

/-- Whether two environments give the same types to some names. -/
def AgreeOn (names : List String) (left right : Environment) : Prop :=
  ∀ name ∈ names, left.lookup? name = right.lookup? name

namespace AgreeOn

variable {names names' : List String} {left right : Environment}

/-- An environment agrees with itself. -/
theorem refl (names : List String) (environment : Environment) :
    AgreeOn names environment environment :=
  fun _ _ => rfl

/-- Environments agree on the names of two lists exactly when they agree on those of each. -/
theorem append_iff :
    AgreeOn (names ++ names') left right ↔ AgreeOn names left right ∧ AgreeOn names' left right :=
  List.forall_mem_append

/-- A declaration that both environments make settles its name. -/
theorem declare (name : String) (type : Ty)
    (agree : AgreeOn (names.filter (· ∉ [name])) left right) :
    AgreeOn names (left.declare name type) (right.declare name type) := by
  intro other isFree
  by_cases same : other = name
  · rw [same, lookup?_declare_self, lookup?_declare_self]
  · rw [lookup?_declare_of_ne _ _ _ _ same, lookup?_declare_of_ne _ _ _ _ same]
    exact agree other (by simp [isFree, same])

/-- Declarations that both environments make settle their names. -/
theorem declareAll (members : List (String × Ty))
    (agree : AgreeOn (names.filter (· ∉ members.map Prod.fst)) left right) :
    AgreeOn names (left.declareAll members) (right.declareAll members) := by
  induction members generalizing left right with
  | nil =>
    intro name isFree
    exact agree name (by simp [isFree])
  | cons member rest ih =>
    apply ih
    apply declare
    intro name isFree
    apply agree name
    simpa [and_comm, and_assoc] using isFree

/-- A declaration that only one environment makes does not matter for other names. -/
theorem declare_right (agree : AgreeOn names left right) {name : String} (isNew : name ∉ names)
    (type : Ty) : AgreeOn names left (right.declare name type) := by
  intro other isFree
  have differ : other ≠ name := ne_of_mem_of_not_mem isFree isNew
  rw [lookup?_declare_of_ne _ _ _ _ differ]
  exact agree other isFree

variable {variant : Variant} {span : Span} {name : String} {parameters : List (String × Ty)}

/-- Environments that agree on the free names of a function literal agree on those of its body, once
the parameters are known. -/
theorem function {declared : Option Ty} {body : Term}
    (agree : AgreeOn ((Term.function span parameters declared body).freeNames variant) left right) :
    AgreeOn (body.freeNames variant) (left.declareAll parameters)
      (right.declareAll parameters) := by
  rw [Term.freeNames] at agree
  exact declareAll parameters agree

/-- Environments that agree on the free names of a constant agree on those of its value, but for the
name if it is known there, and on those of the rest, once the constant is known. -/
theorem constant {value rest : Term}
    (agree : AgreeOn ((Term.constant span name value rest).freeNames variant) left right) :
    AgreeOn ((value.freeNames variant).filter (· ∉ Term.knownInValue variant name value))
        left right ∧
      ∀ type, AgreeOn (rest.freeNames variant) (left.declare name type)
        (right.declare name type) := by
  rw [Term.freeNames, append_iff] at agree
  exact ⟨agree.1, fun type => agree.2.declare name type⟩

/-- Environments that agree on the free names of a function declaration agree on those of its body,
once the function and the parameters are known, and on those of the rest, once the function is
known. -/
theorem declaration {declared : Ty} {body rest : Term}
    (agree : AgreeOn ((Term.declaration span name parameters declared body rest).freeNames variant)
      left right) (type : Ty) :
    AgreeOn (body.freeNames variant) (left.declareAll ((name, type) :: parameters))
        (right.declareAll ((name, type) :: parameters)) ∧
      AgreeOn (rest.freeNames variant) (left.declare name type) (right.declare name type) := by
  rw [Term.freeNames, append_iff] at agree
  exact ⟨declareAll ((name, type) :: parameters) agree.1, agree.2.declare name type⟩

end AgreeOn

end Environment

end Equirec
