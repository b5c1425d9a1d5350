import Equirec.Ty

/-!
# Equality up to the names of binders

Two types are alike when they differ only in the names of their binders, in the names of function
parameters and in the order of properties. The comparison walks both types together and keeps the
pairs of binders that it has passed, innermost first. Two variables are alike when the innermost
pair that mentions either of them consists of both, or, when no pair mentions them, when they have
the same name.

An object that repeats a property name is compared by looking up each of its properties in the
other object, where only the first of that name is seen. Such an object need not even be alike to
itself.
-/
namespace Equirec.Ty

/-- Whether two variables mean the same under pairs of binders, innermost first. -/
def sameVar (binders : List (String × String)) (left right : String) : Bool :=
  match binders.find? fun pair => pair.1 == left || pair.2 == right with
  | some (boundLeft, boundRight) => boundLeft == left && boundRight == right
  | none => left == right

mutual

/-- Whether two types are alike under pairs of binders already passed. -/
def alikeUnder (binders : List (String × String)) : Ty → Ty → Bool
  | .number, .number => true
  | .boolean, .boolean => true
  | .function parameters result, .function parameters' result' =>
    parameters.length == parameters'.length && alikeParameters binders parameters parameters' &&
      alikeUnder binders result result'
  | .object properties, .object properties' =>
    properties.length == properties'.length && alikeProperties binders properties properties'
  | .var name, .var name' => sameVar binders name name'
  | .mu name body, .mu name' body' => alikeUnder ((name, name') :: binders) body body'
  | _, _ => false

/-- Whether parameters are alike one by one, as far as both lists go. -/
def alikeParameters (binders : List (String × String)) :
    List (String × Ty) → List (String × Ty) → Bool
  | (_, type) :: rest, (_, type') :: rest' =>
    alikeUnder binders type type' && alikeParameters binders rest rest'
  | _, _ => true

/-- Whether each property of the first list is alike to the property of its name in the second. -/
def alikeProperties (binders : List (String × String)) :
    List (String × Ty) → List (String × Ty) → Bool
  | [], _ => true
  | (name, type) :: rest, others =>
    (match others.lookup name with
      | some type' => alikeUnder binders type type'
      | none => false) && alikeProperties binders rest others

end

/-- Whether two types are the same up to the names of binders and parameters and the order of
properties. -/
def alike (left right : Ty) : Bool :=
  alikeUnder [] left right

end Equirec.Ty
