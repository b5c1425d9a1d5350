import Equirec.Proofs.WrittenTerms
import Equirec.Token.Scan

/-!
# The recursive types of programs

A program can only come by a recursive type through a declaration that mentions its own name, so
every type that it is annotated with is closed, and every recursive type in it is a function or an
object that mentions itself. The declarations of a program may shadow each other, and those of a
function body end with it; none of this lets a name escape its declaration.
-/
namespace Equirec

namespace Ty

mutual

/-- The recursive types in a type, each as its name and its body. -/
def recursions : Ty → List (String × Ty)
  | .number | .boolean | .var _ => []
  | .function parameters result => recursionsIn parameters ++ result.recursions
  | .object properties => recursionsIn properties
  | .mu name body => (name, body) :: body.recursions

/-- The recursive types in several members. -/
def recursionsIn : List (String × Ty) → List (String × Ty)
  | [] => []
  | (_, type) :: rest => type.recursions ++ recursionsIn rest

end

@[simp]
theorem recursionsIn_eq_flatMap (members : List (String × Ty)) :
    recursionsIn members = members.flatMap fun member => member.2.recursions := by
  induction members with
  | nil => rfl
  | cons member rest ih => simp [recursionsIn, ih]

/-- A type has its layers exactly when the body of each recursive type in it is a function or an
object that mentions the name of the recursive type. -/
theorem isLayered_iff_recursions (type : Ty) :
    type.isLayered = true ↔ ∀ recursion ∈ type.recursions,
      recursion.2.isLayer = true ∧ recursion.2.occurs recursion.1 = true := by
  induction type with
  | number => simp [isLayered, recursions]
  | boolean => simp [isLayered, recursions]
  | function parameters result parametersIH resultIH =>
    simp only [isLayered, isLayeredIn_eq_all, recursions, recursionsIn_eq_flatMap,
      Bool.and_eq_true, List.all_eq_true, List.forall_mem_append, List.forall_mem_flatMap, resultIH]
    exact and_congr_left' (forall₂_congr parametersIH)
  | object properties propertiesIH =>
    simp only [isLayered, isLayeredIn_eq_all, recursions, recursionsIn_eq_flatMap,
      List.all_eq_true, List.forall_mem_flatMap]
    exact forall₂_congr propertiesIH
  | var => simp [isLayered, recursions]
  | mu name body bodyIH =>
    rw [isLayered_mu, recursions, List.forall_mem_cons, bodyIH, and_assoc]

end Ty

namespace Term

/-- Every type that a program is annotated with is closed, and each recursive type in it is a
function or an object that mentions itself. -/
theorem closed_and_layered_of_ofTokens {tokens : List Token} {term : Term}
    (read : ofTokens tokens = .ok term) :
    ∀ type ∈ term.annotations, type.isClosed = true ∧ ∀ recursion ∈ type.recursions,
      recursion.2.isLayer = true ∧ recursion.2.occurs recursion.1 = true := by
  intro type annotated
  have proper := proper_of_ofTokens read type annotated
  exact ⟨proper.closed, type.isLayered_iff_recursions.1 proper.layered⟩

/-- The text of a program that declares a name again inside a function body. -/
def shadowing : String :=
  "type A = \x7b n: () => A \x7d; " ++
    "function f(x: A): A \x7b type A = (a: A) => A; const g = (y: A) => y; return x; \x7d " ++
    "(z: A) => z"

set_option maxRecDepth 4000 in
/-- Before, in and after the function body, the annotations of this program are what the name stands
for in each place, and all of them are closed. -/
theorem closed_and_layered_shadowing :
    let outer := Ty.mu "A" (.object [("n", .function [] (.var "A"))])
    let inner := Ty.mu "A" (.function [("a", .var "A")] (.var "A"))
    ∃ tokens term, Token.scan shadowing = .ok tokens ∧ ofTokens tokens = .ok term ∧
      term.annotations = [outer, outer, inner, outer] ∧
      ∀ type ∈ term.annotations, type.isClosed = true ∧ ∀ recursion ∈ type.recursions,
        recursion.2.isLayer = true ∧ recursion.2.occurs recursion.1 = true := by
  intro outer inner
  have accepted : ((Token.scan shadowing).toOption.bind fun tokens =>
      (ofTokens tokens).toOption.map annotations) = some [outer, outer, inner, outer] := by
    decide +kernel
  cases scanned : Token.scan shadowing with
  | error => simp [scanned, Except.toOption] at accepted
  | ok tokens =>
    cases read : ofTokens tokens with
    | error => simp [scanned, read, Except.toOption] at accepted
    | ok term =>
      simp only [scanned, read, Except.toOption, Option.bind_some, Option.map_some,
        Option.some.injEq] at accepted
      exact ⟨tokens, term, rfl, read, accepted, closed_and_layered_of_ofTokens read⟩

end Term

end Equirec
