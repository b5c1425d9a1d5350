import Equirec.Term
import Mathlib.Data.List.Basic

/-!
# What a program declares

The types that a term is annotated with, and the property names of its object literals, as lists.
All that a check makes of types it makes of these.

A term consists of the terms one layer down, and of all terms that these consist of. What passes
from every term to its parts passes to all its subterms (`Term.forall_subterms`).
-/
namespace Equirec

namespace Term

mutual

/-- The types that a term is annotated with. -/
def annotations : Term → List Ty
  | .boolean .. | .number .. | .reference .. => []
  | .add _ left right => left.annotations ++ right.annotations
  | .conditional _ condition positive negative =>
    condition.annotations ++ positive.annotations ++ negative.annotations
  | .function _ parameters declared body =>
    parameters.map Prod.snd ++ declared.toList ++ body.annotations
  | .call _ callee arguments => callee.annotations ++ annotationsOf arguments
  | .sequence _ first rest => first.annotations ++ rest.annotations
  | .constant _ _ value rest => value.annotations ++ rest.annotations
  | .object _ properties => annotationsIn properties
  | .property _ whole _ => whole.annotations
  | .declaration _ _ parameters declared body rest =>
    parameters.map Prod.snd ++ [declared] ++ body.annotations ++ rest.annotations

/-- The types that several terms are annotated with. -/
def annotationsOf : List Term → List Ty
  | [] => []
  | term :: rest => term.annotations ++ annotationsOf rest

/-- The types that the properties of an object literal are annotated with. -/
def annotationsIn : List (String × Term) → List Ty
  | [] => []
  | (_, term) :: rest => term.annotations ++ annotationsIn rest

end

@[simp]
theorem annotationsOf_eq_flatMap (terms : List Term) :
    annotationsOf terms = terms.flatMap annotations := by
  induction terms with
  | nil => rfl
  | cons term rest ih => simp [annotationsOf, ih]

@[simp]
theorem annotationsIn_eq_flatMap (properties : List (String × Term)) :
    annotationsIn properties = properties.flatMap fun member => member.2.annotations := by
  induction properties with
  | nil => rfl
  | cons member rest ih => simp [annotationsIn, ih]

mutual

/-- The property names of each object literal in a term. -/
def literals : Term → List (List String)
  | .boolean .. | .number .. | .reference .. => []
  | .add _ left right => left.literals ++ right.literals
  | .conditional _ condition positive negative =>
    condition.literals ++ positive.literals ++ negative.literals
  | .function _ _ _ body => body.literals
  | .call _ callee arguments => callee.literals ++ literalsOf arguments
  | .sequence _ first rest => first.literals ++ rest.literals
  | .constant _ _ value rest => value.literals ++ rest.literals
  | .object _ properties => properties.map Prod.fst :: literalsIn properties
  | .property _ whole _ => whole.literals
  | .declaration _ _ _ _ body rest => body.literals ++ rest.literals

/-- The property names of each object literal in several terms. -/
def literalsOf : List Term → List (List String)
  | [] => []
  | term :: rest => term.literals ++ literalsOf rest

/-- The property names of each object literal in the properties of another. -/
def literalsIn : List (String × Term) → List (List String)
  | [] => []
  | (_, term) :: rest => term.literals ++ literalsIn rest

end

@[simp]
theorem literalsOf_eq_flatMap (terms : List Term) :
    literalsOf terms = terms.flatMap literals := by
  induction terms with
  | nil => rfl
  | cons term rest ih => simp [literalsOf, ih]

@[simp]
theorem literalsIn_eq_flatMap (properties : List (String × Term)) :
    literalsIn properties = properties.flatMap fun member => member.2.literals := by
  induction properties with
  | nil => rfl
  | cons member rest ih => simp [literalsIn, ih]

/-! ## Subterms -/

/-- The terms that a term consists of, one layer down. -/
def parts : Term → List Term
  | .boolean .. | .number .. | .reference .. => []
  | .add _ left right => [left, right]
  | .conditional _ condition positive negative => [condition, positive, negative]
  | .function _ _ _ body => [body]
  | .call _ callee arguments => callee :: arguments
  | .sequence _ first rest => [first, rest]
  | .constant _ _ value rest => [value, rest]
  | .object _ properties => properties.map Prod.snd
  | .property _ whole _ => [whole]
  | .declaration _ _ _ _ body rest => [body, rest]

/-- The types that a term is annotated with itself, apart from its parts. -/
def ownAnnotations : Term → List Ty
  | .function _ parameters declared _ => parameters.map Prod.snd ++ declared.toList
  | .declaration _ _ parameters declared _ _ => parameters.map Prod.snd ++ [declared]
  | _ => []

/-- The property names of a term that is an object literal. -/
def ownLiterals : Term → List (List String)
  | .object _ properties => [properties.map Prod.fst]
  | _ => []

mutual

/-- The subterms of a term, itself included. -/
def subterms : Term → List Term
  | term@(.boolean ..) | term@(.number ..) | term@(.reference ..) => [term]
  | term@(.add _ left right) => term :: (left.subterms ++ right.subterms)
  | term@(.conditional _ condition positive negative) =>
    term :: (condition.subterms ++ positive.subterms ++ negative.subterms)
  | term@(.function _ _ _ body) => term :: body.subterms
  | term@(.call _ callee arguments) => term :: (callee.subterms ++ subtermsOf arguments)
  | term@(.sequence _ first rest) => term :: (first.subterms ++ rest.subterms)
  | term@(.constant _ _ value rest) => term :: (value.subterms ++ rest.subterms)
  | term@(.object _ properties) => term :: subtermsIn properties
  | term@(.property _ whole _) => term :: whole.subterms
  | term@(.declaration _ _ _ _ body rest) => term :: (body.subterms ++ rest.subterms)

/-- The subterms of several terms. -/
def subtermsOf : List Term → List Term
  | [] => []
  | term :: rest => term.subterms ++ subtermsOf rest

/-- The subterms of the properties of an object literal. -/
def subtermsIn : List (String × Term) → List Term
  | [] => []
  | (_, term) :: rest => term.subterms ++ subtermsIn rest

end

@[simp]
theorem subtermsOf_eq_flatMap (terms : List Term) :
    subtermsOf terms = terms.flatMap subterms := by
  induction terms with
  | nil => rfl
  | cons term rest ih => simp [subtermsOf, ih]

@[simp]
theorem subtermsIn_eq_flatMap (properties : List (String × Term)) :
    subtermsIn properties = properties.flatMap fun member => member.2.subterms := by
  induction properties with
  | nil => rfl
  | cons member rest ih => simp [subtermsIn, ih]

/-- The subterms of a term are the term and the subterms of its parts. -/
theorem subterms_eq_cons (term : Term) :
    term.subterms = term :: term.parts.flatMap subterms := by
  cases term <;> simp [subterms, parts, List.flatMap_map]

/-- The annotations of a term are its own and those of its parts. -/
theorem annotations_eq_append (term : Term) :
    term.annotations = term.ownAnnotations ++ term.parts.flatMap annotations := by
  cases term <;> simp [annotations, ownAnnotations, parts, List.flatMap_map]

/-- The object literals of a term are itself and those of its parts. -/
theorem literals_eq_append (term : Term) :
    term.literals = term.ownLiterals ++ term.parts.flatMap literals := by
  cases term <;> simp [literals, ownLiterals, parts, List.flatMap_map]

/-- Induction on terms from all their parts at once. -/
theorem induction_parts {motive : Term → Prop}
    (step : ∀ term, (∀ part ∈ term.parts, motive part) → motive term) (term : Term) :
    motive term := by
  induction term with
  | boolean => exact step _ (List.forall_mem_nil _)
  | number => exact step _ (List.forall_mem_nil _)
  | add _ _ _ first second => exact step _ (by simp [parts, first, second])
  | conditional _ _ _ _ test holds fails => exact step _ (by simp [parts, test, holds, fails])
  | reference => exact step _ (List.forall_mem_nil _)
  | function _ _ _ _ inner => exact step _ (List.forall_mem_singleton.2 inner)
  | call _ _ _ function values => exact step _ (List.forall_mem_cons.2 ⟨function, values⟩)
  | sequence _ _ _ head tail => exact step _ (by simp [parts, head, tail])
  | constant _ _ _ _ inner tail => exact step _ (by simp [parts, inner, tail])
  | object _ _ values => exact step _ (List.forall_mem_map.2 values)
  | property _ _ _ whole => exact step _ (List.forall_mem_singleton.2 whole)
  | declaration _ _ _ _ _ _ inner tail => exact step _ (by simp [parts, inner, tail])

/-- The annotations of a term are the own annotations of its subterms. -/
theorem annotations_eq_flatMap (term : Term) :
    term.annotations = term.subterms.flatMap ownAnnotations := by
  induction term using induction_parts with
  | step term ih =>
    rw [annotations_eq_append, subterms_eq_cons, List.flatMap_cons, List.flatMap_assoc,
      List.flatMap_congr ih]

/-- A term is a subterm of itself. -/
theorem self_mem_subterms (term : Term) : term ∈ term.subterms := by
  rw [subterms_eq_cons]
  exact List.mem_cons_self

/-- What passes from every term to its parts passes from a term to all its subterms. -/
theorem forall_subterms {motive : Term → Prop}
    (passes : ∀ {term part : Term}, part ∈ term.parts → motive term → motive part) {term : Term}
    (holds : motive term) : ∀ subterm ∈ term.subterms, motive subterm := by
  induction term using induction_parts with
  | step term ih =>
    rw [subterms_eq_cons, List.forall_mem_cons, List.forall_mem_flatMap]
    exact ⟨holds, fun part isPart => ih part isPart (passes isPart holds)⟩

end Term

end Equirec
