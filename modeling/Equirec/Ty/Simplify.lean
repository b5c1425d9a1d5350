import Equirec.Ty.Alpha
import Equirec.Ty.Substitution

/-!
# The first layer of a type

Simplifying unfolds a type until it is no longer recursive at the top. A type whose outer binders
end directly in one of their own variables has no first layer: its unfoldings go round, and
simplifying stops at the first one that is alike to an earlier one.

Each unfolding takes one binder off the front. The binders that stand in front of the type are
therefore enough unfoldings, either to take all of them off or to go round once.
-/
namespace Equirec.Ty

/-- The number of binders that stand in front of a type. -/
def leadingBinders : Ty → Nat
  | .mu _ body => body.leadingBinders + 1
  | _ => 0

/-- Unfolds a type at most the given number of times, and no further than to a type that is not
recursive at the top or is alike to one of those visited. -/
def simplifyFrom (visited : List Ty) : Nat → Ty → Ty
  | unfoldings + 1, .mu name body =>
    let type := .mu name body
    if visited.any fun earlier => earlier.alike type then type
    else simplifyFrom (type :: visited) unfoldings (unfolded name body)
  | _, type => type

/-- A type with its outer binders unfolded. -/
def simplify (type : Ty) : Ty :=
  simplifyFrom [] type.leadingBinders type

end Equirec.Ty
