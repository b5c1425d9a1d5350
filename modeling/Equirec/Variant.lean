import Equirec.Term

/-!
# The languages of the family

The checker knows six languages. Each allows some forms of terms and some types, and the largest
compares types by subtyping where the others ask for equality.
-/
namespace Equirec

/-- One language of the family. -/
inductive Variant where
  /-- Booleans, numbers, addition and conditionals. -/
  | arithmetic
  /-- Also names, functions, calls, sequences and constants. -/
  | basic
  /-- The basic language with objects. -/
  | objects
  /-- The basic language with function declarations. -/
  | functions
  /-- All forms, with recursive types. -/
  | recursive
  /-- All forms, with recursive types and subtyping. -/
  | subtyping
  deriving DecidableEq, Inhabited

namespace Variant

/-- All languages, from the smallest to the largest. -/
def all : List Variant :=
  [arithmetic, basic, objects, functions, recursive, subtyping]

/-- The short name of a language. -/
def name : Variant → String
  | arithmetic => "arith"
  | basic => "basic"
  | objects => "obj"
  | functions => "recfunc"
  | recursive => "rec"
  | subtyping => "sub"

/-- The language of a given short name. -/
def ofName? (text : String) : Option Variant :=
  all.find? fun variant => variant.name == text

/-- What is said of a name that no language has. -/
def unknownMessage (text : String) : String :=
  "unknown variant `" ++ text ++ "`, expected one of: " ++ String.intercalate ", " (all.map name)

/-- Whether a language has objects. -/
def hasObjects : Variant → Bool
  | objects | recursive | subtyping => true
  | arithmetic | basic | functions => false

/-- Whether a language has function declarations. -/
def hasDeclarations : Variant → Bool
  | functions | recursive | subtyping => true
  | arithmetic | basic | objects => false

/-- Whether a language has recursive types. -/
def hasRecursiveTypes : Variant → Bool
  | recursive | subtyping => true
  | arithmetic | basic | objects | functions => false

/-- Whether a language compares arguments and branches by subtyping. -/
def usesSubtyping : Variant → Bool
  | subtyping => true
  | arithmetic | basic | objects | functions | recursive => false

/-- Whether a language has terms of a form. -/
def supports (variant : Variant) : Term.Form → Bool
  | .boolean | .number | .add | .conditional => true
  | .reference | .function | .call | .sequence | .constant => variant != arithmetic
  | .object | .property => variant.hasObjects
  | .declaration => variant.hasDeclarations

end Variant

end Equirec
