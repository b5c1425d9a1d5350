import Equirec.Double
import Equirec.Span
import Equirec.Ty

/-!
# Terms

A program is one term: declarations and statements are terms that hold the rest of the program.
Every term knows where it stands in the source.
-/
namespace Equirec

/-- A term. -/
inductive Term where
  /-- A boolean literal. -/
  | boolean (span : Span) (value : Bool)
  /-- A number literal. -/
  | number (span : Span) (value : Double)
  /-- The sum of two numbers. -/
  | add (span : Span) (left right : Term)
  /-- A conditional expression: the condition, and what it comes to when that holds or not. -/
  | conditional (span : Span) (condition positive negative : Term)
  /-- A use of a name. -/
  | reference (span : Span) (name : String)
  /-- A function literal, whose result type may be declared. -/
  | function (span : Span) (parameters : List (String × Ty)) (declared : Option Ty) (body : Term)
  /-- A call of a function. -/
  | call (span : Span) (callee : Term) (arguments : List Term)
  /-- A term whose value is dropped, and what follows it. -/
  | sequence (span : Span) (first rest : Term)
  /-- A constant, and the rest of the program in which it is known. -/
  | constant (span : Span) (name : String) (value rest : Term)
  /-- An object literal. -/
  | object (span : Span) (properties : List (String × Term))
  /-- The property of an object. -/
  | property (span : Span) (object : Term) (name : String)
  /-- The declaration of a function that may call itself, and the rest of the program in which it
  is known. -/
  | declaration (span : Span) (name : String) (parameters : List (String × Ty)) (declared : Ty)
    (body rest : Term)
  deriving Inhabited

namespace Term

/-- Induction on terms, with the hypotheses for arguments and properties stated for each member of
the list. -/
@[elab_as_elim, induction_eliminator]
theorem induction {motive : Term → Prop}
    (boolean : ∀ span value, motive (.boolean span value))
    (number : ∀ span value, motive (.number span value))
    (add : ∀ span left right, motive left → motive right → motive (.add span left right))
    (conditional : ∀ span condition positive negative, motive condition → motive positive →
      motive negative → motive (.conditional span condition positive negative))
    (reference : ∀ span name, motive (.reference span name))
    (function : ∀ span parameters declared body, motive body →
      motive (.function span parameters declared body))
    (call : ∀ span callee arguments, motive callee → (∀ argument ∈ arguments, motive argument) →
      motive (.call span callee arguments))
    (sequence : ∀ span first rest, motive first → motive rest →
      motive (.sequence span first rest))
    (constant : ∀ span name value rest, motive value → motive rest →
      motive (.constant span name value rest))
    (object : ∀ span properties, (∀ member ∈ properties, motive member.2) →
      motive (.object span properties))
    (property : ∀ span object name, motive object → motive (.property span object name))
    (declaration : ∀ span name parameters declared body rest, motive body → motive rest →
      motive (.declaration span name parameters declared body rest))
    (term : Term) : motive term :=
  @Term.rec motive (fun arguments => ∀ argument ∈ arguments, motive argument)
    (fun properties => ∀ member ∈ properties, motive member.2) (fun member => motive member.2)
    boolean number add conditional reference function call sequence constant object property
    declaration
    (fun _ isMember => nomatch isMember)
    (fun _ _ head tail _ isMember =>
      (List.mem_cons.1 isMember).elim (fun same => same ▸ head) (tail _))
    (fun _ isMember => nomatch isMember)
    (fun _ _ head tail _ isMember =>
      (List.mem_cons.1 isMember).elim (fun same => same ▸ head) (tail _))
    (fun _ _ value => value) term

/-- Where a term stands. -/
def span : Term → Span
  | boolean span .. | number span .. | add span .. | conditional span .. | reference span ..
  | function span .. | call span .. | sequence span .. | constant span .. | object span ..
  | property span .. | declaration span .. => span

/-- Where a term starts. -/
def start (term : Term) : Offset :=
  term.span.start

/-- The forms of terms. -/
inductive Form where
  /-- A boolean literal. -/
  | boolean
  /-- A number literal. -/
  | number
  /-- A sum. -/
  | add
  /-- A conditional expression. -/
  | conditional
  /-- A use of a name. -/
  | reference
  /-- A function literal. -/
  | function
  /-- A call. -/
  | call
  /-- A term whose value is dropped. -/
  | sequence
  /-- A constant. -/
  | constant
  /-- An object literal. -/
  | object
  /-- The property of an object. -/
  | property
  /-- A function declaration. -/
  | declaration
  deriving DecidableEq

/-- The form of a term. -/
def form : Term → Form
  | boolean .. => .boolean
  | number .. => .number
  | add .. => .add
  | conditional .. => .conditional
  | reference .. => .reference
  | function .. => .function
  | call .. => .call
  | sequence .. => .sequence
  | constant .. => .constant
  | object .. => .object
  | property .. => .property
  | declaration .. => .declaration

namespace Form

/-- All forms. -/
def all : List Form :=
  [boolean, number, add, conditional, reference, function, call, sequence, constant, object,
    property, declaration]

/-- What a form is called. -/
def describe : Form → String
  | boolean => "boolean literal"
  | number => "number literal"
  | add => "addition"
  | conditional => "conditional expression"
  | reference => "variable reference"
  | function => "function literal"
  | call => "function call"
  | sequence => "expression statement"
  | constant => "const declaration"
  | object => "object literal"
  | property => "property access"
  | declaration => "function declaration"

end Form

end Term

end Equirec
