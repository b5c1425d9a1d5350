import Equirec.Token

/-!
# The grammar as tables

Terms are read by operator precedence. For each kind of token the tables say what a term, a
declaration or a type that starts with it is, and how a token goes on a term that stands before it
and how strongly it binds. The tables are data, so that a language with other signs is another
grammar and not another parser.
-/
namespace Equirec

/-- How strongly a token binds the term before it, from the weakest. -/
inductive Power where
  /-- That of a token that does not go on a term. -/
  | lowest
  /-- That of the sign of a conditional. -/
  | conditional
  /-- That of the sign of a sum. -/
  | additive
  /-- That of the parenthesis of a call. -/
  | call
  /-- That of the point of a property access. -/
  | property
  /-- A power that no token of the language has. -/
  | highest
  deriving DecidableEq, Inhabited

namespace Power

/-- The place of a power among all powers. -/
def rank : Power → Nat
  | lowest => 0
  | conditional => 1
  | additive => 2
  | call => 3
  | property => 4
  | highest => 5

/-- Whether the first power binds less strongly than the second. -/
def isBelow (left right : Power) : Bool :=
  left.rank < right.rank

end Power

/-- What a term that starts with a token can be. -/
inductive LeadingForm where
  /-- A literal or a name. -/
  | primary
  /-- A term between parentheses, or an arrow function. -/
  | parenthesis
  /-- An object literal. -/
  | object
  /-- An arrow function. -/
  | arrow
  deriving DecidableEq

/-- How a token can go on the term before it. -/
inductive TrailingForm where
  /-- A sum. -/
  | add
  /-- A conditional expression. -/
  | conditional
  /-- A call. -/
  | call
  /-- A property access. -/
  | property
  deriving DecidableEq

/-- What a declaration can be. -/
inductive DeclarationForm where
  /-- A constant. -/
  | constant
  /-- A function. -/
  | function
  /-- A name for a type. -/
  | alias
  deriving DecidableEq

/-- What a type that starts with a token can be. -/
inductive TypeForm where
  /-- The name of a type. -/
  | name
  /-- A function type. -/
  | function
  /-- An object type. -/
  | object
  deriving DecidableEq

/-- The tables that the parser looks into. -/
structure Grammar where
  /-- What a term that starts with a token of a kind is. -/
  leading : Token.Kind → Option LeadingForm
  /-- How a token of a kind goes on a term, and how strongly it binds. -/
  trailing : Token.Kind → Option (TrailingForm × Power)
  /-- What a declaration that starts with a token of a kind is. -/
  declarations : Token.Kind → Option DeclarationForm
  /-- What a type that starts with a token of a kind is. -/
  types : Token.Kind → Option TypeForm

namespace Grammar

/-- The grammar without any entry. -/
def empty : Grammar where
  leading _ := none
  trailing _ := none
  declarations _ := none
  types _ := none

/-- The first tokens of terms. -/
def termLeading : Token.Kind → Option LeadingForm
  | .number | .identifier | .trueKeyword | .falseKeyword => some .primary
  | .openParen => some .parenthesis
  | .openCurly => some .object
  | _ => none

/-- The tokens that go on a term. -/
def termTrailing : Token.Kind → Option (TrailingForm × Power)
  | .question => some (.conditional, .conditional)
  | .plus => some (.add, .additive)
  | .openParen => some (.call, .call)
  | .dot => some (.property, .property)
  | _ => none

/-- The first tokens of declarations. -/
def termDeclarations : Token.Kind → Option DeclarationForm
  | .constKeyword => some .constant
  | .functionKeyword => some .function
  | .typeKeyword => some .alias
  | _ => none

/-- The first tokens of types. -/
def typeLeading : Token.Kind → Option TypeForm
  | .identifier => some .name
  | .openParen => some .function
  | .openCurly => some .object
  | _ => none

/-- The grammar of terms and declarations, without types. -/
def terms : Grammar :=
  { empty with
    leading := termLeading
    trailing := termTrailing
    declarations := termDeclarations }

/-- The grammar of types alone. -/
def typesOnly : Grammar :=
  { empty with types := typeLeading }

/-- The grammar of programs. -/
def standard : Grammar :=
  { terms with types := typeLeading }

/-- The power with which a token of a kind binds the term before it. -/
def power (grammar : Grammar) (kind : Token.Kind) : Power :=
  match grammar.trailing kind with
  | some (_, power) => power
  | none => .lowest

/-- The grammar with another entry for the terms that start with a kind. -/
def setLeading (grammar : Grammar) (kind : Token.Kind) (form : LeadingForm) : Grammar :=
  { grammar with leading := fun other => if other = kind then some form else grammar.leading other }

/-- The grammar with another entry for how a kind goes on a term. -/
def setTrailing (grammar : Grammar) (kind : Token.Kind) (form : TrailingForm) (power : Power) :
    Grammar :=
  { grammar with
    trailing := fun other => if other = kind then some (form, power) else grammar.trailing other }

/-- The grammar with another entry for the declarations that start with a kind. -/
def setDeclaration (grammar : Grammar) (kind : Token.Kind) (form : DeclarationForm) : Grammar :=
  { grammar with
    declarations := fun other => if other = kind then some form else grammar.declarations other }

/-- The grammar with another entry for the types that start with a kind. -/
def setType (grammar : Grammar) (kind : Token.Kind) (form : TypeForm) : Grammar :=
  { grammar with types := fun other => if other = kind then some form else grammar.types other }

end Grammar

end Equirec
