import Equirec.Proofs.Annotations
import Equirec.Proofs.KnownTokens
import Equirec.Proofs.WrittenTerms

/-!
# Reading what is printed

`Term.Prints` says which tokens print a term: operands that are no literals or names stand between
parentheses, at least one pair of them, and function bodies with declarations or sequences are
blocks that end in a `return`. What is printed so is read as the same term, up to the places of its
parts (`Term.Prints.isRead`).
-/
namespace Equirec

namespace Term

/-! ## Terms without places -/

mutual

/-- A term without the places of its parts. -/
def unplaced : Term → Term
  | .boolean _ value => .boolean default value
  | .number _ value => .number default value
  | .add _ left right => .add default left.unplaced right.unplaced
  | .conditional _ condition positive negative =>
    .conditional default condition.unplaced positive.unplaced negative.unplaced
  | .reference _ name => .reference default name
  | .function _ parameters declared body => .function default parameters declared body.unplaced
  | .call _ callee arguments => .call default callee.unplaced (unplacedOf arguments)
  | .sequence _ first rest => .sequence default first.unplaced rest.unplaced
  | .constant _ name value rest => .constant default name value.unplaced rest.unplaced
  | .object _ properties => .object default (unplacedIn properties)
  | .property _ whole name => .property default whole.unplaced name
  | .declaration _ name parameters declared body rest =>
    .declaration default name parameters declared body.unplaced rest.unplaced

/-- Several terms without places. -/
def unplacedOf : List Term → List Term
  | [] => []
  | term :: rest => term.unplaced :: unplacedOf rest

/-- The properties of an object literal without places. -/
def unplacedIn : List (String × Term) → List (String × Term)
  | [] => []
  | (name, term) :: rest => (name, term.unplaced) :: unplacedIn rest

end

/-- Whether a term is another one up to places. -/
def Same (term other : Term) : Prop :=
  other.unplaced = term.unplaced

/-- Sums are the same up to places if both sides are. -/
theorem Same.add {left right left' right' : Term} (sameLeft : left.Same left')
    (sameRight : right.Same right') (span span' : Span) :
    Same (.add span left right) (.add span' left' right') := by
  rw [Same, unplaced, unplaced, sameLeft, sameRight]

/-- Lists of terms are the same up to places if their first terms and the others are. -/
theorem unplacedOf_congr {term other : Term} {terms others : List Term} (same : term.Same other)
    (sameOthers : unplacedOf others = unplacedOf terms) :
    unplacedOf (other :: others) = unplacedOf (term :: terms) := by
  rw [unplacedOf, unplacedOf, same, sameOthers]

/-- Lists of properties are the same up to places if their first terms and the others are. -/
theorem unplacedIn_congr {name : String} {term other : Term} {members others : List (String × Term)}
    (same : term.Same other) (sameOthers : unplacedIn others = unplacedIn members) :
    unplacedIn ((name, other) :: others) = unplacedIn ((name, term) :: members) := by
  rw [unplacedIn, unplacedIn, same, sameOthers]

mutual

/-- Whether sequences and declarations stand only at the top, after each other and at the top of
function bodies; `top` says whether the term itself stands in such a place. -/
def isArranged (top : Bool) : Term → Bool
  | .boolean .. | .number .. | .reference .. => true
  | .add _ left right => left.isArranged false && right.isArranged false
  | .conditional _ condition positive negative =>
    condition.isArranged false && positive.isArranged false && negative.isArranged false
  | .function _ _ _ body => body.isArranged true
  | .call _ callee arguments => callee.isArranged false && areArranged arguments
  | .sequence _ first rest => top && first.isArranged false && rest.isArranged true
  | .constant _ _ value rest => top && value.isArranged false && rest.isArranged true
  | .object _ properties => areArrangedIn properties
  | .property _ whole _ => whole.isArranged false
  | .declaration _ _ _ _ body rest => top && body.isArranged true && rest.isArranged true

/-- Whether sequences and declarations stand where they may in several terms. -/
def areArranged : List Term → Bool
  | [] => true
  | term :: rest => term.isArranged false && areArranged rest

/-- Whether sequences and declarations stand where they may in the properties of an object literal.
-/
def areArrangedIn : List (String × Term) → Bool
  | [] => true
  | (_, term) :: rest => term.isArranged false && areArrangedIn rest

end

@[simp]
theorem areArranged_eq_all (terms : List Term) :
    areArranged terms = terms.all (isArranged false) := by
  induction terms with
  | nil => rfl
  | cons term rest ih => simp [areArranged, ih]

@[simp]
theorem areArrangedIn_eq_all (properties : List (String × Term)) :
    areArrangedIn properties = properties.all fun member => member.2.isArranged false := by
  induction properties with
  | nil => rfl
  | cons member rest ih => simp [areArrangedIn, ih]

/-! ## Printed terms -/

/-- What is printed, by where it stands. -/
inductive Printed where
  /-- An operand. -/
  | operand (term : Term)
  /-- A term that stands by itself. -/
  | whole (term : Term)
  /-- The arguments of a call. -/
  | arguments (arguments : List Term)
  /-- The properties of an object literal. -/
  | properties (properties : List (String × Term))
  /-- A block, with braces around it. -/
  | block (term : Term)
  /-- The body of a function literal. -/
  | body (term : Term)
  /-- What stands in a block or in a source. -/
  | statements (ending : Ending) (term : Term)

/-- The tokens that print a term. No names of types are known, so types are written out. -/
inductive Prints : Printed → List Token → Prop where
  /-- A number is any token whose text is read as its value. -/
  | number {span : Span} {value : Double} {token : Token} (isNumber : token.kind = .number)
    (isValue : Double.ofText? token.value = some value) :
    Prints (.operand (.number span value)) [token]
  /-- A boolean is a keyword. -/
  | boolean {span : Span} {value : Bool} {token : Token}
    (isKeyword : token.kind = if value then .trueKeyword else .falseKeyword) :
    Prints (.operand (.boolean span value)) [token]
  /-- A use of a name is the name. -/
  | reference {span : Span} {token : Token} (isName : token.kind = .identifier) :
    Prints (.operand (.reference span token.value)) [token]
  /-- Any term is an operand between parentheses. -/
  | wrapped {term : Term} {opening closing : Token} {tokens : List Token}
    (isOpening : opening.kind = .openParen) (inner : Prints (.whole term) tokens)
    (isClosing : closing.kind = .closeParen) :
    Prints (.operand term) (opening :: (tokens ++ [closing]))
  /-- What is printed as an operand may stand by itself. -/
  | operand {term : Term} {tokens : List Token} (inner : Prints (.operand term) tokens) :
    Prints (.whole term) tokens
  /-- A sum. -/
  | add {span : Span} {left right : Term} {plus : Token} {first second : List Token}
    (inLeft : Prints (.operand left) first) (isPlus : plus.kind = .plus)
    (inRight : Prints (.operand right) second) :
    Prints (.whole (.add span left right)) (first ++ plus :: second)
  /-- A conditional. -/
  | conditional {span : Span} {condition positive negative : Term} {question colon : Token}
    {first second third : List Token} (test : Prints (.operand condition) first)
    (isQuestion : question.kind = .question) (holds : Prints (.operand positive) second)
    (isColon : colon.kind = .colon) (fails : Prints (.operand negative) third) :
    Prints (.whole (.conditional span condition positive negative))
      (first ++ question :: (second ++ colon :: third))
  /-- A call. -/
  | call {span : Span} {callee : Term} {arguments : List Term} {opening closing : Token}
    {first second : List Token} (function : Prints (.operand callee) first)
    (isOpening : opening.kind = .openParen) (values : Prints (.arguments arguments) second)
    (isClosing : closing.kind = .closeParen) :
    Prints (.whole (.call span callee arguments)) (first ++ opening :: (second ++ [closing]))
  /-- A property access. -/
  | property {span : Span} {object : Term} {dot name : Token} {tokens : List Token}
    (inner : Prints (.operand object) tokens) (isDot : dot.kind = .dot)
    (isName : name.kind = .identifier) :
    Prints (.whole (.property span object name.value)) (tokens ++ [dot, name])
  /-- An object literal. -/
  | object {span : Span} {properties : List (String × Term)} {opening closing : Token}
    {tokens : List Token} (isOpening : opening.kind = .openCurly)
    (values : Prints (.properties properties) tokens) (isClosing : closing.kind = .closeCurly) :
    Prints (.whole (.object span properties)) (opening :: (tokens ++ [closing]))
  /-- A function literal. -/
  | function {span : Span} {parameters : List (String × Ty)} {declared : Option Ty} {term : Term}
    {opening closing arrow : Token} {inside between tokens : List Token}
    (isOpening : opening.kind = .openParen)
    (inParameters : Ty.Spells {} (.members .parameters parameters) inside)
    (isClosing : closing.kind = .closeParen)
    (inResult : Ty.Spells {} (.ascription declared) between) (isArrow : arrow.kind = .arrow)
    (inner : Prints (.body term) tokens) :
    Prints (.whole (.function span parameters declared term))
      (opening :: (inside ++ closing :: (between ++ arrow :: tokens)))
  /-- No arguments. -/
  | noArguments : Prints (.arguments []) []
  /-- The last argument. -/
  | lastArgument {term : Term} {tokens : List Token} (inner : Prints (.whole term) tokens) :
    Prints (.arguments [term]) tokens
  /-- An argument and others after a comma, of which there may be none. -/
  | argument {term : Term} {others : List Term} {comma : Token} {tokens more : List Token}
    (inner : Prints (.whole term) tokens) (isComma : comma.kind = .comma)
    (inOthers : Prints (.arguments others) more) :
    Prints (.arguments (term :: others)) (tokens ++ comma :: more)
  /-- No properties. -/
  | noProperties : Prints (.properties []) []
  /-- The last property. -/
  | lastProperty {term : Term} {name colon : Token} {tokens : List Token}
    (isName : name.kind = .identifier) (isColon : colon.kind = .colon)
    (inner : Prints (.whole term) tokens) :
    Prints (.properties [(name.value, term)]) (name :: colon :: tokens)
  /-- A property and others after a comma, of which there may be none. -/
  | propertyValue {term : Term} {others : List (String × Term)} {name colon comma : Token}
    {tokens more : List Token} (isName : name.kind = .identifier) (isColon : colon.kind = .colon)
    (inner : Prints (.whole term) tokens) (isComma : comma.kind = .comma)
    (inOthers : Prints (.properties others) more) :
    Prints (.properties ((name.value, term) :: others))
      (name :: colon :: (tokens ++ comma :: more))
  /-- Statements between braces. -/
  | block {term : Term} {opening closing : Token} {tokens : List Token}
    (isOpening : opening.kind = .openCurly) (inner : Prints (.statements .result term) tokens)
    (isClosing : closing.kind = .closeCurly) :
    Prints (.block term) (opening :: (tokens ++ [closing]))
  /-- The body of a function literal that is an operand. -/
  | operandBody {term : Term} {tokens : List Token} (inner : Prints (.operand term) tokens) :
    Prints (.body term) tokens
  /-- The body of a function literal that is a block. -/
  | blockBody {term : Term} {tokens : List Token} (inner : Prints (.block term) tokens) :
    Prints (.body term) tokens
  /-- The result of a block. -/
  | result {term : Term} {return_ semicolon : Token} {tokens : List Token}
    (isReturn : return_.kind = .returnKeyword) (inner : Prints (.whole term) tokens)
    (isSemicolon : semicolon.kind = .semicolon) :
    Prints (.statements .result term) (return_ :: (tokens ++ [semicolon]))
  /-- The last term of a source. -/
  | last {term : Term} {tokens : List Token} (inner : Prints (.whole term) tokens) :
    Prints (.statements .source term) tokens
  /-- The last term of a source, with a semicolon. -/
  | lastSemicolon {term : Term} {semicolon : Token} {tokens : List Token}
    (inner : Prints (.whole term) tokens) (isSemicolon : semicolon.kind = .semicolon) :
    Prints (.statements .source term) (tokens ++ [semicolon])
  /-- A sequence. -/
  | sequence {span : Span} {ending : Ending} {first rest : Term} {semicolon : Token}
    {tokens more : List Token} (head : Prints (.whole first) tokens)
    (isSemicolon : semicolon.kind = .semicolon) (tail : Prints (.statements ending rest) more) :
    Prints (.statements ending (.sequence span first rest)) (tokens ++ semicolon :: more)
  /-- The declaration of a constant. -/
  | constant {span : Span} {ending : Ending} {value rest : Term}
    {const name assignment semicolon : Token} {tokens more : List Token}
    (isConst : const.kind = .constKeyword) (isName : name.kind = .identifier)
    (isAssignment : assignment.kind = .assignment) (inner : Prints (.whole value) tokens)
    (isSemicolon : semicolon.kind = .semicolon) (tail : Prints (.statements ending rest) more) :
    Prints (.statements ending (.constant span name.value value rest))
      (const :: name :: assignment :: (tokens ++ semicolon :: more))
  /-- The declaration of a function. -/
  | declaration {span : Span} {ending : Ending} {parameters : List (String × Ty)} {declared : Ty}
    {body rest : Term} {function name opening closing colon : Token}
    {inside result tokens more : List Token} (isFunction : function.kind = .functionKeyword)
    (isName : name.kind = .identifier) (isOpening : opening.kind = .openParen)
    (inParameters : Ty.Spells {} (.members .parameters parameters) inside)
    (isClosing : closing.kind = .closeParen) (isColon : colon.kind = .colon)
    (inResult : Ty.Spells {} (.type declared) result) (inner : Prints (.block body) tokens)
    (tail : Prints (.statements ending rest) more) :
    Prints (.statements ending (.declaration span name.value parameters declared body rest))
      (function :: name :: opening ::
        (inside ++ closing :: colon :: (result ++ (tokens ++ more))))

/-! ## How printed terms are read -/

open Parse
open Token (OpensTerm)

/-- How what is printed is read. An operand is read before whatever follows it, and the rest by
itself. -/
def Printed.IsRead : Printed → List Token → Prop
  | operand term, tokens => ∀ fuel power rest gets,
    (∀ less left, term.Same left → (readTrailing .standard less power left).Gets rest {} gets) →
      (readTerm .standard fuel power).Gets (tokens ++ rest) {} gets
  | whole term, tokens => ∀ fuel next rest, Grammar.standard.trailing next.kind = none →
    (readTerm .standard fuel .lowest).Gets (tokens ++ next :: rest) {}
      (Leaves term.Same (next :: rest) {})
  | arguments terms, tokens => ∀ fuel closing rest, closing.kind = .closeParen →
    (readArguments .standard fuel).Gets (tokens ++ closing :: rest) {}
      (Leaves (unplacedOf · = unplacedOf terms) (closing :: rest) {})
  | properties members, tokens => ∀ fuel closing rest, closing.kind = .closeCurly →
    (readPropertyList .standard fuel).Gets (tokens ++ closing :: rest) {}
      (Leaves (unplacedIn · = unplacedIn members) (closing :: rest) {})
  | block term, tokens => ∀ fuel rest,
    (readBlock .standard fuel).Gets (tokens ++ rest) {} (Leaves term.Same rest {})
  | body term, first :: tokens => ∀ fuel next rest, Grammar.standard.trailing next.kind = none →
    (if first.kind = .openCurly then readBlock .standard fuel
      else readTerm .standard fuel .lowest).Gets (first :: (tokens ++ next :: rest)) {}
        (Leaves term.Same (next :: rest) {})
  | body _, [] => False
  | statements ending term, tokens => ∀ fuel next rest, (ending = .source → next.kind = .eof) →
    (readSequence .standard fuel ending).Gets (tokens ++ next :: rest) {}
      (Leaves term.Same (next :: rest) {})

/-- How printed tokens start: terms like terms, operands not with a brace, blocks with one, and
statements not with the mark of the end. -/
def Printed.Starts : Printed → List Token → Prop
  | operand _, tokens => OpensTerm tokens ∧ ∀ first ∈ tokens.head?, first.kind ≠ .openCurly
  | whole _, tokens => OpensTerm tokens
  | block _, tokens => ∃ first rest, tokens = first :: rest ∧ first.kind = .openCurly
  | statements .., tokens => ∃ first rest, tokens = first :: rest ∧ first.kind ≠ .eof
  | arguments _, _ | properties _, _ | body _, _ => True

/-- Printed tokens start as they should. -/
theorem Prints.starts {printed : Printed} {tokens : List Token} (prints : Prints printed tokens) :
    printed.Starts tokens := by
  induction prints with
  | number isNumber => exact ⟨⟨by rw [isNumber]; rfl, by simp⟩, by simp [isNumber]⟩
  | @boolean _ value _ isKeyword =>
    cases value <;> exact ⟨⟨by rw [isKeyword]; rfl, by simp⟩, by simp [isKeyword]⟩
  | reference isName => exact ⟨⟨by rw [isName]; rfl, by simp⟩, by simp [isName]⟩
  | wrapped isOpening => exact ⟨⟨by rw [isOpening]; rfl, by simp [isOpening]⟩, by simp [isOpening]⟩
  | operand _ inner => exact inner.1
  | add _ isPlus _ inLeft => exact inLeft.1.append (by simp [isPlus])
  | conditional _ isQuestion _ _ _ test => exact test.1.append (by simp [isQuestion])
  | call _ isOpening _ _ function => exact function.1.append (by simp [isOpening])
  | property _ isDot _ inner => exact inner.1.append (by simp [isDot])
  | object isOpening => exact ⟨by rw [isOpening]; rfl, by simp [isOpening]⟩
  | function isOpening => exact ⟨by rw [isOpening]; rfl, by simp [isOpening]⟩
  | block isOpening => exact ⟨_, _, rfl, isOpening⟩
  | result isReturn => exact ⟨_, _, rfl, by simp [isReturn]⟩
  | last _ inner => exact inner.exists_cons
  | lastSemicolon _ isSemicolon inner =>
    exact (inner.append (by simp [isSemicolon])).exists_cons
  | sequence _ isSemicolon _ head =>
    exact (head.append (by simp [isSemicolon])).exists_cons
  | constant isConst => exact ⟨_, _, rfl, by simp [isConst]⟩
  | declaration isFunction => exact ⟨_, _, rfl, by simp [isFunction]⟩
  | _ => trivial

namespace Printed

variable {term left : Term} {tokens rest : List Token} {next : Token}

/-- A token that is a literal is read as an operand. -/
theorem isRead_literal {token : Token} {literal : Term} (isLiteral : token.literal? = some literal)
    (same : term.Same literal) : (operand term).IsRead [token] := by
  intro fuel power rest gets goesOn
  apply gets_readTerm (leading_of_literal? isLiteral) fun less _ => gets_literal isLiteral
  rintro less _ left tokens names ⟨rfl, rfl, rfl⟩
  exact goesOn less _ same

/-- An operand between parentheses is read. -/
theorem isRead_wrapped {opening closing : Token} (isOpening : opening.kind = .openParen)
    (opens : OpensTerm tokens) (inner : (whole term).IsRead tokens)
    (isClosing : closing.kind = .closeParen) :
    (operand term).IsRead (opening :: (tokens ++ [closing])) := by
  intro fuel power rest gets goesOn
  have isForm : Grammar.standard.leading opening.kind = some .parenthesis := by
    rw [isOpening]
    rfl
  have ends : Grammar.standard.trailing closing.kind = none := by
    rw [isClosing]
    rfl
  rw [List.cons_append, List.append_assoc]
  apply gets_readTerm isForm fun less _ =>
    gets_group opens isClosing fun less _ => inner less closing rest ends
  rintro less _ left tokens names ⟨same, rfl, rfl⟩
  exact goesOn less left same

/-- An operand is read by itself, with any power. -/
theorem gets_operand (isRead : (operand term).IsRead tokens)
    (ends : Grammar.standard.trailing next.kind = none) (fuel : Nat) (power : Power) :
    (readTerm .standard fuel power).Gets (tokens ++ next :: rest) {}
      (Leaves term.Same (next :: rest) {}) :=
  isRead fuel power _ _ fun _ _ same => gets_readTrailing_of_ends ends ⟨same, rfl, rfl⟩

/-- A term is read that consists of an operand and one thing that follows it. -/
theorem isRead_trailing {form : TrailingForm} {binding : Power} {sign : Token} {more : List Token}
    (isRead : (operand left).IsRead tokens)
    (isForm : Grammar.standard.trailing sign.kind = some (form, binding))
    (longer : ∀ less first next rest, left.Same first →
      Grammar.standard.trailing next.kind = none →
        (readTrailingForm .standard less form binding first).Gets (sign :: (more ++ next :: rest))
          {} (Leaves term.Same (next :: rest) {})) :
    (whole term).IsRead (tokens ++ sign :: more) := by
  intro fuel next rest ends
  have binds : Power.lowest.isBelow binding = true := by
    revert isForm
    cases sign.kind <;> rintro ⟨⟩ <;> rfl
  rw [List.append_assoc]
  apply isRead
  intro less first same
  apply gets_readTrailing_of_binds isForm binds fun less _ => longer less first next rest same ends
  rintro less _ left tokens names ⟨same, rfl, rfl⟩
  exact gets_readTrailing_of_ends ends ⟨same, rfl, rfl⟩

/-- A sum is read. -/
theorem isRead_add {span : Span} {left right : Term} {plus : Token} {first second : List Token}
    (inLeft : (operand left).IsRead first) (isPlus : plus.kind = .plus)
    (inRight : (operand right).IsRead second) :
    (whole (.add span left right)).IsRead (first ++ plus :: second) := by
  apply isRead_trailing inLeft
  · rw [isPlus]
    rfl
  · intro less first next rest sameLeft ends
    apply gets_add fun less _ => gets_operand inRight ends less _
    rintro span right tokens names ⟨sameRight, rfl, rfl⟩
    exact ⟨sameLeft.add sameRight _ _, rfl, rfl⟩

/-- A conditional is read. -/
theorem isRead_conditional {span : Span} {condition positive negative : Term}
    {question colon : Token} {first second third : List Token}
    (test : (operand condition).IsRead first) (isQuestion : question.kind = .question)
    (holds : (operand positive).IsRead second) (isColon : colon.kind = .colon)
    (fails : (operand negative).IsRead third) :
    (whole (.conditional span condition positive negative)).IsRead
      (first ++ question :: (second ++ colon :: third)) := by
  have between : Grammar.standard.trailing colon.kind = none := by
    rw [isColon]
    rfl
  apply isRead_trailing test
  · rw [isQuestion]
    rfl
  · intro less first next rest sameCondition ends
    rw [List.append_assoc]
    apply gets_conditional isColon (fun less _ => gets_operand holds between less _) fun less _ =>
      gets_operand fails ends less _
    rintro span positive negative tokens names samePositive ⟨sameNegative, rfl, rfl⟩
    refine ⟨?_, rfl, rfl⟩
    rw [Same, unplaced, unplaced, sameCondition, samePositive, sameNegative]

/-- A call is read. -/
theorem isRead_call {span : Span} {callee : Term} {arguments : List Term} {opening closing : Token}
    {first second : List Token} (function : (operand callee).IsRead first)
    (isOpening : opening.kind = .openParen) (values : (Printed.arguments arguments).IsRead second)
    (isClosing : closing.kind = .closeParen) :
    (whole (.call span callee arguments)).IsRead (first ++ opening :: (second ++ [closing])) := by
  apply isRead_trailing function
  · rw [isOpening]
    rfl
  · intro less first next rest sameCallee _
    rw [List.append_assoc]
    apply gets_call isClosing fun less _ => values less closing (next :: rest) isClosing
    intro span arguments sameArguments
    rw [Same, unplaced, unplaced, sameCallee, sameArguments]

/-- A property access is read. -/
theorem isRead_property {span : Span} {object : Term} {dot name : Token}
    (inner : (operand object).IsRead tokens) (isDot : dot.kind = .dot)
    (isName : name.kind = .identifier) :
    (whole (.property span object name.value)).IsRead (tokens ++ [dot, name]) := by
  apply isRead_trailing inner
  · rw [isDot]
    rfl
  · intro less first next rest same _
    apply gets_property isName
    intro span
    rw [Same, unplaced, unplaced, same]

/-- A term that is only what its first token leads is read. -/
theorem isRead_leading {form : LeadingForm} {first : Token}
    (isForm : Grammar.standard.leading first.kind = some form)
    (leads : ∀ less next rest, Grammar.standard.trailing next.kind = none →
      (readLeading .standard less form).Gets (first :: (tokens ++ next :: rest)) {}
        (Leaves term.Same (next :: rest) {})) :
    (whole term).IsRead (first :: tokens) := by
  intro fuel next rest ends
  apply gets_readTerm isForm fun less _ => leads less next rest ends
  rintro less _ left tokens names ⟨same, rfl, rfl⟩
  exact gets_readTrailing_of_ends ends ⟨same, rfl, rfl⟩

/-- An object literal is read. -/
theorem isRead_object {span : Span} {members : List (String × Term)} {opening closing : Token}
    (isOpening : opening.kind = .openCurly) (values : (properties members).IsRead tokens)
    (isClosing : closing.kind = .closeCurly) :
    (whole (.object span members)).IsRead (opening :: (tokens ++ [closing])) := by
  apply isRead_leading
  · rw [isOpening]
    rfl
  · intro less next rest _
    rw [List.append_assoc]
    apply gets_object isClosing fun less _ => values less closing (next :: rest) isClosing
    intro span members same
    rw [Same, unplaced, unplaced, same]

/-- A function literal is read. -/
theorem isRead_function {span : Span} {parameters : List (String × Ty)} {declared : Option Ty}
    {opening closing arrow : Token} {inside between : List Token}
    (isOpening : opening.kind = .openParen)
    (inParameters : Ty.Spells {} (.members .parameters parameters) inside)
    (isClosing : closing.kind = .closeParen)
    (inResult : Ty.Spells {} (.ascription declared) between) (isArrow : arrow.kind = .arrow)
    (inner : (body term).IsRead tokens) :
    (whole (.function span parameters declared term)).IsRead
      (opening :: (inside ++ closing :: (between ++ arrow :: tokens))) := by
  obtain _ | ⟨first, tokens⟩ := tokens
  · exact inner.elim
  apply isRead_leading
  · rw [isOpening]
    rfl
  · intro less next rest ends
    simp only [List.append_assoc, List.cons_append]
    apply gets_function isOpening inParameters isClosing inResult isArrow
    · intro isBlock less _
      simpa only [if_pos isBlock] using inner less next rest ends
    · intro noBlock less _
      simpa only [if_neg noBlock] using inner less next rest ends
    · rintro span body left names ⟨same, rfl, rfl⟩
      refine ⟨?_, rfl, rfl⟩
      rw [Same, unplaced, unplaced, same]

/-- No arguments are read. -/
theorem isRead_noArguments : (arguments []).IsRead [] :=
  fun _ _ _ isClosing => gets_arguments_nil isClosing rfl

/-- The last argument is read. -/
theorem isRead_lastArgument (opens : OpensTerm tokens) (inner : (whole term).IsRead tokens) :
    (arguments [term]).IsRead tokens := by
  intro fuel closing rest isClosing
  have ends : Grammar.standard.trailing closing.kind = none := by
    rw [isClosing]
    rfl
  apply gets_arguments_cons opens fun less _ => inner less closing rest ends
  · intro less _ isComma
    rw [isClosing] at isComma
    cases isComma
  · exact fun _ argument same => ⟨unplacedOf_congr same rfl, rfl, rfl⟩

/-- An argument is read, and others after a comma. -/
theorem isRead_argument {others : List Term} {comma : Token} {more : List Token}
    (opens : OpensTerm tokens) (inner : (whole term).IsRead tokens) (isComma : comma.kind = .comma)
    (inOthers : (arguments others).IsRead more) :
    (arguments (term :: others)).IsRead (tokens ++ comma :: more) := by
  intro fuel closing rest isClosing
  have ends : Grammar.standard.trailing comma.kind = none := by
    rw [isComma]
    rfl
  rw [List.append_assoc]
  apply gets_arguments_cons opens fun less _ => inner less comma _ ends
  · intro less _ _ argument same
    apply (inOthers less closing rest isClosing).bind
    intro others sameOthers
    exact .pure ⟨unplacedOf_congr same sameOthers, rfl, rfl⟩
  · exact fun noComma => absurd isComma noComma

/-- No properties are read. -/
theorem isRead_noProperties : (properties []).IsRead [] :=
  fun _ _ _ isClosing => gets_properties_nil isClosing rfl

/-- The last property is read. -/
theorem isRead_lastProperty {name colon : Token} (isName : name.kind = .identifier)
    (isColon : colon.kind = .colon) (inner : (whole term).IsRead tokens) :
    (properties [(name.value, term)]).IsRead (name :: colon :: tokens) := by
  intro fuel closing rest isClosing
  have ends : Grammar.standard.trailing closing.kind = none := by
    rw [isClosing]
    rfl
  apply gets_properties_cons isName isColon fun less _ => inner less closing rest ends
  · intro less _ isComma
    rw [isClosing] at isComma
    cases isComma
  · exact fun _ value same => ⟨unplacedIn_congr same rfl, rfl, rfl⟩

/-- A property is read, and others after a comma. -/
theorem isRead_propertyValue {others : List (String × Term)} {name colon comma : Token}
    {more : List Token} (isName : name.kind = .identifier) (isColon : colon.kind = .colon)
    (inner : (whole term).IsRead tokens) (isComma : comma.kind = .comma)
    (inOthers : (properties others).IsRead more) :
    (properties ((name.value, term) :: others)).IsRead
      (name :: colon :: (tokens ++ comma :: more)) := by
  intro fuel closing rest isClosing
  have ends : Grammar.standard.trailing comma.kind = none := by
    rw [isComma]
    rfl
  simp only [List.cons_append, List.append_assoc]
  apply gets_properties_cons isName isColon fun less _ => inner less comma _ ends
  · intro less _ _ value same
    apply (inOthers less closing rest isClosing).bind
    intro others sameOthers
    exact .pure ⟨unplacedIn_congr same sameOthers, rfl, rfl⟩
  · exact fun noComma => absurd isComma noComma

/-- A block is read. -/
theorem isRead_block {opening closing : Token} (isOpening : opening.kind = .openCurly)
    (inner : (statements .result term).IsRead tokens) (isClosing : closing.kind = .closeCurly) :
    (block term).IsRead (opening :: (tokens ++ [closing])) := by
  intro fuel rest
  rw [List.cons_append, List.append_assoc]
  apply gets_block isOpening isClosing
  intro less _
  apply (inner less closing rest (fun isSource => nomatch isSource)).imp
  rintro body left names ⟨same, rfl, rfl⟩
  exact ⟨same, rfl, rfl⟩

/-- The result of a block is read. -/
theorem isRead_result {return_ semicolon : Token} (isReturn : return_.kind = .returnKeyword)
    (inner : (whole term).IsRead tokens) (isSemicolon : semicolon.kind = .semicolon) :
    (statements .result term).IsRead (return_ :: (tokens ++ [semicolon])) := by
  intro fuel next rest _
  have ends : Grammar.standard.trailing semicolon.kind = none := by
    rw [isSemicolon]
    rfl
  rw [List.cons_append, List.append_assoc]
  exact gets_return isReturn isSemicolon fun less _ => inner less semicolon _ ends

/-- The last term of a source is read. -/
theorem isRead_last (opens : OpensTerm tokens) (inner : (whole term).IsRead tokens) :
    (statements .source term).IsRead tokens := by
  intro fuel next rest isEnd
  have isEnd := isEnd rfl
  have ends : Grammar.standard.trailing next.kind = none := by
    rw [isEnd]
    rfl
  have noSemicolon : next.kind ≠ .semicolon := by
    rw [isEnd]
    decide
  exact gets_last opens noSemicolon fun less _ => inner less next rest ends

/-- The last term of a source is read, with a semicolon. -/
theorem isRead_lastSemicolon {semicolon : Token} (opens : OpensTerm tokens)
    (inner : (whole term).IsRead tokens) (isSemicolon : semicolon.kind = .semicolon) :
    (statements .source term).IsRead (tokens ++ [semicolon]) := by
  intro fuel next rest isEnd
  have ends : Grammar.standard.trailing semicolon.kind = none := by
    rw [isSemicolon]
    rfl
  rw [List.append_assoc]
  exact gets_last_semicolon opens isSemicolon (isEnd rfl) fun less _ => inner less semicolon _ ends

/-- A sequence is read. -/
theorem isRead_sequence {span : Span} {ending : Ending} {first others : Term} {semicolon : Token}
    {more : List Token} (opens : OpensTerm tokens) (head : (whole first).IsRead tokens)
    (isSemicolon : semicolon.kind = .semicolon)
    (starts : (statements ending others).Starts more)
    (tail : (statements ending others).IsRead more) :
    (statements ending (.sequence span first others)).IsRead (tokens ++ semicolon :: more) := by
  intro fuel next rest isEnd
  have ends : Grammar.standard.trailing semicolon.kind = none := by
    rw [isSemicolon]
    rfl
  obtain ⟨second, more, rfl, noEnd⟩ := starts
  rw [List.append_assoc]
  apply gets_sequence opens isSemicolon noEnd (fun less _ => head less semicolon _ ends)
    fun less _ => tail less next rest isEnd
  rintro span first others left names sameFirst ⟨sameOthers, rfl, rfl⟩
  refine ⟨?_, rfl, rfl⟩
  rw [Same, unplaced, unplaced, sameFirst, sameOthers]

/-- What follows a declaration is read. -/
theorem gets_rest {ending : Ending} (starts : (statements ending term).Starts tokens)
    (tail : (statements ending term).IsRead tokens) (fuel : Nat)
    (isEnd : ending = .source → next.kind = .eof) :
    (readRest .standard fuel ending).Gets (tokens ++ next :: rest) {}
      (Leaves term.Same (next :: rest) {}) := by
  obtain ⟨first, more, rfl, noEnd⟩ := starts
  exact gets_readRest noEnd fun less _ => tail less next rest isEnd

/-- The declaration of a constant is read. -/
theorem isRead_constant {span : Span} {ending : Ending} {value others : Term}
    {const name assignment semicolon : Token} {more : List Token}
    (isConst : const.kind = .constKeyword) (isName : name.kind = .identifier)
    (isAssignment : assignment.kind = .assignment) (inner : (whole value).IsRead tokens)
    (isSemicolon : semicolon.kind = .semicolon) (starts : (statements ending others).Starts more)
    (tail : (statements ending others).IsRead more) :
    (statements ending (.constant span name.value value others)).IsRead
      (const :: name :: assignment :: (tokens ++ semicolon :: more)) := by
  intro fuel next rest isEnd
  have isForm : Grammar.standard.declarations const.kind = some .constant := by
    rw [isConst]
    rfl
  have ends : Grammar.standard.trailing semicolon.kind = none := by
    rw [isSemicolon]
    rfl
  simp only [List.cons_append, List.append_assoc]
  apply gets_declaration isForm
  intro less _
  apply gets_constant isName .bare isAssignment isSemicolon
    (fun less _ => inner less semicolon _ ends) fun less _ => gets_rest starts tail less isEnd
  rintro span value others left names sameValue ⟨sameOthers, rfl, rfl⟩
  refine ⟨?_, rfl, rfl⟩
  rw [Same, unplaced, unplaced, sameValue, sameOthers]

/-- The declaration of a function is read. -/
theorem isRead_declaration {span : Span} {ending : Ending} {parameters : List (String × Ty)}
    {declared : Ty} {others : Term} {function name opening closing colon : Token}
    {inside result more : List Token} (isFunction : function.kind = .functionKeyword)
    (isName : name.kind = .identifier) (isOpening : opening.kind = .openParen)
    (inParameters : Ty.Spells {} (.members .parameters parameters) inside)
    (isClosing : closing.kind = .closeParen) (isColon : colon.kind = .colon)
    (inResult : Ty.Spells {} (.type declared) result) (inner : (block term).IsRead tokens)
    (starts : (statements ending others).Starts more)
    (tail : (statements ending others).IsRead more) :
    (statements ending (.declaration span name.value parameters declared term others)).IsRead
      (function :: name :: opening ::
        (inside ++ closing :: colon :: (result ++ (tokens ++ more)))) := by
  intro fuel next rest isEnd
  have isForm : Grammar.standard.declarations function.kind = some .function := by
    rw [isFunction]
    rfl
  simp only [List.cons_append, List.append_assoc]
  apply gets_declaration isForm
  intro less _
  apply gets_functionDeclaration isName isOpening inParameters isClosing isColon inResult
    (fun less _ => inner less _) fun less _ => gets_rest starts tail less isEnd
  rintro span body others left names sameBody ⟨sameOthers, rfl, rfl⟩
  refine ⟨?_, rfl, rfl⟩
  rw [Same, unplaced, unplaced, sameBody, sameOthers]

/-- The body of a function literal is read as an operand. -/
theorem isRead_operandBody (starts : (operand term).Starts tokens)
    (inner : (operand term).IsRead tokens) : (body term).IsRead tokens := by
  obtain _ | ⟨first, tokens⟩ := tokens
  · exact starts.1.elim
  · intro fuel next rest ends
    rw [if_neg (starts.2 first rfl)]
    exact gets_operand inner ends fuel .lowest

/-- The body of a function literal is read as a block. -/
theorem isRead_blockBody (starts : (block term).Starts tokens)
    (inner : (block term).IsRead tokens) : (body term).IsRead tokens := by
  obtain ⟨first, tokens, rfl, isBrace⟩ := starts
  intro fuel next rest _
  rw [if_pos isBrace]
  exact inner fuel (next :: rest)

end Printed

/-- What is printed is read as the same, with any allowance that is not used up. -/
theorem Prints.isRead {printed : Printed} {tokens : List Token} (prints : Prints printed tokens) :
    printed.IsRead tokens := by
  induction prints with
  | @number span value token isNumber isValue =>
    have isLiteral : token.literal? = some (.number token.span value) := by
      simp [Token.literal?, isNumber, isValue]
    exact Printed.isRead_literal isLiteral rfl
  | @boolean span value token isKeyword =>
    have isLiteral : token.literal? = some (.boolean token.span value) := by
      cases value <;> simp [Token.literal?, isKeyword]
    exact Printed.isRead_literal isLiteral rfl
  | @reference span token isName =>
    have isLiteral : token.literal? = some (.reference token.span token.value) := by
      simp [Token.literal?, isName]
    exact Printed.isRead_literal isLiteral rfl
  | wrapped isOpening inside isClosing inner =>
    exact Printed.isRead_wrapped isOpening inside.starts inner isClosing
  | operand _ inner => exact fun fuel next rest ends => Printed.gets_operand inner ends fuel .lowest
  | add _ isPlus _ inLeft inRight => exact Printed.isRead_add inLeft isPlus inRight
  | conditional _ isQuestion _ isColon _ test holds fails =>
    exact Printed.isRead_conditional test isQuestion holds isColon fails
  | call _ isOpening _ isClosing function values =>
    exact Printed.isRead_call function isOpening values isClosing
  | property _ isDot isName inner => exact Printed.isRead_property inner isDot isName
  | object isOpening _ isClosing values => exact Printed.isRead_object isOpening values isClosing
  | function isOpening inParameters isClosing inResult isArrow _ inner =>
    exact Printed.isRead_function isOpening inParameters isClosing inResult isArrow inner
  | noArguments => exact Printed.isRead_noArguments
  | lastArgument prints inner => exact Printed.isRead_lastArgument prints.starts inner
  | argument prints isComma _ inner inOthers =>
    exact Printed.isRead_argument prints.starts inner isComma inOthers
  | noProperties => exact Printed.isRead_noProperties
  | lastProperty isName isColon _ inner => exact Printed.isRead_lastProperty isName isColon inner
  | propertyValue isName isColon _ isComma _ inner inOthers =>
    exact Printed.isRead_propertyValue isName isColon inner isComma inOthers
  | block isOpening _ isClosing inner => exact Printed.isRead_block isOpening inner isClosing
  | operandBody prints inner => exact Printed.isRead_operandBody prints.starts inner
  | blockBody prints inner => exact Printed.isRead_blockBody prints.starts inner
  | result isReturn _ isSemicolon inner => exact Printed.isRead_result isReturn inner isSemicolon
  | last prints inner => exact Printed.isRead_last prints.starts inner
  | lastSemicolon prints isSemicolon inner =>
    exact Printed.isRead_lastSemicolon prints.starts inner isSemicolon
  | sequence prints isSemicolon others head tail =>
    exact Printed.isRead_sequence prints.starts head isSemicolon others.starts tail
  | constant isConst isName isAssignment _ isSemicolon others inner tail =>
    exact Printed.isRead_constant isConst isName isAssignment inner isSemicolon others.starts tail
  | declaration isFunction isName isOpening inParameters isClosing isColon inResult _ others inner
      tail =>
    exact Printed.isRead_declaration isFunction isName isOpening inParameters isClosing isColon
      inResult inner others.starts tail

end Term

/-! ## Every term can be printed -/

namespace Ty

/-- Members are spelled if the types of all of them are. -/
theorem exists_spells_members (scope : Scope) (listing : Listing) {members : List (String × Ty)}
    (values : ∀ member ∈ members, ∃ tokens, Spells scope (.type member.2) tokens) :
    ∃ tokens, Spells scope (.members listing members) tokens := by
  induction members with
  | nil => exact ⟨[], .nil⟩
  | cons member rest ih =>
    obtain ⟨first, others⟩ := List.forall_mem_cons.1 values
    obtain ⟨tokens, spells⟩ := first
    obtain ⟨more, spellsRest⟩ := ih others
    have separates : listing.separates (Token.bare .comma "").kind = true := by
      cases listing <;> rfl
    exact ⟨_, .cons (Token.bare_kind .identifier member.1) (Token.bare_kind .colon "") spells
      separates spellsRest⟩

/-- A type without variables and recursion is spelled, whatever names are known. -/
theorem exists_spells (scope : Scope) {type : Ty} (plain : type.isRecursive = false) :
    ∃ tokens, Spells scope (.type type) tokens := by
  induction type with
  | number => exact ⟨[.bare .identifier "number"], .name rfl rfl⟩
  | boolean => exact ⟨[.bare .identifier "boolean"], .name rfl rfl⟩
  | function parameters result values last =>
    simp only [isRecursive, isRecursiveIn_eq_any, Bool.or_eq_false_iff, List.any_eq_false,
      Bool.not_eq_true] at plain
    obtain ⟨inside, inParameters⟩ := exists_spells_members scope .parameters fun member isMember =>
      values member isMember (plain.1 member isMember)
    obtain ⟨after, inResult⟩ := last plain.2
    exact ⟨.bare .openParen "" :: (inside ++ .bare .closeParen "" :: .bare .arrow "" :: after),
      .function rfl inParameters rfl rfl inResult⟩
  | object properties values =>
    simp only [isRecursive, isRecursiveIn_eq_any, List.any_eq_false, Bool.not_eq_true] at plain
    obtain ⟨inside, inProperties⟩ := exists_spells_members scope .properties fun member isMember =>
      values member isMember (plain member isMember)
    exact ⟨.bare .openCurly "" :: (inside ++ [.bare .closeCurly ""]), .object rfl inProperties rfl⟩
  | var name => cases plain
  | mu name body => cases plain

/-- An annotation without variables and recursion is spelled. -/
theorem exists_spells_ascription (scope : Scope) {declared : Option Ty}
    (plain : ∀ type ∈ declared, type.isRecursive = false) :
    ∃ tokens, Spells scope (.ascription declared) tokens := by
  cases declared with
  | none => exact ⟨[], .bare⟩
  | some type =>
    obtain ⟨tokens, spells⟩ := exists_spells scope (plain type rfl)
    exact ⟨.bare .colon "" :: tokens, .annotated rfl spells⟩

end Ty

namespace Term

/-- A term whose types and numbers can be written: types without variables and recursion, and
numbers that are the value of some text. -/
structure Writable (term : Term) : Prop where
  /-- The annotations. -/
  annotations : ∀ type ∈ term.annotations, type.isRecursive = false
  /-- The numbers. -/
  numbers : ∀ span value, .number span value ∈ term.subterms →
    ∃ text, Double.ofText? text = some value

/-- The parts of a term that can be written can be written. -/
theorem Writable.of_mem_parts {term part : Term} (writable : term.Writable)
    (isPart : part ∈ term.parts) : part.Writable where
  annotations type isAnnotation := by
    apply writable.annotations
    rw [annotations_eq_append]
    exact List.mem_append_right _ (List.mem_flatMap_of_mem isPart isAnnotation)
  numbers span value isNumber := by
    apply writable.numbers span value
    rw [subterms_eq_cons]
    exact List.mem_cons_of_mem _ (List.mem_flatMap_of_mem isPart isNumber)

/-- A printed term is printed as an operand between parentheses. -/
theorem exists_operand {term : Term} (printed : ∃ tokens, Prints (.whole term) tokens) :
    ∃ tokens, Prints (.operand term) tokens := by
  obtain ⟨tokens, prints⟩ := printed
  exact ⟨.bare .openParen "" :: (tokens ++ [.bare .closeParen ""]), .wrapped rfl prints rfl⟩

/-- A printed term is printed as the last of its sequence. -/
theorem exists_statements {term : Term} (printed : ∃ tokens, Prints (.whole term) tokens)
    (ending : Ending) : ∃ tokens, Prints (.statements ending term) tokens := by
  obtain ⟨tokens, prints⟩ := printed
  cases ending with
  | source => exact ⟨tokens, .last prints⟩
  | result =>
    exact ⟨.bare .returnKeyword "" :: (tokens ++ [.bare .semicolon ""]), .result rfl prints rfl⟩

/-- Statements are printed as a block. -/
theorem exists_block {term : Term} (printed : ∀ ending, ∃ tokens,
    Prints (.statements ending term) tokens) : ∃ tokens, Prints (.block term) tokens := by
  obtain ⟨tokens, prints⟩ := printed .result
  exact ⟨.bare .openCurly "" :: (tokens ++ [.bare .closeCurly ""]), .block rfl prints rfl⟩

/-- Arguments are printed if all of them are. -/
theorem exists_arguments {terms : List Term}
    (values : ∀ term ∈ terms, ∃ tokens, Prints (.whole term) tokens) :
    ∃ tokens, Prints (.arguments terms) tokens := by
  induction terms with
  | nil => exact ⟨[], .noArguments⟩
  | cons term rest ih =>
    obtain ⟨⟨tokens, prints⟩, others⟩ := List.forall_mem_cons.1 values
    obtain ⟨more, printsRest⟩ := ih others
    exact ⟨tokens ++ .bare .comma "" :: more, .argument prints rfl printsRest⟩

/-- Properties are printed if all of their values are. -/
theorem exists_properties {members : List (String × Term)}
    (values : ∀ member ∈ members, ∃ tokens, Prints (.whole member.2) tokens) :
    ∃ tokens, Prints (.properties members) tokens := by
  induction members with
  | nil => exact ⟨[], .noProperties⟩
  | cons member rest ih =>
    obtain ⟨⟨tokens, prints⟩, others⟩ := List.forall_mem_cons.1 values
    obtain ⟨more, printsRest⟩ := ih others
    exact ⟨_, .propertyValue (Token.bare_kind .identifier member.1) (Token.bare_kind .colon "")
      prints (Token.bare_kind .comma "") printsRest⟩

/-- How a term can be printed: by itself if no sequence or declaration is at its top, and as
statements in any case. -/
structure Printable (term : Term) : Prop where
  /-- By itself. -/
  whole : term.isArranged false = true → ∃ tokens, Prints (.whole term) tokens
  /-- As statements. -/
  statements : term.isArranged true = true → ∀ ending, ∃ tokens,
    Prints (.statements ending term) tokens

/-- A term with no sequence or declaration at its top can be printed if it can by itself. -/
theorem Printable.of_whole {term : Term} (noTop : term.isArranged true = term.isArranged false)
    (whole : term.isArranged false = true → ∃ tokens, Prints (.whole term) tokens) :
    term.Printable where
  whole := whole
  statements arranged := exists_statements (whole (noTop ▸ arranged))

/-- A function literal can be printed. -/
theorem printable_function {span : Span} {parameters : List (String × Ty)} {declared : Option Ty}
    {body : Term} (writable : (function span parameters declared body).Writable)
    (inner : body.Printable) : (function span parameters declared body).Printable := by
  have plain := writable.annotations
  simp only [annotations, List.forall_mem_append, List.forall_mem_map, Option.mem_toList] at plain
  refine .of_whole rfl fun arranged => ?_
  obtain ⟨inside, inParameters⟩ := Ty.exists_spells_members {} .parameters
    fun member isMember => Ty.exists_spells {} (plain.1.1 member isMember)
  obtain ⟨between, inResult⟩ := Ty.exists_spells_ascription {} plain.1.2
  obtain ⟨tokens, prints⟩ := exists_block (inner.statements arranged)
  exact ⟨.bare .openParen "" ::
    (inside ++ .bare .closeParen "" :: (between ++ .bare .arrow "" :: tokens)),
    .function rfl inParameters rfl inResult rfl (.blockBody prints)⟩

/-- The declaration of a function can be printed. -/
theorem printable_declaration {span : Span} {name : String} {parameters : List (String × Ty)}
    {declared : Ty} {body rest : Term}
    (writable : (declaration span name parameters declared body rest).Writable)
    (inner : body.Printable) (tail : rest.Printable) :
    (declaration span name parameters declared body rest).Printable := by
  have plain := writable.annotations
  simp only [annotations, List.forall_mem_append, List.forall_mem_map,
    List.forall_mem_singleton] at plain
  refine ⟨(fun arranged => by cases arranged), fun arranged ending => ?_⟩
  simp only [isArranged, Bool.true_and, Bool.and_eq_true] at arranged
  obtain ⟨inside, inParameters⟩ := Ty.exists_spells_members {} .parameters
    fun member isMember => Ty.exists_spells {} (plain.1.1.1 member isMember)
  obtain ⟨result, inResult⟩ := Ty.exists_spells {} plain.1.1.2
  obtain ⟨tokens, prints⟩ := exists_block (inner.statements arranged.1)
  obtain ⟨more, printsRest⟩ := tail.statements arranged.2 ending
  exact ⟨_, .declaration (Token.bare_kind .functionKeyword "") (Token.bare_kind .identifier name)
    (Token.bare_kind .openParen "") inParameters (Token.bare_kind .closeParen "")
    (Token.bare_kind .colon "") inResult prints printsRest⟩

/-- A term whose types and numbers can be written can be printed. -/
theorem printable {term : Term} (writable : term.Writable) : term.Printable := by
  induction term with
  | boolean span value =>
    refine .of_whole rfl fun _ => ⟨[.bare (if value then .trueKeyword else .falseKeyword) ""], ?_⟩
    exact .operand (.boolean rfl)
  | number span value =>
    obtain ⟨text, isValue⟩ := writable.numbers span value (self_mem_subterms _)
    exact .of_whole rfl fun _ => ⟨[.bare .number text], .operand (.number rfl isValue)⟩
  | reference span name =>
    exact .of_whole rfl fun _ => ⟨_, .operand (.reference (Token.bare_kind .identifier name))⟩
  | add span left right inLeft inRight =>
    have inLeft := inLeft (writable.of_mem_parts (by simp [parts]))
    have inRight := inRight (writable.of_mem_parts (by simp [parts]))
    refine .of_whole rfl fun arranged => ?_
    simp only [isArranged, Bool.and_eq_true] at arranged
    obtain ⟨first, printsLeft⟩ := exists_operand (inLeft.whole arranged.1)
    obtain ⟨second, printsRight⟩ := exists_operand (inRight.whole arranged.2)
    exact ⟨first ++ .bare .plus "" :: second, .add printsLeft rfl printsRight⟩
  | conditional span condition positive negative test holds fails =>
    have test := test (writable.of_mem_parts (by simp [parts]))
    have holds := holds (writable.of_mem_parts (by simp [parts]))
    have fails := fails (writable.of_mem_parts (by simp [parts]))
    refine .of_whole rfl fun arranged => ?_
    simp only [isArranged, Bool.and_eq_true] at arranged
    obtain ⟨first, printsTest⟩ := exists_operand (test.whole arranged.1.1)
    obtain ⟨second, printsHolds⟩ := exists_operand (holds.whole arranged.1.2)
    obtain ⟨third, printsFails⟩ := exists_operand (fails.whole arranged.2)
    exact ⟨first ++ .bare .question "" :: (second ++ .bare .colon "" :: third),
      .conditional printsTest rfl printsHolds rfl printsFails⟩
  | function span parameters declared body inner =>
    exact printable_function writable (inner (writable.of_mem_parts (by simp [parts])))
  | call span callee arguments function values =>
    have function := function (writable.of_mem_parts (by simp [parts]))
    refine .of_whole rfl fun arranged => ?_
    simp only [isArranged, areArranged_eq_all, Bool.and_eq_true, List.all_eq_true] at arranged
    obtain ⟨first, printsCallee⟩ := exists_operand (function.whole arranged.1)
    obtain ⟨second, printsArguments⟩ := exists_arguments fun argument isArgument =>
      (values argument isArgument (writable.of_mem_parts (by simp [parts, isArgument]))).whole
        (arranged.2 argument isArgument)
    exact ⟨first ++ .bare .openParen "" :: (second ++ [.bare .closeParen ""]),
      .call printsCallee rfl printsArguments rfl⟩
  | sequence span first rest head tail =>
    have head := head (writable.of_mem_parts (by simp [parts]))
    have tail := tail (writable.of_mem_parts (by simp [parts]))
    refine ⟨(fun arranged => by cases arranged), fun arranged ending => ?_⟩
    simp only [isArranged, Bool.true_and, Bool.and_eq_true] at arranged
    obtain ⟨tokens, printsFirst⟩ := head.whole arranged.1
    obtain ⟨more, printsRest⟩ := tail.statements arranged.2 ending
    exact ⟨tokens ++ .bare .semicolon "" :: more, .sequence printsFirst rfl printsRest⟩
  | constant span name value rest inner tail =>
    have inner := inner (writable.of_mem_parts (by simp [parts]))
    have tail := tail (writable.of_mem_parts (by simp [parts]))
    refine ⟨(fun arranged => by cases arranged), fun arranged ending => ?_⟩
    simp only [isArranged, Bool.true_and, Bool.and_eq_true] at arranged
    obtain ⟨tokens, printsValue⟩ := inner.whole arranged.1
    obtain ⟨more, printsRest⟩ := tail.statements arranged.2 ending
    exact ⟨_, .constant (Token.bare_kind .constKeyword "") (Token.bare_kind .identifier name)
      (Token.bare_kind .assignment "") printsValue (Token.bare_kind .semicolon "") printsRest⟩
  | object span properties values =>
    refine .of_whole rfl fun arranged => ?_
    simp only [isArranged, areArrangedIn_eq_all, List.all_eq_true] at arranged
    obtain ⟨tokens, prints⟩ := exists_properties fun member isMember =>
      (values member isMember (writable.of_mem_parts
        (List.mem_map_of_mem isMember))).whole (arranged member isMember)
    exact ⟨.bare .openCurly "" :: (tokens ++ [.bare .closeCurly ""]), .object rfl prints rfl⟩
  | property span object name inner =>
    have inner := inner (writable.of_mem_parts (by simp [parts]))
    refine .of_whole rfl fun arranged => ?_
    obtain ⟨tokens, prints⟩ := exists_operand (inner.whole arranged)
    exact ⟨_, .property prints (Token.bare_kind .dot "") (Token.bare_kind .identifier name)⟩
  | declaration span name parameters declared body rest inner tail =>
    exact printable_declaration writable (inner (writable.of_mem_parts (by simp [parts])))
      (tail (writable.of_mem_parts (by simp [parts])))

/-- A program whose sequences and declarations stand where they may, and whose types are written
without names, is read back from whatever tokens print it, up to places; and it can be printed if
its numbers are values of texts. -/
theorem ofTokens_prints {term : Term} (arranged : term.isArranged true = true)
    (plain : ∀ type ∈ term.annotations, type.isRecursive = false) :
    ((∀ span value, .number span value ∈ term.subterms →
      ∃ text, Double.ofText? text = some value) →
        ∃ tokens, Prints (.statements .source term) tokens) ∧
    ∀ tokens stop, Prints (.statements .source term) tokens → stop.kind = .eof →
      ∃ again, ofTokens (tokens ++ [stop]) = .ok again ∧ again.unplaced = term.unplaced := by
  constructor
  · intro numbers
    exact (printable ⟨plain, numbers⟩).statements arranged .source
  · intro tokens stop prints isEnd
    apply ofTokens_of_gets isEnd
    intro fuel
    apply (prints.isRead fuel stop [] fun _ => isEnd).imp
    exact fun again left names isRead => ⟨isRead.1, isRead.2.1⟩

/-- A constant function that adds one to its argument, and a call of it. -/
def successor : Term :=
  .constant default "next"
    (.function default [("n", .number)] (some .number)
      (.add default (.reference default "n") (.number default ⟨0x3FF0000000000000⟩)))
    (.call default (.reference default "next") [.number default ⟨0x3FF0000000000000⟩])

/-- The function and its call are written in tokens, which are read as the same program. -/
theorem ofTokens_prints_successor :
    ∃ tokens again, Prints (.statements .source successor) tokens ∧
      ofTokens (tokens ++ [.bare .eof ""]) = .ok again ∧
        again.unplaced = successor.unplaced := by
  have arranged : successor.isArranged true = true := rfl
  have plain : ∀ type ∈ successor.annotations, type.isRecursive = false := by
    simp [successor, annotations, Ty.isRecursive]
  have isOne : Double.ofText? "1" = some ⟨0x3FF0000000000000⟩ := rfl
  obtain ⟨printed, reads⟩ := ofTokens_prints arranged plain
  obtain ⟨tokens, prints⟩ := printed (by
    simp only [successor, subterms, subtermsOf, List.mem_cons, List.mem_append, List.not_mem_nil,
      reduceCtorEq, number.injEq, false_or, or_false, or_self]
    rintro span value ⟨-, rfl⟩
    exact ⟨"1", isOne⟩)
  obtain ⟨again, isRead, same⟩ := reads tokens (.bare .eof "") prints rfl
  exact ⟨tokens, again, prints, isRead, same⟩

end Term

end Equirec
