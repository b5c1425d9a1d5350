import Equirec.Proofs.KnownTokens

/-!
# The grammar of programs

`Derives known phrase tokens` is the grammar of programs as a relation, with the names of types that
are known where the tokens stand. It is ambiguous and recurs on the left: it says nothing of how
strongly the signs of terms bind.

For reading from left to right a term is taken apart into what its first token leads and what
follows that (`Derives.exists_lead`).
-/
namespace Equirec

/-- What the lists of the grammar consist of. -/
inductive Item where
  /-- A parameter of a function, or a property of an object type. -/
  | member (listing : Ty.Listing)
  /-- An argument of a call. -/
  | argument
  /-- A property of an object literal. -/
  | property
  deriving DecidableEq

/-- The tokens that separate the items of a list. -/
def Item.separates : Item → Token.Kind → Bool
  | .member listing, kind => listing.separates kind
  | .argument, kind | .property, kind => kind == .comma

/-- The phrases of the grammar. -/
inductive Phrase where
  /-- A type. -/
  | type
  /-- The annotation with a type, or nothing. -/
  | ascription
  /-- An item of a list. -/
  | item (item : Item)
  /-- A list of items with separators, of which there may be one after the last item. -/
  | list (item : Item)
  /-- A term. -/
  | term
  /-- The body of a function between braces. -/
  | block
  /-- A sequence of declarations and terms. -/
  | sequence (ending : Ending)
  deriving DecidableEq

/-- The tokens of a phrase, where certain names of types are known. -/
inductive Derives : List String → Phrase → List Token → Prop where
  /-- The name of a type is known. -/
  | typeName {known : List String} {token : Token} (isName : token.kind = .identifier)
    (isKnown : token.value = "number" ∨ token.value = "boolean" ∨ token.value ∈ known) :
    Derives known .type [token]
  /-- A function type. -/
  | functionType {known : List String} {opening closing arrow : Token}
    {parameters result : List Token} (isOpening : opening.kind = .openParen)
    (inParameters : Derives known (.list (.member .parameters)) parameters)
    (isClosing : closing.kind = .closeParen) (isArrow : arrow.kind = .arrow)
    (inResult : Derives known .type result) :
    Derives known .type (opening :: (parameters ++ closing :: arrow :: result))
  /-- An object type. -/
  | objectType {known : List String} {opening closing : Token} {properties : List Token}
    (isOpening : opening.kind = .openCurly)
    (inProperties : Derives known (.list (.member .properties)) properties)
    (isClosing : closing.kind = .closeCurly) :
    Derives known .type (opening :: (properties ++ [closing]))
  /-- No annotation. -/
  | noAscription {known : List String} : Derives known .ascription []
  /-- An annotation. -/
  | ascription {known : List String} {colon : Token} {tokens : List Token}
    (isColon : colon.kind = .colon) (inType : Derives known .type tokens) :
    Derives known .ascription (colon :: tokens)
  /-- A parameter, or a property of an object type. -/
  | member {known : List String} {listing : Ty.Listing} {name colon : Token} {tokens : List Token}
    (isName : name.kind = .identifier) (isColon : colon.kind = .colon)
    (inType : Derives known .type tokens) :
    Derives known (.item (.member listing)) (name :: colon :: tokens)
  /-- An argument. -/
  | argument {known : List String} {tokens : List Token} (inTerm : Derives known .term tokens) :
    Derives known (.item .argument) tokens
  /-- A property of an object literal. -/
  | property {known : List String} {name colon : Token} {tokens : List Token}
    (isName : name.kind = .identifier) (isColon : colon.kind = .colon)
    (inTerm : Derives known .term tokens) :
    Derives known (.item .property) (name :: colon :: tokens)
  /-- An empty list. -/
  | nil {known : List String} {item : Item} : Derives known (.list item) []
  /-- A last item without a separator. -/
  | single {known : List String} {item : Item} {tokens : List Token}
    (inItem : Derives known (.item item) tokens) : Derives known (.list item) tokens
  /-- An item, a separator, and the rest of the list. -/
  | cons {known : List String} {item : Item} {separator : Token} {tokens more : List Token}
    (inItem : Derives known (.item item) tokens)
    (separates : item.separates separator.kind = true)
    (inRest : Derives known (.list item) more) :
    Derives known (.list item) (tokens ++ separator :: more)
  /-- A number, whose text has a value. -/
  | number {known : List String} {token : Token} (isNumber : token.kind = .number)
    (hasValue : (Double.ofText? token.value).isSome = true) : Derives known .term [token]
  /-- A use of a name. -/
  | reference {known : List String} {token : Token} (isName : token.kind = .identifier) :
    Derives known .term [token]
  /-- A boolean. -/
  | boolean {known : List String} {token : Token}
    (isBoolean : token.kind = .trueKeyword ∨ token.kind = .falseKeyword) :
    Derives known .term [token]
  /-- A term between parentheses. -/
  | group {known : List String} {opening closing : Token} {tokens : List Token}
    (isOpening : opening.kind = .openParen) (inner : Derives known .term tokens)
    (isClosing : closing.kind = .closeParen) :
    Derives known .term (opening :: (tokens ++ [closing]))
  /-- An object literal. -/
  | object {known : List String} {opening closing : Token} {properties : List Token}
    (isOpening : opening.kind = .openCurly)
    (inProperties : Derives known (.list .property) properties)
    (isClosing : closing.kind = .closeCurly) :
    Derives known .term (opening :: (properties ++ [closing]))
  /-- A function literal whose body is a term, which does not start with a brace. -/
  | function {known : List String} {opening closing arrow first : Token}
    {parameters ascription body : List Token} (isOpening : opening.kind = .openParen)
    (inParameters : Derives known (.list (.member .parameters)) parameters)
    (isClosing : closing.kind = .closeParen)
    (inAscription : Derives known .ascription ascription) (isArrow : arrow.kind = .arrow)
    (noBrace : first.kind ≠ .openCurly) (inBody : Derives known .term (first :: body)) :
    Derives known .term
      (opening :: (parameters ++ closing :: (ascription ++ arrow :: first :: body)))
  /-- A function literal whose body is a block. -/
  | functionBlock {known : List String} {opening closing arrow : Token}
    {parameters ascription body : List Token} (isOpening : opening.kind = .openParen)
    (inParameters : Derives known (.list (.member .parameters)) parameters)
    (isClosing : closing.kind = .closeParen)
    (inAscription : Derives known .ascription ascription) (isArrow : arrow.kind = .arrow)
    (inBody : Derives known .block body) :
    Derives known .term (opening :: (parameters ++ closing :: (ascription ++ arrow :: body)))
  /-- A sum. -/
  | add {known : List String} {plus : Token} {left right : List Token}
    (inLeft : Derives known .term left) (isPlus : plus.kind = .plus)
    (inRight : Derives known .term right) : Derives known .term (left ++ plus :: right)
  /-- A conditional. -/
  | conditional {known : List String} {question colon : Token}
    {condition positive negative : List Token} (test : Derives known .term condition)
    (isQuestion : question.kind = .question) (holds : Derives known .term positive)
    (isColon : colon.kind = .colon) (fails : Derives known .term negative) :
    Derives known .term (condition ++ question :: (positive ++ colon :: negative))
  /-- A call. -/
  | call {known : List String} {opening closing : Token} {callee arguments : List Token}
    (function : Derives known .term callee) (isOpening : opening.kind = .openParen)
    (values : Derives known (.list .argument) arguments)
    (isClosing : closing.kind = .closeParen) :
    Derives known .term (callee ++ opening :: (arguments ++ [closing]))
  /-- A property access. -/
  | access {known : List String} {dot name : Token} {object : List Token}
    (inner : Derives known .term object) (isDot : dot.kind = .dot)
    (isName : name.kind = .identifier) : Derives known .term (object ++ [dot, name])
  /-- A block. The types that it declares are known only in it. -/
  | block {known : List String} {opening closing : Token} {tokens : List Token}
    (isOpening : opening.kind = .openCurly) (inner : Derives known (.sequence .result) tokens)
    (isClosing : closing.kind = .closeCurly) :
    Derives known .block (opening :: (tokens ++ [closing]))
  /-- The result of a block. -/
  | result {known : List String} {return_ semicolon : Token} {tokens : List Token}
    (isReturn : return_.kind = .returnKeyword) (inTerm : Derives known .term tokens)
    (isSemicolon : semicolon.kind = .semicolon) :
    Derives known (.sequence .result) (return_ :: (tokens ++ [semicolon]))
  /-- The last term of a source. -/
  | last {known : List String} {tokens : List Token} (inTerm : Derives known .term tokens) :
    Derives known (.sequence .source) tokens
  /-- The last term of a source, with a semicolon. -/
  | lastSemicolon {known : List String} {semicolon : Token} {tokens : List Token}
    (inTerm : Derives known .term tokens) (isSemicolon : semicolon.kind = .semicolon) :
    Derives known (.sequence .source) (tokens ++ [semicolon])
  /-- A term and what follows it. -/
  | sequence {known : List String} {ending : Ending} {semicolon : Token} {tokens rest : List Token}
    (inTerm : Derives known .term tokens) (isSemicolon : semicolon.kind = .semicolon)
    (inRest : Derives known (.sequence ending) rest) :
    Derives known (.sequence ending) (tokens ++ semicolon :: rest)
  /-- The declaration of a constant. -/
  | constant {known : List String} {ending : Ending} {const name assignment semicolon : Token}
    {ascription value rest : List Token} (isConst : const.kind = .constKeyword)
    (isName : name.kind = .identifier) (inAscription : Derives known .ascription ascription)
    (isAssignment : assignment.kind = .assignment) (inValue : Derives known .term value)
    (isSemicolon : semicolon.kind = .semicolon) (inRest : Derives known (.sequence ending) rest) :
    Derives known (.sequence ending)
      (const :: name :: (ascription ++ assignment :: (value ++ semicolon :: rest)))
  /-- The declaration of a function. -/
  | declaration {known : List String} {ending : Ending}
    {function name opening closing colon : Token} {parameters result body rest : List Token}
    (isFunction : function.kind = .functionKeyword) (isName : name.kind = .identifier)
    (isOpening : opening.kind = .openParen)
    (inParameters : Derives known (.list (.member .parameters)) parameters)
    (isClosing : closing.kind = .closeParen) (isColon : colon.kind = .colon)
    (inResult : Derives known .type result) (inBody : Derives known .block body)
    (inRest : Derives known (.sequence ending) rest) :
    Derives known (.sequence ending)
      (function :: name :: opening ::
        (parameters ++ closing :: colon :: (result ++ (body ++ rest))))
  /-- The declaration of a name for a type. The name is known in the type and afterwards, and is not
  declared as itself, unless types of the language have this name. -/
  | typeDeclaration {known : List String} {ending : Ending} {type name assignment semicolon : Token}
    {body rest : List Token} (isType : type.kind = .typeKeyword)
    (isName : name.kind = .identifier) (isAssignment : assignment.kind = .assignment)
    (inBody : Derives (name.value :: known) .type body)
    (notItself : ∀ token, body = [token] → token.value = name.value →
      name.value = "number" ∨ name.value = "boolean")
    (isSemicolon : semicolon.kind = .semicolon)
    (inRest : Derives (name.value :: known) (.sequence ending) rest) :
    Derives known (.sequence ending)
      (type :: name :: assignment :: (body ++ semicolon :: rest))

open Token (OpensTerm)

/-! ## How phrases start -/

/-- How the tokens of a phrase start: terms like terms, blocks with a brace, and sequences not with
the mark of the end. -/
def Phrase.Starts : Phrase → List Token → Prop
  | .term, tokens => OpensTerm tokens
  | .block, tokens => ∃ first rest, tokens = first :: rest ∧ first.kind = .openCurly
  | .sequence _, tokens => ∃ first rest, tokens = first :: rest ∧ first.kind ≠ .eof
  | .type, _ | .ascription, _ | .item _, _ | .list _, _ => True

namespace Derives

variable {known : List String} {phrase : Phrase} {tokens : List Token}

/-- The tokens of a phrase start as they should. -/
theorem starts (derives : Derives known phrase tokens) : phrase.Starts tokens := by
  induction derives with
  | number isNumber => exact ⟨by rw [isNumber]; rfl, by simp⟩
  | reference isName => exact ⟨by rw [isName]; rfl, by simp⟩
  | boolean isBoolean =>
    obtain isTrue | isFalse := isBoolean
    · exact ⟨by rw [isTrue]; rfl, by simp⟩
    · exact ⟨by rw [isFalse]; rfl, by simp⟩
  | group isOpening => exact ⟨by rw [isOpening]; rfl, by simp [isOpening]⟩
  | object isOpening => exact ⟨by rw [isOpening]; rfl, by simp [isOpening]⟩
  | function isOpening => exact ⟨by rw [isOpening]; rfl, by simp [isOpening]⟩
  | functionBlock isOpening => exact ⟨by rw [isOpening]; rfl, by simp [isOpening]⟩
  | add _ isPlus _ inLeft => exact inLeft.append (by simp [isPlus])
  | conditional _ isQuestion _ _ _ test => exact test.append (by simp [isQuestion])
  | call _ isOpening _ _ function => exact function.append (by simp [isOpening])
  | access _ isDot _ inner => exact inner.append (by simp [isDot])
  | block isOpening => exact ⟨_, _, rfl, isOpening⟩
  | result isReturn => exact ⟨_, _, rfl, by simp [isReturn]⟩
  | last _ inTerm => exact inTerm.exists_cons
  | lastSemicolon _ isSemicolon inTerm => exact (inTerm.append (by simp [isSemicolon])).exists_cons
  | sequence _ isSemicolon _ inTerm => exact (inTerm.append (by simp [isSemicolon])).exists_cons
  | constant isConst => exact ⟨_, _, rfl, by simp [isConst]⟩
  | declaration isFunction => exact ⟨_, _, rfl, by simp [isFunction]⟩
  | typeDeclaration isType => exact ⟨_, _, rfl, by simp [isType]⟩
  | _ => trivial

end Derives

/-! ## Terms from left to right -/

/-- The tokens of a term that its first token leads. -/
inductive Lead (known : List String) : List Token → Prop where
  /-- A literal or a name. -/
  | literal {token : Token} {term : Term} (isLiteral : token.literal? = some term) :
    Lead known [token]
  /-- A term between parentheses. -/
  | group {opening closing : Token} {tokens : List Token} (isOpening : opening.kind = .openParen)
    (inner : Derives known .term tokens) (isClosing : closing.kind = .closeParen) :
    Lead known (opening :: (tokens ++ [closing]))
  /-- An object literal. -/
  | object {opening closing : Token} {properties : List Token}
    (isOpening : opening.kind = .openCurly)
    (inProperties : Derives known (.list .property) properties)
    (isClosing : closing.kind = .closeCurly) : Lead known (opening :: (properties ++ [closing]))
  /-- A function literal whose body is a term. -/
  | function {opening closing arrow first : Token} {parameters ascription body : List Token}
    (isOpening : opening.kind = .openParen)
    (inParameters : Derives known (.list (.member .parameters)) parameters)
    (isClosing : closing.kind = .closeParen)
    (inAscription : Derives known .ascription ascription) (isArrow : arrow.kind = .arrow)
    (noBrace : first.kind ≠ .openCurly) (inBody : Derives known .term (first :: body)) :
    Lead known (opening :: (parameters ++ closing :: (ascription ++ arrow :: first :: body)))
  /-- A function literal whose body is a block. -/
  | functionBlock {opening closing arrow : Token} {parameters ascription body : List Token}
    (isOpening : opening.kind = .openParen)
    (inParameters : Derives known (.list (.member .parameters)) parameters)
    (isClosing : closing.kind = .closeParen)
    (inAscription : Derives known .ascription ascription) (isArrow : arrow.kind = .arrow)
    (inBody : Derives known .block body) :
    Lead known (opening :: (parameters ++ closing :: (ascription ++ arrow :: body)))

/-- The first token of a term leads it. -/
theorem Lead.exists_form {known : List String} {tokens : List Token} (lead : Lead known tokens) :
    ∃ first rest, tokens = first :: rest ∧
      ∃ form, Grammar.standard.leading first.kind = some form := by
  cases lead with
  | literal isLiteral => exact ⟨_, _, rfl, _, Parse.leading_of_literal? isLiteral⟩
  | group isOpening => exact ⟨_, _, rfl, .parenthesis, by rw [isOpening]; rfl⟩
  | object isOpening => exact ⟨_, _, rfl, .object, by rw [isOpening]; rfl⟩
  | function isOpening => exact ⟨_, _, rfl, .parenthesis, by rw [isOpening]; rfl⟩
  | functionBlock isOpening => exact ⟨_, _, rfl, .parenthesis, by rw [isOpening]; rfl⟩

/-- The tokens that go on a term, sign after sign. -/
inductive Tail (known : List String) : List Token → Prop where
  /-- Nothing goes on the term. -/
  | nil : Tail known []
  /-- A sum. -/
  | add {plus : Token} {right more : List Token} (isPlus : plus.kind = .plus)
    (inRight : Lead known right) (inMore : Tail known more) :
    Tail known (plus :: (right ++ more))
  /-- A conditional. -/
  | conditional {question colon : Token} {positive negative more : List Token}
    (isQuestion : question.kind = .question) (holds : Derives known .term positive)
    (isColon : colon.kind = .colon) (fails : Lead known negative) (inMore : Tail known more) :
    Tail known (question :: (positive ++ colon :: (negative ++ more)))
  /-- A call. -/
  | call {opening closing : Token} {arguments more : List Token}
    (isOpening : opening.kind = .openParen) (values : Derives known (.list .argument) arguments)
    (isClosing : closing.kind = .closeParen) (inMore : Tail known more) :
    Tail known (opening :: (arguments ++ closing :: more))
  /-- A property access. -/
  | access {dot name : Token} {more : List Token} (isDot : dot.kind = .dot)
    (isName : name.kind = .identifier) (inMore : Tail known more) :
    Tail known (dot :: name :: more)

/-- What goes on a term may be gone on with. -/
theorem Tail.append {known : List String} {tokens more : List Token} (tail : Tail known tokens)
    (inMore : Tail known more) : Tail known (tokens ++ more) := by
  induction tail with
  | nil => exact inMore
  | add isPlus inRight _ ih =>
    rw [List.cons_append, List.append_assoc]
    exact .add isPlus inRight ih
  | conditional isQuestion holds isColon fails _ ih =>
    simp only [List.cons_append, List.append_assoc]
    exact .conditional isQuestion holds isColon fails ih
  | call isOpening values isClosing _ ih =>
    rw [List.cons_append, List.append_assoc]
    exact .call isOpening values isClosing ih
  | access isDot isName _ ih => exact .access isDot isName ih

namespace Derives

variable {known : List String} {phrase : Phrase} {tokens : List Token}

/-- A term that its first token leads is taken apart into itself and nothing that goes on it. -/
theorem exists_tail_nil (lead : Lead known tokens) :
    ∃ lead tail, tokens = lead ++ tail ∧ Lead known lead ∧ Tail known tail :=
  ⟨tokens, [], (List.append_nil tokens).symm, lead, .nil⟩

/-- A term is taken apart into what its first token leads and what goes on that. -/
theorem exists_lead (derives : Derives known phrase tokens) (isTerm : phrase = .term) :
    ∃ lead tail, tokens = lead ++ tail ∧ Lead known lead ∧ Tail known tail := by
  induction derives with
  | @number _ token isNumber hasValue =>
    obtain ⟨value, isValue⟩ := Option.isSome_iff_exists.1 hasValue
    have isLiteral : token.literal? = some (.number token.span value) := by
      simp [Token.literal?, isNumber, isValue]
    exact exists_tail_nil (.literal isLiteral)
  | @reference _ token isName =>
    have isLiteral : token.literal? = some (.reference token.span token.value) := by
      simp [Token.literal?, isName]
    exact exists_tail_nil (.literal isLiteral)
  | @boolean _ token isBoolean =>
    have isLiteral : ∃ value, token.literal? = some (.boolean token.span value) := by
      obtain isTrue | isFalse := isBoolean
      · exact ⟨true, by simp [Token.literal?, isTrue]⟩
      · exact ⟨false, by simp [Token.literal?, isFalse]⟩
    obtain ⟨value, isLiteral⟩ := isLiteral
    exact exists_tail_nil (.literal isLiteral)
  | group isOpening inner isClosing => exact exists_tail_nil (.group isOpening inner isClosing)
  | object isOpening inProperties isClosing =>
    exact exists_tail_nil (.object isOpening inProperties isClosing)
  | function isOpening inParameters isClosing inAscription isArrow noBrace inBody =>
    exact exists_tail_nil
      (.function isOpening inParameters isClosing inAscription isArrow noBrace inBody)
  | functionBlock isOpening inParameters isClosing inAscription isArrow inBody =>
    exact exists_tail_nil
      (.functionBlock isOpening inParameters isClosing inAscription isArrow inBody)
  | add _ isPlus _ inLeft inRight =>
    obtain ⟨lead, tail, rfl, isLead, isTail⟩ := inLeft rfl
    obtain ⟨lead', tail', rfl, isLead', isTail'⟩ := inRight rfl
    refine ⟨lead, _, List.append_assoc .., isLead, isTail.append ?_⟩
    exact .add isPlus isLead' isTail'
  | conditional _ isQuestion holds isColon _ test _ fails =>
    obtain ⟨lead, tail, rfl, isLead, isTail⟩ := test rfl
    obtain ⟨lead', tail', rfl, isLead', isTail'⟩ := fails rfl
    refine ⟨lead, _, List.append_assoc .., isLead, isTail.append ?_⟩
    exact .conditional isQuestion holds isColon isLead' isTail'
  | call _ isOpening values isClosing function =>
    obtain ⟨lead, tail, rfl, isLead, isTail⟩ := function rfl
    refine ⟨lead, _, List.append_assoc .., isLead, isTail.append ?_⟩
    exact .call isOpening values isClosing .nil
  | access _ isDot isName inner =>
    obtain ⟨lead, tail, rfl, isLead, isTail⟩ := inner rfl
    refine ⟨lead, _, List.append_assoc .., isLead, isTail.append ?_⟩
    exact .access isDot isName .nil
  | _ => cases isTerm

end Derives

end Equirec
