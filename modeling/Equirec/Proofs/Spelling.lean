import Equirec.Parser.Terms
import Equirec.Proofs.Outcomes

/-!
# Types spelled by tokens

`Ty.Spells` says which tokens spell a type where certain names of types are known, and the reader
of types gives the type that the tokens spell (`Ty.Spells.isRead`). Parameters and
properties are spelled alike, but properties may also be separated by semicolons.
-/
namespace Equirec

/-- A token that stands nowhere. -/
def Token.bare (kind : Token.Kind) (value : String) : Token :=
  ⟨kind, value, default⟩

/-- The kind of a token that stands nowhere. -/
theorem Token.bare_kind (kind : Token.Kind) (value : String) : (bare kind value).kind = kind :=
  rfl

/-- The type that a name stands for, which may be one of the language. -/
def Scope.meaning? (scope : Scope) (name : String) : Option Ty :=
  if name = "number" then some .number
  else if name = "boolean" then some .boolean
  else scope.resolve? name

namespace Ty

/-- The lists of members in types. -/
inductive Listing where
  /-- The parameters of a function. -/
  | parameters
  /-- The properties of an object. -/
  | properties
  deriving DecidableEq

namespace Listing

/-- The tokens that separate members. -/
def separates : Listing → Token.Kind → Bool
  | parameters, kind => kind == .comma
  | properties, kind => kind == .semicolon || kind == .comma

/-- The token that closes a list of members. -/
def closing : Listing → Token.Kind
  | parameters => .closeParen
  | properties => .closeCurly

/-- The reader of a list of members. -/
def read : Listing → Nat → Parse (List (String × Ty))
  | parameters, fuel => Parse.readParameterList .standard fuel
  | properties, fuel => Parse.readPropertyTypes .standard fuel

/-- Without an allowance no members are read. -/
theorem read_zero (listing : Listing) : listing.read 0 = Parse.exhausted := by
  cases listing <;> rw [read]
  · rw [Parse.readParameterList]
  · rw [Parse.readPropertyTypes]

end Listing

/-- What tokens spell. -/
inductive Spelled where
  /-- A type. -/
  | type (type : Ty)
  /-- A list of members. -/
  | members (listing : Listing) (members : List (String × Ty))
  /-- The annotation with a type, or its absence. -/
  | ascription (declared : Option Ty)

/-- The tokens that spell a type, or members of a type, where certain names of types are known. -/
inductive Spells (scope : Scope) : Spelled → List Token → Prop where
  /-- The name of a type. -/
  | name {token : Token} {type : Ty} (isName : token.kind = .identifier)
    (known : scope.meaning? token.value = some type) : Spells scope (.type type) [token]
  /-- A function type. -/
  | function {parameters : List (String × Ty)} {result : Ty} {opening closing arrow : Token}
    {inside after : List Token} (isOpening : opening.kind = .openParen)
    (members : Spells scope (.members .parameters parameters) inside)
    (isClosing : closing.kind = .closeParen) (isArrow : arrow.kind = .arrow)
    (last : Spells scope (.type result) after) :
    Spells scope (.type (.function parameters result))
      (opening :: (inside ++ closing :: arrow :: after))
  /-- An object type. -/
  | object {properties : List (String × Ty)} {opening closing : Token} {inside : List Token}
    (isOpening : opening.kind = .openCurly)
    (members : Spells scope (.members .properties properties) inside)
    (isClosing : closing.kind = .closeCurly) :
    Spells scope (.type (.object properties)) (opening :: (inside ++ [closing]))
  /-- No members. -/
  | nil {listing : Listing} : Spells scope (.members listing []) []
  /-- The last member. -/
  | last {listing : Listing} {type : Ty} {name colon : Token} {tokens : List Token}
    (isName : name.kind = .identifier) (isColon : colon.kind = .colon)
    (value : Spells scope (.type type) tokens) :
    Spells scope (.members listing [(name.value, type)]) (name :: colon :: tokens)
  /-- A member and others after a separator, of which there may be none. -/
  | cons {listing : Listing} {type : Ty} {rest : List (String × Ty)}
    {name colon separator : Token} {tokens more : List Token}
    (isName : name.kind = .identifier) (isColon : colon.kind = .colon)
    (value : Spells scope (.type type) tokens) (separates : listing.separates separator.kind)
    (others : Spells scope (.members listing rest) more) :
    Spells scope (.members listing ((name.value, type) :: rest))
      (name :: colon :: (tokens ++ separator :: more))
  /-- No annotation. -/
  | bare : Spells scope (.ascription none) []
  /-- An annotation. -/
  | annotated {type : Ty} {colon : Token} {tokens : List Token} (isColon : colon.kind = .colon)
    (value : Spells scope (.type type) tokens) :
    Spells scope (.ascription (some type)) (colon :: tokens)

open Parse

variable {scope : Scope} {tokens : List Token}

/-- How what is spelled is read. -/
def Spelled.IsRead (scope : Scope) : Spelled → List Token → Prop
  | type result, tokens => ∀ fuel rest,
    (readType .standard fuel).Gets (tokens ++ rest) scope (Leaves (· = result) rest scope)
  | members listing result, tokens => ∀ fuel closing rest, closing.kind = listing.closing →
    (listing.read fuel).Gets (tokens ++ closing :: rest) scope
      (Leaves (· = result) (closing :: rest) scope)
  | ascription result, tokens => ∀ fuel next rest, next.kind ≠ .colon →
    (readDeclaredResult .standard fuel).Gets (tokens ++ next :: rest) scope
      (Leaves (· = result) (next :: rest) scope)

/-- The name of a type is read as what it stands for. -/
theorem gets_readTypeName {token : Token} {type : Ty} {rest : List Token}
    (isName : token.kind = .identifier) (known : scope.meaning? token.value = some type) :
    readTypeName.Gets (token :: rest) scope (Leaves (· = type) rest scope) := by
  rw [readTypeName]
  apply Gets.expect isName
  split
  · rename_i isNumber
    rw [isNumber] at known
    cases known
    exact .pure ⟨rfl, rfl, rfl⟩
  · rename_i isBoolean
    rw [isBoolean] at known
    cases known
    exact .pure ⟨rfl, rfl, rfl⟩
  · rename_i noNumber noBoolean
    rw [Scope.meaning?, if_neg noNumber, if_neg noBoolean] at known
    apply Gets.get
    rintro before rfl
    rw [known]
    exact .pure ⟨rfl, rfl, rfl⟩

/-- Parameters are read between their parentheses. -/
theorem gets_readParameters {parameters : List (String × Ty)} {opening closing : Token}
    {inside rest : List Token} (isOpening : opening.kind = .openParen)
    (members : (Spelled.members .parameters parameters).IsRead scope inside)
    (isClosing : closing.kind = .closeParen) (fuel : Nat) :
    (readParameters .standard fuel).Gets (opening :: (inside ++ closing :: rest)) scope
      (Leaves (· = parameters) rest scope) := by
  cases fuel with
  | zero =>
    rw [readParameters]
    exact .exhausted
  | succ fuel =>
    rw [readParameters]
    apply Gets.expect isOpening
    apply (members fuel closing rest isClosing).bind
    rintro _ rfl
    apply Gets.expect isClosing
    exact .pure ⟨rfl, rfl, rfl⟩

/-- A type is read by what its first token says. -/
theorem gets_readType_of_form {form : TypeForm} {first : Token} {rest : List Token}
    {gets : Ty → List Token → Scope → Prop} (isForm : Grammar.standard.types first.kind = some form)
    (inner : ∀ fuel, (readTypeForm .standard (fuel + 1) form).Gets (first :: rest) scope gets)
    (fuel : Nat) : (readType .standard fuel).Gets (first :: rest) scope gets := by
  cases fuel with
  | zero =>
    rw [readType]
    exact .exhausted
  | succ fuel =>
    rw [readType]
    apply Gets.current
    rw [isForm]
    cases fuel with
    | zero =>
      dsimp only
      rw [readTypeForm]
      exact .exhausted
    | succ fuel => exact inner fuel

namespace Spelled

/-- The name of a type is read as a type. -/
theorem isRead_name {token : Token} {type : Ty} (isName : token.kind = .identifier)
    (known : scope.meaning? token.value = some type) :
    (Spelled.type type).IsRead scope [token] := by
  intro fuel rest
  have isForm : Grammar.standard.types token.kind = some .name := by rw [isName]; rfl
  apply gets_readType_of_form isForm
  intro fuel
  rw [readTypeForm]
  exact gets_readTypeName isName known

/-- A function type is read. -/
theorem isRead_function {parameters : List (String × Ty)} {result : Ty}
    {opening closing arrow : Token} {inside after : List Token}
    (isOpening : opening.kind = .openParen)
    (inner : (Spelled.members .parameters parameters).IsRead scope inside)
    (isClosing : closing.kind = .closeParen) (isArrow : arrow.kind = .arrow)
    (last : (Spelled.type result).IsRead scope after) :
    (Spelled.type (.function parameters result)).IsRead scope
      (opening :: (inside ++ closing :: arrow :: after)) := by
  intro fuel rest
  have isForm : Grammar.standard.types opening.kind = some .function := by rw [isOpening]; rfl
  rw [List.cons_append, List.append_assoc]
  apply gets_readType_of_form isForm
  intro fuel
  rw [readTypeForm]
  apply (gets_readParameters isOpening inner isClosing fuel).bind
  rintro _ rfl
  apply Gets.expectFor isArrow
  apply (last fuel rest).bind
  rintro _ rfl
  exact .pure ⟨rfl, rfl, rfl⟩

/-- An object type is read. -/
theorem isRead_object {properties : List (String × Ty)} {opening closing : Token}
    {inside : List Token} (isOpening : opening.kind = .openCurly)
    (inner : (Spelled.members .properties properties).IsRead scope inside)
    (isClosing : closing.kind = .closeCurly) :
    (Spelled.type (.object properties)).IsRead scope (opening :: (inside ++ [closing])) := by
  intro fuel rest
  have isForm : Grammar.standard.types opening.kind = some .object := by rw [isOpening]; rfl
  rw [List.cons_append, List.append_assoc]
  apply gets_readType_of_form isForm
  intro fuel
  rw [readTypeForm]
  apply Gets.expect isOpening
  apply (inner fuel closing rest isClosing).bind
  rintro _ rfl
  apply Gets.expect isClosing
  exact .pure ⟨rfl, rfl, rfl⟩

/-- No members are read where the list is closed. -/
theorem isRead_nil {listing : Listing} : (Spelled.members listing []).IsRead scope [] := by
  rintro (_ | fuel) closing rest isClosing
  · rw [Listing.read_zero]
    exact .exhausted
  · cases listing <;> rw [Listing.read]
    · rw [readParameterList]
      apply Gets.nextIs
      rw [isClosing]
      exact .pure ⟨rfl, rfl, rfl⟩
    · rw [readPropertyTypes]
      apply Gets.nextIs
      rw [isClosing]
      exact .pure ⟨rfl, rfl, rfl⟩

/-- The first member of a list is read, and then the list ends or goes on by what the next token
is. -/
theorem gets_member {listing : Listing} {type : Ty} {name colon next : Token}
    {tokens rest : List Token} {gets : List (String × Ty) → List Token → Scope → Prop} {fuel : Nat}
    (isName : name.kind = .identifier) (isColon : colon.kind = .colon)
    (value : (Spelled.type type).IsRead scope tokens)
    (goesOn : listing.separates next.kind = true →
      Gets (listing.read fuel >>= fun others => pure ((name.value, type) :: others)) rest scope
        gets)
    (ends : listing.separates next.kind = false →
      gets [(name.value, type)] (next :: rest) scope) :
    (listing.read (fuel + 1)).Gets (name :: colon :: (tokens ++ next :: rest)) scope gets := by
  cases listing <;> rw [Listing.read] at goesOn ⊢ <;> rw [Listing.separates] at goesOn ends
  · rw [readParameterList]
    apply Gets.nextIs
    rw [isName, if_neg (by decide)]
    apply Gets.expectFor isName
    apply Gets.expectFor isColon
    apply (value fuel _).bind
    rintro _ rfl
    apply Gets.nextIs
    split
    · rename_i separates
      exact .skip (goesOn separates)
    · rename_i closes
      exact .pure (ends (Bool.eq_false_iff.2 closes))
  · rw [readPropertyTypes]
    apply Gets.nextIs
    rw [isName, if_neg (by decide)]
    apply Gets.expectFor isName
    apply Gets.expect isColon
    apply (value fuel _).bind
    rintro _ rfl
    apply Gets.nextIs
    apply Gets.nextIs
    split
    · rename_i separates
      exact .skip (goesOn separates)
    · rename_i closes
      exact .pure (ends (Bool.eq_false_iff.2 closes))

/-- The last member of a list is read. -/
theorem isRead_last {listing : Listing} {type : Ty} {name colon : Token} {tokens : List Token}
    (isName : name.kind = .identifier) (isColon : colon.kind = .colon)
    (value : (Spelled.type type).IsRead scope tokens) :
    (Spelled.members listing [(name.value, type)]).IsRead scope (name :: colon :: tokens) := by
  rintro (_ | fuel) closing rest isClosing
  · rw [Listing.read_zero]
    exact .exhausted
  · apply gets_member isName isColon value
    · intro separates
      rw [isClosing] at separates
      cases listing <;> cases separates
    · exact fun _ => ⟨rfl, rfl, rfl⟩

/-- A member is read, and others after a separator. -/
theorem isRead_cons {listing : Listing} {type : Ty} {members : List (String × Ty)}
    {name colon separator : Token} {tokens more : List Token}
    (isName : name.kind = .identifier) (isColon : colon.kind = .colon)
    (value : (Spelled.type type).IsRead scope tokens)
    (separates : listing.separates separator.kind)
    (others : (Spelled.members listing members).IsRead scope more) :
    (Spelled.members listing ((name.value, type) :: members)).IsRead scope
      (name :: colon :: (tokens ++ separator :: more)) := by
  rintro (_ | fuel) closing rest isClosing
  · rw [Listing.read_zero]
    exact .exhausted
  · simp only [List.cons_append, List.append_assoc]
    apply gets_member isName isColon value
    · intro _
      apply (others fuel closing rest isClosing).bind
      rintro _ rfl
      exact .pure ⟨rfl, rfl, rfl⟩
    · intro closes
      rw [separates] at closes
      cases closes

/-- The absence of an annotation is read. -/
theorem isRead_bare : (Spelled.ascription none).IsRead scope [] := by
  rintro (_ | fuel) next rest noColon
  · rw [readDeclaredResult]
    exact .exhausted
  · rw [readDeclaredResult]
    apply Gets.nextIs
    rw [beq_false_of_ne noColon]
    exact .pure ⟨rfl, rfl, rfl⟩

/-- An annotation is read. -/
theorem isRead_annotated {type : Ty} {colon : Token} (isColon : colon.kind = .colon)
    (value : (Spelled.type type).IsRead scope tokens) :
    (Spelled.ascription (some type)).IsRead scope (colon :: tokens) := by
  rintro (_ | fuel) next rest _
  · rw [readDeclaredResult]
    exact .exhausted
  · rw [readDeclaredResult]
    apply Gets.nextIs
    rw [isColon, if_pos (by decide)]
    apply Gets.skip
    apply (value fuel _).bind
    rintro _ rfl
    exact .pure ⟨rfl, rfl, rfl⟩

end Spelled

/-- What tokens spell is what is read from them, with any allowance that is not used up. -/
theorem Spells.isRead {spelled : Spelled} (spells : Spells scope spelled tokens) :
    spelled.IsRead scope tokens := by
  induction spells with
  | name isName known => exact Spelled.isRead_name isName known
  | function isOpening _ isClosing isArrow _ inner last =>
    exact Spelled.isRead_function isOpening inner isClosing isArrow last
  | object isOpening _ isClosing inner => exact Spelled.isRead_object isOpening inner isClosing
  | nil => exact Spelled.isRead_nil
  | last isName isColon _ value => exact Spelled.isRead_last isName isColon value
  | cons isName isColon _ separates _ value others =>
    exact Spelled.isRead_cons isName isColon value separates others
  | bare => exact Spelled.isRead_bare
  | annotated isColon _ value => exact Spelled.isRead_annotated isColon value

end Ty

end Equirec
