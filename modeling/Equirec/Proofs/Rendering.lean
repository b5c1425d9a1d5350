import Equirec.Proofs.Layout
import Equirec.Proofs.Spelling
import Equirec.Proofs.WrittenTypes
import Equirec.Ty.Render

/-!
# Reading a type back from its text

The text of a type without variables and recursive types is scanned into the tokens that spell the
type (`Ty.isScanned_of_labels`, `Ty.spells_of_shapes`), so that reading them gives the type back
(`Ty.readType_render`). Only the names of parameters and properties have to be names for the
scanner as well.
-/
namespace Equirec

namespace Token

variable {following : List Char} {shapes : List (Kind × String)}

/-- Whether a text does not go on a word before it. -/
def EndsWord (text : List Char) : Prop :=
  ∀ next ∈ text.head?, isWordPart next = false

/-- Where a text ends, no word goes on. -/
theorem EndsWord.nil : EndsWord [] := by
  rintro _ ⟨⟩

/-- A text does not go on a word if its first character does not. -/
theorem EndsWord.cons {next : Char} {rest : List Char} (stops : isWordPart next = false) :
    EndsWord (next :: rest) := by
  rintro _ ⟨⟩
  exact stops

/-- No sign goes on a word. -/
theorem EndsWord.sign {kind : Kind} {sign rest : List Char} (listed : (kind, sign) ∈ signs) :
    EndsWord (sign ++ rest) := by
  obtain ⟨first, tail, rfl, _⟩ := (Writes.sign listed).head
  obtain ⟨noWord, noDigit, _⟩ := head_of_mem_signs listed
  exact .cons (by rw [isWordPart, noWord, noDigit, Bool.or_false])

/-- A word is as long as it can be before a text that does not go on it. -/
theorem isLongest_word {word : List Char} (isWord : isWord word = true)
    (ends : EndsWord following) : IsLongest word following := by
  intro kind longer writes isStart
  have whole : (word ++ following).takeWhile isWordPart = word := by
    rw [List.takeWhile_append_of_pos (isWordPart_of_isWord isWord)]
    cases following with
    | nil => rw [List.takeWhile_nil, List.append_nil]
    | cons next rest =>
      rw [List.takeWhile_cons_of_neg (Bool.eq_false_iff.1 (ends next rfl)), List.append_nil]
  cases word with
  | nil => cases isWord
  | cons first word =>
    rw [Token.isWord, Bool.and_eq_true] at isWord
    rw [List.cons_append] at isStart whole
    have longest := length_le_word isWord.1 writes isStart
    rwa [whole] at longest

/-- Every sign but one is as long as it can be before any text. -/
theorem isLongest_sign {kind : Kind} {sign : List Char} (listed : (kind, sign) ∈ signs)
    (other : kind ≠ .assignment) : IsLongest sign following := by
  intro kind' longer writes isStart
  have apart : ∀ left ∈ signs, left.1 ≠ .assignment → ∀ right ∈ signs,
      right.2.head? = left.2.head? → right.2.length ≤ left.2.length := by decide
  obtain ⟨first, rest, rfl, _⟩ := (Writes.sign listed).head
  obtain ⟨noWord, noDigit, _⟩ := head_of_mem_signs listed
  have isSign := mem_signs_of_writes writes isStart noWord noDigit
  refine apart _ listed other _ isSign ?_
  obtain ⟨head, tail, rfl, _⟩ := writes.head
  rw [(List.cons_prefix_cons.1 isStart).1]
  rfl

namespace ScansAs

/-- A name comes first, before a text that does not go on it. -/
theorem name {name : String} (writes : Writes .identifier name.toList) (ends : EndsWord following)
    (after : ScansAs following shapes) :
    ScansAs (name.toList ++ following) ((.identifier, name) :: shapes) := by
  refine .writes writes (isLongest_word ?_ ends) after
  cases writes with
  | name isWord => exact isWord
  | keyword listed => exact isWord_of_mem_keywords listed
  | sign listed =>
    have apart : ∀ sign ∈ signs, sign.1 ≠ .identifier := by decide
    exact absurd rfl (apart _ listed)

/-- A sign comes first. -/
theorem sign {kind : Kind} {sign : String} (listed : (kind, sign.toList) ∈ signs)
    (other : kind ≠ .assignment) (after : ScansAs following shapes) :
    ScansAs (sign.toList ++ following) ((kind, sign) :: shapes) :=
  .writes (.sign listed) (isLongest_sign listed other) after

/-- A space is passed over. -/
theorem space (after : ScansAs following shapes) : ScansAs (' ' :: following) shapes :=
  after.blank (by decide)

end ScansAs

end Token

namespace Ty

open Token

/-! ## The tokens of a type's text -/

mutual

/-- The names of all parameters and properties in a type. -/
def labels : Ty → List String
  | .number | .boolean | .var _ => []
  | .function parameters result => labelsIn parameters ++ result.labels
  | .object properties => labelsIn properties
  | .mu _ body => body.labels

/-- The names of members and of all parameters and properties in them. -/
def labelsIn : List (String × Ty) → List String
  | [] => []
  | (name, type) :: rest => name :: (type.labels ++ labelsIn rest)

end

@[simp]
theorem labelsIn_eq_flatMap (members : List (String × Ty)) :
    labelsIn members = members.flatMap fun member => member.1 :: member.2.labels := by
  induction members with
  | nil => rfl
  | cons member rest ih => simp [labelsIn, ih]

mutual

/-- The kinds and texts of the tokens in the text of a type. A recursive type has no such text. -/
def shapes : Ty → List (Kind × String)
  | .number => [(.identifier, "number")]
  | .boolean => [(.identifier, "boolean")]
  | .function parameters result =>
    (.openParen, "(") :: ([(.comma, ",")].intercalate (memberShapes parameters) ++
      (.closeParen, ")") :: (.arrow, "=>") :: result.shapes)
  | .object properties =>
    (.openCurly, "\x7b") :: ([(.semicolon, ";")].intercalate (memberShapes properties) ++
      [(.closeCurly, "\x7d")])
  | .var name => [(.identifier, name)]
  | .mu .. => []

/-- The kinds and texts of the tokens of each member. -/
def memberShapes : List (String × Ty) → List (List (Kind × String))
  | [] => []
  | (name, type) :: rest => ((.identifier, name) :: (.colon, ":") :: type.shapes) ::
    memberShapes rest

end

@[simp]
theorem memberShapes_eq_map (members : List (String × Ty)) :
    memberShapes members =
      members.map fun member => (.identifier, member.1) :: (.colon, ":") :: member.2.shapes := by
  induction members with
  | nil => rfl
  | cons member rest ih => simp [memberShapes, ih]

/-- Whether the text of a type is scanned into its tokens, before any text that does not go on a
word. -/
def IsScanned (type : Ty) : Prop :=
  ∀ {following : List Char} {more : List (Kind × String)}, EndsWord following →
    ScansAs following more → ScansAs (type.render.toList ++ following) (type.shapes ++ more)

/-- The text of a member is scanned. -/
theorem IsScanned.member {name : String} {type : Ty} (isScanned : type.IsScanned)
    (isName : Writes .identifier name.toList) {following : List Char}
    {more : List (Kind × String)} (ends : EndsWord following) (after : ScansAs following more) :
    ScansAs ((name ++ ": " ++ type.render).toList ++ following)
      ((.identifier, name) :: (.colon, ":") :: type.shapes ++ more) := by
  have text : (name ++ ": " ++ type.render).toList ++ following =
      name.toList ++ (":".toList ++ ' ' :: (type.render.toList ++ following)) := by
    simp
  rw [text]
  refine .name isName (.cons (by decide)) ?_
  refine .sign (by decide) (by decide) ?_
  exact .space (isScanned ends after)

/-- The text of members is scanned, with a sign and a space between them. -/
theorem scansAs_members {kind : Kind} {sign : String} (listed : (kind, sign.toList) ∈ signs)
    (other : kind ≠ .assignment) {members : List (String × Ty)}
    (isScanned : ∀ member ∈ members,
      Writes .identifier member.1.toList ∧ member.2.IsScanned)
    {following : List Char} {more : List (Kind × String)} (ends : EndsWord following)
    (after : ScansAs following more) :
    ScansAs ((String.intercalate (sign ++ " ") (renderMembers members)).toList ++ following)
      ([(kind, sign)].intercalate (memberShapes members) ++ more) := by
  rw [renderMembers_eq_map, memberShapes_eq_map]
  induction members with
  | nil => simpa using after
  | cons member rest ih =>
    obtain ⟨⟨isName, value⟩, others⟩ := List.forall_mem_cons.1 isScanned
    cases rest with
    | nil => simpa using value.member isName ends after
    | cons next rest =>
      have scans := value.member isName (.sign listed) (.sign listed other (.space (ih others)))
      simpa using scans

/-- If all names in members are names, so are those of each member and those in it. -/
theorem labels_of_mem {members : List (String × Ty)} {holds : String → Prop}
    (named : ∀ label ∈ labelsIn members, holds label) :
    ∀ member ∈ members, holds member.1 ∧ ∀ label ∈ member.2.labels, holds label := by
  intro member isMember
  rw [← List.forall_mem_cons]
  intro label inside
  refine named label ?_
  rw [labelsIn_eq_flatMap, List.mem_flatMap]
  exact ⟨member, isMember, inside⟩

/-- The text of a type is scanned into its tokens, if its parameters and properties have names. -/
theorem isScanned_of_labels {type : Ty} (plain : type.isRecursive = false)
    (named : ∀ label ∈ type.labels, Writes .identifier label.toList) : type.IsScanned := by
  induction type with
  | number =>
    intro following more ends after
    exact .name (.name (by decide) (by decide)) ends after
  | boolean =>
    intro following more ends after
    exact .name (.name (by decide) (by decide)) ends after
  | function parameters result values last =>
    intro following more ends after
    simp only [isRecursive, isRecursiveIn_eq_any, Bool.or_eq_false_iff, List.any_eq_false,
      Bool.not_eq_true] at plain
    rw [labels, List.forall_mem_append] at named
    have members : ∀ member ∈ parameters,
        Writes .identifier member.1.toList ∧ member.2.IsScanned := by
      intro member isMember
      obtain ⟨isName, inside⟩ := labels_of_mem named.1 member isMember
      exact ⟨isName, values member isMember (plain.1 member isMember) inside⟩
    have text : (Ty.function parameters result).render.toList ++ following =
        "(".toList ++ ((String.intercalate ("," ++ " ") (renderMembers parameters)).toList ++
          (")".toList ++ ' ' :: ("=>".toList ++ ' ' :: (result.render.toList ++ following)))) := by
      simp [render]
    have tokens : (Ty.function parameters result).shapes ++ more =
        (.openParen, "(") :: ([(.comma, ",")].intercalate (memberShapes parameters) ++
          (.closeParen, ")") :: (.arrow, "=>") :: (result.shapes ++ more)) := by
      simp [shapes]
    rw [text, tokens]
    refine .sign (by decide) (by decide) ?_
    refine scansAs_members (by decide) (by decide) members (.cons (by decide)) ?_
    refine .sign (by decide) (by decide) (.space ?_)
    refine .sign (by decide) (by decide) (.space ?_)
    exact last plain.2 named.2 ends after
  | object properties values =>
    intro following more ends after
    simp only [isRecursive, isRecursiveIn_eq_any, List.any_eq_false, Bool.not_eq_true] at plain
    rw [labels] at named
    have members : ∀ member ∈ properties,
        Writes .identifier member.1.toList ∧ member.2.IsScanned := by
      intro member isMember
      obtain ⟨isName, inside⟩ := labels_of_mem named member isMember
      exact ⟨isName, values member isMember (plain member isMember) inside⟩
    have tokens : (Ty.object properties).shapes ++ more =
        (.openCurly, "\x7b") :: ([(.semicolon, ";")].intercalate (memberShapes properties) ++
          (.closeCurly, "\x7d") :: more) := by
      simp [shapes]
    have closed : ScansAs ("\x7d".toList ++ following) ((.closeCurly, "\x7d") :: more) :=
      .sign (by decide) (by decide) after
    rw [tokens]
    by_cases isEmpty : properties.isEmpty = true
    · rw [List.isEmpty_iff] at isEmpty
      subst isEmpty
      have whole : ScansAs ("\x7b".toList ++ ("\x7d".toList ++ following))
          ((.openCurly, "\x7b") :: (.closeCurly, "\x7d") :: more) :=
        .sign (by decide) (by decide) closed
      exact whole
    · have text : (Ty.object properties).render.toList ++ following =
          "\x7b".toList ++ ' ' :: ((String.intercalate (";" ++ " ")
            (renderMembers properties)).toList ++ ' ' :: ("\x7d".toList ++ following)) := by
        simp [render, isEmpty]
      rw [text]
      refine .sign (by decide) (by decide) (.space ?_)
      refine scansAs_members (by decide) (by decide) members (.cons (by decide)) ?_
      exact closed.space
  | var name => cases plain
  | mu name body => cases plain

/-! ## Tokens that spell a type -/

variable {scope : Scope}

/-- A name spells the type that it stands for. -/
theorem spells_name_of_shapes {name : String} {type : Ty} (known : scope.meaning? name = some type)
    {tokens : List Token} (isText : tokens.map shape = [(.identifier, name)]) :
    Spells scope (.type type) tokens := by
  obtain ⟨token, rfl, isToken⟩ := List.map_eq_singleton_iff.1 isText
  obtain ⟨isName, rfl⟩ := shape_eq_iff.1 isToken
  exact .name isName known

/-- The tokens of members spell them. -/
theorem spells_members_of_shapes {listing : Listing} {kind : Kind} {sign : String}
    (separates : listing.separates kind = true) {members : List (String × Ty)}
    (values : ∀ member ∈ members, ∀ tokens, tokens.map shape = member.2.shapes →
      Spells scope (.type member.2) tokens) {tokens : List Token}
    (isText : tokens.map shape = [(kind, sign)].intercalate (memberShapes members)) :
    Spells scope (.members listing members) tokens := by
  rw [memberShapes_eq_map] at isText
  induction members generalizing tokens with
  | nil =>
    rw [List.map_nil, List.intercalate_nil, List.map_eq_nil_iff] at isText
    subst isText
    exact .nil
  | cons member rest ih =>
    obtain ⟨label, type⟩ := member
    obtain ⟨value, others⟩ := List.forall_mem_cons.1 values
    cases rest with
    | nil =>
      simp only [List.map_cons, List.map_nil, List.intercalate_singleton, List.map_eq_cons_iff,
        shape_eq_iff] at isText
      obtain ⟨name, _, rfl, ⟨isName, rfl⟩, colon, tokens, rfl, ⟨isColon, _⟩, isType⟩ := isText
      exact .last isName isColon (value tokens isType)
    | cons next rest =>
      simp only [List.map_cons, List.intercalate_cons_cons, List.cons_append, List.nil_append,
        List.append_assoc, List.map_eq_cons_iff, List.map_eq_append_iff, shape_eq_iff] at isText
      obtain ⟨name, _, rfl, ⟨isName, rfl⟩, colon, _, rfl, ⟨isColon, _⟩, tokens, _, rfl, isType,
        separator, more, rfl, ⟨isSeparator, _⟩, isRest⟩ := isText
      exact .cons isName isColon (value tokens isType) (by rwa [isSeparator]) (ih others isRest)

/-- The tokens of a type spell it, whatever names of types are known. -/
theorem spells_of_shapes {type : Ty} (plain : type.isRecursive = false) {tokens : List Token}
    (isText : tokens.map shape = type.shapes) : Spells scope (.type type) tokens := by
  induction type generalizing tokens with
  | number => exact spells_name_of_shapes rfl isText
  | boolean => exact spells_name_of_shapes rfl isText
  | function parameters result values last =>
    simp only [isRecursive, isRecursiveIn_eq_any, Bool.or_eq_false_iff, List.any_eq_false,
      Bool.not_eq_true] at plain
    simp only [shapes, List.map_eq_cons_iff, List.map_eq_append_iff, shape_eq_iff] at isText
    obtain ⟨opening, _, rfl, ⟨isOpening, _⟩, inside, _, rfl, isInside, closing, _, rfl,
      ⟨isClosing, _⟩, arrow, after, rfl, ⟨isArrow, _⟩, isAfter⟩ := isText
    refine .function isOpening ?_ isClosing isArrow (last plain.2 isAfter)
    exact spells_members_of_shapes rfl
      (fun member isMember _ => values member isMember (plain.1 member isMember)) isInside
  | object properties values =>
    simp only [isRecursive, isRecursiveIn_eq_any, List.any_eq_false, Bool.not_eq_true] at plain
    simp only [shapes, List.map_eq_cons_iff, List.map_eq_append_iff, List.map_eq_nil_iff,
      shape_eq_iff] at isText
    obtain ⟨opening, _, rfl, ⟨isOpening, _⟩, inside, _, rfl, isInside, closing, _, rfl,
      ⟨isClosing, _⟩, rfl⟩ := isText
    refine .object isOpening ?_ isClosing
    exact spells_members_of_shapes rfl
      (fun member isMember _ => values member isMember (plain member isMember)) isInside
  | var name => cases plain
  | mu name body => cases plain

end Ty

/-! ## Reading the text of a type -/

namespace Parse

/-- How the readers of types with two grammars are the same. -/
structure SameTypes (grammar grammar' : Grammar) (fuel : Nat) : Prop where
  /-- A type. -/
  type : readType grammar fuel = readType grammar' fuel
  /-- A type of a known form. -/
  form : ∀ form, readTypeForm grammar fuel form = readTypeForm grammar' fuel form
  /-- The properties of an object type. -/
  properties : readPropertyTypes grammar fuel = readPropertyTypes grammar' fuel
  /-- Parameters between parentheses. -/
  parameters : readParameters grammar fuel = readParameters grammar' fuel
  /-- Parameters up to the closing parenthesis. -/
  parameterList : readParameterList grammar fuel = readParameterList grammar' fuel

/-- Types are read by the table of types alone. -/
theorem sameTypes {grammar grammar' : Grammar} (same : grammar.types = grammar'.types)
    (fuel : Nat) : SameTypes grammar grammar' fuel := by
  induction fuel with
  | zero =>
    constructor
    · rw [readType, readType]
    · intro form
      rw [readTypeForm, readTypeForm]
    · rw [readPropertyTypes, readPropertyTypes]
    · rw [readParameters, readParameters]
    · rw [readParameterList, readParameterList]
  | succ fuel nested =>
    constructor
    · rw [readType, readType, same]
      simp only [nested.form]
    · intro form
      cases form with
      | name => rw [readTypeForm, readTypeForm]
      | function => rw [readTypeForm, readTypeForm, nested.parameters, nested.type]
      | object => rw [readTypeForm, readTypeForm, nested.properties]
    · rw [readPropertyTypes, readPropertyTypes, nested.type, nested.properties]
    · rw [readParameters, readParameters, nested.parameterList]
    · rw [readParameterList, readParameterList, nested.type, nested.parameterList]

end Parse

namespace Ty

/-- The text of a type can be read back. For every type without variables and recursive types in
which the names of parameters and properties are names for the scanner, its text is scanned, and
reading a type from these tokens, with any names of types known and whatever is known of terms,
gives this type and stops at the end mark. -/
theorem readType_render {type : Ty} (plain : type.isRecursive = false)
    (named : ∀ label ∈ type.labels, Token.Writes .identifier label.toList) :
    ∃ tokens last, Token.scan type.render = .ok (tokens ++ [last]) ∧ last.kind = .eof ∧
      ∀ (grammar : Grammar) (before : Parser), grammar.types = Grammar.typeLeading →
        before.stream.upcoming = tokens ++ [last] → before.stream.last = last →
        ∃ after, before.perform (Parse.readType grammar) = (.ok type, after) ∧
          after.stream.upcoming = [last] ∧ after.stream.current = last ∧
          after.scope = before.scope := by
  have scans := isScanned_of_labels plain named Token.EndsWord.nil Token.ScansAs.nil
  rw [List.append_nil] at scans
  obtain ⟨scanned, isScanned, isText⟩ := scans 0
  obtain ⟨tokens, ends, rfl, isType, isEnd⟩ := List.map_eq_append_iff.1 isText
  obtain ⟨last, rfl, isLast⟩ := List.map_eq_singleton_iff.1 isEnd
  have isEof : last.kind = .eof := (Token.shape_eq_iff.1 isLast).1
  refine ⟨tokens, last, isScanned, isEof, ?_⟩
  intro grammar before isStandard upcoming isLast
  have isTypes : grammar.types = Grammar.standard.types := isStandard
  have affords : before.Affords False before.allowance 3 := by
    refine .inr ⟨by rw [isLast, isEof], ?_⟩
    rw [Parser.allowance]
    omega
  have reached := ((Parse.readTypes .standard False before.allowance).type affords).ne_exhausted
  have reads := (spells_of_shapes plain isType).isRead before.allowance [last] before upcoming rfl
  rw [Parser.perform, (Parse.sameTypes isTypes before.allowance).type]
  rcases ended : (Parse.readType .standard before.allowance).run.run before with ⟨result, after⟩
  rw [ended] at reached
  cases result with
  | ok value =>
    obtain ⟨rfl, left, isScope⟩ := reads.gives value after ended
    exact ⟨after, rfl, left, Parse.Gets.current_eq left, isScope⟩
  | error stop =>
    cases stop with
    | fault fault => exact (reads.refuses fault after ended).elim
    | exhausted => exact absurd rfl reached

/-- A function type with a function that gives an object for a parameter. The objects have a
property that is called like a type, and one is empty. -/
def nestedCallback : Ty :=
  .function [("f", .function [("x", .number)] (.object [("number", .boolean), ("b", .object [])])),
    ("$y", .boolean)] (.function [] .number)

/-- The function type is rendered on one line, which is scanned and read as the same type. -/
theorem readType_render_nestedCallback :
    nestedCallback.render =
      "(f: (x: number) => \x7b number: boolean; b: \x7b\x7d \x7d, $y: boolean) => () => number" ∧
    nestedCallback.isRecursive = false ∧
    (∀ label ∈ nestedCallback.labels, Token.Writes .identifier label.toList) ∧
    ∃ tokens last, Token.scan nestedCallback.render = .ok (tokens ++ [last]) ∧
      ∃ after, Parser.perform
        { stream := { upcoming := tokens ++ [last], last }, scope := Scope.begin {} "number" }
        (Parse.readType .typesOnly) = (.ok nestedCallback, after) ∧
          after.stream.current = last := by
  have named : ∀ label ∈ nestedCallback.labels, Token.Writes .identifier label.toList := by
    have labels : nestedCallback.labels = ["f", "x", "number", "b", "$y"] := by decide
    rw [labels]
    simp only [List.forall_mem_cons]
    exact ⟨.name (by decide) (by decide), .name (by decide) (by decide),
      .name (by decide) (by decide), .name (by decide) (by decide),
      .name (by decide) (by decide), List.forall_mem_nil _⟩
  refine ⟨by decide, by decide, named, ?_⟩
  obtain ⟨tokens, last, scanned, _, reads⟩ := readType_render (by decide) named
  obtain ⟨after, ended, _, stops, _⟩ := reads .typesOnly
    { stream := { upcoming := tokens ++ [last], last }, scope := Scope.begin {} "number" } rfl rfl
    rfl
  exact ⟨tokens, last, scanned, after, ended, stops⟩

end Ty

end Equirec
