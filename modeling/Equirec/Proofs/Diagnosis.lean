import Equirec.Proofs.Nesting
import Equirec.Proofs.Programs
import Equirec.Text.Line

/-!
# Where faults are found

Every fault that is found in a source points into it. A source that cannot be scanned is refused at
a character, one that cannot be read at the start of a token, and one that cannot be checked at the
start of a subterm (`Checker.pointsTo_typeOf`). All these are places between two characters of the
source, so each of them has a line that can be shown.
-/
namespace Equirec

/-! ## Faults of the checker -/

/-- Whether a subterm of a term starts at a place. -/
def Term.Marks (term : Term) (offset : Offset) : Prop :=
  ∃ subterm ∈ term.subterms, subterm.start = offset

namespace Term.Marks

variable {term part : Term} {offset : Offset}

/-- A term marks its own start. -/
theorem self (term : Term) : term.Marks term.start :=
  ⟨term, term.self_mem_subterms, rfl⟩

/-- A term marks what its parts mark. -/
theorem of_part (isPart : part ∈ term.parts) (marks : part.Marks offset) : term.Marks offset := by
  obtain ⟨subterm, isSubterm, start⟩ := marks
  refine ⟨subterm, ?_, start⟩
  rw [subterms_eq_cons]
  exact List.mem_cons_of_mem _ (List.mem_flatMap.2 ⟨part, isPart, isSubterm⟩)

end Term.Marks

namespace Check

variable {α β : Type} {places places' : Offset → Prop}

/-- Whether all faults of a step, in any environment, are at certain places. -/
def PointsTo (step : Check α) (places : Offset → Prop) : Prop :=
  ∀ environment fault, (step environment).result = .error (.fault fault) → places fault.offset

namespace PointsTo

/-- There may be more places. -/
theorem imp {step : Check α} (points : step.PointsTo places)
    (wider : ∀ offset, places offset → places' offset) : step.PointsTo places' :=
  fun environment fault ended => wider fault.offset (points environment fault ended)

/-- The step that only gives a value. -/
theorem pure {value : α} : PointsTo (Pure.pure value) places :=
  fun _ _ ended => nomatch ended

/-- One step and then another. -/
theorem bind {step : Check α} {next : α → Check β} (first : step.PointsTo places)
    (second : ∀ value, (next value).PointsTo places) : PointsTo (step >>= next) places := by
  intro environment fault ended
  cases result : (step environment).result with
  | error stop =>
    rw [bind_of_error result] at ended
    cases ended
    exact first environment fault result
  | ok value =>
    rw [bind_of_ok result] at ended
    exact second value _ fault ended

/-- A fault at one of the places. -/
theorem fail {cause : Cause} {offset : Offset} (isPlace : places offset) :
    PointsTo (Check.fail cause offset : Check α) places := by
  intro environment fault ended
  cases ended
  exact isPlace

/-- Looking up a name that is used at one of the places. -/
theorem reference {name : String} {offset : Offset} (isPlace : places offset) :
    (Check.reference name offset).PointsTo places := by
  intro environment fault ended
  simp only [Check.reference, Environment.typeAt] at ended
  cases found : environment.lookup? name with
  | some type => simp [found, Except.mapError] at ended
  | none =>
    simp only [found, Except.mapError, Except.error.injEq, Stop.fault.injEq] at ended
    rw [← ended]
    exact isPlace

/-- A step in a copy of the environment. -/
theorem withBindings {members : List (String × Ty)} {step : Check α}
    (inner : step.PointsTo places) : (Check.withBindings members step).PointsTo places :=
  fun environment => inner (environment.declareAll members)

/-- Declarations are no faults. -/
theorem declareAll {members : List (String × Ty)} : (Check.declareAll members).PointsTo places :=
  fun _ _ ended => nomatch ended

/-- Comparisons find no faults. -/
theorem compare {comparison : Comparison} {left right : Ty} :
    (Check.compare comparison left right).PointsTo places := by
  intro environment fault ended
  simp only [Check.compare] at ended
  split at ended <;> cases ended

end PointsTo

end Check

namespace Checker

variable {checker : Checker} {places : Offset → Prop}

/-- A construct is refused at its place. -/
theorem pointsTo_reject {α : Type} {construct : String} {offset : Offset}
    (isPlace : places offset) :
    (checker.reject construct offset : Check α).PointsTo places := by
  have reported : (Check.report (.rejected construct checker.variant)).PointsTo places :=
    fun _ _ ended => nomatch ended
  exact reported.bind fun _ => .fail isPlace

/-- A term of a form that the language does not have is refused at its start. -/
theorem pointsTo_admitForm (term : Term) : (checker.admitForm term).PointsTo term.Marks := by
  rw [admitForm]
  split
  · exact .pure
  · exact pointsTo_reject (.self term)

/-- A type that the language does not have is refused at the place of its term. -/
theorem pointsTo_admitType {offset : Offset} (isPlace : places offset) (type : Ty) :
    (checker.admitType offset type).PointsTo places := by
  rw [admitType]
  split
  · exact pointsTo_reject isPlace
  · split
    · exact pointsTo_reject isPlace
    · exact .pure

/-- So are parameters. -/
theorem pointsTo_admitParameters {offset : Offset} (isPlace : places offset)
    (parameters : List (String × Ty)) :
    (checker.admitParameters offset parameters).PointsTo places := by
  induction parameters with
  | nil => exact .pure
  | cons parameter rest ih =>
    rw [admitParameters]
    exact (pointsTo_admitType isPlace parameter.2).bind fun _ => ih

/-- So is a declared result. -/
theorem pointsTo_admitDeclared {offset : Offset} (isPlace : places offset)
    (declared : Option Ty) :
    Check.PointsTo (declared.forM (checker.admitType offset)) places := by
  cases declared with
  | none => exact .pure
  | some type => exact pointsTo_admitType isPlace type

/-- An operand that is not a number is refused at its start. -/
theorem pointsTo_expectNumber {operand : Term} (isPlace : places operand.start) (type : Ty) :
    (expectNumber operand type).PointsTo places := by
  rw [expectNumber]
  split
  · exact .pure
  · exact .fail isPlace

/-- A condition that is not a boolean is refused at its start. -/
theorem pointsTo_expectCondition {condition : Term} (isPlace : places condition.start)
    (type : Ty) : (checker.expectCondition condition type).PointsTo places := by
  rw [expectCondition]
  split
  · exact .fail isPlace
  · exact .pure

/-- A body that is not of the declared type is refused at its start. -/
theorem pointsTo_expectResult {body : Term} (isPlace : places body.start)
    (declared received : Ty) : (expectResult body declared received).PointsTo places := by
  rw [expectResult]
  refine Check.PointsTo.compare.bind fun answer => ?_
  split
  · exact .pure
  · exact .fail isPlace

/-- Branches without a common type are refused at the start of their term. -/
theorem pointsTo_join {offset : Offset} (isPlace : places offset) (positive negative : Ty) :
    (checker.join offset positive negative).PointsTo places := by
  rw [join]
  split
  · refine Check.PointsTo.compare.bind fun answer => ?_
    split
    · exact .pure
    · refine Check.PointsTo.compare.bind fun answer => ?_
      split
      · exact .pure
      · exact .fail isPlace
  · refine Check.PointsTo.compare.bind fun answer => ?_
    split
    · exact .pure
    · exact .fail isPlace

/-- Arguments are refused at the start of one of them, or in one of them. -/
theorem pointsTo_checkArguments {arguments : List Term}
    (inside : ∀ argument ∈ arguments, (checker.typeOf argument).PointsTo places)
    (isPlace : ∀ argument ∈ arguments, places argument.start) (parameters : List (String × Ty)) :
    (checker.checkArguments arguments parameters).PointsTo places := by
  induction arguments generalizing parameters with
  | nil =>
    rw [checkArguments]
    · exact .pure
    · simp
  | cons argument arguments ih =>
    cases parameters with
    | nil =>
      rw [checkArguments]
      · exact .pure
      · simp
    | cons parameter parameters =>
      rw [List.forall_mem_cons] at inside isPlace
      rw [checkArguments]
      apply inside.1.bind
      intro received
      have fits : (checker.fits received parameter.2).PointsTo places := .compare
      apply fits.bind
      intro answer
      split
      · exact ih inside.2 isPlace.2 parameters
      · exact .fail isPlace.1

/-- Properties are refused in one of them. -/
theorem pointsTo_typesOf {properties : List (String × Term)}
    (inside : ∀ member ∈ properties, (checker.typeOf member.2).PointsTo places) :
    (checker.typesOf properties).PointsTo places := by
  induction properties with
  | nil =>
    rw [typesOf]
    exact .pure
  | cons property properties ih =>
    rw [List.forall_mem_cons] at inside
    rw [typesOf]
    apply inside.1.bind
    intro type
    apply (ih inside.2).bind
    intro types
    exact .pure

/-- The body of a function literal, in a copy of the environment or in the environment itself, and
what is made of its type. -/
theorem pointsTo_body {body : Term} (inside : (checker.typeOf body).PointsTo places)
    (parameters : List (String × Ty)) {next : Ty → Check Ty}
    (finished : ∀ bodyType, (next bodyType).PointsTo places) :
    Check.PointsTo (if checker.options.copyEnvironments = true then
        Check.withBindings parameters (checker.typeOf body) >>= next
      else Check.declareAll parameters >>= fun _ => checker.typeOf body >>= next) places := by
  split
  · exact inside.withBindings.bind finished
  · exact Check.PointsTo.declareAll.bind fun _ => inside.bind finished

/-- All faults of the check of a term are at the starts of its subterms. -/
theorem pointsTo_typeOf (checker : Checker) (term : Term) :
    (checker.typeOf term).PointsTo term.Marks := by
  induction term using Term.induction_parts with
  | step term ih =>
    have own := Term.Marks.self term
    have inside : ∀ part ∈ term.parts, (checker.typeOf part).PointsTo term.Marks :=
      fun part isPart => (ih part isPart).imp fun _ => .of_part isPart
    have starts : ∀ part ∈ term.parts, term.Marks part.start :=
      fun part isPart => .of_part isPart (.self part)
    have admitted := checker.pointsTo_admitForm term
    clear ih
    cases term with
    | boolean =>
      rw [typeOf]
      exact admitted.bind fun _ => .pure
    | number =>
      rw [typeOf]
      exact admitted.bind fun _ => .pure
    | add span left right =>
      simp only [Term.parts, List.forall_mem_cons] at inside starts
      rw [typeOf]
      apply admitted.bind
      intro _
      apply inside.1.bind
      intro leftType
      apply (pointsTo_expectNumber starts.1 leftType).bind
      intro _
      apply inside.2.1.bind
      intro rightType
      apply (pointsTo_expectNumber starts.2.1 rightType).bind
      intro _
      exact .pure
    | conditional span condition positive negative =>
      simp only [Term.parts, List.forall_mem_cons] at inside starts
      rw [typeOf]
      apply admitted.bind
      intro _
      apply inside.1.bind
      intro conditionType
      apply (pointsTo_expectCondition starts.1 conditionType).bind
      intro _
      apply inside.2.1.bind
      intro positiveType
      apply inside.2.2.1.bind
      intro negativeType
      exact pointsTo_join own positiveType negativeType
    | reference span name =>
      rw [typeOf]
      apply admitted.bind
      intro _
      exact .reference own
    | function span parameters declared body =>
      simp only [Term.parts, List.forall_mem_singleton] at inside starts
      rw [typeOf]
      apply admitted.bind
      intro _
      apply (pointsTo_admitParameters own parameters).bind
      intro _
      apply (pointsTo_admitDeclared own declared).bind
      intro _
      dsimp only
      apply pointsTo_body inside parameters
      intro bodyType
      cases declared with
      | none => exact .pure
      | some result =>
        apply (pointsTo_expectResult starts result bodyType).bind
        intro _
        exact .pure
    | call span callee arguments =>
      simp only [Term.parts, List.forall_mem_cons] at inside starts
      rw [typeOf]
      apply admitted.bind
      intro _
      apply inside.1.bind
      intro calleeType
      split
      · rename_i parameters result _
        split
        · apply (pointsTo_checkArguments inside.2 starts.2 parameters).bind
          intro _
          exact .pure
        · exact .fail own
      · exact .fail starts.1
    | sequence span first rest =>
      simp only [Term.parts, List.forall_mem_cons] at inside
      rw [typeOf]
      apply admitted.bind
      intro _
      apply inside.1.bind
      intro _
      exact inside.2.1
    | constant span name value rest =>
      simp only [Term.parts, List.forall_mem_cons] at inside
      rw [typeOf]
      apply admitted.bind
      intro _
      dsimp only
      split
      · apply inside.1.withBindings.bind
        intro valueType
        exact inside.2.1.withBindings
      · apply inside.1.bind
        intro valueType
        exact inside.2.1.withBindings
    | object span properties =>
      simp only [Term.parts, List.forall_mem_map] at inside
      rw [typeOf]
      apply admitted.bind
      intro _
      apply (pointsTo_typesOf inside).bind
      intro types
      exact .pure
    | property span object name =>
      simp only [Term.parts, List.forall_mem_singleton] at inside starts
      rw [typeOf]
      apply admitted.bind
      intro _
      apply inside.bind
      intro objectType
      split
      · split
        · exact .pure
        · exact .fail own
      · exact .fail starts
    | declaration span name parameters declared body rest =>
      simp only [Term.parts, List.forall_mem_cons] at inside starts
      rw [typeOf]
      apply admitted.bind
      intro _
      apply (pointsTo_admitParameters own parameters).bind
      intro _
      apply (pointsTo_admitType own declared).bind
      intro _
      apply inside.1.withBindings.bind
      intro bodyType
      apply (pointsTo_expectResult starts.1 declared bodyType).bind
      intro _
      exact inside.2.1.withBindings

end Checker

/-! ## Places in a source -/

/-- Whether a place lies between two characters of a text, or at its start or end. -/
def Text.IsBoundary (text : List Char) (position : Nat) : Prop :=
  ∃ before after, text = before ++ after ∧ byteLength before = position

/-- A place between characters lies in the text. -/
theorem Text.IsBoundary.le {text : List Char} {position : Nat}
    (isBoundary : IsBoundary text position) : position ≤ byteLength text := by
  obtain ⟨before, after, rfl, rfl⟩ := isBoundary
  rw [byteLength_append]
  exact Nat.le_add_right _ _

/-- A place in a text is on a line of it. -/
theorem Text.exists_lineAt? {text : List Char} {position : Nat}
    (within : position ≤ byteLength text) : ∃ line, lineAt? text position = some line := by
  rw [lineAt?, if_neg (Nat.not_lt.2 within)]
  exact ⟨_, rfl⟩

/-- Tokens start between characters of their source. -/
theorem Token.isBoundary_start {source : String} {tokens : List Token}
    (short : Text.byteLength source.toList < UInt32.size) (scanned : scan source = .ok tokens) :
    ∀ token ∈ tokens, Text.IsBoundary source.toList token.span.start.toNat := by
  obtain ⟨body, rfl, splits⟩ := exists_body_of_scan short scanned
  intro token isMember
  rw [List.mem_append, List.mem_singleton] at isMember
  rcases isMember with isMember | rfl
  · obtain ⟨after, ⟨before, whole, start, _⟩, _⟩ := splits.stands token isMember
    exact ⟨before, token.value.toList ++ after, by rw [whole, List.append_assoc], start⟩
  · exact ⟨source.toList, [], (List.append_nil _).symm, (UInt32.toNat_ofNat_of_lt' short).symm⟩

/-- A text is refused between two characters. -/
theorem Token.isBoundary_of_fault {source : String} {fault : Fault}
    (short : Text.byteLength source.toList < UInt32.size) (scanned : scan source = .error fault) :
    Text.IsBoundary source.toList fault.offset.toNat := by
  obtain ⟨before, first, rest, body, whole, rfl, _, _⟩ := cut_of_fault scanned
  refine ⟨before, first :: rest, whole, ?_⟩
  rw [whole, Text.byteLength_append] at short
  rw [Nat.zero_add]
  exact (UInt32.toNat_ofNat_of_lt' (by omega)).symm

/-- A computation whose faults are labelled finds the fault that it found before. -/
theorem Stop.eq_fault_of_mapError {α ε ε' : Type} {change : ε → ε'} {result : Except (Stop ε) α}
    {error' : ε'} (ended : result.mapError (Stop.map change) = .error (.fault error')) :
    ∃ error, result = .error (.fault error) ∧ error' = change error := by
  cases result with
  | ok => cases ended
  | error stop =>
    cases stop with
    | fault error =>
      cases ended
      exact ⟨error, rfl, rfl⟩
    | exhausted => cases ended

namespace Source

variable {source : Source} {variant : Variant} {diagnostic : Diagnostic}

/-- A source that is scanned and cannot be read is refused at the start of a token. -/
theorem exists_token_of_term {tokens : List Token}
    (short : Text.byteLength source.text.toList < UInt32.size)
    (scanned : Token.scan source.text = .ok tokens)
    (failed : source.term = .error (.fault diagnostic)) :
    diagnostic.position.file = source.label ∧
      ∃ token ∈ tokens, token.span.start = diagnostic.position.offset := by
  rw [term_of_scan scanned] at failed
  obtain ⟨fault, refused, rfl⟩ := Stop.eq_fault_of_mapError failed
  exact ⟨rfl, (Term.ends_ofTokens short scanned).2 fault refused⟩

/-- The subterms of a source start where its tokens do. -/
theorem exists_token_of_marks {tokens : List Token} {term : Term} {offset : Offset}
    (short : Text.byteLength source.text.toList < UInt32.size)
    (scanned : Token.scan source.text = .ok tokens) (read : source.term = .ok term)
    (marks : term.Marks offset) : ∃ token ∈ tokens, token.span.start = offset := by
  obtain ⟨subterm, isSubterm, rfl⟩ := marks
  rw [term_of_scan scanned] at read
  have read := Stop.eq_ok_of_mapError read
  have nested := (Term.ends_ofTokens short scanned).1 term read subterm isSubterm
  obtain ⟨token, isMember, _, start⟩ := nested.starts
  exact ⟨token, isMember, start⟩

/-- A source that cannot be read is refused where reading stops: between two characters. -/
theorem within_of_term (short : Text.byteLength source.text.toList < UInt32.size)
    (failed : source.term = .error (.fault diagnostic)) :
    diagnostic.position.file = source.label ∧
      Text.IsBoundary source.text.toList diagnostic.position.offset.toNat := by
  cases scanned : Token.scan source.text with
  | error fault =>
    rw [term_of_fault scanned] at failed
    cases failed
    exact ⟨rfl, Token.isBoundary_of_fault short scanned⟩
  | ok tokens =>
    obtain ⟨label, token, isMember, start⟩ := exists_token_of_term short scanned failed
    rw [← start]
    exact ⟨label, Token.isBoundary_start short scanned token isMember⟩

/-- The subterms of a source start between characters of it. -/
theorem isBoundary_of_marks {term : Term} {offset : Offset}
    (short : Text.byteLength source.text.toList < UInt32.size) (read : source.term = .ok term)
    (marks : term.Marks offset) : Text.IsBoundary source.text.toList offset.toNat := by
  cases scanned : Token.scan source.text with
  | error fault =>
    rw [term_of_fault scanned] at read
    cases read
  | ok tokens =>
    obtain ⟨token, isMember, start⟩ := exists_token_of_marks short scanned read marks
    rw [← start]
    exact Token.isBoundary_start short scanned token isMember

/-- A source that can be read but not checked is refused at the start of a subterm. -/
theorem within_of_type {term : Term} (read : source.term = .ok term)
    (failed : source.type variant = .error (.fault diagnostic)) :
    diagnostic.position.file = source.label ∧ term.Marks diagnostic.position.offset := by
  rw [type_of_term read] at failed
  obtain ⟨fault, refused, rfl⟩ := Stop.eq_fault_of_mapError failed
  exact ⟨rfl, Checker.pointsTo_typeOf _ term _ fault refused⟩

/-- Every diagnostic points into its source: it carries the label of the source, its place lies
between two characters of the source and on a line of it, and if the source can be read, a subterm
starts there. -/
theorem diagnostic_within (short : Text.byteLength source.text.toList < UInt32.size)
    (failed : source.type variant = .error (.fault diagnostic)) :
    diagnostic.position.file = source.label ∧
      diagnostic.position.offset.toNat ≤ Text.byteLength source.text.toList ∧
      Text.IsBoundary source.text.toList diagnostic.position.offset.toNat ∧
      (∃ line, Text.lineAt? source.text.toList diagnostic.position.offset.toNat = some line) ∧
      ∀ term, source.term = .ok term → ∃ subterm ∈ term.subterms,
        subterm.span.start = diagnostic.position.offset := by
  cases read : source.term with
  | error stop =>
    have failed : source.term = .error (.fault diagnostic) := by
      rw [Source.type, read] at failed
      cases failed
      exact read
    obtain ⟨label, isBoundary⟩ := within_of_term short failed
    refine ⟨label, isBoundary.le, isBoundary, Text.exists_lineAt? isBoundary.le, ?_⟩
    intro term isRead
    cases isRead
  | ok term =>
    obtain ⟨label, marks⟩ := within_of_type read failed
    have isBoundary := isBoundary_of_marks short read marks
    refine ⟨label, isBoundary.le, isBoundary, Text.exists_lineAt? isBoundary.le, ?_⟩
    intro term isRead
    cases isRead
    exact marks

/-- In a source with wide characters a condition that is no boolean is refused where it starts, on
the second line. A source that breaks off is refused at its end, and one with a character that
nothing starts with at that character. -/
theorem diagnostic_within_wide :
    let source : Source := { text := "/* π */ const f = () => true;\n(f) ? f : f", label := "a.ts" }
    let broken : Source := { text := "// π\n(" }
    let unknown : Source := { text := "/* π */ π" }
    source.type .recursive =
        .error (.fault ⟨.booleanExpected (.function [] .boolean), ⟨32, "a.ts"⟩⟩) ∧
      Text.lineAt? source.text.toList 32 = some ⟨2, "(f) ? f : f".toList, 1⟩ ∧
      (∃ before after, source.text.toList = before ++ after ∧ Text.byteLength before = 32) ∧
      (∀ term, source.term = .ok term → ∃ subterm ∈ term.subterms, subterm.span.start = 32) ∧
      broken.type .arithmetic = .error (.fault ⟨.unexpectedToken "EOF", ⟨7, "shell"⟩⟩) ∧
      Text.IsBoundary broken.text.toList 7 ∧
      unknown.type .arithmetic = .error (.fault ⟨.unrecognisedToken "π", ⟨9, "shell"⟩⟩) ∧
      Text.IsBoundary unknown.text.toList 9 := by
  intro source broken unknown
  have refused : source.type .recursive =
      .error (.fault ⟨.booleanExpected (.function [] .boolean), ⟨32, "a.ts"⟩⟩) := by decide +kernel
  have refused' : broken.type .arithmetic =
      .error (.fault ⟨.unexpectedToken "EOF", ⟨7, "shell"⟩⟩) := by decide +kernel
  have refused'' : unknown.type .arithmetic =
      .error (.fault ⟨.unrecognisedToken "π", ⟨9, "shell"⟩⟩) := by decide +kernel
  obtain ⟨_, _, isBoundary, _, starts⟩ := diagnostic_within (by decide) refused
  obtain ⟨_, _, isBoundary', _⟩ := diagnostic_within (by decide) refused'
  obtain ⟨_, _, isBoundary'', _⟩ := diagnostic_within (by decide) refused''
  exact ⟨refused, by decide, isBoundary, starts, refused', isBoundary', refused'', isBoundary''⟩

end Source

end Equirec
