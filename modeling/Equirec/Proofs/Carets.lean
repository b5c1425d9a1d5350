import Equirec.Proofs.Diagnosis
import Equirec.Proofs.Layout
import Equirec.Proofs.Lines

/-!
# The caret of a fault

A fault is shown with the line of its place, without the indent of that line and the blanks at its
end, and with dashes that lead to a caret. There are as many dashes as bytes are shown before the
place (`Source.caret_stands`). The caret stands under the character at the place as long as every
character shown before it takes one byte, and too far to the right otherwise
(`Source.caret_beside_wide`).

The places of faults are never blank: a fault is found where a token or a term starts, or at a
character that starts nothing (`Source.showsAt_of_type`). So the character at the place is always
among those that are shown.
-/
namespace Equirec

/-! ## Places of faults are visible -/

/-- Whether a character that is not blank stands at a place of a text. -/
def Text.ShowsAt (text : List Char) (position : Nat) : Prop :=
  ∃ before character after, text = before ++ character :: after ∧ byteLength before = position ∧
    isBlank character = false

namespace Token

/-- Tokens start with visible characters. -/
theorem showsAt_start {source : String} {tokens : List Token}
    (short : Text.byteLength source.toList < UInt32.size) (scanned : scan source = .ok tokens)
    {token : Token} (isMember : token ∈ tokens)
    (inside : token.span.start.toNat < Text.byteLength source.toList) :
    Text.ShowsAt source.toList token.span.start.toNat := by
  obtain ⟨body, rfl, splits⟩ := exists_body_of_scan short scanned
  rw [List.mem_append, List.mem_singleton] at isMember
  rcases isMember with isMember | rfl
  · obtain ⟨after, ⟨before, whole, start, _⟩, _⟩ := splits.stands token isMember
    have writes := (splits.writes token isMember).2
    obtain ⟨first, rest, isText⟩ := List.exists_cons_of_ne_nil writes.ne_nil
    have noGap := writes.startsGap_eq_false first (isText ▸ .head _)
    rw [startsGap, Bool.or_eq_false_iff] at noGap
    refine ⟨before, first, rest ++ after, ?_, start, noGap.1⟩
    rw [whole, isText, List.append_assoc, List.cons_append]
  · have start : (endMark (Text.byteLength source.toList)).span.start.toNat =
        Text.byteLength source.toList := UInt32.toNat_ofNat_of_lt' short
    omega

/-- A text is refused at a visible character. -/
theorem showsAt_of_fault {source : String} {fault : Fault}
    (short : Text.byteLength source.toList < UInt32.size) (scanned : scan source = .error fault) :
    Text.ShowsAt source.toList fault.offset.toNat := by
  obtain ⟨before, first, rest, body, whole, rfl, _, missing⟩ := cut_of_fault scanned
  refine ⟨before, first, rest, whole, ?_, ?_⟩
  · rw [whole, Text.byteLength_append] at short
    rw [Nat.zero_add]
    exact (UInt32.toNat_ofNat_of_lt' (by omega)).symm
  · rw [Bool.eq_false_iff]
    intro isBlank
    rw [lexeme?_of_isBlank isBlank] at missing
    cases missing

end Token

namespace Source

variable {source : Source} {variant : Variant} {diagnostic : Diagnostic}

/-- A source is refused at a visible character, unless it is refused at its end. -/
theorem showsAt_of_type (short : Text.byteLength source.text.toList < UInt32.size)
    (failed : source.type variant = .error (.fault diagnostic))
    (inside : diagnostic.position.offset.toNat < Text.byteLength source.text.toList) :
    Text.ShowsAt source.text.toList diagnostic.position.offset.toNat := by
  cases scanned : Token.scan source.text with
  | error fault =>
    rw [Source.type, term_of_fault scanned] at failed
    cases failed
    exact Token.showsAt_of_fault short scanned
  | ok tokens =>
    have starts : ∃ token ∈ tokens, token.span.start = diagnostic.position.offset := by
      cases read : source.term with
      | error stop =>
        rw [Source.type, read] at failed
        cases failed
        exact (exists_token_of_term short scanned read).2
      | ok term =>
        have marks := (within_of_type read failed).2
        exact exists_token_of_marks short scanned read marks
    obtain ⟨token, isMember, start⟩ := starts
    rw [← start] at inside ⊢
    exact Token.showsAt_start short scanned isMember inside

end Source

/-! ## A visible character on its line -/

namespace Text

/-- Of two starts of a text the one of fewer bytes starts the other. -/
theorem exists_append_of_byteLength_le {first rest second rest' : List Char}
    (same : first ++ rest = second ++ rest') (fewer : byteLength first ≤ byteLength second) :
    ∃ middle, second = first ++ middle ∧ rest = middle ++ rest' := by
  rcases List.append_eq_append_iff.1 same with found | ⟨middle, isFirst, isRest⟩
  · exact found
  · rw [isFirst, byteLength_append] at fewer
    have isNil : middle = [] := by
      by_contra some
      have positive := Token.byteLength_pos some
      omega
    subst isNil
    exact ⟨[], by simp [isFirst], by simp [isRest]⟩

/-- A character that stands at a place stands on the line of the place. -/
theorem IsLine.exists_split {text before line after past rest : List Char} {character : Char}
    (isLine : IsLine text before line after) (whole : text = past ++ character :: rest)
    (low : byteLength before ≤ byteLength past)
    (high : byteLength past < byteLength (before ++ line)) :
    ∃ left right, line = left ++ character :: right ∧ past = before ++ left := by
  have same : before ++ (line ++ after) = past ++ character :: rest := by
    rw [← whole, isLine.whole, List.append_assoc]
  -- What comes before the character goes on from what comes before the line, and into the line.
  obtain ⟨left, rfl, same'⟩ := exists_append_of_byteLength_le same low
  rw [byteLength_append, byteLength_append] at high
  obtain ⟨right, isLine, same''⟩ := exists_append_of_byteLength_le same'.symm (by omega)
  cases right with
  | nil =>
    rw [isLine, List.append_nil] at high
    exact absurd high (Nat.lt_irrefl _)
  | cons first right =>
    cases same''
    exact ⟨left, right, isLine, rfl⟩

/-- Dropping from the front stops at a character that is kept. -/
theorem dropWhile_append_cons {drops : Char → Bool} {character : Char}
    (kept : drops character = false) (left right : List Char) :
    (left ++ character :: right).dropWhile drops = left.dropWhile drops ++ character :: right := by
  rw [List.dropWhile_append, List.dropWhile_cons_of_neg (by simp [kept])]
  split
  · rename_i isEmpty
    rw [List.isEmpty_iff.1 isEmpty, List.nil_append]
  · rfl

/-- Blanks are trimmed from the end as far as the last visible character. -/
theorem trimEnd_append_cons {character : Char} (visible : isBlank character = false)
    (left right : List Char) :
    trimEnd (left ++ character :: right) = left ++ character :: trimEnd right := by
  -- Trimming the end is dropping from the front of the reversed text.
  rw [trimEnd, List.reverse_append, List.reverse_cons, List.append_assoc, List.singleton_append,
    dropWhile_append_cons visible]
  simp [trimEnd]

/-- A text has no fewer bytes than characters. -/
theorem length_le_byteLength (text : List Char) : text.length ≤ byteLength text := by
  induction text with
  | nil => exact Nat.le_refl 0
  | cons first rest ih =>
    have positive := first.utf8Size_pos
    rw [List.length_cons, byteLength_cons]
    omega

/-- The characters of one byte are the first 128. -/
theorem utf8Size_eq_one_iff (character : Char) :
    character.utf8Size = 1 ↔ character.toNat < 128 := by
  rw [Char.utf8Size_eq_one_iff, UInt32.le_iff_toNat_le]
  exact Nat.lt_succ_iff.symm

/-- A text has as many bytes as characters exactly when each of them takes one byte. -/
theorem byteLength_eq_length_iff (text : List Char) :
    byteLength text = text.length ↔ ∀ character ∈ text, character.toNat < 128 := by
  induction text with
  | nil => simp
  | cons first rest ih =>
    have positive := first.utf8Size_pos
    have shorter := length_le_byteLength rest
    rw [byteLength_cons, List.length_cons, List.forall_mem_cons, ← ih, ← utf8Size_eq_one_iff]
    omega

/-- The indent of a line has as many bytes as characters. -/
theorem byteLength_eq_indent_add (line : List Char) :
    byteLength line = (line.takeWhile isIndent).length + byteLength (line.dropWhile isIndent) := by
  have indent : byteLength (line.takeWhile isIndent) = (line.takeWhile isIndent).length := by
    rw [byteLength_eq_length_iff]
    intro character isMember
    have indents := List.mem_takeWhile_imp isMember
    simp only [isIndent, Bool.or_eq_true, beq_iff_eq] at indents
    rcases indents with rfl | rfl <;> decide
  rw [← indent, ← byteLength_append, List.takeWhile_append_dropWhile]

/-- No visible character belongs to an indent. -/
theorem isIndent_of_visible {character : Char} (visible : isBlank character = false) :
    isIndent character = false := by
  rw [Bool.eq_false_iff]
  intro indents
  simp only [isIndent, Bool.or_eq_true, beq_iff_eq] at indents
  rcases indents with rfl | rfl <;> revert visible <;> decide

/-- Before a visible character, what is left of a line without its indent has the bytes that are not
in the indent. -/
theorem byteLength_sub_indent {character : Char} (visible : isBlank character = false)
    (left right : List Char) :
    byteLength left - ((left ++ character :: right).takeWhile isIndent).length =
      byteLength (left.dropWhile isIndent) := by
  have whole := byteLength_eq_indent_add (left ++ character :: right)
  rw [dropWhile_append_cons (isIndent_of_visible visible), byteLength_append,
    byteLength_append] at whole
  omega

end Text

/-! ## The rows of a diagnostic -/

/-- The rows in which a diagnostic is shown: its headline, the file, an empty row, the row of what
is shown of a line and the row of the dashes and the caret. -/
def Diagnostic.rows (diagnostic : Diagnostic) (file : String) (number : Nat) (shown : List Char)
    (dashes : Nat) : List String :=
  [Fault.headline ⟨diagnostic.cause, diagnostic.position.offset⟩, "-> " ++ file,
    Fault.margin number, number.repr ++ " | " ++ String.ofList shown,
    Fault.margin number ++ " " ++ "".pushn '-' dashes ++ "^"]

/-- A diagnostic whose place is on a line is shown in its rows. -/
theorem Diagnostic.render_eq_rows {diagnostic : Diagnostic} {text : String} {line : Text.Line}
    (found : Text.lineAt? text.toList diagnostic.position.offset.toNat = some line)
    (file : String) :
    diagnostic.render text file = String.join ((diagnostic.rows file line.number
      (Text.trimEnd (line.text.dropWhile Text.isIndent))
      (line.column - (line.text.takeWhile Text.isIndent).length)).map (· ++ "\n")) := by
  -- The rows end where these two literals hold a newline.
  have arrow : "\n-> " = "\n" ++ "-> " := by decide
  have caret : "^\n" = "^" ++ "\n" := by decide
  simp only [Diagnostic.render, Fault.render, found, Fault.snippet, rows, arrow, caret,
    List.map_cons, List.map_nil, String.join_cons, String.join_nil, String.append_empty,
    String.append_assoc]

/-- What stands in front of the dashes is as wide as what stands in front of the line. -/
theorem Fault.length_margin (number : Nat) :
    (margin number ++ " ").length = (number.repr ++ " | ").length := by
  have widths : "|".length = 1 ∧ " ".length = 1 ∧ " | ".length = 3 := by decide
  simp only [margin, String.length_append, String.length_pushn, String.length_empty]
  omega

namespace Source

variable {source : Source} {variant : Variant} {diagnostic : Diagnostic}

/-- How a diagnostic whose place lies before the end of its source is shown: with the line of the
place, without indent and without the blanks at its end, and with dashes for the bytes between the
indent and the place. In a source of fewer than 2³² bytes, in which no place wraps round, the place
is that of a visible character on the line, and the dashes are the bytes shown before it. So the
caret stands under it exactly when all characters shown before it take one byte. -/
theorem caret_stands (failed : source.type variant = .error (.fault diagnostic))
    (inside : diagnostic.position.offset.toNat < Text.byteLength source.text.toList)
    (file : String) :
    ∃ before line after number dashes, Text.IsLine source.text.toList before line after ∧
      Text.byteLength before ≤ diagnostic.position.offset.toNat ∧
      diagnostic.position.offset.toNat < Text.byteLength (before ++ line) ∧
      number = 1 + (Text.upTo source.text.toList diagnostic.position.offset.toNat).count '\n' ∧
      diagnostic.render source.text file = String.join ((diagnostic.rows file number
        (Text.trimEnd (line.dropWhile Text.isIndent)) dashes).map (· ++ "\n")) ∧
      (Fault.margin number ++ " ").length = (number.repr ++ " | ").length ∧
      dashes = diagnostic.position.offset.toNat - Text.byteLength before -
        (line.takeWhile Text.isIndent).length ∧
      (Text.byteLength source.text.toList < UInt32.size → ∃ left character right,
        line = left ++ character :: right ∧
        Text.byteLength (before ++ left) = diagnostic.position.offset.toNat ∧
        Text.trimEnd (line.dropWhile Text.isIndent) =
          left.dropWhile Text.isIndent ++ character :: Text.trimEnd right ∧
        dashes = Text.byteLength (left.dropWhile Text.isIndent) ∧
        (dashes = (left.dropWhile Text.isIndent).length ↔
          ∀ shown ∈ left.dropWhile Text.isIndent, shown.toNat < 128)) := by
  obtain ⟨before, line, after, isLine, low, high, found⟩ := Text.lineAt?_of_lt inside
  refine ⟨before, line, after, _, _, isLine, low, high, rfl,
    Diagnostic.render_eq_rows found file, Fault.length_margin _, rfl, fun short => ?_⟩
  obtain ⟨past, character, rest, whole, place, visible⟩ := showsAt_of_type short failed inside
  rw [← place] at low high ⊢
  obtain ⟨left, right, rfl, rfl⟩ := isLine.exists_split whole low high
  have dashes : Text.byteLength (before ++ left) - Text.byteLength before -
      ((left ++ character :: right).takeWhile Text.isIndent).length =
        Text.byteLength (left.dropWhile Text.isIndent) := by
    rw [Text.byteLength_append, Nat.add_sub_cancel_left]
    exact Text.byteLength_sub_indent visible left right
  refine ⟨left, character, right, rfl, rfl, ?_, dashes, ?_⟩
  · rw [Text.dropWhile_append_cons (Text.isIndent_of_visible visible),
      Text.trimEnd_append_cons visible]
  · rw [dashes, Text.byteLength_eq_length_iff]

/-- On an indented line after one with a wide character, and before blanks, the caret of a name that
is not bound stands under the name. -/
theorem caret_stands_indented :
    let source : Source := { text := "/* é */\n\t (true) ? f : f  \n" }
    let diagnostic : Diagnostic := ⟨.undefinedVariable "f", ⟨20, "shell"⟩⟩
    source.type .recursive = .error (.fault diagnostic) ∧
      Text.byteLength source.text.toList < UInt32.size ∧
      (∃ before left character right number, Text.byteLength (before ++ left) = 20 ∧
        diagnostic.render source.text "a.ts" = String.join ((diagnostic.rows "a.ts" number
          (left.dropWhile Text.isIndent ++ character :: Text.trimEnd right)
          (Text.byteLength (left.dropWhile Text.isIndent))).map (· ++ "\n"))) ∧
      diagnostic.render source.text "a.ts" =
        "Error: UndefinedVariable (Variable `f` is not defined)\n-> a.ts\n  |\n" ++
          "2 | (true) ? f : f\n  | ---------^\n" := by
  intro source diagnostic
  have failed : source.type .recursive = .error (.fault diagnostic) := by decide +kernel
  have short : Text.byteLength source.text.toList < UInt32.size := by decide
  obtain ⟨before, line, after, number, dashes, _, _, _, _, rendered, _, _, placed⟩ :=
    caret_stands failed (by decide) "a.ts"
  obtain ⟨left, character, right, rfl, place, shown, rfl, _⟩ := placed short
  rw [shown] at rendered
  exact ⟨failed, short, ⟨before, left, character, right, number, place, rendered⟩, by decide⟩

/-- After a wide character on the same line the caret stands too far to the right: eight characters
are shown before the name, and nine dashes before the caret. -/
theorem caret_beside_wide :
    let source : Source := { text := "/* é */ x" }
    let diagnostic : Diagnostic := ⟨.undefinedVariable "x", ⟨9, "shell"⟩⟩
    source.type .subtyping = .error (.fault diagnostic) ∧
      source.text.toList = "/* é */ ".toList ++ ['x'] ∧
      Text.byteLength "/* é */ ".toList = 9 ∧ "/* é */ ".toList.length = 8 ∧
      diagnostic.render source.text "shell" =
        "Error: UndefinedVariable (Variable `x` is not defined)\n-> shell\n  |\n" ++
          "1 | /* é */ x\n  | ---------^\n" := by
  intro source diagnostic
  have failed : source.type .subtyping = .error (.fault diagnostic) := by decide +kernel
  exact ⟨failed, by decide, by decide, by decide, by decide⟩

end Source

end Equirec
