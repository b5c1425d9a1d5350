import Equirec.Text.Line
import Mathlib.Data.List.Infix

/-!
# The line of a place

`Text.IsLine` says what a line of a text is, without going through the text: it starts at the start
of the text or just after a newline, it runs through the next newline or to the end, and it has no
other newline. `Text.lineAt?` finds the line that a place lies on, numbered by the newlines before
the place, and the place in it (`line_located`). The lines that a text is cut into are lines in
this sense (`areLines_lines`), and finding a line among them adds up the bytes and the newlines that
it has passed (`findLine_of_lt`, `findLine_at_end`).
-/
namespace Equirec.Text

/-- The characters of a text that begin before a place. -/
def upTo : List Char → Nat → List Char
  | [], _ => []
  | first :: rest, position =>
    if position = 0 then [] else first :: upTo rest (position - first.utf8Size)

/-- How a line stands in a text. -/
structure IsLine (text before line after : List Char) : Prop where
  /-- The text is what comes before the line, the line and what comes after it. -/
  whole : text = before ++ line ++ after
  /-- The line starts the text or comes just after a newline. -/
  starts : before = [] ∨ ∃ earlier, before = earlier ++ ['\n']
  /-- Only the last character of the line may be a newline. -/
  single : '\n' ∉ line.dropLast
  /-- The line ends the text or ends with a newline. -/
  ends : after = [] ∨ ∃ body, line = body ++ ['\n']

/-- A line stays one when an ended line is put in front of the text. -/
theorem IsLine.prepend {text before line after : List Char}
    (isLine : IsLine text before line after) (body : List Char) :
    IsLine (body ++ ['\n'] ++ text) (body ++ ['\n'] ++ before) line after where
  whole := by simp [isLine.whole]
  starts := by
    right
    rcases isLine.starts with rfl | ⟨earlier, rfl⟩
    · exact ⟨body, List.append_nil _⟩
    · exact ⟨body ++ ['\n'] ++ earlier, (List.append_assoc _ _ _).symm⟩
  single := isLine.single
  ends := isLine.ends

/-! ## Lines one after the other -/

/-- Texts that are lines one after the other: all but the last end with a newline, and none has
another one. -/
inductive AreLines : List (List Char) → Prop where
  /-- No lines. -/
  | none : AreLines []
  /-- A last line that breaks off. -/
  | unended {line : List Char} (some : line ≠ []) (single : '\n' ∉ line) : AreLines [line]
  /-- A line that ends, and others after it. -/
  | ended {body : List Char} {others : List (List Char)} (single : '\n' ∉ body)
    (rest : AreLines others) : AreLines ((body ++ ['\n']) :: others)

/-- A text is cut into lines. -/
theorem areLines_lines (text : List Char) : AreLines (lines text) := by
  induction text with
  | nil => exact .none
  | cons character rest ih =>
    rw [lines]
    split
    · rename_i isNewline
      rw [isNewline]
      exact .ended List.not_mem_nil ih
    · rename_i isOther
      generalize lines rest = all at ih
      cases ih with
      | none => exact .unended (by simp) (by simpa using Ne.symm isOther)
      | unended some single => exact .unended (by simp) (by simp [single, Ne.symm isOther])
      | @ended body others single rest =>
        have single' : '\n' ∉ character :: body := by simp [single, Ne.symm isOther]
        exact .ended single' rest

/-! ## Finding a line -/

/-- An ended line adds its one newline in front. -/
theorem count_newline_ended {body : List Char} (single : '\n' ∉ body) (rest : List Char) :
    (body ++ ['\n'] ++ rest).count '\n' = 1 + rest.count '\n' := by
  rw [List.count_append, List.count_append, List.count_eq_zero.2 single, List.count_singleton_self]

/-- Past the first line, the line of a place is found among the others. -/
theorem findLine_cons_of_le {line : List Char} {others : List (List Char)}
    {number position : Nat} (past : byteLength line ≤ position) (more : others ≠ []) :
    findLine number position (line :: others) =
      findLine (number + 1) (position - byteLength line) others := by
  rw [findLine, if_neg (Nat.not_lt.2 past), if_neg (by simpa using more)]

/-- A place before the end is found on the line that it lies on, after as many lines as there are
newlines before that line. -/
theorem findLine_of_lt {all : List (List Char)} (areLines : AreLines all) {number position : Nat}
    (inside : position < byteLength all.flatten) :
    ∃ before line after, IsLine all.flatten before line after ∧ byteLength before ≤ position ∧
      position < byteLength (before ++ line) ∧
      findLine number position all =
        ⟨number + before.count '\n', line, position - byteLength before⟩ := by
  -- The lines passed are put in front of what is found among the others.
  induction areLines generalizing number position with
  | none => simp at inside
  | @unended line some single =>
    rw [List.flatten_singleton] at inside ⊢
    refine ⟨[], line, [], ⟨by simp, .inl rfl, ?_, .inl rfl⟩, Nat.zero_le _, inside, ?_⟩
    · exact fun isMember => single (List.mem_of_mem_dropLast isMember)
    · rw [findLine, if_pos inside]
      rfl
  | @ended body others single rest ih =>
    rw [List.flatten_cons] at inside ⊢
    by_cases onFirst : position < byteLength (body ++ ['\n'])
    · refine ⟨[], body ++ ['\n'], others.flatten, ⟨by simp, .inl rfl, ?_, .inr ⟨body, rfl⟩⟩,
        Nat.zero_le _, onFirst, ?_⟩
      · rwa [List.dropLast_concat]
      · rw [findLine, if_pos onFirst]
        rfl
    · rw [byteLength_append] at inside
      have past := Nat.not_lt.1 onFirst
      have more : others ≠ [] := by
        rintro rfl
        rw [List.flatten_nil, byteLength_nil] at inside
        omega
      obtain ⟨before, line, after, isLine, low, high, found⟩ :=
        @ih (number + 1) (position - byteLength (body ++ ['\n'])) (by omega)
      refine ⟨body ++ ['\n'] ++ before, line, after, isLine.prepend body, ?_, ?_, ?_⟩
      · rw [byteLength_append]
        omega
      · rw [List.append_assoc, byteLength_append]
        omega
      · rw [findLine_cons_of_le past more, found, count_newline_ended single,
          byteLength_append _ before, Nat.sub_sub, Nat.add_assoc]

/-- The end of the only line is found after what is left of it without the blanks at its end. -/
theorem findLine_singleton (number : Nat) (line : List Char) :
    findLine number (byteLength line) [line] = ⟨number, line, byteLength (trimEnd line)⟩ := by
  simp [findLine]

/-- The end is found on the last line, after what is left of it without the blanks at its end. -/
theorem findLine_at_end {all : List (List Char)} (areLines : AreLines all) (nonempty : all ≠ [])
    {number : Nat} :
    ∃ before line, line ≠ [] ∧ IsLine all.flatten before line [] ∧
      findLine number (byteLength all.flatten) all =
        ⟨number + before.count '\n', line, byteLength (trimEnd line)⟩ := by
  induction areLines generalizing number with
  | none => exact absurd rfl nonempty
  | @unended line some single =>
    rw [List.flatten_singleton]
    refine ⟨[], line, some, ⟨by simp, .inl rfl, ?_, .inl rfl⟩, findLine_singleton number line⟩
    exact fun isMember => single (List.mem_of_mem_dropLast isMember)
  | @ended body others single rest ih =>
    rw [List.flatten_cons]
    by_cases more : others = []
    · subst more
      rw [List.flatten_nil, List.append_nil]
      refine ⟨[], body ++ ['\n'], by simp, ⟨by simp, .inl rfl, ?_, .inl rfl⟩,
        findLine_singleton number _⟩
      rwa [List.dropLast_concat]
    · obtain ⟨before, line, some, isLine, found⟩ := @ih more (number + 1)
      refine ⟨body ++ ['\n'] ++ before, line, some, isLine.prepend body, ?_⟩
      rw [byteLength_append _ others.flatten, findLine_cons_of_le (Nat.le_add_right _ _) more,
        Nat.add_sub_cancel_left, found, count_newline_ended single, Nat.add_assoc]

/-! ## Newlines before a place -/

/-- Nothing begins before the start. -/
theorem upTo_zero (text : List Char) : upTo text 0 = [] := by
  cases text <;> simp [upTo]

/-- Whole characters that begin before a place are passed. -/
theorem upTo_append_of_le {before : List Char} (rest : List Char) {position : Nat}
    (past : byteLength before ≤ position) :
    upTo (before ++ rest) position = before ++ upTo rest (position - byteLength before) := by
  induction before generalizing position with
  | nil => rfl
  | cons first before ih =>
    have positive := first.utf8Size_pos
    rw [byteLength_cons] at past ⊢
    rw [List.cons_append, upTo, if_neg (by omega), ih (by omega), Nat.sub_sub, List.cons_append]

/-- What begins before a place lies in any start of the text that goes up to the place. -/
theorem upTo_append_isPrefix {before : List Char} (rest : List Char) {position : Nat}
    (within : position ≤ byteLength before) : upTo (before ++ rest) position <+: before := by
  induction before generalizing position with
  | nil =>
    rw [byteLength_nil, Nat.le_zero] at within
    rw [within, upTo_zero]
  | cons first before ih =>
    rw [byteLength_cons] at within
    rw [List.cons_append, upTo]
    split
    · exact List.nil_prefix
    · exact List.cons_prefix_cons.2 ⟨rfl, ih (by omega)⟩

/-- No newline of a line begins before a place on it. -/
theorem IsLine.not_mem_upTo {text before line after : List Char}
    (isLine : IsLine text before line after) {column : Nat} (inside : column < byteLength line) :
    '\n' ∉ upTo (line ++ after) column := by
  have single := isLine.single
  -- A newline can only be the last character, which begins after the place.
  rcases List.eq_nil_or_concat line with rfl | ⟨body, last, rfl⟩
  · simp at inside
  rw [List.concat_eq_append] at inside single ⊢
  rw [List.dropLast_concat] at single
  by_cases isNewline : last = '\n'
  · have within : column ≤ byteLength body := by
      have width : byteLength ['\n'] = 1 := rfl
      rw [isNewline, byteLength_append] at inside
      omega
    rw [List.append_assoc]
    exact fun isMember => single ((upTo_append_isPrefix _ within).subset isMember)
  · intro isMember
    have inLine := (upTo_append_isPrefix after (Nat.le_of_lt inside)).subset isMember
    simp [single, Ne.symm isNewline] at inLine

/-- The newlines before a place are those before its line. -/
theorem IsLine.count_upTo {text before line after : List Char}
    (isLine : IsLine text before line after) {position : Nat} (low : byteLength before ≤ position)
    (high : position < byteLength (before ++ line)) :
    (upTo text position).count '\n' = before.count '\n' := by
  rw [byteLength_append] at high
  have none := isLine.not_mem_upTo (show position - byteLength before < byteLength line by omega)
  rw [isLine.whole, List.append_assoc, upTo_append_of_le _ low, List.count_append,
    List.count_eq_zero.2 none, Nat.add_zero]

/-! ## The line of a place -/

/-- A place has no line exactly when it lies past the end. -/
theorem lineAt?_eq_none_iff (text : List Char) (position : Nat) :
    lineAt? text position = none ↔ byteLength text < position := by
  simp [lineAt?]

/-- A place before the end is on a line of the text. -/
theorem lineAt?_of_lt {text : List Char} {position : Nat} (inside : position < byteLength text) :
    ∃ before line after, IsLine text before line after ∧ byteLength before ≤ position ∧
      position < byteLength (before ++ line) ∧
      lineAt? text position =
        some ⟨1 + (upTo text position).count '\n', line, position - byteLength before⟩ := by
  have whole := flatten_lines text
  rw [← whole] at inside
  obtain ⟨before, line, after, isLine, low, high, found⟩ :=
    findLine_of_lt (areLines_lines text) inside
  rw [whole] at isLine inside
  refine ⟨before, line, after, isLine, low, high, ?_⟩
  rw [lineAt?, if_neg (Nat.lt_asymm inside), found, isLine.count_upTo low high]

/-- The end of a text is on its last line. -/
theorem lineAt?_at_end {text : List Char} (nonempty : text ≠ []) :
    ∃ before line, line ≠ [] ∧ IsLine text before line [] ∧
      lineAt? text (byteLength text) =
        some ⟨1 + before.count '\n', line, byteLength (trimEnd line)⟩ := by
  have whole := flatten_lines text
  have nonempty' : lines text ≠ [] := by
    intro isNil
    rw [isNil] at whole
    exact nonempty whole.symm
  obtain ⟨before, line, some, isLine, found⟩ := findLine_at_end (areLines_lines text) nonempty'
  rw [whole] at isLine found
  exact ⟨before, line, some, isLine, by rw [lineAt?, if_neg (Nat.lt_irrefl _), found]⟩

/-- Where a place is found. Past the end there is no line. A place before the end is on the line
around it, numbered by the newlines before the place, with as many bytes of the line before it as
there are. The end of a text that is not empty is on its last line, after what is left of that line
without the blanks at its end, and the end of the empty text is on an empty first line. -/
theorem line_located (text : List Char) (position : Nat) :
    (lineAt? text position = none ↔ byteLength text < position) ∧
      (position < byteLength text → ∃ before line after, IsLine text before line after ∧
        byteLength before ≤ position ∧ position < byteLength (before ++ line) ∧
        lineAt? text position =
          some ⟨1 + (upTo text position).count '\n', line, position - byteLength before⟩) ∧
      (position = byteLength text → text ≠ [] → ∃ before line, line ≠ [] ∧
        IsLine text before line [] ∧
        lineAt? text position = some ⟨1 + before.count '\n', line, byteLength (trimEnd line)⟩) ∧
      (position = byteLength text → text = [] → lineAt? text position = some ⟨1, [], 0⟩) := by
  refine ⟨lineAt?_eq_none_iff text position, lineAt?_of_lt, ?_, ?_⟩
  · rintro rfl nonempty
    exact lineAt?_at_end nonempty
  · rintro rfl rfl
    rfl

/-- In a text with a wide character, an empty line and blanks at its end, a place inside the wide
character is on the first line, the newline of the empty line is on that line, and the end is on the
third line, before its blanks. -/
theorem line_located_wide :
    let text := "é\n\na \n".toList
    lineAt? text 1 = some ⟨1, "é\n".toList, 1⟩ ∧ lineAt? text 3 = some ⟨2, "\n".toList, 0⟩ ∧
      lineAt? text 7 = some ⟨3, "a \n".toList, 1⟩ ∧ lineAt? text 8 = none ∧
      (∃ before line after, IsLine text before line after ∧ byteLength before ≤ 3 ∧
        3 < byteLength (before ++ line) ∧
        lineAt? text 3 = some ⟨1 + (upTo text 3).count '\n', line, 3 - byteLength before⟩) ∧
      ∃ before line, line ≠ [] ∧ IsLine text before line [] ∧
        lineAt? text 7 = some ⟨1 + before.count '\n', line, byteLength (trimEnd line)⟩ := by
  intro text
  obtain ⟨_, inside, _⟩ := line_located text 3
  obtain ⟨_, _, atEnd, _⟩ := line_located text 7
  obtain ⟨past, _⟩ := line_located text 8
  exact ⟨by decide, by decide, by decide, past.2 (by decide), inside (by decide),
    atEnd (by decide) (by decide)⟩

end Equirec.Text
