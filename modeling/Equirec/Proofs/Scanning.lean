import Equirec.Proofs.Lexemes

/-!
# Scanning loses nothing

The tokens of a source and the blank space and comments between them make up the source again, each
token is as long as it can be (`Token.Cut.splits`), and scanning stops only where nothing at all can
start.
-/
namespace Equirec.Token

variable {first : Char} {rest : List Char}

/-! ## Texts cut into pieces -/

/-- A text, from an offset on, cut into tokens and gaps one after the other. -/
inductive Cut (following : List Char) : Nat → List Char → List Token → Prop where
  /-- Nothing is left. -/
  | done {offset : Nat} : Cut following offset [] []
  /-- A gap comes next. -/
  | gap {offset : Nat} {piece rest : List Char} {tokens : List Token}
    (isGap : IsGap (rest ++ following) piece)
    (after : Cut following (offset + Text.byteLength piece) rest tokens) :
    Cut following offset (piece ++ rest) tokens
  /-- A token comes next, as long a one as there can be. -/
  | token {offset : Nat} {kind : Kind} {piece rest : List Char} {tokens : List Token}
    (writes : Writes kind piece) (longest : IsLongest piece (rest ++ following))
    (after : Cut following (offset + Text.byteLength piece) rest tokens) :
    Cut following offset (piece ++ rest) ({
      kind
      value := String.ofList piece
      span := ⟨.ofNat offset, .ofNat (offset + Text.byteLength piece)⟩ } :: tokens)

/-- One step of scanning cuts a lexeme off. -/
theorem Cut.lexeme {lexeme : Lexeme} {before following : List Char} {offset : Nat}
    {tokens : List Token} (found : lexeme? first rest = some lexeme)
    (whole : first :: rest = lexeme.text ++ (before ++ following))
    (after : Cut following (offset + Text.byteLength lexeme.text) before tokens) :
    Cut following offset (lexeme.text ++ before) ((lexeme.token? offset).toList ++ tokens) := by
  obtain ⟨kind?, text⟩ := lexeme
  cases kind? with
  | some kind =>
    obtain ⟨writes, longest⟩ := writes_of_lexeme? whole found
    exact .token writes longest after
  | none => exact .gap (isGap_of_lexeme? whole found) after

/-- After a lexeme comes the rest of the text. -/
theorem exists_after_lexeme {lexeme : Lexeme} (found : lexeme? first rest = some lexeme) :
    first :: rest = lexeme.text ++ rest.drop (lexeme.text.length - 1) := by
  obtain ⟨following, whole⟩ := lexeme?_isPrefix found
  obtain ⟨head, tail, isText⟩ := List.exists_cons_of_ne_nil (text_ne_nil_of_lexeme? found)
  rw [isText] at whole ⊢
  cases whole
  simp

/-- Induction along scanning that comes to the end of a text: from the end mark on, each lexeme puts
its token, if it has one, before those of what follows. -/
@[elab_as_elim]
theorem scanned_induction {motive : Nat → List Char → List Token → Prop}
    (done : ∀ offset, motive offset [] [endMark offset])
    (step : ∀ offset first rest lexeme following after, lexeme? first rest = some lexeme →
      first :: rest = lexeme.text ++ following →
        motive (offset + Text.byteLength lexeme.text) following after →
          motive offset (first :: rest) ((lexeme.token? offset).toList ++ after))
    {offset : Nat} {text : List Char} {tokens : List Token}
    (scanned : scanFrom offset text = .ok tokens) : motive offset text tokens := by
  fun_induction scanFrom offset text generalizing tokens with
  | case1 offset =>
    cases scanned
    exact done offset
  | case2 => cases scanned
  | case3 offset first rest lexeme found ih =>
    cases inner : scanFrom (offset + Text.byteLength lexeme.text)
        (rest.drop (lexeme.text.length - 1)) with
    | error fault =>
      rw [inner] at scanned
      cases scanned
    | ok after =>
      rw [inner] at scanned
      cases scanned
      exact step offset first rest lexeme _ after found (exists_after_lexeme found) (ih inner)

/-- A text that is scanned to its end is cut into its tokens, and after them comes the end mark. -/
theorem cut_of_scanFrom {offset : Nat} {text : List Char} {tokens : List Token}
    (scanned : scanFrom offset text = .ok tokens) :
    ∃ body, tokens = body ++ [endMark (offset + Text.byteLength text)] ∧
      Cut [] offset text body := by
  refine scanned_induction ?done ?step scanned
  case done =>
    intro offset
    exact ⟨[], rfl, .done⟩
  case step =>
    rintro offset first rest lexeme following _ found whole ⟨body, rfl, cut⟩
    refine ⟨(lexeme.token? offset).toList ++ body, ?_, ?_⟩
    · rw [List.append_assoc, whole, Text.byteLength_append, Nat.add_assoc]
    · rw [whole]
      exact cut.lexeme found (by rwa [List.append_nil])

/-- A text that is not scanned to its end is cut into tokens up to where no lexeme is found. -/
theorem cut_of_fault {offset : Nat} {text : List Char} {fault : Fault}
    (scanned : scanFrom offset text = .error fault) :
    ∃ before first rest body, text = before ++ first :: rest ∧
      fault = ⟨.unrecognisedToken first.toString, .ofNat (offset + Text.byteLength before)⟩ ∧
      Cut (first :: rest) offset before body ∧ lexeme? first rest = none := by
  fun_induction scanFrom offset text with
  | case1 => cases scanned
  | case2 offset first rest missing =>
    cases scanned
    exact ⟨[], first, rest, [], rfl, rfl, .done, missing⟩
  | case3 offset first rest lexeme found ih =>
    have whole := exists_after_lexeme found
    cases inner : scanFrom (offset + Text.byteLength lexeme.text)
        (rest.drop (lexeme.text.length - 1)) with
    | error fault =>
      rw [inner] at scanned
      cases scanned
      obtain ⟨before, next, more, body, split, rfl, cut, missing⟩ := ih inner
      rw [split] at whole
      refine ⟨lexeme.text ++ before, next, more, (lexeme.token? offset).toList ++ body, ?_, ?_,
        cut.lexeme found whole, missing⟩
      · rw [whole, List.append_assoc]
      · rw [Text.byteLength_append, Nat.add_assoc]
    | ok after =>
      rw [inner] at scanned
      cases scanned

/-! ## Places of the pieces -/

/-- Whether a piece of a text stands between two offsets, and what comes after it. -/
def Spans (text : List Char) (start stop : Nat) (piece after : List Char) : Prop :=
  ∃ before, text = before ++ piece ++ after ∧ Text.byteLength before = start ∧
    Text.byteLength (before ++ piece) = stop

namespace Cut

variable {following text past : List Char} {offset : Nat} {tokens : List Token}

/-- Each token is the text of its span, of its kind, and as long as it can be. -/
theorem stands (cut : Cut following offset text tokens) (isOffset : Text.byteLength past = offset)
    (short : Text.byteLength (past ++ text) < UInt32.size) :
    ∀ token ∈ tokens, Writes token.kind token.value.toList ∧
      ∃ after, Spans (past ++ text) token.span.start.toNat token.span.stop.toNat
        token.value.toList after ∧ IsLongest token.value.toList (after ++ following) := by
  induction cut generalizing past with
  | done => exact List.forall_mem_nil _
  | gap _ _ ih =>
    rw [← List.append_assoc] at short ⊢
    exact ih (by rw [Text.byteLength_append, isOffset]) short
  | @token offset kind piece rest tokens writes longest _ ih =>
    rw [← List.append_assoc] at short ⊢
    have whole : Text.byteLength (past ++ piece) = offset + Text.byteLength piece := by
      rw [Text.byteLength_append, isOffset]
    rw [List.forall_mem_cons]
    refine ⟨?_, ih whole short⟩
    rw [Text.byteLength_append, whole] at short
    have start : (UInt32.ofNat offset).toNat = offset := UInt32.toNat_ofNat_of_lt' (by omega)
    have stop : (UInt32.ofNat (offset + Text.byteLength piece)).toNat =
        offset + Text.byteLength piece := UInt32.toNat_ofNat_of_lt' (by omega)
    dsimp only
    rw [String.toList_ofList, start, stop]
    exact ⟨writes, rest, ⟨past, rfl, isOffset, whole⟩, longest⟩

/-- Tokens do not start before the text that they are in. -/
theorem offset_le_start (cut : Cut following offset text tokens)
    (short : offset + Text.byteLength text < UInt32.size) :
    ∀ token ∈ tokens, offset ≤ token.span.start.toNat := by
  induction cut with
  | done => exact List.forall_mem_nil _
  | gap _ _ ih =>
    rw [Text.byteLength_append, ← Nat.add_assoc] at short
    intro token isMember
    have later := ih short token isMember
    omega
  | @token offset kind piece rest tokens _ _ _ ih =>
    rw [Text.byteLength_append, ← Nat.add_assoc] at short
    have start : (UInt32.ofNat offset).toNat = offset := UInt32.toNat_ofNat_of_lt' (by omega)
    rw [List.forall_mem_cons]
    refine ⟨Nat.le_of_eq start.symm, fun token isMember => ?_⟩
    have later := ih short token isMember
    omega

/-- The spans of tokens come in order and do not overlap. -/
theorem ordered (cut : Cut following offset text tokens)
    (short : offset + Text.byteLength text < UInt32.size) :
    tokens.Pairwise fun left right => left.span.stop ≤ right.span.start := by
  induction cut with
  | done => exact .nil
  | gap _ _ ih =>
    rw [Text.byteLength_append, ← Nat.add_assoc] at short
    exact ih short
  | @token offset kind piece rest tokens _ _ after ih =>
    rw [Text.byteLength_append, ← Nat.add_assoc] at short
    refine .cons ?_ (ih short)
    intro token isMember
    have stop : (UInt32.ofNat (offset + Text.byteLength piece)).toNat =
        offset + Text.byteLength piece := UInt32.toNat_ofNat_of_lt' (by omega)
    rw [UInt32.le_iff_toNat_le, stop]
    exact after.offset_le_start short token isMember

/-- Before the first token, between tokens and after the last one there is a gap. -/
theorem gaps (cut : Cut following offset text tokens) (isOffset : Text.byteLength past = offset)
    (short : Text.byteLength (past ++ text) < UInt32.size) :
    ∃ first later, (tokens.map fun token => token.span.start.toNat) ++
        [Text.byteLength (past ++ text)] = first :: later ∧
      (∃ gap after, text = gap ++ after ∧ Text.byteLength (past ++ gap) = first ∧
        IsGap (after ++ following) gap) ∧
      ∀ ends ∈ (tokens.map fun token => token.span.stop.toNat).zip later,
        ∃ gap after, Spans (past ++ text) ends.1 ends.2 gap after ∧
          IsGap (after ++ following) gap := by
  induction cut generalizing past with
  | done => exact ⟨_, [], rfl, ⟨[], [], rfl, rfl, .nil⟩, by simp⟩
  | @gap offset piece rest tokens isGap _ ih =>
    rw [← List.append_assoc] at short ⊢
    obtain ⟨first, later, starts, ⟨gap, after, rfl, ends, isGap'⟩, between⟩ :=
      ih (by rw [Text.byteLength_append, isOffset]) short
    refine ⟨first, later, starts, ⟨piece ++ gap, after, ?_, ?_, ?_⟩, between⟩
    · rw [List.append_assoc]
    · rw [← ends, List.append_assoc]
    · exact .append (by rwa [List.append_assoc] at isGap) isGap'
  | @token offset kind piece rest tokens writes longest _ ih =>
    rw [← List.append_assoc] at short ⊢
    have whole : Text.byteLength (past ++ piece) = offset + Text.byteLength piece := by
      rw [Text.byteLength_append, isOffset]
    obtain ⟨first, later, starts, ⟨gap, after, rfl, ends, isGap⟩, between⟩ := ih whole short
    rw [Text.byteLength_append, whole] at short
    have start : (UInt32.ofNat offset).toNat = offset := UInt32.toNat_ofNat_of_lt' (by omega)
    have stop : (UInt32.ofNat (offset + Text.byteLength piece)).toNat =
        offset + Text.byteLength piece := UInt32.toNat_ofNat_of_lt' (by omega)
    refine ⟨offset, first :: later, ?_, ⟨[], piece ++ (gap ++ after), rfl, ?_, .nil⟩, ?_⟩
    · rw [List.map_cons, List.cons_append, starts, start]
    · rw [List.append_nil, isOffset]
    · rw [List.map_cons, List.zip_cons_cons, List.forall_mem_cons, stop]
      refine ⟨⟨gap, after, ⟨past ++ piece, ?_, whole, ends⟩, isGap⟩, between⟩
      simp

end Cut

/-- How tokens split a text that something follows. -/
structure Splits (text following : List Char) (tokens : List Token) : Prop where
  /-- None of them is the end mark. -/
  noEnd : ∀ token ∈ tokens, token.kind ≠ .eof
  /-- Each has some text, of its kind. -/
  writes : ∀ token ∈ tokens, token.span.start < token.span.stop ∧
    Writes token.kind token.value.toList
  /-- Each has the kind of a keyword exactly when its whole text is that keyword. -/
  keyword : ∀ token ∈ tokens, ∀ keyword ∈ keywords,
    token.kind = keyword.1 ↔ token.value = keyword.2
  /-- Each is the text of its span, and what follows there makes no longer token of it. -/
  stands : ∀ token ∈ tokens, ∃ after, Spans text token.span.start.toNat token.span.stop.toNat
    token.value.toList after ∧ IsLongest token.value.toList (after ++ following)
  /-- They come in order and do not overlap. -/
  ordered : tokens.Pairwise fun left right => left.span.stop ≤ right.span.start
  /-- Before, between and after them there are gaps. -/
  gaps : ∀ ends ∈ (0 :: tokens.map fun token => token.span.stop.toNat).zip
      ((tokens.map fun token => token.span.start.toNat) ++ [Text.byteLength text]),
    ∃ gap after, Spans text ends.1 ends.2 gap after ∧ IsGap (after ++ following) gap

/-- A text that is cut into tokens is split by them. -/
theorem Cut.splits {text following : List Char} {tokens : List Token}
    (cut : Cut following 0 text tokens) (short : Text.byteLength text < UInt32.size) :
    Splits text following tokens := by
  have start : Text.byteLength [] = 0 := rfl
  have stands := cut.stands start short
  have short' : 0 + Text.byteLength text < UInt32.size := by rwa [Nat.zero_add]
  refine ⟨?_, ?_, ?_, ?_, cut.ordered short', ?_⟩
  · intro token isMember
    exact (stands token isMember).1.ne_eof
  · intro token isMember
    obtain ⟨writes, after, ⟨before, _, start, stop⟩, _⟩ := stands token isMember
    have some := byteLength_pos writes.ne_nil
    rw [Text.byteLength_append] at stop
    rw [UInt32.lt_iff_toNat_lt]
    exact ⟨by omega, writes⟩
  · intro token isMember
    have keyword := (stands token isMember).1.keyword_iff
    rwa [String.ofList_toList] at keyword
  · intro token isMember
    exact (stands token isMember).2
  · obtain ⟨first, later, starts, ⟨gap, after, whole, ends, isGap⟩, between⟩ :=
      cut.gaps start short
    rw [List.nil_append] at starts
    rw [starts, List.zip_cons_cons, List.forall_mem_cons]
    exact ⟨⟨gap, after, ⟨[], whole, rfl, ends⟩, isGap⟩, between⟩

/-! ## Sources -/

/-- Scanning a source splits it without loss. If it succeeds, the only end mark is the last token,
with an empty span at the end of the source, and the tokens before it split the source. If it fails,
it is refused at the first character of a rest in which nothing starts, and the source before that
is split in the same way. -/
theorem scan_splits (source : String) (short : Text.byteLength source.toList < UInt32.size) :
    (∀ tokens, scan source = .ok tokens → ∃ body last, tokens = body ++ [last] ∧
      last.kind = .eof ∧ last.span.start.toNat = Text.byteLength source.toList ∧
      last.span.stop = last.span.start ∧ Splits source.toList [] body) ∧
    ∀ fault, scan source = .error fault → ∃ before first rest body,
      source.toList = before ++ first :: rest ∧
      fault.cause = .unrecognisedToken first.toString ∧
      fault.offset.toNat = Text.byteLength before ∧ Splits before (first :: rest) body ∧
      StartsNothing (first :: rest) := by
  constructor
  · intro tokens scanned
    obtain ⟨body, rfl, cut⟩ := cut_of_scanFrom scanned
    rw [Nat.zero_add]
    exact ⟨body, _, rfl, rfl, UInt32.toNat_ofNat_of_lt' short, rfl, cut.splits short⟩
  · intro fault scanned
    obtain ⟨before, first, rest, body, whole, rfl, cut, missing⟩ := cut_of_fault scanned
    rw [whole, Text.byteLength_append] at short
    have short' : Text.byteLength before < UInt32.size := by omega
    rw [Nat.zero_add]
    exact ⟨before, first, rest, body, whole, rfl, UInt32.toNat_ofNat_of_lt' short',
      cut.splits short', startsNothing_of_lexeme? missing⟩

/-- A source with two kinds of comments, a wide blank, numbers beside dots and a word that only
starts with a keyword is split without loss. One with a comment that is not closed is refused at the
byte where the comment starts. -/
theorem scan_splits_commented :
    let source := "true1.x/* * **/ 1.5.y\u2003=>// end"
    let broken := "a\u00a0= /* b"
    Text.byteLength source.toList < UInt32.size ∧ Text.byteLength broken.toList < UInt32.size ∧
      (∃ body last, scan source = .ok (body ++ [last]) ∧
        (body.map fun token => token.value) = ["true1", ".", "x", "1.5", ".", "y", "=>"] ∧
        Splits source.toList [] body) ∧
      scan broken = .error ⟨.unrecognisedToken "/", 5⟩ ∧
      ∃ before first rest body, broken.toList = before ++ first :: rest ∧
        Text.byteLength before = 5 ∧ Splits before (first :: rest) body ∧
        StartsNothing (first :: rest) := by
  intro source broken
  have short : Text.byteLength source.toList < UInt32.size := by decide
  have short' : Text.byteLength broken.toList < UInt32.size := by decide
  have scanned : (scan source).toOption.map (fun tokens => tokens.map Token.value) =
      some ["true1", ".", "x", "1.5", ".", "y", "=>", "EOF"] := by decide +kernel
  have refused : scan broken = .error ⟨.unrecognisedToken "/", 5⟩ := by decide +kernel
  obtain ⟨before, first, rest, body, whole, _, isOffset, splits, nothing⟩ :=
    (scan_splits broken short').2 _ refused
  refine ⟨short, short', ?_, refused, before, first, rest, body, whole, isOffset.symm, splits,
    nothing⟩
  cases result : scan source with
  | error => simp [result, Except.toOption] at scanned
  | ok tokens =>
    obtain ⟨body, last, rfl, _, _, _, splits⟩ := (scan_splits source short).1 tokens result
    simp only [result, Except.toOption, Option.map_some, Option.some.injEq, List.map_append]
      at scanned
    exact ⟨body, last, rfl, List.append_inj_left' scanned rfl, splits⟩

end Equirec.Token
