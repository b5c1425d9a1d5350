import Equirec.Proofs.Departure
import Equirec.Proofs.Foresight

/-!
# Reading stays within the tokens

A list of tokens that ends in the mark of the end is read to a term or to a fault, and no token
outside the list is ever looked at. A stream that has given away some tokens of a list shows the
others, and the last one for ever after them (`TokenStream.Shows`); reading gives away no more than
there are. What is more, the last one is never shown again after it was given away: whatever tokens
follow the list, reading comes to the same.
-/
namespace Equirec

/-! ## Positions in a list -/

namespace TokenStream

/-- Whether a stream stands at a position of a list: every token that it shows is one of the list,
and so is the one that it gave away last. -/
structure Shows (tokens : List Token) (position : Nat) (stream : TokenStream) : Prop where
  /-- The position is in the list, or just after it. -/
  inside : position ≤ tokens.length
  /-- The tokens ahead, of which the last one is repeated. -/
  ahead : ∀ count, tokens[min (position + count) (tokens.length - 1)]? = some (stream.peek count)
  /-- At the first position nothing has been given away. -/
  start : position = 0 → stream.passed = 0
  /-- At any other position the token before it has. -/
  behind : ∀ previous, position = previous + 1 →
    ∃ token, tokens[previous]? = some token ∧ stream.passed = token.span.stop

/-- The tokens that are left after some were taken. -/
theorem upcoming_drop (stream : TokenStream) (count : Nat) :
    (stream.drop count).upcoming = stream.upcoming.drop count := by
  induction count generalizing stream with
  | zero => rfl
  | succ count ih =>
    rw [drop, ih, advance]
    split
    · rename_i empty
      rw [empty, List.drop_nil, List.drop_nil]
    · rename_i upcoming
      rw [upcoming, List.drop_succ_cons]

/-- The last token stays the last one. -/
theorem last_drop (stream : TokenStream) (count : Nat) :
    (stream.drop count).last = stream.last := by
  induction count generalizing stream with
  | zero => rfl
  | succ count ih =>
    rw [drop, ih, advance]
    split <;> rfl

/-- After some tokens were taken, the last of them ended where the stream remembers. -/
theorem passed_drop_succ (stream : TokenStream) {count : Nat} {token : Token}
    (isToken : stream.upcoming[count]? = some token) :
    (stream.drop (count + 1)).passed = token.span.stop := by
  have upcoming := stream.upcoming_drop count
  have last : stream.drop (count + 1) = (stream.drop count).advance := by
    rw [← drop_drop]
    rfl
  obtain ⟨inside, rfl⟩ := List.getElem?_eq_some_iff.1 isToken
  rw [List.drop_eq_getElem_cons inside] at upcoming
  rw [last, advance, upcoming]

/-- A stream that is made of a list stands at the position up to which tokens are taken. -/
theorem shows_drop {tokens : List Token} {stream : TokenStream}
    (made : ofTokens? tokens = some stream) {position : Nat} (inside : position ≤ tokens.length) :
    (stream.drop position).Shows tokens position := by
  obtain ⟨last, isLast, rfl⟩ := Option.map_eq_some_iff.1 made
  refine ⟨inside, fun count => ?_, ?_, ?_⟩
  · rw [peek, upcoming_drop, last_drop, List.getD_eq_getElem?_getD, List.getElem?_drop]
    dsimp only
    by_cases within : position + count < tokens.length
    · rw [Nat.min_eq_left (by omega), List.getElem?_eq_getElem within]
      rfl
    · rw [Nat.min_eq_right (by omega), ← List.getLast?_eq_getElem?, isLast,
        List.getElem?_eq_none (Nat.not_lt.1 within)]
      rfl
  · rintro rfl
    rfl
  · rintro previous rfl
    refine ⟨tokens[previous], List.getElem?_eq_getElem inside, ?_⟩
    exact passed_drop_succ _ (List.getElem?_eq_getElem inside)

/-- Where tokens other than the mark of the end are taken off a list that ends in it, some are left.
-/
theorem Leads.exists_lt {tokens : List Token} {stream after : TokenStream}
    (made : ofTokens? tokens = some stream) (isEnd : stream.last.kind = .eof)
    (leads : stream.Leads after) : ∃ taken < tokens.length, after = stream.drop taken := by
  obtain ⟨taken, rfl, noEnd⟩ := leads
  refine ⟨taken, ?_, rfl⟩
  obtain ⟨last, isLast, rfl⟩ := Option.map_eq_some_iff.1 made
  have some := List.length_pos_of_ne_nil (List.ne_nil_of_mem (List.mem_of_getLast? isLast))
  by_contra tooMany
  -- The last token would have been taken, and it is the mark of the end.
  apply noEnd (tokens.length - 1) (by omega)
  have shown := (shows_drop made (Nat.sub_le tokens.length 1)).ahead 0
  rw [Nat.add_zero, Nat.min_self, ← List.getLast?_eq_getElem?, isLast] at shown
  rw [current, ← Option.some.inj shown]
  exact isEnd

end TokenStream

/-! ## Programs -/

namespace Parse

variable {fuel fuel' : Nat} {before after : Parser}

/-- After a sequence that is a whole program the mark of the end is taken, or the token that stands
there is refused. -/
theorem run_readProgram_of_ok {term : Term}
    (ended : (readSequence .standard fuel .source).run.run before = (.ok term, after)) :
    (readProgram .standard fuel).run.run before =
      if after.stream.current.kind = .eof then (.ok term, after.advanced)
      else (.error (.fault ⟨.unexpectedToken after.stream.current.value,
        after.stream.current.span.start⟩), after) := by
  have goesOn : (readProgram .standard fuel).run.run before =
      (expect .eof >>= fun _ => pure term).run.run after := run_bind_of_ok ended
  have asked := run_takeOr .eof unexpected after
  rw [goesOn]
  split
  · rename_i isEnd
    rw [if_pos isEnd] at asked
    exact run_bind_of_ok asked
  · rename_i more
    rw [if_neg more] at asked
    exact run_bind_of_error asked

/-- A sequence that is not read is no program. -/
theorem run_readProgram_of_error {stop : Stop Fault}
    (ended : (readSequence .standard fuel .source).run.run before = (.error stop, after)) :
    (readProgram .standard fuel).run.run before = (.error stop, after) :=
  run_bind_of_error ended

/-- Two parsers that share their tokens up to a rest read the same program, if reading the sequence
leaves some of these tokens on the one and does not use up its allowance on the other. -/
theorem readProgram_eq_of_shares {more : List Token} {left right : Parser}
    {result : Except (Stop Fault) Term} (shares : left.Shares [] more right)
    (ended : (readSequence .standard fuel .source).run.run left = (result, after))
    (finished : result ≠ .error .exhausted) (some : after.stream.upcoming ≠ [])
    (finished' : ((readSequence .standard fuel' .source).run.run right).1 ≠ .error .exhausted) :
    ((readProgram .standard fuel').run.run right).1 =
      ((readProgram .standard fuel).run.run left).1 := by
  have within : ([] : List Token).length < after.stream.upcoming.length :=
    List.length_pos_of_ne_nil some
  have mirrors := ((followsTerms [] more fuel).sequence .source left fuel').mirrors right shares
  have mirrored : Mirrors [] more (readSequence .standard fuel' .source) right result after := by
    cases result with
    | ok term => exact mirrors.gives term after ended within
    | error stop =>
      cases stop with
      | fault fault => exact mirrors.refuses fault after ended within
      | exhausted => exact absurd rfl finished
  obtain ⟨stopped, ended'⟩ | ⟨after', ended', shares'⟩ := mirrored
  · rw [ended'] at finished'
    exact absurd rfl finished'
  · cases result with
    | ok term =>
      rw [run_readProgram_of_ok ended, run_readProgram_of_ok ended', shares'.current_eq]
      split <;> rfl
    | error stop => rw [run_readProgram_of_error ended, run_readProgram_of_error ended']

/-- A stream that ends in the mark of the end never uses up the allowance of its parser. -/
theorem readSequence_ne_exhausted {stream : TokenStream} (isEnd : stream.last.kind = .eof)
    (enough : 16 * (stream.upcoming.length + 4) ≤ fuel) :
    ((readSequence .standard fuel .source).run.run { stream }).1 ≠ .error .exhausted := by
  have affords : Parser.Affords { stream } False fuel 5 := by
    refine .inr ⟨isEnd, ?_⟩
    dsimp only
    omega
  exact ((readTerms Grammar.standard_stopsAtEnd False fuel).sequence .source affords).ne_exhausted

/-- A sequence that is read off a list of tokens, or refused, leaves some of them. -/
theorem exists_run_readSequence {tokens : List Token} {stream : TokenStream}
    (made : TokenStream.ofTokens? tokens = some stream) (isEnd : stream.last.kind = .eof)
    (enough : 16 * (tokens.length + 4) ≤ fuel) :
    ∃ result taken scope, (readSequence .standard fuel .source).run.run { stream } =
        (result, { stream := stream.drop taken, scope }) ∧
      result ≠ .error .exhausted ∧ taken < tokens.length := by
  have upcoming : stream.upcoming = tokens := by
    obtain ⟨last, -, rfl⟩ := Option.map_eq_some_iff.1 made
    rfl
  rw [← upcoming] at enough
  have finished := readSequence_ne_exhausted isEnd enough
  have departs := (departTerms fuel).sequence .source { stream }
  rcases ended : (readSequence .standard fuel .source).run.run { stream } with ⟨result, after⟩
  rw [ended] at finished
  have leads : stream.Leads after.stream := by
    cases result with
    | ok term => exact (departs.gives term after ended).stream
    | error stop =>
      cases stop with
      | fault fault => exact (departs.refuses fault after ended).stream
      | exhausted => exact absurd rfl finished
  obtain ⟨taken, inside, isDropped⟩ := leads.exists_lt made isEnd
  refine ⟨result, taken, after.scope, ?_, finished, inside⟩
  rw [← isDropped]

/-- A program is read off a list of tokens, or refused, and no more than these tokens are taken. -/
theorem exists_run_readProgram {tokens : List Token} {stream : TokenStream}
    (made : TokenStream.ofTokens? tokens = some stream) (isEnd : stream.last.kind = .eof)
    (enough : 16 * (tokens.length + 4) ≤ fuel) :
    ∃ (outcome : Except Fault Term) (taken : Nat) (scope : Scope),
      (readProgram .standard fuel).run.run { stream } =
        (outcome.mapError .fault, { stream := stream.drop taken, scope }) ∧
      taken ≤ tokens.length := by
  obtain ⟨result, taken, scope, ended, finished, inside⟩ :=
    exists_run_readSequence made isEnd enough
  cases result with
  | ok term =>
    have program := run_readProgram_of_ok ended
    split at program
    · refine ⟨.ok term, taken + 1, scope, ?_, inside⟩
      rw [program, ← TokenStream.drop_drop]
      rfl
    · exact ⟨.error _, taken, scope, program, inside.le⟩
  | error stop =>
    have program := run_readProgram_of_error ended
    cases stop with
    | fault fault => exact ⟨.error fault, taken, scope, program, inside.le⟩
    | exhausted => exact absurd rfl finished

/-- Whatever follows a list of tokens that ends in the mark of the end, and whatever allowance is
enough for it, the list is read as the same program. -/
theorem readProgram_eq_of_isPrefix {tokens longer : List Token} {stream stream' : TokenStream}
    (made : TokenStream.ofTokens? tokens = some stream) (isEnd : stream.last.kind = .eof)
    (made' : TokenStream.ofTokens? longer = some stream') (isEnd' : stream'.last.kind = .eof)
    (isPrefix : tokens <+: longer) (enough : 16 * (tokens.length + 4) ≤ fuel)
    (enough' : 16 * (longer.length + 4) ≤ fuel') :
    ((readProgram .standard fuel').run.run { stream := stream' }).1 =
      ((readProgram .standard fuel).run.run { stream }).1 := by
  obtain ⟨result, taken, scope, ended, finished, inside⟩ :=
    exists_run_readSequence made isEnd enough
  obtain ⟨_, _, _, ended', finished', _⟩ := exists_run_readSequence made' isEnd' enough'
  obtain ⟨last, isLast, rfl⟩ := Option.map_eq_some_iff.1 made
  obtain ⟨last', isLast', rfl⟩ := Option.map_eq_some_iff.1 made'
  obtain ⟨more, rfl⟩ := isPrefix
  obtain ⟨first, shared, rfl⟩ := List.exists_cons_of_ne_nil
    (List.ne_nil_of_mem (List.mem_of_getLast? isLast))
  have shares : Parser.Shares [] more { stream := ⟨first :: shared, last, 0⟩ }
      { stream := ⟨first :: shared ++ more, last', 0⟩ } :=
    ⟨⟨first, shared, by rw [List.append_nil], rfl⟩, rfl, rfl⟩
  refine readProgram_eq_of_shares shares ended finished ?_ (by rw [ended']; exact finished')
  rw [TokenStream.upcoming_drop]
  exact List.drop_eq_nil_iff.not.2 (Nat.not_le.2 inside)

end Parse

namespace Term

/-- A list of tokens whose last one is the mark of the end is read to a term or to a fault, which no
larger allowance changes. On the way the stream stands at positions of the list only, so that every
token that is looked at is one of the list. Indeed nothing that follows the list makes a difference.
-/
theorem ofTokens_within {tokens : List Token} {last : Token} (isLast : tokens.getLast? = some last)
    (isEnd : last.kind = .eof) :
    ∃ (stream : TokenStream) (outcome : Except Fault Term) (taken : Nat) (scope : Scope),
      TokenStream.ofTokens? tokens = some stream ∧
      Parser.perform { stream } (Parse.readProgram .standard) =
        (outcome.mapError .fault, { stream := stream.drop taken, scope }) ∧
      taken ≤ tokens.length ∧
      (∀ position ≤ taken, (stream.drop position).Shows tokens position) ∧
      ofTokens tokens = outcome.mapError .fault ∧
      (∀ fuel, 16 * (tokens.length + 4) ≤ fuel →
        ((Parse.readProgram .standard fuel).run.run { stream }).1 = ofTokens tokens) ∧
      ∀ longer, tokens <+: longer → (∀ final ∈ longer.getLast?, final.kind = .eof) →
        ofTokens longer = ofTokens tokens := by
  have made : TokenStream.ofTokens? tokens = some { upcoming := tokens, last } := by
    rw [TokenStream.ofTokens?, isLast]
    rfl
  obtain ⟨outcome, taken, scope, ended, inside⟩ :=
    Parse.exists_run_readProgram made isEnd (Nat.le_refl _)
  refine ⟨_, outcome, taken, scope, made, ended, inside, ?_, ?_, ?_, ?_⟩
  · exact fun position early => TokenStream.shows_drop made (early.trans inside)
  · rw [ofTokens_eq isLast, ended]
  · intro fuel enough
    rw [ofTokens_eq isLast]
    exact Parse.readProgram_eq_of_isPrefix made isEnd made isEnd List.prefix_rfl (Nat.le_refl _)
      enough
  · intro longer isPrefix isEnd'
    cases isFinal : longer.getLast? with
    | none =>
      rw [List.getLast?_eq_none_iff.1 isFinal, List.prefix_nil] at isPrefix
      rw [isPrefix] at isLast
      cases isLast
    | some final =>
      have made' : TokenStream.ofTokens? longer = some { upcoming := longer, last := final } := by
        rw [TokenStream.ofTokens?, isFinal]
        rfl
      rw [ofTokens_eq isLast, ofTokens_eq isFinal]
      exact Parse.readProgram_eq_of_isPrefix made isEnd made' (isEnd' final isFinal) isPrefix
        (Nat.le_refl _) (Nat.le_refl _)

/-- Tokens with a mark of the end among them, of which some would make a parenthesis that of an
arrow function if they were looked at. -/
def endedEarly : List Token :=
  [.bare .openParen "(", .bare .identifier "x", .bare .eof "EOF", .bare .colon ":",
    .bare .closeParen ")", .bare .eof "EOF"]

/-- The tokens are refused, and for the same reason if an arrow and another mark of the end are put
after them. -/
theorem ofTokens_within_endedEarly :
    endedEarly.getLast? = some (.bare .eof "EOF") ∧ (Token.bare .eof "EOF").kind = .eof ∧
      ∃ fault, ofTokens endedEarly = .error (.fault fault) ∧
        ofTokens (endedEarly ++ [.bare .arrow "=>", .bare .eof "EOF"]) =
          .error (.fault fault) := by
  refine ⟨rfl, rfl, ?_⟩
  obtain ⟨_, _, _, _, _, _, _, _, _, _, longer⟩ :=
    ofTokens_within (rfl : endedEarly.getLast? = some (.bare .eof "EOF")) rfl
  have refused : ofTokens endedEarly = .error (.fault ⟨.unexpectedToken "EOF", 0⟩) := rfl
  refine ⟨_, refused, ?_⟩
  rw [← refused]
  exact longer _ (List.prefix_append _ _) (by decide)

end Term

end Equirec
