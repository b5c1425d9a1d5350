import Equirec.Checker
import Equirec.Proofs.Settling

/-!
# Comparisons that never end

An object that lists a property name twice need not be alike to itself. A recursive type with such
an object in it may be met again and again while it is compared, and the assumption about it never
helps. When all pairs of a round lead to pairs of the round and no assumption that is made on the
way covers any of them, the comparison has no run at all (`GoesRound.not_settles`), and what asks
for it has no answer.
-/
namespace Equirec

namespace Comparison

/-- A round of pairs, with the assumptions that are made on it. -/
structure GoesRound (comparison : Comparison) (round : Ty → Ty → Prop)
    (assumed : List (Ty × Ty)) : Prop where
  /-- No assumption covers a pair of the round. -/
  uncovered : ∀ {left right}, round left right → ¬ Covered assumed left right
  /-- A pair that is unfolded is one of the assumptions, and goes on in the round. -/
  unfolds : ∀ {left right left' right'}, round left right →
    unfoldPair? left right = some (left', right') → (left, right) ∈ assumed ∧ round left' right'
  /-- What the layer of any other pair asks first is in the round. -/
  asks : ∀ {left right}, round left right → unfoldPair? left right = none →
    ∃ left' right' goals, comparison.layer left right = .compare left' right' :: goals ∧
      round left' right'

/-- Fewer assumptions cover fewer pairs. -/
theorem covered_mono {assumptions assumed : List (Ty × Ty)} (fewer : assumptions ⊆ assumed)
    {left right : Ty} (covered : Covered assumptions left right) : Covered assumed left right := by
  obtain ⟨assumption, isMember, alike⟩ := covered
  exact ⟨assumption, fewer isMember, alike⟩

/-- A comparison that has come into a round has no run. -/
theorem GoesRound.not_settles {comparison : Comparison} {round : Ty → Ty → Prop}
    {assumed : List (Ty × Ty)} (goesRound : comparison.GoesRound round assumed)
    {goals : List Goal} {assumptions final : List (Ty × Ty)} {answer : Bool}
    (run : comparison.Settles goals assumptions answer final) (fewer : assumptions ⊆ assumed)
    {left right : Ty} {rest : List Goal} (first : goals = .compare left right :: rest)
    (inside : round left right) : False := by
  -- Along the run the first goal stays in the round, so the run cannot come to its end.
  induction run generalizing left right rest with
  | done => cases first
  | clash => cases first
  | assumed covered _ _ =>
    cases first
    exact goesRound.uncovered inside (covered_mono fewer covered)
  | unfold _ unfolds _ ih =>
    cases first
    obtain ⟨isAssumed, inside'⟩ := goesRound.unfolds inside unfolds
    apply ih _ rfl inside'
    intro pair isMember
    rcases List.mem_insert_iff.1 isMember with rfl | isMember
    · exact isAssumed
    · exact fewer isMember
  | layer _ bare _ ih =>
    cases first
    obtain ⟨left', right', goals, asked, inside'⟩ := goesRound.asks inside bare
    rw [asked, List.cons_append] at ih
    exact ih fewer rfl inside'

/-- A comparison that starts in a round has no answer. -/
theorem GoesRound.endless {comparison : Comparison} {round : Ty → Ty → Prop}
    {assumed : List (Ty × Ty)} (goesRound : comparison.GoesRound round assumed) {left right : Ty}
    (inside : round left right) : (comparison.judge left right).verdict = .endless := by
  by_contra answered
  have run := comparison.settles_of_settle _ _ _ answered
  exact goesRound.not_settles run (List.nil_subset _) rfl inside

end Comparison

/-! ## A recursive object with a repeated name -/

namespace Ty

/-- A type inside so many objects. -/
def nested : Nat → Ty → Ty
  | 0, type => type
  | depth + 1, type => .object [("a", nested depth type)]

/-- An object that lists a name twice: first for a type inside so many objects, then for a number.
-/
def doubled (depth : Nat) (type : Ty) : Ty :=
  .object [("a", nested depth type), ("a", .number)]

/-- A recursive object that lists a name twice and has itself under it, inside so many objects. -/
def repeating (depth : Nat) : Ty :=
  .mu "A" (doubled depth (.var "A"))

/-- Substitution goes into objects. -/
theorem subst_nested (depth : Nat) (type : Ty) (name : String) (replacement : Ty) :
    (nested depth type).subst name replacement = nested depth (type.subst name replacement) := by
  induction depth with
  | zero => rfl
  | succ depth ih => simp [nested, subst, ih]

/-- The recursive object unfolded. -/
theorem unfolded_repeating (depth : Nat) :
    unfolded "A" (doubled depth (.var "A")) = doubled depth (repeating depth) := by
  simp [unfolded, doubled, subst, subst_nested, repeating]

/-- An object whose second property of a name is a number, while its first one is not, is not alike
to itself. -/
theorem not_alikeUnder_doubled (binders : List (String × String)) (depth : Nat) {type : Ty}
    (differs : type ≠ .number) :
    alikeUnder binders (doubled depth type) (doubled depth type) = false := by
  rw [Bool.eq_false_iff]
  intro alike
  rw [doubled, alikeUnder_object] at alike
  obtain ⟨found, isFound, same⟩ := alike.2 ("a", .number) (.tail _ (.head _))
  cases isFound
  cases depth with
  | zero => cases type <;> simp [nested, alikeUnder] at same differs
  | succ depth => simp [nested, alikeUnder] at same

/-- The pairs that are met when the recursive object is compared with itself. -/
inductive Round (depth : Nat) : Ty → Ty → Prop where
  /-- The object inside other objects, or alone. -/
  | inside (above : Nat) :
    Round depth (nested above (repeating depth)) (nested above (repeating depth))
  /-- The object with its first side unfolded. -/
  | half : Round depth (doubled depth (repeating depth)) (repeating depth)
  /-- The object with both sides unfolded. -/
  | whole : Round depth (doubled depth (repeating depth)) (doubled depth (repeating depth))

/-- No type of the round is alike to the recursive object or to its unfolding. -/
theorem Round.not_alike {depth : Nat} {left right : Ty} (round : Round depth left right) :
    left.alike (repeating depth) = false ∧
      left.alike (doubled depth (repeating depth)) = false := by
  have differs : repeating depth ≠ .number := by simp [repeating]
  have object := not_alikeUnder_doubled [] depth differs
  cases round with
  | inside above =>
    cases above with
    | zero =>
      have different : Ty.var "A" ≠ .number := by simp
      have body := not_alikeUnder_doubled [("A", "A")] depth different
      exact ⟨body, by simp [nested, alike, repeating, doubled, alikeUnder]⟩
    | succ above => simp [nested, alike, repeating, doubled, alikeUnder]
  | half => exact ⟨by simp [alike, repeating, doubled, alikeUnder], object⟩
  | whole => exact ⟨by simp [alike, repeating, doubled, alikeUnder], object⟩

/-- Equality goes round on the recursive object. -/
theorem goesRound_repeating (depth : Nat) :
    Comparison.equality.GoesRound (Round depth)
      [(repeating depth, repeating depth), (doubled depth (repeating depth), repeating depth)] where
  uncovered := by
    rintro left right round ⟨assumption, isMember, alike, _⟩
    have different := round.not_alike
    simp only [List.mem_cons, List.not_mem_nil, or_false] at isMember
    rcases isMember with rfl | rfl
    · rw [different.1] at alike
      cases alike
    · rw [different.2] at alike
      cases alike
  unfolds := by
    intro left right left' right' round unfolds
    cases round with
    | inside above =>
      cases above with
      | zero =>
        cases unfolds
        rw [unfolded_repeating]
        exact ⟨.head _, .half⟩
      | succ above => cases unfolds
    | half =>
      cases unfolds
      rw [unfolded_repeating]
      exact ⟨.tail _ (.head _), .whole⟩
    | whole => cases unfolds
  asks := by
    intro left right round bare
    cases round with
    | inside above =>
      cases above with
      | zero => cases bare
      | succ above => exact ⟨_, _, [], rfl, .inside above⟩
    | half => cases bare
    | whole =>
      exact ⟨_, _, [.compare .number (nested depth (repeating depth))], rfl, .inside depth⟩

/-- The recursive object is compared with itself without end. -/
theorem not_settles_repeating (depth : Nat) (answer : Bool) (final : List (Ty × Ty)) :
    ¬ Comparison.equality.Settles [.compare (repeating depth) (repeating depth)] [] answer
      final := by
  intro run
  exact (goesRound_repeating depth).not_settles run (List.nil_subset _) rfl (.inside 0)

/-- So comparing it with itself has no answer. -/
theorem endless_repeating (depth : Nat) :
    (Comparison.equality.judge (repeating depth) (repeating depth)).verdict = .endless :=
  (goesRound_repeating depth).endless (.inside 0)

end Ty

/-! ## A program without an answer -/

/-- What a function that returns the value of a name declares, with the name. -/
def Term.returned? : Term → Option (List (String × Ty) × Option Ty × String)
  | .function _ parameters declared (.reference _ name) => some (parameters, declared, name)
  | _ => none

/-- A term that shows a declaration and a name is a function that returns the value of the name. -/
theorem Term.eq_of_returned? {term : Term} {parameters : List (String × Ty)} {declared : Option Ty}
    {name : String} (shown : term.returned? = some (parameters, declared, name)) :
    ∃ span span', term = .function span parameters declared (.reference span' name) := by
  unfold returned? at shown
  split at shown
  · cases shown
    exact ⟨_, _, rfl⟩
  · cases shown

/-- A function that returns its argument, as declared, is checked by comparing the type of the
argument with itself. -/
theorem Checker.typeOf_endless {type : Ty}
    (endless : (Comparison.equality.judge type type).verdict = .endless) (span span' : Span)
    (environment : Environment) :
    (Checker.typeOf { variant := .recursive } (.function span [("x", type)] (some type)
      (.reference span' "x")) environment).result = .error .exhausted := by
  have compared : (Check.compare .equality type type environment).result = .error .exhausted := by
    simp only [Check.compare, endless]
  have admitted : admitType { variant := .recursive } span.start type = pure () := by
    simp [admitType, Variant.hasRecursiveTypes, Variant.hasObjects]
  have refused : (expectResult (.reference span' "x") type type environment).result =
      .error .exhausted := by
    rw [expectResult, Check.bind_of_error compared]
  have body : (Check.withBindings [("x", type)] (typeOf { variant := .recursive }
      (.reference span' "x")) environment).result = .ok type := by
    rw [typeOf]
    rfl
  have checked : typeOf { variant := .recursive } (.function span [("x", type)] (some type)
      (.reference span' "x")) =
        Check.withBindings [("x", type)] (typeOf { variant := .recursive }
          (.reference span' "x")) >>= fun bodyType =>
            expectResult (.reference span' "x") type bodyType >>= fun _ =>
              pure (.function [("x", type)] type) := by
    conv_lhs => rw [typeOf]
    have passed : (some type).forM (admitType { variant := .recursive } span.start) = pure () :=
      admitted
    simp only [admitParameters, admitted, passed, if_true]
    rfl
  rw [checked, Check.bind_of_ok body]
  exact congrArg Outcome.result (Check.bind_of_error refused)

end Equirec
