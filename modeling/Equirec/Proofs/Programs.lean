import Equirec.Proofs.Confinement
import Equirec.Proofs.Decision
import Equirec.Proofs.Endless
import Equirec.Proofs.Scanning
import Equirec.Proofs.Simplifying
import Equirec.Proofs.WrittenTerms
import Equirec.Source

/-!
# Programs as text, checked

A source is scanned to the mark of its end, read to its end and checked. Its annotations are proper
types, so all types that the check makes are proper (`Source.proper_of_type`), and as long as no
recursive type lists a property name twice, every comparison comes to an answer: the program has a
type or a fault (`Source.type_ne_exhausted`). Without repeated names the types of programs are
compared as an equality should be.
-/
namespace Equirec

/-! ## Kinds of types that a check does not leave -/

/-- A check of a program with proper annotations does not leave the proper types. -/
theorem Ty.Proper.confinement : Confinement Ty.Proper (fun _ => True) (fun _ => True) where
  number := ⟨rfl, rfl⟩
  boolean := ⟨rfl, rfl⟩
  function := .function
  object _ := .object
  part := .part
  unfolded := .unfolded
  fault _ _ := trivial
  endless _ _ _ _ := trivial

/-- A check of a program with tame annotations does not leave the tame types, so that all its
comparisons come to an answer. -/
theorem Ty.Tame.confinement : Confinement Ty.Tame (fun _ => True) (· ≠ .exhausted) where
  number := .of_not_isRecursive rfl
  boolean := .of_not_isRecursive rfl
  function := .function
  object _ := .object
  part := .part
  unfolded := .unfolded
  fault _ _ := fun impossible => nomatch impossible
  endless isChecked tame tame' endless := absurd endless (isChecked.answers tame tame')

/-- A computation whose faults are labelled is cut short only if it was before. -/
theorem Stop.eq_exhausted_of_mapError {α ε ε' : Type} {change : ε → ε'}
    {result : Except (Stop ε) α}
    (ended : result.mapError (Stop.map change) = .error .exhausted) :
    result = .error .exhausted := by
  cases result with
  | ok => cases ended
  | error stop =>
    cases stop with
    | fault => cases ended
    | exhausted => rfl

/-- A computation whose faults are labelled gives the value that it gave before. -/
theorem Stop.eq_ok_of_mapError {α ε ε' : Type} {change : ε → ε'} {result : Except (Stop ε) α}
    {value : α} (ended : result.mapError (Stop.map change) = .ok value) : result = .ok value := by
  cases result with
  | ok =>
    cases ended
    rfl
  | error => cases ended

/-- A computation that is not cut short gives a value or a fault. -/
theorem Stop.ok_or_fault {α ε : Type} {result : Except (Stop ε) α}
    (ended : result ≠ .error .exhausted) :
    (∃ value, result = .ok value) ∨ ∃ error, result = .error (.fault error) := by
  cases result with
  | ok value => exact .inl ⟨value, rfl⟩
  | error stop =>
    cases stop with
    | fault error => exact .inr ⟨error, rfl⟩
    | exhausted => exact absurd rfl ended

namespace Source

variable {source : Source} {variant : Variant} {term : Term} {type : Ty}

/-- A source that can be scanned is read from its tokens. -/
theorem term_of_scan {tokens : List Token} (scanned : Token.scan source.text = .ok tokens) :
    source.term = (Term.ofTokens tokens).mapError (Stop.map (·.within source.label)) := by
  rw [term, Source.tokens, scanned]
  rfl

/-- A source that cannot be scanned has a fault. -/
theorem term_of_fault {fault : Fault} (scanned : Token.scan source.text = .error fault) :
    source.term = .error (.fault (fault.within source.label)) := by
  rw [term, tokens, scanned]
  rfl

/-- The type of a source that can be read is that of its term. -/
theorem type_of_term (read : source.term = .ok term) :
    source.type variant = ((Checker.typeOf { variant } term {}).result.mapError
      (Stop.map (·.within source.label))) := by
  rw [Source.type, read]
  rfl

/-- Every source is read to its end or to a fault. -/
theorem term_ne_exhausted (source : Source) : source.term ≠ .error .exhausted := by
  intro exhausted
  cases scanned : Token.scan source.text with
  | error fault =>
    rw [term_of_fault scanned] at exhausted
    cases exhausted
  | ok tokens =>
    rw [term_of_scan scanned] at exhausted
    obtain ⟨body, rfl, _⟩ := Token.cut_of_scanFrom scanned
    apply Term.ofTokens_ne_exhausted _ (Stop.eq_exhausted_of_mapError exhausted)
    intro last found
    rw [List.getLast?_concat] at found
    cases found
    rfl

/-- The annotations of a program are proper types. -/
theorem proper_of_term (read : source.term = .ok term) :
    ∀ type ∈ term.annotations, type.Proper := by
  cases scanned : Token.scan source.text with
  | error fault =>
    rw [term_of_fault scanned] at read
    cases read
  | ok tokens =>
    rw [term_of_scan scanned] at read
    exact Term.proper_of_ofTokens (Stop.eq_ok_of_mapError read)

/-- The type of a program is proper. -/
theorem proper_of_type (typed : source.type variant = .ok type) : type.Proper := by
  cases read : source.term with
  | error stop =>
    rw [Source.type, read] at typed
    cases typed
  | ok term =>
    rw [type_of_term read] at typed
    have proper := proper_of_term read
    have checked : Checker.Confined { variant } Ty.Proper (fun _ => True) term :=
      (Checker.confined Ty.Proper.confinement term (fun annotated isMember _ =>
        proper annotated isMember) fun _ _ _ => trivial).1
    have meets := checked {} (Environment.within_empty _)
    exact (meets.ensures type (Stop.eq_ok_of_mapError typed)).1

/-- Annotations that a language admits are tame, if in a language with recursive types none of these
lists a property name twice. -/
theorem tame_of_admits (read : source.term = .ok term)
    (distinct : variant.hasRecursiveTypes = true →
      ∀ annotated ∈ term.annotations, annotated.hasDistinctRecursion = true)
    {annotated : Ty} (isMember : annotated ∈ term.annotations)
    (admitted : Checker.Admits { variant } annotated) : annotated.Tame := by
  cases recursive : variant.hasRecursiveTypes with
  | true => exact ⟨proper_of_term read annotated isMember, distinct recursive annotated isMember⟩
  | false =>
    apply Ty.Tame.of_not_isRecursive
    rw [Bool.eq_false_iff]
    intro isRecursive
    have has := admitted.1 isRecursive
    rw [recursive] at has
    cases has

/-- A program whose recursive types list no property name twice is checked to its end. -/
theorem type_ne_exhausted
    (distinct : variant.hasRecursiveTypes = true → ∀ term, source.term = .ok term →
      ∀ annotated ∈ term.annotations, annotated.hasDistinctRecursion = true) :
    source.type variant ≠ .error .exhausted := by
  intro exhausted
  cases read : source.term with
  | error stop =>
    rw [Source.type, read] at exhausted
    cases exhausted
    exact source.term_ne_exhausted read
  | ok term =>
    rw [type_of_term read] at exhausted
    have tame : ∀ annotated ∈ term.annotations, Checker.Admits { variant } annotated →
        annotated.Tame := fun _ isMember =>
      tame_of_admits read (fun recursive => distinct recursive term read) isMember
    have checked : Checker.Confined { variant } Ty.Tame (· ≠ .exhausted) term :=
      (Checker.confined Ty.Tame.confinement term tame fun _ _ _ => trivial).1
    have meets := checked {} (Environment.within_empty _)
    exact meets.stopped _ (Stop.eq_exhausted_of_mapError exhausted) rfl

/-- Every source is read to a term or a fault, and simplifying a type always ends. In every language
the check of a program ends with a type or a fault, as long as in a language with recursive types no
recursive type of its annotations lists a property name twice. -/
theorem type_ends (source : Source) (variant : Variant) :
    ((∃ term, source.term = .ok term) ∨
      ∃ diagnostic, source.term = .error (.fault diagnostic)) ∧
    (∀ type, Ty.Simplifies [] type type.simplify) ∧
    ((variant.hasRecursiveTypes = true → ∀ term, source.term = .ok term →
        ∀ annotated ∈ term.annotations, annotated.hasDistinctRecursion = true) →
      (∃ type, source.type variant = .ok type) ∨
        ∃ diagnostic, source.type variant = .error (.fault diagnostic)) := by
  refine ⟨Stop.ok_or_fault source.term_ne_exhausted, Ty.simplifies_simplify, ?_⟩
  intro distinct
  exact Stop.ok_or_fault (type_ne_exhausted distinct)

/-- A program with a recursive type, and with an object type beside it that lists a name twice, is
checked to a type or a fault. -/
theorem type_ends_beside_repeated_name :
    let source : Source :=
      { text := "type S = \x7b head: number; rest: () => S \x7d; " ++
          "(p: \x7b a: S; a: number \x7d): S => p.a.rest()" }
    (source.term.toOption.any fun term => term.annotations.all Ty.hasDistinctRecursion) = true ∧
      ((∃ type, source.type .recursive = .ok type) ∨
        ∃ diagnostic, source.type .recursive = .error (.fault diagnostic)) := by
  intro source
  have distinct : (source.term.toOption.any fun term =>
      term.annotations.all Ty.hasDistinctRecursion) = true := by decide +kernel
  refine ⟨distinct, (type_ends source .recursive).2.2 ?_⟩
  intro _ term read annotated isMember
  rw [read] at distinct
  simp only [Except.toOption, Option.any_some, List.all_eq_true] at distinct
  exact distinct annotated isMember

/-- The text of a program that is never checked to its end: its type lists a name twice and has
itself under the first, inside sixteen objects. -/
def endless : Source where
  text := "type A = \x7b a: \x7b a: \x7b a: \x7b a: \x7b a: \x7b a: \x7b a: \x7b a: \x7b a: " ++
    "\x7b a: \x7b a: \x7b a: \x7b a: \x7b a: \x7b a: \x7b a: \x7b a: A " ++
    "\x7d \x7d \x7d \x7d \x7d \x7d \x7d \x7d \x7d \x7d \x7d \x7d \x7d \x7d \x7d \x7d" ++
    "; a: number \x7d; (x: A): A => x"

set_option maxRecDepth 4000 in
/-- Checking this program compares its type with itself, and that comparison has no run: the program
has neither a type nor a fault. -/
theorem type_endless :
    (∃ span span', endless.term = .ok (.function span [("x", .repeating 16)] (some (.repeating 16))
      (.reference span' "x"))) ∧
    (∀ answer final, ¬ Comparison.equality.Settles
      [.compare (.repeating 16) (.repeating 16)] [] answer final) ∧
    endless.type .recursive = .error .exhausted := by
  have shown : endless.term.toOption.bind Term.returned? =
      some ([("x", .repeating 16)], some (.repeating 16), "x") := by decide +kernel
  obtain ⟨span, span', read⟩ : ∃ span span', endless.term = .ok (.function span
      [("x", .repeating 16)] (some (.repeating 16)) (.reference span' "x")) := by
    cases read : endless.term with
    | error => simp [read, Except.toOption] at shown
    | ok term =>
      rw [read, Except.toOption, Option.bind_some] at shown
      obtain ⟨span, span', rfl⟩ := Term.eq_of_returned? shown
      exact ⟨span, span', rfl⟩
  refine ⟨⟨span, span', read⟩, Ty.not_settles_repeating 16, ?_⟩
  have checked := Checker.typeOf_endless (Ty.endless_repeating 16) span span' {}
  rw [type_of_term read, checked]
  rfl

/-! ## Equality of the types of programs -/

/-- The types of programs in which no property name is listed twice are compared as an equality
should be: each is equal to itself, the order of the two does not matter, and equal objects have the
same property names. -/
theorem equals_lawful {source source' : Source} {variant variant' : Variant} {left right : Ty}
    (typed : source.type variant = .ok left) (typed' : source'.type variant' = .ok right)
    (distinct : left.hasDistinctNames = true) (distinct' : right.hasDistinctNames = true) :
    left.equals left = true ∧ left.equals right = right.equals left ∧
      ∀ properties properties', left = .object properties → right = .object properties' →
        left.equals right = true →
          ∀ name, name ∈ properties.map Prod.fst ↔ name ∈ properties'.map Prod.fst := by
  have wellFormed := (proper_of_type typed).wellFormed distinct
  have wellFormed' := (proper_of_type typed').wellFormed distinct'
  refine ⟨?_, ?_, ?_⟩
  · rw [Ty.equals_iff_sameTree wellFormed wellFormed]
    exact .refl wellFormed
  · rw [Bool.eq_iff_iff, Ty.equals_iff_sameTree wellFormed wellFormed',
      Ty.equals_iff_sameTree wellFormed' wellFormed]
    exact ⟨Ty.SameTree.symm, Ty.SameTree.symm⟩
  · rintro properties properties' rfl rfl equal
    rw [Ty.equals_iff_sameTree wellFormed wellFormed'] at equal
    have matched := Ty.Largest.layer_of_bare Ty.SameLayer.monotone equal rfl rfl
    cases matched with
    | object names _ => exact names

set_option maxRecDepth 2000 in
/-- Two programs whose types are objects that list their properties in another order, one of them
with its recursive types unfolded, have equal types. -/
theorem equals_lawful_reordered :
    let source : Source :=
      { text := "type L = \x7b value: boolean; next: () => L \x7d; " ++
          "\x7b a: true, f: (l: L) => l \x7d" }
    let source' : Source :=
      { text := "type L = \x7b next: () => L; value: boolean \x7d; " ++
          "\x7b f: (k: \x7b value: boolean; next: () => L \x7d) => k, a: false \x7d" }
    let list : Ty := .mu "L" (.object [("value", .boolean), ("next", .function [] (.var "L"))])
    let list' : Ty := .mu "L" (.object [("next", .function [] (.var "L")), ("value", .boolean)])
    let unfolded : Ty := .object [("value", .boolean), ("next", .function [] list')]
    let left : List (String × Ty) := [("a", .boolean), ("f", .function [("l", list)] list)]
    let right : List (String × Ty) :=
      [("f", .function [("k", unfolded)] unfolded), ("a", .boolean)]
    source.type .recursive = .ok (.object left) ∧ source'.type .subtyping = .ok (.object right) ∧
      (Ty.object left).equals (.object right) = true ∧
        ∀ name, name ∈ left.map Prod.fst ↔ name ∈ right.map Prod.fst := by
  intro source source' list list' unfolded left right
  have typed : source.type .recursive = .ok (.object left) := by decide +kernel
  have typed' : source'.type .subtyping = .ok (.object right) := by decide +kernel
  have equal : (Ty.object left).equals (.object right) = true := by cbv
  have lawful := equals_lawful typed typed' (by decide) (by decide)
  exact ⟨typed, typed', equal, lawful.2.2 left right rfl rfl equal⟩

/-- Where a property name is listed twice, the types of programs are not compared as an equality
should be: a type may be unequal to itself, and equal to one with other property names, but only in
one order. -/
theorem equals_lawless :
    let twice : Ty := .object [("a", .boolean), ("a", .boolean)]
    let mixed : Ty := .object [("a", .boolean), ("a", .function [] .boolean)]
    let both : Ty := .object [("a", .boolean), ("b", .boolean)]
    Source.type { text := "\x7b a: true, a: true \x7d" } .subtyping = .ok twice ∧
      Source.type { text := "\x7b a: true, a: () => true \x7d" } .subtyping = .ok mixed ∧
      Source.type { text := "\x7b a: true, b: true \x7d" } .subtyping = .ok both ∧
      mixed.equals mixed = false ∧ twice.equals both = true ∧ both.equals twice = false := by
  intro twice mixed both
  refine ⟨by decide +kernel, by decide +kernel, by decide +kernel, ?_, ?_, ?_⟩ <;> cbv

end Source

end Equirec
