import Equirec.Proofs.Spelling
import Equirec.Proofs.WrittenTerms

/-!
# The scope of names of types

A declaration of a type lasts to the end of the function body that it stands in. Function bodies may
stand anywhere in a term, so that reading a term may declare types at any depth; when it is over,
all names of types stand for what they stood for before, whatever was declared.
-/
namespace Equirec

namespace Parse

/-- Whether a parser can read a term of some power, or the body of a function, and what it leaves
then. -/
inductive ReadsOne (before : Parser) (term : Term) (after : Parser) : Prop where
  /-- A term. -/
  | term (fuel : Nat) (power : Power)
    (ended : (readTerm .standard fuel power).run.run before = (.ok term, after))
  /-- The body of a function. -/
  | block (fuel : Nat)
    (ended : (readBlock .standard fuel).run.run before = (.ok term, after))

/-- Reading a term or a function body leaves the names of types as they are. -/
theorem ReadsOne.scope_eq {before after : Parser} {term : Term}
    (reads : ReadsOne before term after) : after.scope = before.scope := by
  -- An action may be cut short here: only what it gives matters.
  have affords (fuel rank : Nat) : before.Affords True fuel rank := .inl trivial
  cases reads with
  | term fuel power ended =>
    have readers := readTerms Grammar.standard_stopsAtEnd True fuel
    exact ((readers.term power (affords fuel 4)).gives term after ended).1.scope
  | block fuel ended =>
    have readers := readTerms Grammar.standard_stopsAtEnd True fuel
    exact ((readers.block (affords fuel 1)).gives term after ended).1.scope

/-- The types declared in a term or a function body are known only there: after it the declared
types and the names being declared are those from before, and each name stands for what it stands
for after any other term or function body in its place. -/
theorem scope_lexical {before after : Parser} {term : Term} (reads : ReadsOne before term after) :
    after.scope.aliases = before.scope.aliases ∧ after.scope.pending = before.scope.pending ∧
      (∀ name, after.scope.resolve? name = before.scope.resolve? name) ∧
      ∀ (before' after' : Parser) (term' : Term), before'.scope = before.scope →
        ReadsOne before' term' after' →
          ∀ name, after'.scope.resolve? name = after.scope.resolve? name := by
  have kept := reads.scope_eq
  refine ⟨congrArg Scope.aliases kept, congrArg Scope.pending kept, fun name => ?_, ?_⟩
  · rw [kept]
  · intro before' after' term' same reads' name
    rw [reads'.scope_eq, same, kept]

/-- The tokens of a function body that declares a type in terms of itself and uses it. -/
def declaringBody : List Token :=
  [.bare .openCurly "\x7b", .bare .typeKeyword "type", .bare .identifier "a",
    .bare .assignment "=", .bare .openParen "(", .bare .identifier "x", .bare .colon ":",
    .bare .identifier "a", .bare .closeParen ")", .bare .arrow "=>", .bare .identifier "boolean",
    .bare .semicolon ";", .bare .returnKeyword "return", .bare .openParen "(",
    .bare .identifier "x", .bare .colon ":", .bare .identifier "a", .bare .closeParen ")",
    .bare .arrow "=>", .bare .identifier "x", .bare .semicolon ";", .bare .closeCurly "\x7d",
    .bare .eof "EOF"]

/-- In the body the name that it declares stands for the new type, and after it for the type that it
stood for before, while another name is still being declared. -/
theorem scope_lexical_declaringBody :
    let scope : Scope := { aliases := [("a", .number)], pending := ["b"] }
    let before : Parser := { stream := ⟨declaringBody, .bare .eof "EOF", 0⟩, scope }
    let declared := Ty.mu "a" (.function [("x", .var "a")] .boolean)
    ∃ span body after,
      ReadsOne before (.function span [("x", declared)] none body) after ∧
        after.scope.aliases = [("a", .number)] ∧ after.scope.pending = ["b"] ∧
        after.scope.resolve? "a" = some .number ∧ after.scope.resolve? "b" = some (.var "b") := by
  intro scope before declared
  have reads : ReadsOne before
      (.function ⟨0, 0⟩ [("x", declared)] none (.reference ⟨0, 0⟩ "x"))
      { stream := ⟨[.bare .eof "EOF"], .bare .eof "EOF", 0⟩, scope } :=
    .block 40 (by rfl)
  obtain ⟨aliases, pending, resolves, -⟩ := scope_lexical reads
  exact ⟨_, _, _, reads, aliases, pending, resolves "a", resolves "b"⟩

end Parse

end Equirec
