import Mathlib.Computability.Primrec.List
import Mathlib.Data.List.Forall2
import Mathlib.Data.List.Nodup
import Mathlib.Data.List.Permutation

/-!
# Named members

Parameters, properties and bindings are lists of named things. A name is looked up from the front,
and when no name is repeated, looking up finds exactly the members.
-/
namespace Equirec.Members

variable {α β γ : Type} {members : List (String × α)} {name : String} {value : α}

/-- What is found under a name is a member of that name. -/
theorem mem_of_lookup (found : members.lookup name = some value) : (name, value) ∈ members := by
  obtain ⟨before, after, rfl, _⟩ := List.lookup_eq_some_iff.1 found
  simp

/-- Without repeated names every member is found under its name. -/
theorem lookup_of_mem (distinct : (members.map Prod.fst).Nodup)
    (isMember : (name, value) ∈ members) : members.lookup name = some value := by
  obtain ⟨before, after, rfl⟩ := List.append_of_mem isMember
  refine List.lookup_eq_some_iff.2 ⟨before, after, rfl, fun other isBefore => ?_⟩
  rw [List.map_append, List.map_cons, List.nodup_middle, List.nodup_cons] at distinct
  have absent : name ∉ before.map Prod.fst := fun inside =>
    distinct.1 (List.mem_append.2 (.inl inside))
  rw [bne_iff_ne]
  rintro rfl
  exact absent (List.mem_map_of_mem isBefore)

/-- Without repeated names there is one member of a name. -/
theorem eq_of_mem (distinct : (members.map Prod.fst).Nodup) {other : α}
    (isMember : (name, value) ∈ members) (isMember' : (name, other) ∈ members) :
    value = other := by
  have found := lookup_of_mem distinct isMember
  rw [lookup_of_mem distinct isMember', Option.some.injEq] at found
  exact found.symm

/-- A name that some member has is the name of a member. -/
theorem exists_mem_of_mem_names (isName : name ∈ members.map Prod.fst) :
    ∃ value, (name, value) ∈ members := by
  obtain ⟨⟨label, value⟩, isMember, rfl⟩ := List.mem_map.1 isName
  exact ⟨value, isMember⟩

/-- Something is found under a name that some member has. -/
theorem exists_lookup_of_mem_names (isName : name ∈ members.map Prod.fst) :
    ∃ value, members.lookup name = some value := by
  obtain ⟨value, isMember⟩ := exists_mem_of_mem_names isName
  cases found : members.lookup name with
  | none =>
    have differ := List.lookup_eq_none_iff.1 found (name, value) isMember
    simp at differ
  | some value' => exact ⟨value', rfl⟩

/-- Nothing is found under a name that no member has. -/
theorem lookup_eq_none (isNoName : name ∉ members.map Prod.fst) : members.lookup name = none := by
  cases found : members.lookup name with
  | none => rfl
  | some value => exact absurd (List.mem_map_of_mem (mem_of_lookup found)) isNoName

/-- Looking up a changed value is changing the value that is looked up. -/
theorem lookup_map (change : α → β) (members : List (String × α)) (name : String) :
    (members.map fun member => (member.1, change member.2)).lookup name =
      (members.lookup name).map change := by
  induction members with
  | nil => rfl
  | cons member rest ih =>
    rw [List.map_cons, List.lookup_cons, List.lookup_cons, ih]
    split <;> rfl

/-- Distinct names among those of a list that is not longer are all of its names. -/
theorem mem_names_iff_of_subset {others : List (String × β)}
    (distinct : (members.map Prod.fst).Nodup)
    (within : members.map Prod.fst ⊆ others.map Prod.fst) (count : members.length = others.length)
    (name : String) : name ∈ members.map Prod.fst ↔ name ∈ others.map Prod.fst := by
  have perm := (List.Nodup.subperm distinct within).perm_of_length_le (by simp [count])
  exact perm.mem_iff

/-- Distinct names that two lists share make them equally long. -/
theorem length_eq_of_names {others : List (String × β)} (distinct : (members.map Prod.fst).Nodup)
    (distinct' : (others.map Prod.fst).Nodup)
    (names : ∀ name, name ∈ members.map Prod.fst ↔ name ∈ others.map Prod.fst) :
    members.length = others.length := by
  have perm := (List.perm_ext_iff_of_nodup distinct distinct').2 names
  simpa using perm.length_eq

/-- Lists with the same names, in which members of the same name are related, have related members
under every name. -/
theorem lookup_rel {others : List (String × β)} {related : α → β → Prop}
    (names : ∀ name, name ∈ members.map Prod.fst ↔ name ∈ others.map Prod.fst)
    (values : ∀ name value value', (name, value) ∈ members → (name, value') ∈ others →
      related value value') (name : String) :
    Option.Rel related (members.lookup name) (others.lookup name) := by
  by_cases isName : name ∈ members.map Prod.fst
  · obtain ⟨value, found⟩ := exists_lookup_of_mem_names isName
    obtain ⟨value', found'⟩ := exists_lookup_of_mem_names ((names name).1 isName)
    have holds := values name value value' (mem_of_lookup found) (mem_of_lookup found')
    rw [found, found']
    exact .some holds
  · have isName' : name ∉ others.map Prod.fst := fun inside => isName ((names name).2 inside)
    rw [lookup_eq_none isName, lookup_eq_none isName']
    exact .none

/-- Every member of one list finds a related one under its name exactly when all its names are there
and members of the same name are related. -/
theorem forall_lookup_iff {offered : List (String × β)} (distinct : (offered.map Prod.fst).Nodup)
    (related : α → β → Prop) :
    (∀ member ∈ members, ∃ value, offered.lookup member.1 = some value ∧
        related member.2 value) ↔
      (∀ name, name ∈ members.map Prod.fst → name ∈ offered.map Prod.fst) ∧
        ∀ name value value', (name, value) ∈ members → (name, value') ∈ offered →
          related value value' := by
  constructor
  · intro found
    refine ⟨fun name isName => ?_, fun name value value' isMember isOffered => ?_⟩
    · obtain ⟨value, isMember⟩ := exists_mem_of_mem_names isName
      obtain ⟨value', isFound, _⟩ := found _ isMember
      exact List.mem_map_of_mem (mem_of_lookup isFound)
    · obtain ⟨other, isFound, holds⟩ := found _ isMember
      obtain rfl := eq_of_mem distinct isOffered (mem_of_lookup isFound)
      exact holds
  · rintro ⟨names, values⟩ ⟨name, value⟩ isMember
    obtain ⟨value', isOffered⟩ :=
      exists_mem_of_mem_names (names name (List.mem_map_of_mem isMember))
    exact ⟨value', lookup_of_mem distinct isOffered, values name value value' isMember isOffered⟩

/-- Related places hold members of the two lists. -/
theorem forall₂_mem {related : α → β → Prop} {left : List α} {right : List β}
    (places : List.Forall₂ related left right) :
    List.Forall₂ (fun a b => a ∈ left ∧ b ∈ right ∧ related a b) left right := by
  induction places with
  | nil => exact .nil
  | cons head _ ih =>
    refine .cons ⟨.head _, .head _, head⟩ (ih.imp fun a b ⟨isMember, isMember', holds⟩ => ?_)
    exact ⟨.tail _ isMember, .tail _ isMember', holds⟩

/-- Every member of the first list is related to a member of the second. -/
theorem exists_of_forall₂ {related : α → β → Prop} {left : List α} {right : List β}
    (places : List.Forall₂ related left right) {a : α} (isMember : a ∈ left) :
    ∃ b ∈ right, related a b := by
  induction places with
  | nil => simp at isMember
  | cons head _ ih =>
    rcases List.mem_cons.1 isMember with rfl | isMember
    · exact ⟨_, .head _, head⟩
    · obtain ⟨b, isMember', holds⟩ := ih isMember
      exact ⟨b, .tail _ isMember', holds⟩

/-- When every member of the first list is related to one of the second, such ones can be listed in
the order of the first. -/
theorem exists_forall₂ {related : α → β → Prop} {left : List α} {right : List β}
    (every : ∀ a ∈ left, ∃ b ∈ right, related a b) :
    ∃ chosen, chosen ⊆ right ∧ List.Forall₂ related left chosen := by
  induction left with
  | nil => exact ⟨[], List.nil_subset _, .nil⟩
  | cons a rest ih =>
    rw [List.forall_mem_cons] at every
    obtain ⟨b, isMember, holds⟩ := every.1
    obtain ⟨chosen, within, places⟩ := ih every.2
    exact ⟨b :: chosen, List.cons_subset.2 ⟨isMember, within⟩, .cons holds places⟩

/-- Relations between places compose. -/
theorem forall₂_comp {first : α → β → Prop} {second : β → γ → Prop} {left : List α}
    {middle : List β} {right : List γ} (related : List.Forall₂ first left middle)
    (related' : List.Forall₂ second middle right) :
    List.Forall₂ (fun a c => ∃ b, first a b ∧ second b c) left right := by
  induction related generalizing right with
  | nil =>
    cases related'
    exact .nil
  | cons head _ ih =>
    cases related' with
    | cons head' tail' => exact .cons ⟨_, head, head'⟩ (ih tail')

/-- Relations that agree on the members of two lists hold between the same places. -/
theorem forall₂_congr_mem {first second : α → β → Prop} {left : List α} {right : List β}
    (same : ∀ a ∈ left, ∀ b ∈ right, (first a b ↔ second a b)) :
    List.Forall₂ first left right ↔ List.Forall₂ second left right := by
  constructor
  · intro places
    exact (forall₂_mem places).imp fun a b found => (same a found.1 b found.2.1).1 found.2.2
  · intro places
    exact (forall₂_mem places).imp fun a b found => (same a found.1 b found.2.1).2 found.2.2

/-! ## Named members by place -/

variable {others : List (String × β)}

/-- Names that agree place by place are the same list. -/
theorem forall₂_names_iff :
    List.Forall₂ (fun member other => member.1 = other.1) members others ↔
      members.map Prod.fst = others.map Prod.fst := by
  rw [← List.forall₂_eq_eq_eq, List.forall₂_map_left_iff, List.forall₂_map_right_iff]

/-- Members agree in their names and are related in their values, place by place, when the names
are the same list and the values are related. -/
theorem forall₂_named_iff (related : α → β → Prop) :
    List.Forall₂ (fun member other => member.1 = other.1 ∧ related member.2 other.2)
        members others ↔
      members.map Prod.fst = others.map Prod.fst ∧
        ∀ member other, (member, other) ∈ members.zip others → related member.2 other.2 := by
  constructor
  · intro places
    have named := forall₂_names_iff.1 (places.imp fun _ _ both => both.1)
    exact ⟨named, fun member other isPlace => (List.forall₂_zip places isPlace).2⟩
  · rintro ⟨names, values⟩
    have named := forall₂_names_iff.2 names
    have valued := List.forall₂_iff_zip.2 ⟨named.length_eq, values _ _⟩
    exact List.Forall₂.mp (fun _ _ => And.intro) named valued

/-- Without repeated names, one list is a reordering of another with related values exactly when
they are equally long and each member of the one finds a related value under its name in the
other. -/
theorem reordering_iff_lookup (distinct : (members.map Prod.fst).Nodup)
    (distinct' : (others.map Prod.fst).Nodup) (related : α → β → Prop) :
    (∃ reordered, List.Forall₂ (fun member other => member.1 = other.1 ∧
        related member.2 other.2) members reordered ∧ reordered.Perm others) ↔
      members.length = others.length ∧
        ∀ member ∈ members, ∃ value, others.lookup member.1 = some value ∧
          related member.2 value := by
  constructor
  · rintro ⟨reordered, places, order⟩
    refine ⟨places.length_eq.trans order.length_eq, fun member isMember => ?_⟩
    obtain ⟨⟨name, value⟩, isReordered, rfl, holds⟩ := exists_of_forall₂ places isMember
    exact ⟨value, lookup_of_mem distinct' (order.mem_iff.1 isReordered), holds⟩
  · rintro ⟨count, found⟩
    have every : ∀ member ∈ members, ∃ other ∈ others,
        member.1 = other.1 ∧ related member.2 other.2 := by
      intro member isMember
      obtain ⟨value, isFound, holds⟩ := found member isMember
      exact ⟨(member.1, value), mem_of_lookup isFound, rfl, holds⟩
    obtain ⟨reordered, within, places⟩ := exists_forall₂ every
    -- The chosen members have the names of the first list, so none of them is chosen twice.
    have names := ((forall₂_named_iff related).1 places).1
    have once : reordered.Nodup := .of_map Prod.fst (names ▸ distinct)
    have enough : others.length ≤ reordered.length :=
      Nat.le_of_eq (count.symm.trans places.length_eq)
    exact ⟨reordered, places, (once.subperm within).perm_of_length_le enough⟩

end Equirec.Members
