import Mathlib.Data.List.Perm.Subperm
import TypedConfig.Proofs.Resolving.Inlining

namespace TypedConfig

namespace Value

variable {meaning meaning' : String → Option Value}

mutual

/-- Only what the names in a value mean decides what is substituted. -/
theorem substitute?_congr (enclosing : Nat) (v : Value)
    (same : ∀ o ∈ v.occurrences enclosing, meaning o.2.name = meaning' o.2.name) :
    v.substitute? meaning = v.substitute? meaning' := by
  cases v with
  | int n => rfl
  | ref r => exact same (enclosing, r) List.mem_cons_self
  | array items =>
    rw [substitute?, substitute?, substituteItems?_congr (enclosing + 1) items same]
  | dict pairs =>
    rw [substitute?, substitute?, substitutePairs?_congr (enclosing + 1) pairs same]

theorem substituteItems?_congr (enclosing : Nat) (items : List Value)
    (same : ∀ o ∈ itemsOccurrences enclosing items, meaning o.2.name = meaning' o.2.name) :
    substituteItems? meaning items = substituteItems? meaning' items := by
  cases items with
  | nil => rfl
  | cons item items =>
    obtain ⟨first, rest⟩ := List.forall_mem_append.mp same
    rw [substituteItems?, substituteItems?, substitute?_congr enclosing item first,
      substituteItems?_congr enclosing items rest]

theorem substitutePairs?_congr (enclosing : Nat) (pairs : List (String × Value))
    (same : ∀ o ∈ pairsOccurrences enclosing pairs, meaning o.2.name = meaning' o.2.name) :
    substitutePairs? meaning pairs = substitutePairs? meaning' pairs := by
  match pairs with
  | [] => rfl
  | (key, value) :: pairs =>
    obtain ⟨first, rest⟩ := List.forall_mem_append.mp same
    rw [substitutePairs?, substitutePairs?, substitute?_congr enclosing value first,
      substitutePairs?_congr enclosing pairs rest]

end

end Value

variable {limit : Nat} {chosen declarations : List Declaration}

/-- A declared name means the value of its declaration, with the names in it as they are in the
end. -/
theorem meaning?_of_mem (distinct : (declarations.map Declaration.name).Nodup)
    (known : EachAfter Known declarations) {c : Declaration} (member : c ∈ declarations) :
    meaning? declarations c.name = c.value.substitute? (meaning? declarations) := by
  obtain ⟨later, earlier, rfl⟩ := List.append_of_mem member
  have inside : c.value.NamesOnly (earlier.map Declaration.name) := known.of_append.1
  rw [List.append_cons, List.map_append] at distinct
  have apart : c.name ∉ later.map Declaration.name := by
    have upTo := distinct.of_append_left
    rw [List.map_append] at upTo
    intro used
    exact List.disjoint_of_nodup_append upTo used (by simp)
  rw [meaning?_append_of_not_mem apart, meaning?, if_pos rfl]
  -- The names in `c` are declared before it, and nothing later declares them again.
  apply Value.substitute?_congr 0
  intro o occurs
  have earlierName := inside o occurs
  have new : o.2.name ∉ (later ++ [c]).map Declaration.name :=
    fun used => List.disjoint_of_nodup_append distinct used earlierName
  rw [List.append_cons, meaning?_append_of_not_mem new]

/-- The `chosen` are some of the `declarations`, and no name is used before it is declared in either
of them. The latest comes first. -/
structure IsSelection (chosen declarations : List Declaration) : Prop where
  distinct : (declarations.map Declaration.name).Nodup
  known : EachAfter Known declarations
  knownChosen : EachAfter Known chosen
  subset : chosen ⊆ declarations

namespace IsSelection

theorem of_append {later : List Declaration} (h : IsSelection (later ++ chosen) declarations) :
    IsSelection chosen declarations :=
  ⟨h.distinct, h.known, h.knownChosen.of_append, fun _ member =>
    h.subset (List.mem_append_right later member)⟩

theorem of_split {before after : List Declaration} {c : Declaration}
    (h : IsSelection (before ++ c :: after).reverse declarations) :
    IsSelection before.reverse declarations := by
  rw [List.append_cons, List.append_assoc, List.reverse_append] at h
  exact h.of_append

theorem meaning?_eq (h : IsSelection chosen declarations) {name : String}
    (member : name ∈ chosen.map Declaration.name) :
    meaning? chosen name = meaning? declarations name := by
  obtain ⟨distinct, known, knownChosen, subset⟩ := h
  induction chosen generalizing name with
  | nil => cases member
  | cons d earlier ih =>
    obtain ⟨inside, before⟩ := knownChosen
    obtain ⟨first, rest⟩ := List.cons_subset.mp subset
    by_cases same : d.name = name
    · subst same
      -- Both sides substitute into the same value, with names that were chosen before `d`.
      rw [meaning?, if_pos rfl, meaning?_of_mem distinct known first]
      apply Value.substitute?_congr 0
      intro o occurs
      exact ih (inside o occurs) before rest
    · rw [meaning?, if_neg same]
      exact ih ((List.mem_cons.mp member).resolve_left (Ne.symm same)) before rest

variable {v : Value}

theorem substitute?_eq (h : IsSelection chosen declarations)
    (names : v.NamesOnly (chosen.map Declaration.name)) :
    v.substitute? (meaning? chosen) = v.substitute? (meaning? declarations) :=
  Value.substitute?_congr 0 v fun o occurs => h.meaning?_eq (names o occurs)

theorem usesWithin_iff (h : IsSelection chosen declarations)
    (names : v.NamesOnly (chosen.map Declaration.name)) :
    v.UsesWithin limit chosen ↔ v.UsesWithin limit declarations := by
  constructor
  · intro uses o occurs m named
    rw [← h.meaning?_eq (names o occurs)] at named
    exact uses o occurs m named
  · intro uses o occurs m named
    rw [h.meaning?_eq (names o occurs)] at named
    exact uses o occurs m named

end IsSelection

namespace Document

variable {d d' : Document}

theorem Inlinable.isSelection (h : d.Inlinable limit)
    (known : EachAfter Known chosen) (subset : chosen ⊆ d.constants) :
    IsSelection chosen d.constants.reverse := by
  refine ⟨?_, eachAfter_known_reverse_iff.mpr h.known, known, ?_⟩
  · rw [List.map_reverse, List.nodup_reverse]
    exact h.distinct
  · intro c member
    exact List.mem_reverse.mpr (subset member)

theorem Inlinable.usesWithin (h : d.Inlinable limit) {c : Declaration} (member : c ∈ d.constants) :
    c.value.UsesWithin limit d.constants.reverse := by
  obtain ⟨before, after, split⟩ := List.append_of_mem member
  have whole : IsSelection d.constants.reverse d.constants.reverse :=
    h.isSelection (eachAfter_known_reverse_iff.mpr h.known) (by simp)
  have upTo : IsSelection before.reverse d.constants.reverse := by
    rw [split] at whole ⊢
    exact whole.of_split
  have names := Value.namesOnly_reverse_iff.mpr (h.known before c after split)
  exact (upTo.usesWithin_iff names).mp (h.uses before c after split)

theorem Inlinable.of_isSelection (h : d.Inlinable limit) (entries : d'.entry = d.entry)
    (selection : IsSelection d'.constants.reverse d.constants.reverse)
    (distinct : (d'.constants.map Declaration.name).Nodup)
    (entryKnown : d'.entry.value.NamesOnly (d'.constants.map Declaration.name)) :
    d'.Inlinable limit := by
  have known := eachAfter_known_reverse_iff.mp selection.knownChosen
  refine ⟨distinct, known, entryKnown, ?_, ?_⟩
  · intro before c after split
    have upTo : IsSelection before.reverse d.constants.reverse := by
      rw [split] at selection
      exact selection.of_split
    have chosen : c ∈ d'.constants.reverse := by simp [split]
    have member : c ∈ d.constants := List.mem_reverse.mp (selection.subset chosen)
    have names := Value.namesOnly_reverse_iff.mpr (known before c after split)
    exact (upTo.usesWithin_iff names).mpr (h.usesWithin member)
  · have names := Value.namesOnly_reverse_iff.mpr entryKnown
    rw [selection.usesWithin_iff names, entries]
    exact h.entryUses

theorem inline?_of_isSelection (entries : d'.entry = d.entry)
    (selection : IsSelection d'.constants.reverse d.constants.reverse)
    (entryKnown : d'.entry.value.NamesOnly (d'.constants.map Declaration.name)) :
    d'.inline? = d.inline? := by
  have names := Value.namesOnly_reverse_iff.mpr entryKnown
  rw [inline?, inline?, selection.substitute?_eq names, entries]

theorem InlinesTo.entry_eq {table table' : ConstantTable} {entry entry' : Entry}
    (h : d.InlinesTo table entry) (h' : d'.InlinesTo table' entry')
    (name : d'.entry.name = d.entry.name) (value : d'.inline? = d.inline?) : entry' = entry := by
  have names : entry'.name = entry.name := by rw [h'.entryName, name, h.entryName]
  have values : some entry'.value = some entry.value := by
    rw [← h'.entryValue, value, h.entryValue]
  cases entry
  cases entry'
  exact congrArg₂ Entry.mk names (Option.some.inj values)

end Document

theorem ConstantTable.find?_of_isSelection {table table' : ConstantTable}
    (h : IsSelection chosen declarations) (whole : table.Represents declarations)
    (part : table'.Represents chosen) {c : Declaration} (member : c ∈ chosen) :
    ∃ k, table'.find? c.name = some k ∧ table.find? c.name = some k := by
  have declared : c.name ∈ chosen.map Declaration.name := List.mem_map_of_mem member
  obtain ⟨v, named⟩ := meaning?_of_mem_names h.knownChosen declared
  refine ⟨⟨c.name, v, v.depth⟩, ?_, ?_⟩
  · rw [part.find, named]
    rfl
  · rw [whole.find, ← h.meaning?_eq declared, named]
    rfl

/-- Some of the declarations, in an order in which no name is used before its declaration, resolve
to the same entry and to the same constants. -/
theorem resolve_ignores_order_and_unused {d d' : Document} {limit : Nat} {table : ConstantTable}
    {entry : Entry} (resolved : d.resolve limit = .ok (table, entry)) (entries : d'.entry = d.entry)
    (selection : d'.constants.Subperm d.constants)
    (known : ∀ before c after, d'.constants = before ++ c :: after →
      c.value.NamesOnly (before.map Declaration.name))
    (entryKnown : d'.entry.value.NamesOnly (d'.constants.map Declaration.name)) :
    ∃ table', d'.resolve limit = .ok (table', entry) ∧
      ∀ c ∈ d'.constants, ∃ k, table'.find? c.name = some k ∧ table.find? c.name = some k := by
  have inlinable : d.Inlinable limit := Document.exists_resolve_iff.mp ⟨table, entry, resolved⟩
  have agree : IsSelection d'.constants.reverse d.constants.reverse := by
    apply inlinable.isSelection (eachAfter_known_reverse_iff.mpr known)
    intro c member
    exact selection.subset (List.mem_reverse.mp member)
  have distinct : (d'.constants.map Declaration.name).Nodup := by
    obtain ⟨kept, same, sublist⟩ := selection
    have nodup := inlinable.distinct.sublist (sublist.map Declaration.name)
    exact (same.map Declaration.name).nodup_iff.mp nodup
  have inlinable' := inlinable.of_isSelection entries agree distinct entryKnown
  obtain ⟨table', entry', resolved'⟩ := Document.exists_resolve_iff.mpr inlinable'
  have value := Document.inline?_of_isSelection entries agree entryKnown
  have inlines := Document.inlinesTo_of_resolve resolved
  have inlines' := Document.inlinesTo_of_resolve resolved'
  obtain rfl : entry' = entry := inlines.entry_eq inlines' (congrArg Entry.name entries) value
  have represents := (Document.resolve_ok resolved).2.1
  have represents' := (Document.resolve_ok resolved').2.1
  refine ⟨table', resolved', ?_⟩
  intro c member
  have chosen : c ∈ d'.constants.reverse := List.mem_reverse.mpr member
  exact ConstantTable.find?_of_isSelection agree represents represents' chosen

theorem resolve_ignores_order_and_unused_swapped :
    ∃ table, Document.resolve ⟨[⟨"b", .int 2, ⟨2, 5⟩⟩, ⟨"a", .int 1, ⟨1, 5⟩⟩,
        ⟨"c", .array [.ref ⟨"a", ⟨4, 9⟩⟩, .ref ⟨"b", ⟨4, 14⟩⟩], ⟨4, 5⟩⟩],
      ⟨"x", .ref ⟨"c", ⟨5, 4⟩⟩⟩⟩ 1 = .ok (table, ⟨"x", .array [.int 1, .int 2]⟩) ∧
      table.find? "c" = some ⟨"c", .array [.int 1, .int 2], 1⟩ := by
  let a : Declaration := ⟨"a", .int 1, ⟨1, 5⟩⟩
  let b : Declaration := ⟨"b", .int 2, ⟨2, 5⟩⟩
  let unused : Declaration := ⟨"u", .array [.ref ⟨"b", ⟨3, 9⟩⟩], ⟨3, 5⟩⟩
  let c : Declaration := ⟨"c", .array [.ref ⟨"a", ⟨4, 9⟩⟩, .ref ⟨"b", ⟨4, 14⟩⟩], ⟨4, 5⟩⟩
  let d : Document := ⟨[a, b, unused, c], ⟨"x", .ref ⟨"c", ⟨5, 4⟩⟩⟩⟩
  let d' : Document := ⟨[b, a, c], d.entry⟩
  have resolved : d.resolve 1 =
      .ok (⟨[⟨"a", .int 1, 0⟩, ⟨"b", .int 2, 0⟩, ⟨"u", .array [.int 2], 1⟩,
        ⟨"c", .array [.int 1, .int 2], 1⟩]⟩, ⟨"x", .array [.int 1, .int 2]⟩) := rfl
  have entries : d'.entry = d.entry := rfl
  have selection : d'.constants.Subperm d.constants := by decide
  have known : EachAfter Known d'.constants.reverse := by
    simp [a, b, c, d', EachAfter, Known, Value.NamesOnly, Value.occurrences,
      Value.itemsOccurrences]
  have entryKnown : d'.entry.value.NamesOnly (d'.constants.map Declaration.name) := by
    simp [a, b, c, d, d', Value.NamesOnly, Value.occurrences]
  obtain ⟨table, resolved', same⟩ := resolve_ignores_order_and_unused resolved entries selection
    (eachAfter_known_reverse_iff.mp known) entryKnown
  obtain ⟨k, found, held⟩ := same c (by simp [d'])
  exact ⟨table, resolved', found.trans held.symm⟩

end TypedConfig
