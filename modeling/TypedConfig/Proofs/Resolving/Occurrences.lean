import TypedConfig.Document.Inline
import TypedConfig.Proofs.Except

namespace TypedConfig

def Reference.refusal? (table : ConstantTable) (limit enclosing : Nat) (r : Reference) :
    Option Diagnostic :=
  match table.find? r.name with
  | none => some (ConstantTable.unknown r)
  | some c =>
    if enclosing + c.depth ≤ limit then none else some (r.tooDeep limit c.depth enclosing)

theorem Reference.failure?_resolve (table : ConstantTable) (limit enclosing : Nat)
    (r : Reference) :
    failure? (r.resolve table limit enclosing) = r.refusal? table limit enclosing := by
  unfold resolve refusal? ConstantTable.lookup
  cases table.find? r.name with
  | none => rfl
  | some c =>
    by_cases fits : enclosing + c.depth ≤ limit <;>
      simp [Bind.bind, Except.bind, fits, failure?]

theorem Reference.get?_of_resolve {table : ConstantTable} {limit enclosing : Nat} {r : Reference}
    {w : Value} (h : r.resolve table limit enclosing = .ok w) : table.get? r.name = some w := by
  unfold resolve ConstantTable.lookup at h
  unfold ConstantTable.get?
  cases found : table.find? r.name with
  | none => rw [found] at h; cases h
  | some c =>
    rw [found] at h
    obtain ⟨c', same, h⟩ := bind_eq_ok_iff.mp h
    cases same
    split at h <;> cases h
    rfl

namespace Value

variable {table : ConstantTable} {limit : Nat} {meaning : String → Option Value}

def firstRefusal? (table : ConstantTable) (limit : Nat) (occurrences : List (Nat × Reference)) :
    Option Diagnostic :=
  occurrences.findSome? fun (enclosing, r) => r.refusal? table limit enclosing

theorem firstRefusal?_cons (enclosing : Nat) (r : Reference) (others : List (Nat × Reference)) :
    firstRefusal? table limit ((enclosing, r) :: others) =
      (r.refusal? table limit enclosing).or (firstRefusal? table limit others) := by
  simp only [firstRefusal?, List.findSome?_cons]
  cases r.refusal? table limit enclosing <;> rfl

theorem firstRefusal?_append (left right : List (Nat × Reference)) :
    firstRefusal? table limit (left ++ right) =
      (firstRefusal? table limit left).or (firstRefusal? table limit right) :=
  List.findSome?_append

mutual

theorem failure?_resolveWithin (enclosing : Nat) (v : Value) :
    failure? (v.resolveWithin table limit enclosing) =
      firstRefusal? table limit (v.occurrences enclosing) := by
  cases v with
  | int n => rfl
  | ref r =>
    rw [resolveWithin, occurrences, Reference.failure?_resolve]
    simp [firstRefusal?]
  | array items =>
    rw [resolveWithin, occurrences, failure?_bind_pure]
    exact failure?_resolveItems (enclosing + 1) items
  | dict pairs =>
    rw [resolveWithin, occurrences, failure?_bind_pure]
    exact failure?_resolvePairs (enclosing + 1) pairs

theorem failure?_resolveItems (enclosing : Nat) (items : List Value) :
    failure? (resolveItems table limit enclosing items) =
      firstRefusal? table limit (itemsOccurrences enclosing items) := by
  cases items with
  | nil => rfl
  | cons item items =>
    rw [resolveItems, itemsOccurrences, firstRefusal?_append,
      ← failure?_resolveWithin enclosing item, ← failure?_resolveItems enclosing items]
    apply failure?_bind
    intro _ _
    exact failure?_bind_pure _ _

theorem failure?_resolvePairs (enclosing : Nat) (pairs : List (String × Value)) :
    failure? (resolvePairs table limit enclosing pairs) =
      firstRefusal? table limit (pairsOccurrences enclosing pairs) := by
  match pairs with
  | [] => rfl
  | (key, value) :: pairs =>
    rw [resolvePairs, pairsOccurrences, firstRefusal?_append,
      ← failure?_resolveWithin enclosing value, ← failure?_resolvePairs enclosing pairs]
    apply failure?_bind
    intro _ _
    exact failure?_bind_pure _ _

end

mutual

theorem substitute?_of_resolveWithin {enclosing : Nat} {v w : Value}
    (h : v.resolveWithin table limit enclosing = .ok w) :
    v.substitute? table.get? = some w := by
  cases v with
  | int n => cases h; rfl
  | ref r => exact Reference.get?_of_resolve h
  | array items =>
    obtain ⟨items', inside, h⟩ := bind_eq_ok_iff.mp h
    cases h
    rw [substitute?, substituteItems?_of_resolveItems inside]
    rfl
  | dict pairs =>
    obtain ⟨pairs', inside, h⟩ := bind_eq_ok_iff.mp h
    cases h
    rw [substitute?, substitutePairs?_of_resolvePairs inside]
    rfl

theorem substituteItems?_of_resolveItems {enclosing : Nat} {items items' : List Value}
    (h : resolveItems table limit enclosing items = .ok items') :
    substituteItems? table.get? items = some items' := by
  cases items with
  | nil => cases h; rfl
  | cons item items =>
    obtain ⟨first, item', h⟩ := bind_eq_ok_iff.mp h
    obtain ⟨rest, items', h⟩ := bind_eq_ok_iff.mp h
    cases h
    rw [substituteItems?, substitute?_of_resolveWithin item',
      substituteItems?_of_resolveItems items']
    rfl

theorem substitutePairs?_of_resolvePairs {enclosing : Nat} {pairs pairs' : List (String × Value)}
    (h : resolvePairs table limit enclosing pairs = .ok pairs') :
    substitutePairs? table.get? pairs = some pairs' := by
  match pairs with
  | [] => cases h; rfl
  | (key, value) :: pairs =>
    obtain ⟨first, value', h⟩ := bind_eq_ok_iff.mp h
    obtain ⟨rest, pairs', h⟩ := bind_eq_ok_iff.mp h
    cases h
    rw [substitutePairs?, substitute?_of_resolveWithin value',
      substitutePairs?_of_resolvePairs pairs']
    rfl

end

theorem resolve_eq_ok_iff {v w : Value} :
    v.resolve table limit = .ok w ↔
      firstRefusal? table limit (v.occurrences 0) = none ∧ v.substitute? table.get? = some w := by
  rw [← failure?_resolveWithin, failure?_eq_none_iff]
  constructor
  · intro h
    exact ⟨⟨w, h⟩, substitute?_of_resolveWithin h⟩
  · intro h
    obtain ⟨⟨w', resolved⟩, replaced⟩ := h
    have same := substitute?_of_resolveWithin resolved
    rw [replaced] at same
    cases same
    exact resolved

mutual

theorem substitute?_isSome_iff (enclosing : Nat) (v : Value) :
    (v.substitute? meaning).isSome = true ↔
      ∀ o ∈ v.occurrences enclosing, (meaning o.2.name).isSome = true := by
  cases v with
  | int n => simp [substitute?, occurrences]
  | ref r => simp [substitute?, occurrences]
  | array items =>
    rw [substitute?, occurrences, Option.isSome_map]
    exact substituteItems?_isSome_iff (enclosing + 1) items
  | dict pairs =>
    rw [substitute?, occurrences, Option.isSome_map]
    exact substitutePairs?_isSome_iff (enclosing + 1) pairs

theorem substituteItems?_isSome_iff (enclosing : Nat) (items : List Value) :
    (substituteItems? meaning items).isSome = true ↔
      ∀ o ∈ itemsOccurrences enclosing items, (meaning o.2.name).isSome = true := by
  cases items with
  | nil => simp [substituteItems?, itemsOccurrences]
  | cons item items =>
    have first := substitute?_isSome_iff enclosing item
    have rest := substituteItems?_isSome_iff enclosing items
    rw [itemsOccurrences, List.forall_mem_append, ← first, ← rest, substituteItems?]
    cases item.substitute? meaning <;> cases substituteItems? meaning items <;> simp

theorem substitutePairs?_isSome_iff (enclosing : Nat) (pairs : List (String × Value)) :
    (substitutePairs? meaning pairs).isSome = true ↔
      ∀ o ∈ pairsOccurrences enclosing pairs, (meaning o.2.name).isSome = true := by
  match pairs with
  | [] => simp [substitutePairs?, pairsOccurrences]
  | (key, value) :: pairs =>
    have first := substitute?_isSome_iff enclosing value
    have rest := substitutePairs?_isSome_iff enclosing pairs
    rw [pairsOccurrences, List.forall_mem_append, ← first, ← rest, substitutePairs?]
    cases value.substitute? meaning <;> cases substitutePairs? meaning pairs <;> simp

end

mutual

theorem firstRef?_of_substitute? (resolved : ∀ name v, meaning name = some v → v.firstRef? = none)
    {v w : Value} (h : v.substitute? meaning = some w) : w.firstRef? = none := by
  cases v with
  | int n => cases h; rfl
  | ref r => exact resolved r.name w h
  | array items =>
    obtain ⟨items', inside, rfl⟩ := Option.map_eq_some_iff.mp h
    exact itemsFirstRef?_of_substituteItems? resolved inside
  | dict pairs =>
    obtain ⟨pairs', inside, rfl⟩ := Option.map_eq_some_iff.mp h
    exact pairsFirstRef?_of_substitutePairs? resolved inside

theorem itemsFirstRef?_of_substituteItems?
    (resolved : ∀ name v, meaning name = some v → v.firstRef? = none) {items items' : List Value}
    (h : substituteItems? meaning items = some items') : itemsFirstRef? items' = none := by
  cases items with
  | nil => cases h; rfl
  | cons item items =>
    obtain ⟨first, item', h⟩ := Option.bind_eq_some_iff.mp h
    obtain ⟨rest, items', h⟩ := Option.bind_eq_some_iff.mp h
    cases h
    rw [itemsFirstRef?, firstRef?_of_substitute? resolved item',
      itemsFirstRef?_of_substituteItems? resolved items']
    rfl

theorem pairsFirstRef?_of_substitutePairs?
    (resolved : ∀ name v, meaning name = some v → v.firstRef? = none)
    {pairs pairs' : List (String × Value)}
    (h : substitutePairs? meaning pairs = some pairs') : pairsFirstRef? pairs' = none := by
  match pairs with
  | [] => cases h; rfl
  | (key, value) :: pairs =>
    obtain ⟨first, value', h⟩ := Option.bind_eq_some_iff.mp h
    obtain ⟨rest, pairs', h⟩ := Option.bind_eq_some_iff.mp h
    cases h
    rw [pairsFirstRef?, firstRef?_of_substitute? resolved value',
      pairsFirstRef?_of_substitutePairs? resolved pairs']
    rfl

end

theorem deepestUse_append (left right : List (Nat × Reference)) :
    deepestUse meaning (left ++ right) =
      max (deepestUse meaning left) (deepestUse meaning right) := by
  induction left with
  | nil => simp [deepestUse]
  | cons o left ih =>
    simp only [deepestUse, List.cons_append, List.map_cons, List.foldr_cons] at ih ⊢
    rw [ih, Nat.max_assoc]

theorem deepestUse_le_iff {occurrences : List (Nat × Reference)} :
    deepestUse meaning occurrences ≤ limit ↔ ∀ o ∈ occurrences, useDepth meaning o ≤ limit := by
  induction occurrences with
  | nil => simp [deepestUse]
  | cons o occurrences ih =>
    simp only [deepestUse, List.map_cons, List.foldr_cons] at ih ⊢
    rw [Nat.max_le, ih, List.forall_mem_cons]

theorem deepestUse_le_of_uses {occurrences : List (Nat × Reference)}
    (h : ∀ o ∈ occurrences, ∃ m, meaning o.2.name = some m ∧ o.1 + m.depth ≤ limit) :
    deepestUse meaning occurrences ≤ limit := by
  rw [deepestUse_le_iff]
  intro o member
  obtain ⟨m, named, shallow⟩ := h o member
  simpa [useDepth, named] using shallow

mutual

/-- What is substituted makes a value deeper only as far as its uses reach. -/
theorem depth_of_substitute? (enclosing : Nat) {v w : Value}
    (h : v.substitute? meaning = some w) :
    enclosing + w.depth =
      max (enclosing + v.depth) (deepestUse meaning (v.occurrences enclosing)) := by
  cases v with
  | int n =>
    cases h
    simp [depth, occurrences, deepestUse]
  | ref r =>
    have named : meaning r.name = some w := h
    simp [depth, occurrences, deepestUse, useDepth, named]
  | array items =>
    obtain ⟨items', inside, rfl⟩ := Option.map_eq_some_iff.mp h
    have deeper := depth_of_substituteItems? (enclosing + 1) inside
    rw [depth, depth, occurrences]
    omega
  | dict pairs =>
    obtain ⟨pairs', inside, rfl⟩ := Option.map_eq_some_iff.mp h
    have deeper := depth_of_substitutePairs? (enclosing + 1) inside
    rw [depth, depth, occurrences]
    omega

theorem depth_of_substituteItems? (enclosing : Nat) {items items' : List Value}
    (h : substituteItems? meaning items = some items') :
    enclosing + itemsDepth items' =
      max (enclosing + itemsDepth items)
        (deepestUse meaning (itemsOccurrences enclosing items)) := by
  cases items with
  | nil =>
    cases h
    simp [itemsDepth, itemsOccurrences, deepestUse]
  | cons item items =>
    obtain ⟨first, item', h⟩ := Option.bind_eq_some_iff.mp h
    obtain ⟨rest, items', h⟩ := Option.bind_eq_some_iff.mp h
    cases h
    have head := depth_of_substitute? enclosing item'
    have tail := depth_of_substituteItems? enclosing items'
    rw [itemsDepth, itemsDepth, itemsOccurrences, deepestUse_append, ← Nat.add_max_add_left, head,
      tail, ← Nat.add_max_add_left]
    ac_rfl

theorem depth_of_substitutePairs? (enclosing : Nat) {pairs pairs' : List (String × Value)}
    (h : substitutePairs? meaning pairs = some pairs') :
    enclosing + pairsDepth pairs' =
      max (enclosing + pairsDepth pairs)
        (deepestUse meaning (pairsOccurrences enclosing pairs)) := by
  match pairs with
  | [] =>
    cases h
    simp [pairsDepth, pairsOccurrences, deepestUse]
  | (key, value) :: pairs =>
    obtain ⟨first, value', h⟩ := Option.bind_eq_some_iff.mp h
    obtain ⟨rest, pairs', h⟩ := Option.bind_eq_some_iff.mp h
    cases h
    have head := depth_of_substitute? enclosing value'
    have tail := depth_of_substitutePairs? enclosing pairs'
    rw [pairsDepth, pairsDepth, pairsOccurrences, deepestUse_append, ← Nat.add_max_add_left, head,
      tail, ← Nat.add_max_add_left]
    ac_rfl

end

theorem depth_eq_max_of_substitute? {v w : Value} (h : v.substitute? meaning = some w) :
    w.depth = max v.depth (deepestUse meaning (v.occurrences 0)) := by
  simpa using depth_of_substitute? 0 h

end Value

end TypedConfig
