import TypedConfig.Proofs.Writing.Body

namespace TypedConfig

theorem isAlpha_iff {c : Char} :
    c.isAlpha = true ↔ 'A' ≤ c ∧ c ≤ 'Z' ∨ 'a' ≤ c ∧ c ≤ 'z' := by
  have upper : c.isUpper = true ↔ 'A' ≤ c ∧ c ≤ 'Z' := decide_eq_true_iff
  have lower : c.isLower = true ↔ 'a' ≤ c ∧ c ≤ 'z' :=
    Bool.and_eq_true_iff.trans (and_congr decide_eq_true_iff decide_eq_true_iff)
  have cases : c.isAlpha = (c.isUpper || c.isLower) := rfl
  rw [cases, Bool.or_eq_true, upper, lower]

theorem isWordCharacter_iff {c : Char} :
    Text.isWordCharacter c = true ↔
      'A' ≤ c ∧ c ≤ 'Z' ∨ 'a' ≤ c ∧ c ≤ 'z' ∨ '0' ≤ c ∧ c ≤ '9' ∨ c = '_' := by
  simp [Text.isWordCharacter, Char.isAlphanum, isAlpha_iff, Char.isDigit, Char.le_def, or_assoc]

theorem isWord_iff_isElementName {name : String} :
    Text.isWord name.toList = true ↔ IsElementName name := by
  unfold IsElementName
  cases name.toList with
  | nil => simp [Text.isWord]
  | cons first rest =>
    rw [Text.isWord, Bool.and_eq_true, List.all_eq_true, isAlpha_iff]
    simp only [isWordCharacter_iff, List.cons.injEq]
    constructor
    · intro h
      exact ⟨first, rest, ⟨rfl, rfl⟩, h⟩
    · intro h
      obtain ⟨_, _, ⟨rfl, rfl⟩, h⟩ := h
      exact h

def Spot.offence? : Spot → Option Diagnostic
  | name text => failure? (checkElementName text)
  | reference r => some (reference r).report

theorem Spot.offence?_name (text : String) :
    (name text).offence? =
      if Text.isWord text.toList = true then none else some (name text).report := by
  rw [offence?, checkElementName]
  split <;> rfl

theorem Spot.offence?_eq_none_iff {s : Spot} : s.offence? = none ↔ s.IsWritable := by
  cases s with
  | name text =>
    rw [offence?_name, IsWritable, ← isWord_iff_isElementName]
    split <;> simp_all
  | reference r => simp [offence?, IsWritable]

theorem Spot.offence?_eq_some_iff {s : Spot} {d : Diagnostic} :
    s.offence? = some d ↔ ¬ s.IsWritable ∧ d = s.report := by
  cases s with
  | name text =>
    rw [offence?_name, IsWritable, ← isWord_iff_isElementName]
    by_cases word : Text.isWord text.toList = true
    · simp [word]
    · rw [if_neg word, and_iff_right word, Option.some.injEq, eq_comm]
  | reference r => simp [offence?, IsWritable, eq_comm]

def firstReport? (spots : List Spot) : Option Diagnostic :=
  spots.findSome? Spot.offence?

theorem firstReport?_cons (s : Spot) (later : List Spot) :
    firstReport? (s :: later) = s.offence?.or (firstReport? later) := by
  rw [firstReport?, List.findSome?_cons]
  cases s.offence? <;> rfl

theorem firstReport?_append (first later : List Spot) :
    firstReport? (first ++ later) = (firstReport? first).or (firstReport? later) :=
  List.findSome?_append

namespace Value

mutual

theorem failure?_content (v : Value) : failure? v.content = firstReport? v.spots := by
  match v with
  | int n => rfl
  | ref r => rfl
  | array items => exact failure?_itemsContent items
  | dict pairs => exact failure?_pairsContent pairs

theorem failure?_itemsContent (items : List Value) :
    failure? (itemsContent items) = firstReport? (itemsSpots items) := by
  match items with
  | [] => rfl
  | item :: items =>
    rw [itemsContent, itemsSpots, firstReport?_append, ← failure?_content item,
      ← failure?_itemsContent items]
    apply failure?_bind
    intro _ _
    exact failure?_bind_pure _ _

theorem failure?_pairsContent (pairs : List (String × Value)) :
    failure? (pairsContent pairs) = firstReport? (pairsSpots pairs) := by
  match pairs with
  | [] => rfl
  | (key, value) :: pairs =>
    rw [pairsContent, pairsSpots, List.cons_append, firstReport?_cons, firstReport?_append,
      ← failure?_content value, ← failure?_pairsContent pairs]
    -- The key has been checked by now, so what is left is the value and the pairs after it.
    apply failure?_bind
    intro _ _
    apply failure?_bind
    intro _ _
    exact failure?_bind_pure _ _

end

end Value

theorem Entry.failure?_markup (e : Entry) : failure? e.markup = firstReport? e.spots := by
  rw [spots, firstReport?_cons, ← Value.failure?_content, markup]
  apply failure?_bind
  intro _ _
  exact failure?_bind_pure _ _

/-- An entry has markup unless some spot cannot be written, and the report is about the first one.
-/
theorem markup_reports_first_offender (e : Entry) :
    ((∃ xml, e.markup = .ok xml) ↔
      (∀ name, Spot.name name ∈ e.spots → IsElementName name) ∧ ∀ r, Spot.reference r ∉ e.spots) ∧
    ∀ d, e.markup = .error d ↔ ∃ before spot after, e.spots = before ++ spot :: after ∧
      (∀ s ∈ before, s.IsWritable) ∧ ¬ spot.IsWritable ∧ d = spot.report := by
  constructor
  · rw [← failure?_eq_none_iff, Entry.failure?_markup, firstReport?, List.findSome?_eq_none_iff]
    simp only [Spot.offence?_eq_none_iff]
    constructor
    · intro writable
      exact ⟨fun name => writable (.name name), fun r => writable (.reference r)⟩
    · intro h s member
      cases s with
      | name text => exact h.1 text member
      | reference r => exact h.2 r member
  · intro d
    rw [← failure?_eq_some_iff, Entry.failure?_markup, firstReport?, List.findSome?_eq_some_iff]
    simp only [Spot.offence?_eq_none_iff, Spot.offence?_eq_some_iff]
    constructor
    · intro h
      obtain ⟨before, spot, after, walk, ⟨bad, report⟩, passed⟩ := h
      exact ⟨before, spot, after, walk, passed, bad, report⟩
    · intro h
      obtain ⟨before, spot, after, walk, passed, bad, report⟩ := h
      exact ⟨before, spot, after, walk, ⟨bad, report⟩, passed⟩

example :
    let value : Value := .array [.int 1, .dict [("b", .int 2), ("c d", .ref ⟨"E", ⟨1, 1⟩⟩)]]
    (Entry.mk "a" value).markup = .error (Spot.name "c d").report := rfl

end TypedConfig
