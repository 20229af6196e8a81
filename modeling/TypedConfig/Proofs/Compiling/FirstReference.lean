import TypedConfig.Proofs.Resolving.Substitution
import TypedConfig.Proofs.Writing.JsonValues
import TypedConfig.Proofs.Writing.Offenders

namespace TypedConfig

def NamesFit (spots : List Spot) : Prop :=
  ∀ name, Spot.name name ∈ spots → IsElementName name

theorem namesFit_append {first later : List Spot} :
    NamesFit (first ++ later) ↔ NamesFit first ∧ NamesFit later := by
  simp only [NamesFit, List.mem_append, or_imp, forall_and]

theorem namesFit_cons_name {name : String} {later : List Spot} :
    NamesFit (.name name :: later) ↔ IsElementName name ∧ NamesFit later := by
  simp only [NamesFit, List.mem_cons, Spot.name.injEq, or_imp, forall_and, forall_eq]

theorem firstReport?_cons_name {name : String} (fits : IsElementName name) (later : List Spot) :
    firstReport? (.name name :: later) = firstReport? later := by
  have passed : (Spot.name name).offence? = none := Spot.offence?_eq_none_iff.mpr fits
  rw [firstReport?_cons, passed, Option.none_or]

namespace Value

mutual

theorem firstReport?_spots (v : Value) (fits : NamesFit v.spots) :
    firstReport? v.spots = v.firstRef?.map fun r => (Spot.reference r).report := by
  match v with
  | int n => rfl
  | ref r => rfl
  | array items => exact firstReport?_itemsSpots items fits
  | dict pairs => exact firstReport?_pairsSpots pairs fits

theorem firstReport?_itemsSpots (items : List Value) (fits : NamesFit (itemsSpots items)) :
    firstReport? (itemsSpots items) =
      (itemsFirstRef? items).map fun r => (Spot.reference r).report := by
  match items with
  | [] => rfl
  | item :: items =>
    have each := namesFit_append.mp fits
    rw [itemsSpots, firstReport?_append, firstReport?_spots item each.1,
      firstReport?_itemsSpots items each.2, itemsFirstRef?, Option.map_or]

theorem firstReport?_pairsSpots (pairs : List (String × Value))
    (fits : NamesFit (pairsSpots pairs)) :
    firstReport? (pairsSpots pairs) =
      (pairsFirstRef? pairs).map fun r => (Spot.reference r).report := by
  match pairs with
  | [] => rfl
  | (key, value) :: pairs =>
    rw [pairsSpots, List.cons_append] at fits ⊢
    have named := namesFit_cons_name.mp fits
    have each := namesFit_append.mp named.2
    rw [firstReport?_cons_name named.1, firstReport?_append, firstReport?_spots value each.1,
      firstReport?_pairsSpots pairs each.2, pairsFirstRef?, Option.map_or]

end

/-- The empty table knows no name, so the limit is never asked. -/
theorem resolve_empty_of_firstRef? {v : Value} {r : Reference} (first : v.firstRef? = some r)
    (limit : Nat) : v.resolve .empty limit = .error (ConstantTable.unknown r) := by
  obtain ⟨o, others, occurrences, rfl⟩ := firstRef?_eq_some_iff.mp first
  obtain ⟨enclosing, r⟩ := o
  apply failure?_eq_some_iff.mp
  rw [resolve, failure?_resolveWithin, occurrences, firstRefusal?_cons]
  rfl

theorem exists_resolve_empty_iff {v : Value} {limit : Nat} :
    (∃ w, v.resolve .empty limit = .ok w) ↔ v.firstRef? = none := by
  cases first : v.firstRef? with
  | none =>
    have resolved := resolve_of_occurrences (firstRef?_eq_none_iff.mp first) .empty limit
    simp [resolved]
  | some r => simp [resolve_empty_of_firstRef? first]

end Value

theorem ConstantTable.exists_declare_iff {t : ConstantTable} (d : Declaration)
    (new : d.name ∉ t.names) : (∃ t', t.declare d = .ok t') ↔ d.value.firstRef? = none := by
  cases first : d.value.firstRef? with
  | none => simp [declare_of_resolved new first]
  | some r => simp [declare_of_firstRef? new first]

theorem Entry.exportJson_of_firstRef? {e : Entry} {r : Reference}
    (first : e.value.firstRef? = some r) :
    e.exportJson =
      .error ⟨.unresolved r.name, some "Resolve the document before exporting it", some 402⟩ := by
  rw [exportJson, first]

theorem Entry.exists_exportJson_iff (e : Entry) :
    (∃ text, e.exportJson = .ok text) ↔ e.value.firstRef? = none := by
  cases first : e.value.firstRef? with
  | none => simp [exportJson, first]
  | some r => simp [exportJson_of_firstRef? first]

theorem Entry.markup_of_firstRef? {e : Entry} {r : Reference} (name : IsElementName e.name)
    (keys : NamesFit e.value.spots) (first : e.value.firstRef? = some r) :
    e.markup = .error (Spot.reference r).report := by
  apply failure?_eq_some_iff.mp
  rw [failure?_markup, spots, firstReport?_cons_name name, Value.firstReport?_spots e.value keys,
    first]
  rfl

/-- A value without references can be declared, resolved against the empty table and exported, and
all of these fail for the first reference if there is one. -/
theorem walks_stop_at_first_reference (v : Value) :
    (v.firstRef? = none ↔ v.isResolved = true) ∧
    (∀ (t : ConstantTable) (name : String) (p : Position), name ∉ t.names →
      (v.firstRef? = none ↔ ∃ t', t.declare ⟨name, v, p⟩ = .ok t')) ∧
    (v.firstRef? = none ↔ ∀ limit, ∃ w, v.resolve .empty limit = .ok w) ∧
    (∀ name, v.firstRef? = none ↔ ∃ text, (Entry.mk name v).exportJson = .ok text) ∧
    ∀ r, v.firstRef? = some r →
      (∃ enclosing others, v.occurrences 0 = (enclosing, r) :: others) ∧
      (∀ (t : ConstantTable) (name : String) (p : Position), name ∉ t.names →
        t.declare ⟨name, v, p⟩ =
          .error ⟨.unresolved r.name, some s!"Resolve '{name}' before declaring it", some 303⟩) ∧
      (∀ limit, v.resolve .empty limit = .error ⟨.unknownConstant r.name r.position,
        some "Constants must be declared with 'var' before they are used", some 302⟩) ∧
      (∀ name, (Entry.mk name v).exportJson =
        .error ⟨.unresolved r.name, some "Resolve the document before exporting it", some 402⟩) ∧
      ∀ name, IsElementName name → (∀ key, Spot.name key ∈ v.spots → IsElementName key) →
        (Entry.mk name v).markup = .error
          ⟨.unresolved r.name, some "Resolve the document before emitting it", some 402⟩ := by
  refine ⟨?_, ?_, ?_, ?_, ?_⟩
  · rw [Value.isResolved, Option.isNone_iff_eq_none]
  · intro t name p new
    exact (ConstantTable.exists_declare_iff ⟨name, v, p⟩ new).symm
  · simp only [Value.exists_resolve_empty_iff, forall_const]
  · intro name
    exact (Entry.exists_exportJson_iff ⟨name, v⟩).symm
  · intro r first
    refine ⟨?_, ?_, Value.resolve_empty_of_firstRef? first, ?_, ?_⟩
    · obtain ⟨o, others, occurrences, rfl⟩ := Value.firstRef?_eq_some_iff.mp first
      exact ⟨o.1, others, occurrences⟩
    · intro t name p new
      exact ConstantTable.declare_of_firstRef? new first
    · intro name
      exact Entry.exportJson_of_firstRef? first
    · intro name fits keys
      exact Entry.markup_of_firstRef? fits keys first

end TypedConfig
