import TypedConfig.Proofs.Resolving.Occurrences

namespace TypedConfig

theorem firstRef?_of_meaning? {declarations : List Declaration} {name : String} {v : Value}
    (h : meaning? declarations name = some v) : v.firstRef? = none := by
  induction declarations generalizing name v with
  | nil => cases h
  | cons d earlier ih =>
    unfold meaning? at h
    split at h
    · exact Value.firstRef?_of_substitute? (fun _ _ => ih) h
    · exact ih h

namespace ConstantTable

/-- The table of `earlier`, of which the latest comes first. -/
structure Represents (table : ConstantTable) (earlier : List Declaration) : Prop where
  names : table.constants.map Constant.name = (earlier.map Declaration.name).reverse
  find : ∀ name, table.find? name = (meaning? earlier name).map fun v => ⟨name, v, v.depth⟩

variable {table table' : ConstantTable} {earlier : List Declaration} {limit : Nat}

theorem represents_empty : empty.Represents [] := ⟨rfl, fun _ => rfl⟩

theorem Represents.get?_eq (h : table.Represents earlier) : table.get? = meaning? earlier := by
  funext name
  rw [get?, h.find]
  cases meaning? earlier name <;> rfl

theorem Represents.find?_eq_none_iff (h : table.Represents earlier) {name : String} :
    table.find? name = none ↔ name ∉ earlier.map Declaration.name := by
  rw [← List.mem_reverse, ← h.names]
  simp [find?]

theorem Represents.refusal?_eq (h : table.Represents earlier) (enclosing : Nat) (r : Reference) :
    r.refusal? table limit enclosing = r.offence? earlier limit enclosing := by
  unfold Reference.refusal? Reference.offence?
  rw [h.find]
  cases meaning? earlier r.name <;> rfl

theorem Represents.firstRefusal?_eq (h : table.Represents earlier) (v : Value) :
    Value.firstRefusal? table limit (v.occurrences 0) = v.offence? earlier limit := by
  simp only [Value.firstRefusal?, Value.offence?, h.refusal?_eq]

theorem Represents.failure?_resolve (h : table.Represents earlier) (v : Value) :
    failure? (v.resolve table limit) = v.offence? earlier limit := by
  rw [Value.resolve, Value.failure?_resolveWithin, h.firstRefusal?_eq]

theorem Represents.resolve_eq_ok_iff (h : table.Represents earlier) {v w : Value} :
    v.resolve table limit = .ok w ↔
      v.offence? earlier limit = none ∧ v.substitute? (meaning? earlier) = some w := by
  rw [Value.resolve_eq_ok_iff, h.firstRefusal?_eq, h.get?_eq]

theorem declare_substituted {d : Declaration} {w : Value}
    (new : table.find? d.name = none)
    (replaced : d.value.substitute? (meaning? earlier) = some w) :
    table.declare { d with value := w } =
      .ok ⟨table.constants ++ [⟨d.name, w, w.depth⟩]⟩ := by
  have closed : w.firstRef? = none :=
    Value.firstRef?_of_substitute? (fun _ _ => firstRef?_of_meaning?) replaced
  exact declare_eq_ok_iff.mpr ⟨new, closed, rfl⟩

theorem Represents.addDeclaration_eq (h : table.Represents earlier) (d : Declaration) :
    table.addDeclaration limit d =
      if d.name ∈ earlier.map Declaration.name then .error (duplicate d.name d.position)
      else do
        let w ← d.value.resolve table limit
        return ⟨table.constants ++ [⟨d.name, w, w.depth⟩]⟩ := by
  unfold addDeclaration ensureUndeclared
  cases found : table.find? d.name with
  | none =>
    rw [if_neg (h.find?_eq_none_iff.mp found)]
    cases resolved : d.value.resolve table limit with
    | error e => rfl
    | ok w => exact declare_substituted found (h.resolve_eq_ok_iff.mp resolved).2
  | some c =>
    have used : d.name ∈ earlier.map Declaration.name := by
      apply Decidable.byContradiction
      intro new
      rw [h.find?_eq_none_iff.mpr new] at found
      cases found
    rw [if_pos used]
    rfl

theorem Represents.failure?_addDeclaration (h : table.Represents earlier) (d : Declaration) :
    failure? (table.addDeclaration limit d) = d.offence? earlier limit := by
  rw [h.addDeclaration_eq, Declaration.offence?]
  split
  · rfl
  · exact (failure?_bind_pure _ _).trans (h.failure?_resolve d.value)

theorem Represents.addDeclaration_ok (h : table.Represents earlier) {d : Declaration}
    (added : table.addDeclaration limit d = .ok table') :
    ∃ w, d.value.resolve table limit = .ok w ∧
      table' = ⟨table.constants ++ [⟨d.name, w, w.depth⟩]⟩ ∧ table'.Represents (d :: earlier) := by
  rw [h.addDeclaration_eq] at added
  split at added
  · cases added
  · rename_i new
    obtain ⟨w, resolved, added⟩ := bind_eq_ok_iff.mp added
    cases added
    refine ⟨w, resolved, rfl, ?_, ?_⟩
    · simp [h.names]
    · intro name
      have replaced := (h.resolve_eq_ok_iff.mp resolved).2
      rw [find?_append]
      by_cases same : d.name = name
      · subst same
        have unknown : find? ⟨table.constants⟩ d.name = none := h.find?_eq_none_iff.mpr new
        rw [unknown, meaning?, if_pos rfl, replaced]
        simp [find?]
      · have earlier' : find? ⟨table.constants⟩ name = _ := h.find name
        rw [earlier', meaning?, if_neg same]
        simp [find?, same]

end ConstantTable

open ConstantTable

theorem failure?_resolve_after {table : ConstantTable} {earlier : List Declaration} {limit : Nat}
    (h : table.Represents earlier) (declarations : List Declaration) (e : Entry) :
    failure? (do
      let table ← declarations.foldlM (addDeclaration limit) table
      let value ← e.value.resolve table limit
      return (table, Entry.mk e.name value)) =
        firstOffence? limit e.value earlier declarations := by
  induction declarations generalizing table earlier with
  | nil => exact (failure?_bind_pure _ _).trans (h.failure?_resolve e.value)
  | cons d declarations ih =>
    rw [firstOffence?, ← h.failure?_addDeclaration d, List.foldlM_cons, bind_assoc]
    apply failure?_bind
    intro table' added
    obtain ⟨w, -, -, h'⟩ := h.addDeclaration_ok added
    exact ih h'

theorem represents_of_foldlM {table table' : ConstantTable} {earlier : List Declaration}
    {limit : Nat} (h : table.Represents earlier) {declarations : List Declaration}
    (built : declarations.foldlM (addDeclaration limit) table = .ok table') :
    table'.Represents (declarations.reverse ++ earlier) := by
  induction declarations generalizing table earlier with
  | nil => cases built; exact h
  | cons d declarations ih =>
    rw [List.foldlM_cons] at built
    obtain ⟨next, added, rest⟩ := bind_eq_ok_iff.mp built
    obtain ⟨w, -, -, h'⟩ := h.addDeclaration_ok added
    have represented := ih h' rest
    rwa [List.reverse_cons, List.append_assoc]

namespace Document

theorem failure?_resolve (d : Document) (limit : Nat) :
    failure? (d.resolve limit) = d.offence? limit :=
  failure?_resolve_after represents_empty d.constants d.entry

theorem resolve_ok {d : Document} {limit : Nat} {table : ConstantTable} {entry : Entry}
    (h : d.resolve limit = .ok (table, entry)) :
    d.constants.foldlM (addDeclaration limit) .empty = .ok table ∧
      table.Represents d.constants.reverse ∧ d.entry.value.resolve table limit = .ok entry.value ∧
      entry.name = d.entry.name := by
  obtain ⟨built, tables, h⟩ := bind_eq_ok_iff.mp h
  obtain ⟨value, resolved, h⟩ := bind_eq_ok_iff.mp h
  cases h
  have represented := represents_of_foldlM represents_empty tables
  rw [List.append_nil] at represented
  exact ⟨tables, represented, resolved, rfl⟩

end Document

end TypedConfig
