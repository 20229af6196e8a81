import Mathlib.Data.List.Nodup
import TypedConfig.Document.Inline
import TypedConfig.Proofs.Except

namespace TypedConfig

theorem Value.firstRef?_eq_some_iff {v : Value} {r : Reference} :
    v.firstRef? = some r ↔ ∃ o others, v.occurrences 0 = o :: others ∧ o.2 = r := by
  rw [firstRef?_eq_head? 0]
  cases v.occurrences 0 <;> simp

theorem Value.firstRef?_eq_none_iff {v : Value} : v.firstRef? = none ↔ v.occurrences 0 = [] := by
  rw [firstRef?_eq_head? 0]
  cases v.occurrences 0 <;> simp

namespace ConstantTable

variable {t t' : ConstantTable} {d : Declaration} {e : Diagnostic}

theorem find?_eq_none_iff {name : String} : t.find? name = none ↔ name ∉ t.names := by
  simp [find?, names]

theorem declare_of_mem (used : d.name ∈ t.names) :
    t.declare d = .error (duplicate d.name d.position) := by
  unfold declare ensureUndeclared
  cases found : t.find? d.name with
  | none => exact absurd used (find?_eq_none_iff.mp found)
  | some c => rfl

theorem declare_of_firstRef? (new : d.name ∉ t.names) {r : Reference}
    (inner : d.value.firstRef? = some r) : t.declare d = .error (unresolved d.name r.name) := by
  unfold declare ensureUndeclared
  rw [find?_eq_none_iff.mpr new, inner]
  rfl

theorem declare_of_resolved (new : d.name ∉ t.names) (resolved : d.value.firstRef? = none) :
    t.declare d = .ok ⟨t.constants ++ [.ofDeclaration d]⟩ :=
  declare_eq_ok_iff.mpr ⟨find?_eq_none_iff.mpr new, resolved, rfl⟩

theorem declare_cases (t : ConstantTable) (d : Declaration) :
    (d.name ∈ t.names ∧ t.declare d = .error (duplicate d.name d.position)) ∨
    (d.name ∉ t.names ∧ ∃ o others, d.value.occurrences 0 = o :: others ∧
      t.declare d = .error (unresolved d.name o.2.name)) ∨
    (d.name ∉ t.names ∧ d.value.occurrences 0 = [] ∧
      t.declare d = .ok ⟨t.constants ++ [.ofDeclaration d]⟩) := by
  by_cases used : d.name ∈ t.names
  · exact .inl ⟨used, declare_of_mem used⟩
  cases inner : d.value.firstRef? with
  | none =>
    have closed := Value.firstRef?_eq_none_iff.mp inner
    exact .inr (.inr ⟨used, closed, declare_of_resolved used inner⟩)
  | some r =>
    obtain ⟨o, others, occurrences, rfl⟩ := Value.firstRef?_eq_some_iff.mp inner
    exact .inr (.inl ⟨used, o, others, occurrences, declare_of_firstRef? used inner⟩)

theorem step_declare_of_ok (h : t.declare d = .ok t') : t.step (.declare d) = (.ok .done, t') := by
  rw [step, h]

theorem step_declare_of_error (h : t.declare d = .error e) :
    t.step (.declare d) = (.error e, t) := by
  rw [step, h]

theorem step_declare_fails_iff (t : ConstantTable) (d : Declaration) :
    (∃ e, (t.step (.declare d)).1 = .error e) ↔
      d.name ∈ t.names ∨ d.value.occurrences 0 ≠ [] := by
  rcases t.declare_cases d with
    ⟨used, failed⟩ | ⟨-, o, others, inner, failed⟩ | ⟨new, closed, succeeded⟩
  · simp [step_declare_of_error failed, used]
  · simp [step_declare_of_error failed, inner]
  · simp [step_declare_of_ok succeeded, new, closed]

theorem problem_of_step_declare (h : (t.step (.declare d)).1 = .error e) :
    (d.name ∈ t.names ∧ e.problem = .duplicateConstant d.name d.position ∧ e.code = some 301) ∨
    (d.name ∉ t.names ∧ ∃ o others, d.value.occurrences 0 = o :: others ∧
      e.problem = .unresolved o.2.name ∧ e.code = some 303) := by
  rcases t.declare_cases d with
    ⟨used, failed⟩ | ⟨new, o, others, inner, failed⟩ | ⟨-, -, succeeded⟩
  · rw [step_declare_of_error failed] at h
    cases h
    exact .inl ⟨used, rfl, rfl⟩
  · rw [step_declare_of_error failed] at h
    cases h
    exact .inr ⟨new, o, others, inner, rfl, rfl⟩
  · rw [step_declare_of_ok succeeded] at h
    cases h

theorem step_of_error {call : Call} (h : (t.step call).1 = .error e) : (t.step call).2 = t := by
  cases call with
  | declare d =>
    cases declared : t.declare d with
    | ok table => rw [step_declare_of_ok declared] at h; cases h
    | error problem => rw [step_declare_of_error declared]
  | ensureUndeclared _ _ | lookup _ | lookupWithDepth _ | get _ | resolve _ _ => rfl

theorem constants_step (t : ConstantTable) (call : Call) :
    (t.step call).2.constants =
      t.constants ++ (t.declared? call).toList.map Constant.ofDeclaration := by
  cases call with
  | declare d =>
    rcases t.declare_cases d with ⟨-, failed⟩ | ⟨-, _, _, -, failed⟩ | ⟨-, -, succeeded⟩
    · simp [declared?, step_declare_of_error failed]
    · simp [declared?, step_declare_of_error failed]
    · simp [declared?, step_declare_of_ok succeeded]
  | ensureUndeclared _ _ | lookup _ | lookupWithDepth _ | get _ | resolve _ _ =>
    simp [step, declared?]

theorem constants_run (t : ConstantTable) (calls : List Call) :
    (t.run calls).constants = t.constants ++ (t.declared calls).map Constant.ofDeclaration := by
  induction calls generalizing t with
  | nil => simp [declared]
  | cons call calls ih =>
    rw [run_cons, ih, constants_step, declared, List.map_append, List.append_assoc]

/-- Names are distinct, no value refers to a constant, and the depths are those of the values. -/
structure Sound (t : ConstantTable) : Prop where
  distinct : t.names.Nodup
  closed : ∀ c ∈ t.constants, c.value.occurrences 0 = []
  depths : ∀ c ∈ t.constants, c.depth = c.value.depth

theorem sound_empty : empty.Sound where
  distinct := List.nodup_nil
  closed := by simp [empty]
  depths := by simp [empty]

theorem Sound.declare (sound : t.Sound) (new : d.name ∉ t.names)
    (closed : d.value.occurrences 0 = []) :
    Sound ⟨t.constants ++ [.ofDeclaration d]⟩ where
  distinct := by
    have apart : ∀ name ∈ t.names, name ≠ d.name := fun name member same => new (same ▸ member)
    have added : names ⟨t.constants ++ [.ofDeclaration d]⟩ = t.names ++ [d.name] := by
      simp [names, Constant.ofDeclaration]
    rw [added]
    exact sound.distinct.append (List.nodup_singleton d.name) (by simpa using new)
  closed :=
    List.forall_mem_append.mpr ⟨sound.closed, by simpa [Constant.ofDeclaration] using closed⟩
  depths := List.forall_mem_append.mpr ⟨sound.depths, by simp [Constant.ofDeclaration]⟩

theorem Sound.step (sound : t.Sound) (call : Call) : (t.step call).2.Sound := by
  cases call with
  | declare d =>
    rcases t.declare_cases d with ⟨-, failed⟩ | ⟨-, _, _, -, failed⟩ | ⟨new, closed, succeeded⟩
    · rw [step_declare_of_error failed]
      exact sound
    · rw [step_declare_of_error failed]
      exact sound
    · rw [step_declare_of_ok succeeded]
      exact sound.declare new closed
  | ensureUndeclared _ _ | lookup _ | lookupWithDepth _ | get _ | resolve _ _ => exact sound

theorem Sound.run (sound : t.Sound) (calls : List Call) : (t.run calls).Sound := by
  induction calls generalizing t with
  | nil => exact sound
  | cons call calls ih => exact ih (sound.step call)

theorem Sound.depth_of_find? (sound : t.Sound) {name : String} {c : Constant}
    (h : t.find? name = some c) : c.depth = c.value.depth :=
  sound.depths c (List.mem_of_find?_eq_some h)

theorem find?_run {name : String} {c : Constant} (h : t.find? name = some c) (calls : List Call) :
    (t.run calls).find? name = some c := by
  have grown := constants_run t calls
  have found := find?_append t.constants ((t.declared calls).map Constant.ofDeclaration) name
  have here : find? ⟨t.constants⟩ name = some c := h
  rw [← grown, here] at found
  exact found

theorem find?_of_declare (h : t.declare d = .ok t') :
    t'.find? d.name = some (.ofDeclaration d) := by
  obtain ⟨new, -, rfl⟩ := declare_eq_ok_iff.mp h
  have unknown : find? ⟨t.constants⟩ d.name = none := new
  rw [find?_append, unknown]
  simp [find?, Constant.ofDeclaration]

theorem declare_of_step (h : (t.step (.declare d)).1 = .ok .done) :
    ∃ table, t.declare d = .ok table := by
  cases declared : t.declare d with
  | ok table => exact ⟨table, rfl⟩
  | error problem => rw [step_declare_of_error declared] at h; cases h

/-- Once a declaration has succeeded, its name is found with its value from then on. -/
theorem find?_run_of_declare (h : (t.step (.declare d)).1 = .ok .done) (calls : List Call) :
    (t.run (.declare d :: calls)).find? d.name = some (.ofDeclaration d) := by
  obtain ⟨table, declared⟩ := declare_of_step h
  rw [run_cons, step_declare_of_ok declared]
  exact find?_run (find?_of_declare declared) calls

theorem lookup_of_find? {name : String} {c : Constant} (h : t.find? name = some c) (p : Position) :
    t.lookup ⟨name, p⟩ = .ok c := by
  simp [lookup, h]

theorem measured_of_step (sound : t.Sound) {r : Reference} {v : Value} {depth : Nat}
    (h : (t.step (.lookupWithDepth r)).1 = .ok (.measured v depth)) : depth = v.depth := by
  have looked : (t.lookup r).map (fun c => Answer.measured c.value c.depth) =
      .ok (.measured v depth) := h
  unfold lookup at looked
  cases found : t.find? r.name with
  | none => rw [found] at looked; cases looked
  | some c =>
    rw [found] at looked
    cases looked
    exact sound.depth_of_find? found

end ConstantTable

open ConstantTable

/-- After any calls the table holds the declarations that succeeded, in their order and each for
good. -/
theorem table_is_append_only (calls : List Call) :
    (empty.run calls).names.Nodup ∧
    (empty.run calls).names = (empty.declared calls).map Declaration.name ∧
    (empty.run calls).size = (empty.declared calls).length ∧
    (∀ c ∈ (empty.run calls).constants, c.value.occurrences 0 = []) ∧
    (∀ r v depth, ((empty.run calls).step (.lookupWithDepth r)).1 = .ok (.measured v depth) →
      depth = v.depth) ∧
    (∀ before d after, calls = before ++ .declare d :: after →
      ((empty.run before).step (.declare d)).1 = .ok .done →
        (empty.run calls).get? d.name = some d.value ∧
          ∀ p, (empty.run calls).lookup ⟨d.name, p⟩ = .ok ⟨d.name, d.value, d.value.depth⟩) ∧
    (∀ d, (∃ e, ((empty.run calls).step (.declare d)).1 = .error e) ↔
      d.name ∈ (empty.run calls).names ∨ d.value.occurrences 0 ≠ []) ∧
    (∀ d e, ((empty.run calls).step (.declare d)).1 = .error e →
      (d.name ∈ (empty.run calls).names ∧
        e.problem = .duplicateConstant d.name d.position ∧ e.code = some 301) ∨
      (d.name ∉ (empty.run calls).names ∧ ∃ o others, d.value.occurrences 0 = o :: others ∧
        e.problem = .unresolved o.2.name ∧ e.code = some 303)) ∧
    ∀ call e, ((empty.run calls).step call).1 = .error e →
      ((empty.run calls).step call).2 = empty.run calls := by
  have sound := sound_empty.run calls
  have grown := constants_run empty calls
  have kept : (empty.run calls).constants =
      (empty.declared calls).map Constant.ofDeclaration := by
    rw [grown]
    rfl
  refine ⟨sound.distinct, ?_, ?_, sound.closed, ?_, ?_, ?_, ?_, ?_⟩
  · rw [names, kept, List.map_map]
    rfl
  · rw [size, kept, List.length_map]
  · intro r v depth measured
    exact measured_of_step sound measured
  · intro before d after split succeeded
    have found : (empty.run calls).find? d.name = some (.ofDeclaration d) := by
      rw [split, run_append]
      exact find?_run_of_declare succeeded after
    constructor
    · rw [get?, found]
      rfl
    · intro p
      exact lookup_of_find? found p
  · intro d
    exact step_declare_fails_iff _ d
  · intro d e failed
    exact problem_of_step_declare failed
  · intro call e failed
    exact step_of_error failed

end TypedConfig
