import TypedConfig.Proofs.Resolving.Histories
import TypedConfig.Proofs.Resolving.Selection

namespace TypedConfig

namespace ConstantTable

variable {t : ConstantTable} {limit : Nat}

theorem Sound.refusal?_eq_none_iff (sound : t.Sound) {enclosing : Nat} {r : Reference} :
    r.refusal? t limit enclosing = none ↔
      ∃ m, t.get? r.name = some m ∧ enclosing + m.depth ≤ limit := by
  unfold Reference.refusal? get?
  cases found : t.find? r.name with
  | none => simp
  | some c => simp [sound.depth_of_find? found]

theorem Sound.firstRefusal?_eq_none_iff (sound : t.Sound) {occurrences : List (Nat × Reference)} :
    Value.firstRefusal? t limit occurrences = none ↔
      ∀ o ∈ occurrences, ∃ m, t.get? o.2.name = some m ∧ o.1 + m.depth ≤ limit := by
  rw [Value.firstRefusal?, List.findSome?_eq_none_iff]
  simp only [sound.refusal?_eq_none_iff]

theorem Sound.firstRef?_of_get? (sound : t.Sound) {name : String} {v : Value}
    (h : t.get? name = some v) : v.firstRef? = none := by
  obtain ⟨c, found, rfl⟩ := Option.map_eq_some_iff.mp h
  exact Value.firstRef?_eq_none_iff.mpr (sound.closed c (List.mem_of_find?_eq_some found))

end ConstantTable

open ConstantTable Value

/-- Against any table that calls can build, resolving succeeds when each reference is in the table
and its constant is shallow enough for the containers around it. -/
theorem resolve_is_bounded_substitution (calls : List Call) (v : Value) (limit : Nat) :
    ((∃ w, v.resolve (empty.run calls) limit = .ok w) ↔
      ∀ o ∈ v.occurrences 0, ∃ m,
        (empty.run calls).get? o.2.name = some m ∧ o.1 + m.depth ≤ limit) ∧
    ∀ w, v.resolve (empty.run calls) limit = .ok w →
      w.occurrences 0 = [] ∧
      v.substitute? (empty.run calls).get? = some w ∧
      w.depth = max v.depth (deepestUse (empty.run calls).get? (v.occurrences 0)) ∧
      w.depth ≤ max limit v.depth := by
  have sound := sound_empty.run calls
  constructor
  · rw [← sound.firstRefusal?_eq_none_iff, ← failure?_resolveWithin, failure?_eq_none_iff]
    rfl
  · intro w resolved
    obtain ⟨fits, replaced⟩ := resolve_eq_ok_iff.mp resolved
    have closed : w.firstRef? = none :=
      firstRef?_of_substitute? (fun _ _ => sound.firstRef?_of_get?) replaced
    have depth := depth_eq_max_of_substitute? replaced
    have uses := deepestUse_le_of_uses (sound.firstRefusal?_eq_none_iff.mp fits)
    refine ⟨firstRef?_eq_none_iff.mp closed, replaced, depth, ?_⟩
    rw [depth]
    omega

end TypedConfig

namespace TypedConfig

namespace Value

variable {meaning : String → Option Value}

mutual

theorem substitute?_of_occurrences {enclosing : Nat} (v : Value)
    (closed : v.occurrences enclosing = []) : v.substitute? meaning = some v := by
  match v with
  | int n => rfl
  | ref r => cases closed
  | array items =>
    rw [substitute?, substituteItems?_of_occurrences items closed]
    rfl
  | dict pairs =>
    rw [substitute?, substitutePairs?_of_occurrences pairs closed]
    rfl

theorem substituteItems?_of_occurrences {enclosing : Nat} (items : List Value)
    (closed : itemsOccurrences enclosing items = []) :
    substituteItems? meaning items = some items := by
  match items with
  | [] => rfl
  | item :: items =>
    have apart := List.append_eq_nil_iff.mp closed
    rw [substituteItems?, substitute?_of_occurrences item apart.1,
      substituteItems?_of_occurrences items apart.2]
    rfl

theorem substitutePairs?_of_occurrences {enclosing : Nat} (pairs : List (String × Value))
    (closed : pairsOccurrences enclosing pairs = []) :
    substitutePairs? meaning pairs = some pairs := by
  match pairs with
  | [] => rfl
  | (key, value) :: pairs =>
    have apart := List.append_eq_nil_iff.mp closed
    rw [substitutePairs?, substitute?_of_occurrences value apart.1,
      substitutePairs?_of_occurrences pairs apart.2]
    rfl

end

theorem resolve_of_occurrences {v : Value} (closed : v.occurrences 0 = []) (t : ConstantTable)
    (limit : Nat) : v.resolve t limit = .ok v := by
  apply resolve_eq_ok_iff.mpr
  rw [closed]
  exact ⟨rfl, substitute?_of_occurrences v closed⟩

end Value

namespace ConstantTable

variable {t t' : ConstantTable} {limit : Nat} {v w : Value}

def Extends (t' t : ConstantTable) : Prop :=
  ∀ name c, t.find? name = some c → t'.find? name = some c

theorem extends_run (t : ConstantTable) (calls : List Call) : (t.run calls).Extends t :=
  fun _ _ found => find?_run found calls

theorem Extends.refusal?_eq (grown : t'.Extends t) {r : Reference} (enclosing : Nat)
    (unknown : t.find? r.name = none → t'.find? r.name = none) :
    r.refusal? t' limit enclosing = r.refusal? t limit enclosing := by
  unfold Reference.refusal?
  cases found : t.find? r.name with
  | none => rw [unknown found]
  | some c => rw [grown r.name c found]

/-- The first refusal is the same one, unless it is for a name that has been declared since. -/
theorem Extends.firstRefusal?_eq (grown : t'.Extends t) (occurrences : List (Nat × Reference))
    (unknown : ∀ e name p, Value.firstRefusal? t limit occurrences = some e →
      e.problem = .unknownConstant name p → t'.find? name = none) :
    Value.firstRefusal? t' limit occurrences = Value.firstRefusal? t limit occurrences := by
  induction occurrences with
  | nil => rfl
  | cons o others ih =>
    obtain ⟨enclosing, r⟩ := o
    rw [Value.firstRefusal?_cons] at unknown
    have same : r.refusal? t' limit enclosing = r.refusal? t limit enclosing := by
      apply grown.refusal?_eq
      intro absent
      have refused : r.refusal? t limit enclosing = some (ConstantTable.unknown r) := by
        rw [Reference.refusal?, absent]
      rw [refused] at unknown
      exact unknown _ _ _ rfl rfl
    rw [Value.firstRefusal?_cons, Value.firstRefusal?_cons, same]
    cases refused : r.refusal? t limit enclosing with
    | some e => rfl
    | none =>
      rw [refused] at unknown
      exact congrArg (Option.or none) (ih unknown)

theorem Extends.failure?_resolve (grown : t'.Extends t)
    (unknown : ∀ e name p, v.resolve t limit = .error e → e.problem = .unknownConstant name p →
      t'.find? name = none) :
    failure? (v.resolve t' limit) = failure? (v.resolve t limit) := by
  have refused : failure? (v.resolve t limit) = Value.firstRefusal? t limit (v.occurrences 0) :=
    Value.failure?_resolveWithin 0 v
  rw [refused, Value.resolve, Value.failure?_resolveWithin]
  apply grown.firstRefusal?_eq
  intro e name p first
  rw [← refused] at first
  exact unknown e name p (failure?_eq_some_iff.mp first)

theorem Extends.resolve_ok (grown : t'.Extends t) (h : v.resolve t limit = .ok w) :
    v.resolve t' limit = .ok w := by
  obtain ⟨fits, replaced⟩ := Value.resolve_eq_ok_iff.mp h
  have named : ∀ o ∈ v.occurrences 0, (t.get? o.2.name).isSome = true := by
    rw [← Value.substitute?_isSome_iff, replaced]
    rfl
  have same : ∀ o ∈ v.occurrences 0, t'.get? o.2.name = t.get? o.2.name := by
    intro o occurs
    have known := named o occurs
    unfold get? at known ⊢
    cases found : t.find? o.2.name with
    | none =>
      rw [found] at known
      cases known
    | some c => rw [grown o.2.name c found]
  apply Value.resolve_eq_ok_iff.mpr
  constructor
  · rw [grown.firstRefusal?_eq _ (by simp [fits]), fits]
  · rw [Value.substitute?_congr 0 v same, replaced]

theorem Extends.resolve_error (grown : t'.Extends t) {e : Diagnostic}
    (h : v.resolve t limit = .error e)
    (unknown : ∀ name p, e.problem = .unknownConstant name p → t'.find? name = none) :
    v.resolve t' limit = .error e := by
  have same : failure? (v.resolve t' limit) = failure? (v.resolve t limit) := by
    apply grown.failure?_resolve
    intro problem name p failed reported
    rw [h] at failed
    cases failed
    exact unknown name p reported
  rw [h] at same
  exact failure?_eq_some_iff.mp same

theorem Sound.occurrences_of_resolve (sound : t.Sound) (h : v.resolve t limit = .ok w) :
    w.occurrences 0 = [] := by
  apply Value.firstRef?_eq_none_iff.mp
  exact Value.firstRef?_of_substitute? (fun _ _ => sound.firstRef?_of_get?)
    (Value.resolve_eq_ok_iff.mp h).2

end ConstantTable

open ConstantTable

/-- More calls to a table change no answer of resolving but that for a name which they declare. -/
theorem resolve_is_stable (calls later : List Call) (v : Value) (limit : Nat) :
    (∀ w, v.resolve (empty.run calls) limit = .ok w →
      v.resolve ((empty.run calls).run later) limit = .ok w ∧
      ∀ (t : ConstantTable) (limit' : Nat), w.resolve t limit' = .ok w) ∧
    (∀ e, v.resolve (empty.run calls) limit = .error e → e.IsDepth →
      v.resolve ((empty.run calls).run later) limit = .error e) ∧
    ∀ e name p, v.resolve (empty.run calls) limit = .error e →
      e.problem = .unknownConstant name p → name ∉ ((empty.run calls).run later).names →
        v.resolve ((empty.run calls).run later) limit = .error e := by
  have grown := extends_run (empty.run calls) later
  refine ⟨?_, ?_, ?_⟩
  · intro w resolved
    have closed := (sound_empty.run calls).occurrences_of_resolve resolved
    exact ⟨grown.resolve_ok resolved, Value.resolve_of_occurrences closed⟩
  · intro e failed deep
    apply grown.resolve_error failed
    intro name p reported
    obtain ⟨bound, q, problem⟩ := deep
    rw [problem] at reported
    cases reported
  · intro e name p failed reported absent
    apply grown.resolve_error failed
    intro name' p' reported'
    rw [reported] at reported'
    cases reported'
    exact find?_eq_none_iff.mpr absent

end TypedConfig
