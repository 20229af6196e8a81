import TypedConfig.Diagnostic

namespace TypedConfig

variable {ε α β : Type}

theorem bind_eq_ok_iff {x : Except ε α} {f : α → Except ε β} {b : β} :
    x >>= f = .ok b ↔ ∃ a, x = .ok a ∧ f a = .ok b := by
  cases x <;> simp [Bind.bind, Except.bind]

theorem bind_eq_error_iff {x : Except ε α} {f : α → Except ε β} {e : ε} :
    x >>= f = .error e ↔ x = .error e ∨ ∃ a, x = .ok a ∧ f a = .error e := by
  cases x <;> simp [Bind.bind, Except.bind]

theorem bind_eq_error_iff_of_ok {x : Except ε α} {f : α → Except ε β} {e : ε}
    (h : ∀ a, x = .ok a → ∃ b, f a = .ok b) : x >>= f = .error e ↔ x = .error e := by
  rw [bind_eq_error_iff, or_iff_left]
  intro failed
  obtain ⟨a, ok, failed⟩ := failed
  obtain ⟨b, succeeds⟩ := h a ok
  rw [succeeds] at failed
  cases failed

theorem map_eq_ok_iff {x : Except ε α} {f : α → β} {b : β} :
    x.map f = .ok b ↔ ∃ a, x = .ok a ∧ f a = b := by
  cases x <;> simp [Except.map]

theorem map_eq_error_iff {x : Except ε α} {f : α → β} {e : ε} :
    x.map f = .error e ↔ x = .error e := by
  cases x <;> simp [Except.map]

def failure? : Except ε α → Option ε
  | .error e => some e
  | .ok _ => none

theorem failure?_eq_none_iff {x : Except ε α} : failure? x = none ↔ ∃ a, x = .ok a := by
  cases x <;> simp [failure?]

theorem failure?_eq_some_iff {x : Except ε α} {e : ε} : failure? x = some e ↔ x = .error e := by
  cases x <;> simp [failure?]

theorem failure?_bind {x : Except ε α} {f : α → Except ε β} {later : Option ε}
    (h : ∀ a, x = .ok a → failure? (f a) = later) :
    failure? (x >>= f) = (failure? x).or later := by
  cases x with
  | error e => rfl
  | ok a => exact h a rfl

theorem failure?_bind_pure (x : Except ε α) (f : α → β) :
    failure? (do return f (← x)) = failure? x := by
  cases x <;> rfl

namespace Related

variable {ε' γ δ : Type} {S : ε → ε' → Prop} {T : ε → ε → Prop} {R : α → β → Prop}
  {Q : γ → δ → Prop}
  {x : Except ε α} {y : Except ε' β} {f : α → Except ε γ} {g : β → Except ε' δ}

theorem bind_of_ok (h : Related S R x y)
    (next : ∀ a b, x = .ok a → R a b → Related S Q (f a) (g b)) :
    Related S Q (x >>= f) (y >>= g) := by
  cases h with
  | ok related => exact next _ _ rfl related
  | error related => exact .error related

theorem refl (reflexive : ∀ e, T e e) (x : Except ε α) : Related T Eq x x := by
  cases x with
  | ok a => exact .ok rfl
  | error e => exact .error (reflexive e)

theorem bind (h : Related S R x y) (next : ∀ a b, R a b → Related S Q (f a) (g b)) :
    Related S Q (x >>= f) (y >>= g) :=
  h.bind_of_ok fun a b _ => next a b

theorem of_map_eq {f : ε → ε'} {g : α → γ} {x y : Except ε α}
    (h : (x.map g).mapError f = (y.map g).mapError f) :
    Related (fun e e' => f e = f e') (fun a b => g a = g b) x y := by
  cases x with
  | ok a =>
    cases y with
    | ok b => exact .ok (Except.ok.inj h)
    | error e => cases h
  | error e =>
    cases y with
    | ok b => cases h
    | error e' => exact .error (Except.error.inj h)

end Related

def Diagnostic.ExceedsLimit (limit : Nat) (e : Diagnostic) : Prop :=
  (∃ p, e.problem = .tooDeep limit p) ∧ (e.code = some 209 ∨ e.code = some 304)

structure Threshold (run : Nat → Except Diagnostic α) (bound : Nat) : Prop where
  below : ∀ limit < bound, ∃ e, run limit = .error e ∧ e.ExceedsLimit limit
  above : ∀ limit ≥ bound, run limit = run bound
  final : ∀ e, run bound = .error e → ¬ e.IsDepth

def HasThreshold (run : Nat → Except Diagnostic α) : Prop := ∃ bound, Threshold run bound

theorem hasThreshold_const {x : Except Diagnostic α} (h : ∀ e, x = .error e → ¬ e.IsDepth) :
    HasThreshold fun _ => x :=
  ⟨0, fun _ lt => absurd lt (Nat.not_lt_zero _), fun _ _ => rfl, h⟩

theorem hasThreshold_ok (a : α) : HasThreshold fun _ => .ok a :=
  hasThreshold_const (by simp)

/-- A check of the limit, and then a computation that does not depend on it. -/
theorem hasThreshold_check {bound : Nat} {failure : Nat → Diagnostic} {x : Except Diagnostic α}
    (deep : ∀ limit, (failure limit).ExceedsLimit limit) (h : ∀ e, x = .error e → ¬ e.IsDepth) :
    HasThreshold fun limit => if bound ≤ limit then x else .error (failure limit) := by
  refine ⟨bound, ?_, ?_, ?_⟩
  · intro limit lt
    exact ⟨failure limit, if_neg (Nat.not_le.mpr lt), deep limit⟩
  · intro limit ge
    rw [if_pos ge, if_pos (Nat.le_refl bound)]
  · rwa [if_pos (Nat.le_refl bound)]

theorem HasThreshold.bind_of_ok {first : Nat → Except Diagnostic α}
    {next : Nat → α → Except Diagnostic β} (hf : HasThreshold first)
    (hn : ∀ limit a, first limit = .ok a → HasThreshold fun limit => next limit a) :
    HasThreshold fun limit => first limit >>= next limit := by
  obtain ⟨bound, hf⟩ := hf
  cases reached : first bound with
  | error e =>
    -- What comes next is never reached, so the bound is that of the first computation.
    have fails : ∀ limit ≥ bound, (first limit >>= next limit) = .error e := by
      intro limit ge
      rw [hf.above limit ge, reached]
      rfl
    refine ⟨bound, ?_, ?_, ?_⟩
    · intro limit lt
      obtain ⟨problem, failed, deep⟩ := hf.below limit lt
      exact ⟨problem, by rw [failed]; rfl, deep⟩
    · intro limit ge
      rw [fails limit ge, fails bound (Nat.le_refl bound)]
    · intro problem failed
      rw [fails bound (Nat.le_refl bound)] at failed
      cases failed
      exact hf.final e reached
  | ok a =>
    -- From `bound` on the first result is the same, so the second bound is asked for once.
    obtain ⟨bound', hn⟩ := hn bound a reached
    have goes : ∀ limit ≥ bound, (first limit >>= next limit) = next limit a := by
      intro limit ge
      rw [hf.above limit ge, reached]
      rfl
    have left : max bound bound' ≥ bound := Nat.le_max_left bound bound'
    have right : max bound bound' ≥ bound' := Nat.le_max_right bound bound'
    refine ⟨max bound bound', ?_, ?_, ?_⟩
    · intro limit lt
      by_cases ge : limit ≥ bound
      · rw [goes limit ge]
        exact hn.below limit (by omega)
      · obtain ⟨problem, failed, deep⟩ := hf.below limit (by omega)
        exact ⟨problem, by rw [failed]; rfl, deep⟩
    · intro limit ge
      rw [goes limit (by omega), goes _ left, hn.above limit (by omega), hn.above _ right]
    · intro problem failed
      rw [goes _ left, hn.above _ right] at failed
      exact hn.final problem failed

theorem HasThreshold.bind {first : Nat → Except Diagnostic α}
    {next : Nat → α → Except Diagnostic β} (hf : HasThreshold first)
    (hn : ∀ a, HasThreshold fun limit => next limit a) :
    HasThreshold fun limit => first limit >>= next limit :=
  hf.bind_of_ok fun _ a _ => hn a

theorem HasThreshold.map {run : Nat → Except Diagnostic α} (h : HasThreshold run) (f : α → β) :
    HasThreshold fun limit => do return f (← run limit) :=
  h.bind fun a => hasThreshold_ok (f a)

theorem HasThreshold.foldlM {step : Nat → β → α → Except Diagnostic β}
    (h : ∀ b a, HasThreshold fun limit => step limit b a) (list : List α) (b : β) :
    HasThreshold fun limit => list.foldlM (step limit) b := by
  induction list generalizing b with
  | nil => exact hasThreshold_ok b
  | cons a list ih =>
    simp only [List.foldlM_cons]
    exact (h b a).bind ih

end TypedConfig
