import TypedConfig.Proofs.Compiling.Outputs
import TypedConfig.Proofs.Resolving.Inlining

namespace TypedConfig

theorem LexicalFault.diagnostic_not_depth (fault : LexicalFault) (p : Position) :
    ¬ (fault.diagnostic p).IsDepth := by
  intro h
  obtain ⟨limit, q, problem⟩ := h
  cases fault <;> cases problem

theorem Expectation.diagnostic_not_depth (e : Expectation) (found : Option Token) (p : Position) :
    ¬ (e.diagnostic found p).IsDepth := by
  intro h
  obtain ⟨limit, q, problem⟩ := h
  unfold diagnostic at problem
  cases found with
  | none => cases problem
  | some token => cases advice : e.advice? (some token) <;> rw [advice] at problem <;> cases problem

/-- The draft with one token more, whatever its depth. -/
def Draft.take (d : Draft) (t : PlacedToken) : Except Diagnostic Draft :=
  match d.extend? t.token t.position with
  | some next => .ok next
  | none => .error (d.expectation.diagnostic (some t.token) t.position)

theorem Draft.take_not_depth {d : Draft} {t : PlacedToken} {e : Diagnostic}
    (h : d.take t = .error e) : ¬ e.IsDepth := by
  unfold take at h
  split at h
  · cases h
  · cases h
    exact Expectation.diagnostic_not_depth _ _ _

namespace Session

variable {depth : Nat} {waiting : List PlacedToken} {outlook : Outlook}

theorem accept_of_opens {d : Draft} {t : PlacedToken}
    (opens : (d.awaitsValue && t.token.opensContainer) = true) (s : Session) :
    s.accept d t = if s.depth + d.containers + 1 ≤ s.limit then d.take t
      else .error (tooDeep s.limit t.position) := by
  unfold accept
  by_cases enough : s.depth + d.containers + 1 ≤ s.limit
  · have shallow : ¬ s.limit ≤ s.depth + d.containers := by omega
    simp only [shallow, enough, decide_false, Bool.and_false, Bool.false_eq_true, if_false, if_true]
    rfl
  · have deep : s.limit ≤ s.depth + d.containers := by omega
    simp [opens, deep, enough]

theorem accept_of_not_opens {d : Draft} {t : PlacedToken}
    (closed : (d.awaitsValue && t.token.opensContainer) = false) (s : Session) :
    s.accept d t = d.take t := by
  simp only [accept, closed, Bool.false_and, Bool.false_eq_true, if_false]
  rfl

theorem hasThreshold_accept (d : Draft) (t : PlacedToken) :
    HasThreshold fun limit => accept ⟨limit, depth, waiting, outlook⟩ d t := by
  have taken : ∀ e, d.take t = .error e → ¬ e.IsDepth := fun _ => Draft.take_not_depth
  cases opens : d.awaitsValue && t.token.opensContainer with
  | true =>
    simp only [accept_of_opens opens]
    exact hasThreshold_check (fun limit => ⟨⟨t.position, rfl⟩, .inl rfl⟩) taken
  | false =>
    simp only [accept_of_not_opens opens]
    exact hasThreshold_const taken

theorem settle_not_depth {s : Session} {d : Draft} {last : Position} {e : Diagnostic}
    (h : (s.settle d last).1 = .error e) : ¬ e.IsDepth := by
  rcases eq_of_settle_error h with ⟨fault, p, -, rfl⟩ | ⟨p, -, rfl, -⟩
  · exact fault.diagnostic_not_depth p
  · exact d.expectation.diagnostic_not_depth none p

theorem hasThreshold_settle (d : Draft) (last : Position) :
    HasThreshold fun limit => (settle ⟨limit, depth, waiting, outlook⟩ d last).1 := by
  have unlimited : ∀ limit, (settle ⟨limit, depth, waiting, outlook⟩ d last).1 =
      (settle ⟨0, depth, waiting, outlook⟩ d last).1 := by
    intro limit
    unfold settle
    rcases outlook with ⟨_ | _⟩ | _ <;> first | rfl | cases d <;> rfl
  simp only [unlimited]
  exact hasThreshold_const fun _ => settle_not_depth

theorem hasThreshold_resume (d : Draft) (last : Position) (tokens : List PlacedToken) :
    HasThreshold fun limit => (resume ⟨limit, depth, waiting, outlook⟩ d last tokens).1 := by
  induction tokens generalizing d last with
  | nil => exact hasThreshold_settle d last
  | cons t tokens ih =>
    simp only [resume_cons]
    exact (hasThreshold_accept d t).bind fun next => ih next t.position

end Session

theorem hasThreshold_parse (source : String) : HasThreshold (Document.parse source) := by
  have resumed : Document.parse source = fun limit => _ := funext (Document.parse_eq_resume source)
  rw [resumed]
  exact Session.hasThreshold_resume _ _ _

namespace ConstantTable

theorem ensureUndeclared_not_depth {t : ConstantTable} {name : String} {p : Position}
    {e : Diagnostic} (h : t.ensureUndeclared name p = .error e) : ¬ e.IsDepth := by
  unfold ensureUndeclared at h
  split at h
  · cases h
    rintro ⟨limit, q, problem⟩
    cases problem
  · cases h

theorem declare_not_depth {t : ConstantTable} {d : Declaration} {e : Diagnostic}
    (h : t.declare d = .error e) : ¬ e.IsDepth := by
  rcases bind_eq_error_iff.mp h with used | ⟨_, -, inner⟩
  · exact ensureUndeclared_not_depth used
  · split at inner
    · cases inner
      rintro ⟨limit, p, problem⟩
      cases problem
    · cases inner

theorem lookup_not_depth {t : ConstantTable} {r : Reference} {e : Diagnostic}
    (h : t.lookup r = .error e) : ¬ e.IsDepth := by
  unfold lookup at h
  split at h
  · cases h
  · cases h
    rintro ⟨limit, p, problem⟩
    cases problem

end ConstantTable

theorem Reference.hasThreshold_resolve (r : Reference) (table : ConstantTable) (enclosing : Nat) :
    HasThreshold fun limit => r.resolve table limit enclosing := by
  apply (hasThreshold_const fun _ => ConstantTable.lookup_not_depth).bind
  intro c
  have deep : ∀ limit, (r.tooDeep limit c.depth enclosing).ExceedsLimit limit :=
    fun limit => ⟨⟨r.position, rfl⟩, .inr rfl⟩
  exact hasThreshold_check deep (by simp)

namespace Value

variable (table : ConstantTable)

mutual

theorem hasThreshold_resolveWithin (enclosing : Nat) (v : Value) :
    HasThreshold fun limit => v.resolveWithin table limit enclosing := by
  cases v with
  | int n => exact hasThreshold_ok (int n)
  | ref r => exact r.hasThreshold_resolve table enclosing
  | array items => exact (hasThreshold_resolveItems (enclosing + 1) items).map array
  | dict pairs => exact (hasThreshold_resolvePairs (enclosing + 1) pairs).map dict

theorem hasThreshold_resolveItems (enclosing : Nat) (items : List Value) :
    HasThreshold fun limit => resolveItems table limit enclosing items := by
  cases items with
  | nil => exact hasThreshold_ok []
  | cons item items =>
    apply (hasThreshold_resolveWithin enclosing item).bind
    intro item'
    exact (hasThreshold_resolveItems enclosing items).map fun items' => item' :: items'

theorem hasThreshold_resolvePairs (enclosing : Nat) (pairs : List (String × Value)) :
    HasThreshold fun limit => resolvePairs table limit enclosing pairs := by
  match pairs with
  | [] => exact hasThreshold_ok []
  | (key, value) :: pairs =>
    apply (hasThreshold_resolveWithin enclosing value).bind
    intro value'
    exact (hasThreshold_resolvePairs enclosing pairs).map fun pairs' => (key, value') :: pairs'

end

end Value

theorem ConstantTable.hasThreshold_addDeclaration (table : ConstantTable) (d : Declaration) :
    HasThreshold fun limit => table.addDeclaration limit d := by
  apply (hasThreshold_const fun _ => ensureUndeclared_not_depth).bind
  intro _
  apply (d.value.hasThreshold_resolveWithin table 0).bind
  intro value
  exact hasThreshold_const fun _ => declare_not_depth

theorem Document.hasThreshold_resolve (d : Document) : HasThreshold d.resolve := by
  have built : HasThreshold fun limit =>
      d.constants.foldlM (ConstantTable.addDeclaration limit) .empty :=
    HasThreshold.foldlM ConstantTable.hasThreshold_addDeclaration d.constants .empty
  apply built.bind
  intro table
  exact (d.entry.value.hasThreshold_resolveWithin table 0).map fun value =>
    (table, Entry.mk d.entry.name value)

theorem hasThreshold_entryOf (source : String) : HasThreshold (entryOf source) := by
  apply (hasThreshold_parse source).bind
  intro d
  exact d.hasThreshold_resolve.map Prod.snd

theorem hasThreshold_compile (source : String) : HasThreshold (compile source) := by
  apply (hasThreshold_entryOf source).bind_of_ok
  intro limit entry found
  obtain ⟨xml, written⟩ := Entry.exists_markup (Entry.writable_of_entryOf found)
  rw [written]
  exact hasThreshold_ok xml

theorem bound_is_depth {source : String} {bound : Nat} (h : Threshold (compile source) bound)
    {xml : String} (compiled : compile source bound = .ok xml) :
    ∃ d table entry, Document.parse source bound = .ok d ∧
      d.resolve bound = .ok (table, entry) ∧ entry.markup = .ok xml ∧
      (∀ c ∈ table.constants, c.value.depth ≤ bound) ∧ entry.value.depth ≤ bound ∧
      ((∃ c ∈ table.constants, c.value.depth = bound) ∨ entry.value.depth = bound) := by
  obtain ⟨entry, found, written⟩ := bind_eq_ok_iff.mp compiled
  obtain ⟨d, parsed, resolves⟩ := bind_eq_ok_iff.mp found
  obtain ⟨⟨table, entry'⟩, resolved, same⟩ := bind_eq_ok_iff.mp resolves
  cases same
  obtain ⟨tokens, finish, scan, spelled, within⟩ := Document.parse_eq_ok_iff_written.mp parsed
  obtain ⟨constants, value⟩ := Document.depth_le_of_resolve resolved within.1 within.2
  refine ⟨d, table, entry', parsed, resolved, written, constants, value, ?_⟩
  apply Decidable.byContradiction
  intro none
  -- Otherwise a smaller limit would do for every step, but below the bound compiling fails.
  have lower : ∀ n ≤ bound, n ≠ bound → n ≤ bound - 1 := by omega
  have less : bound - 1 < bound := by
    have apart : entry'.value.depth ≠ bound := fun eq => none (.inr eq)
    omega
  obtain ⟨inlinable, fits⟩ := Document.fits_of_resolve resolved
    (fun c member => lower _ (constants c member) fun eq => none (.inl ⟨c, member, eq⟩))
    (lower _ value fun eq => none (.inr eq))
  have parsed' : Document.parse source (bound - 1) = .ok d :=
    Document.parse_eq_ok_iff_written.mpr ⟨tokens, finish, scan, spelled, fits⟩
  obtain ⟨table', entry'', resolved'⟩ := Document.exists_resolve_iff.mpr inlinable
  obtain ⟨e, failed, -⟩ := h.below (bound - 1) less
  have succeeds : entryOf source (bound - 1) = .ok entry'' := by
    simp [entryOf, parsed', resolved', Bind.bind, Except.bind, Pure.pure, Except.pure]
  rw [compile_eq_error_iff, succeeds] at failed
  cases failed

/-- With a limit below the bound a source fails for its depth, and with any other limit its outcome
is one and the same. If it compiles, the bound is the depth of the deepest constant or entry. -/
theorem depth_limit_is_threshold (source : String) :
    ∃ bound,
      (∀ limit < bound, ∃ e p, compile source limit = .error e ∧ e.problem = .tooDeep limit p ∧
        (e.code = some 209 ∨ e.code = some 304)) ∧
      (∀ limit ≥ bound, compile source limit = compile source bound) ∧
      (∀ e, compile source bound = .error e → ∀ limit p, e.problem ≠ .tooDeep limit p) ∧
      ∀ xml, compile source bound = .ok xml →
        ∃ d table entry, Document.parse source bound = .ok d ∧
          d.resolve bound = .ok (table, entry) ∧ entry.markup = .ok xml ∧
          (∀ c ∈ table.constants, c.value.depth ≤ bound) ∧ entry.value.depth ≤ bound ∧
          ((∃ c ∈ table.constants, c.value.depth = bound) ∨ entry.value.depth = bound) := by
  obtain ⟨bound, threshold⟩ := hasThreshold_compile source
  refine ⟨bound, ?_, threshold.above, ?_, ?_⟩
  · intro limit lt
    obtain ⟨e, failed, ⟨p, problem⟩, code⟩ := threshold.below limit lt
    exact ⟨e, p, failed, problem, code⟩
  · intro e failed limit p problem
    exact threshold.final e failed ⟨limit, p, problem⟩
  · intro xml compiled
    exact bound_is_depth threshold compiled

end TypedConfig
