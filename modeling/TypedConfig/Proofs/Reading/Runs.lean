import TypedConfig.Proofs.Reading.Steps

namespace TypedConfig

namespace Draft

/-- What a token at `p` can make of a document that is being read. -/
inductive Step (p : Position) : Draft → Token → Draft → Prop where
  | keyword (constants : List Declaration) : Step p (preamble constants) .var (keyword constants)
  | entry (constants : List Declaration) (name : String) :
    Step p (preamble constants) (.name name) (value constants (.entry name) .start)
  | declaration (constants : List Declaration) {t : Token} (name : String)
    (h : t.asName? = some name) :
    Step p (keyword constants) t (value constants (.declaration name p) .start)
  | entryValue (constants : List Declaration) {t : Token} {progress : Progress}
    (h : ValueDraft.start.extend? t p = some progress) :
    Step p (keyword constants) t (ofProgress constants (.entry "var") progress)
  | value (constants : List Declaration) (subject : Subject) {draft : ValueDraft} {t : Token}
    {progress : Progress} (h : draft.extend? t p = some progress) :
    Step p (value constants subject draft) t (ofProgress constants subject progress)

theorem step_of_extend? {d d' : Draft} {t : Token} {p : Position} (h : d.extend? t p = some d') :
    Step p d t d' := by
  cases d with
  | preamble constants =>
    cases t <;> cases h
    · exact .entry constants _
    · exact .keyword constants
  | keyword constants =>
    cases named : t.asName? with
    | some name =>
      have start : d' = value constants (.declaration name p) .start := by
        simpa [extend?, named] using h.symm
      rw [start]
      exact .declaration constants name named
    | none =>
      have step : ∃ progress, ValueDraft.start.extend? t p = some progress ∧
          ofProgress constants (.entry "var") progress = d' := by
        simpa [extend?, named] using h
      obtain ⟨progress, taken, rfl⟩ := step
      exact .entryValue constants taken
  | value constants subject draft =>
    obtain ⟨progress, taken, rfl⟩ := Option.map_eq_some_iff.mp h
    exact .value constants subject taken
  | complete document => cases h

theorem extend?_keeps {limit : Nat} {d d' : Draft} {t : PlacedToken}
    (spelled : t.token.WellSpelled) (within : d.Within limit)
    (room : d.awaitsValue = true → t.token.opensContainer = true → d.containers < limit)
    (h : d.extend? t.token t.position = some d') :
    d'.Within limit ∧ ∃ mark : Mark, mark.Fits t ∧ d'.marks = d.marks ++ [mark] := by
  obtain ⟨token, p⟩ := t
  have step : Step p d token d' := step_of_extend? h
  cases step with
  | keyword constants => exact ⟨within, .free .var, Mark.fits_free.mpr rfl, rfl⟩
  | entry constants name =>
    refine ⟨⟨within, True.intro, True.intro⟩, .name name, ?_, ?_⟩
    · rw [Mark.fits_name, Token.ofWord, if_neg spelled.2]
    · simp [marks, Subject.marks, ValueDraft.marks, ValueDraft.start, Place.marks]
  | declaration constants name named =>
    refine ⟨⟨within, True.intro, True.intro⟩, .placedName name p, ?_, ?_⟩
    · exact Mark.fits_placedName.mpr ⟨(Token.eq_ofWord_of_asName? spelled named).symm, rfl⟩
    · simp [marks, Subject.marks, ValueDraft.marks, ValueDraft.start, Place.marks]
  | entryValue constants taken =>
    have start : ValueDraft.start.Within limit := ⟨True.intro, True.intro⟩
    obtain ⟨kept, mark, fits, marks⟩ := ValueDraft.extend?_keeps (t := ⟨token, p⟩) spelled start
      (fun _ opens => room rfl opens) taken
    refine ⟨ofProgress_within within kept, mark, fits, ?_⟩
    rw [marks_ofProgress, marks]
    simp [Draft.marks, Subject.marks, ValueDraft.marks, ValueDraft.start, Place.marks, Mark.name,
      Mark.free, Token.ofWord]
  | value constants subject taken =>
    obtain ⟨kept, mark, fits, marks⟩ :=
      ValueDraft.extend?_keeps (t := ⟨token, p⟩) spelled within.2 room taken
    refine ⟨ofProgress_within within.1 kept, mark, fits, ?_⟩
    rw [marks_ofProgress, marks, Draft.marks, List.append_assoc, List.append_assoc,
      List.append_assoc]

end Draft

namespace Session

def room (s : Session) : Nat := s.limit - s.depth

def acceptAll (s : Session) (d : Draft) (tokens : List PlacedToken) : Except Diagnostic Draft :=
  tokens.foldlM s.accept d

@[simp] theorem acceptAll_nil (s : Session) (d : Draft) : s.acceptAll d [] = .ok d := rfl

theorem acceptAll_cons (s : Session) (d : Draft) (t : PlacedToken) (tokens : List PlacedToken) :
    s.acceptAll d (t :: tokens) = s.accept d t >>= fun d => s.acceptAll d tokens := rfl

theorem accept_eq_ok_iff {s : Session} {d d' : Draft} {t : PlacedToken} :
    s.accept d t = .ok d' ↔
      (d.awaitsValue = true → t.token.opensContainer = true → d.containers < s.room) ∧
        d.extend? t.token t.position = some d' := by
  unfold accept room
  split
  · rename_i refused
    simp only [Bool.and_eq_true, decide_eq_true_eq] at refused
    obtain ⟨⟨awaits, opens⟩, deep⟩ := refused
    simp only [awaits, opens, reduceCtorEq, false_iff, forall_const]
    omega
  · rename_i allowed
    simp only [Bool.and_eq_true, decide_eq_true_eq, not_and] at allowed
    have enough : d.awaitsValue = true → t.token.opensContainer = true →
        d.containers < s.limit - s.depth := by
      intro awaits opens
      have := allowed ⟨awaits, opens⟩
      omega
    cases d.extend? t.token t.position with
    | some next => simp [eq_true enough]
    | none => simp

theorem accept_keeps {s : Session} {d d' : Draft} {t : PlacedToken}
    (spelled : t.token.WellSpelled) (within : d.Within s.room) (h : s.accept d t = .ok d') :
    d'.Within s.room ∧ ∃ mark : Mark, mark.Fits t ∧ d'.marks = d.marks ++ [mark] := by
  obtain ⟨room, taken⟩ := accept_eq_ok_iff.mp h
  exact Draft.extend?_keeps spelled within room taken

theorem acceptAll_keeps {s : Session} {d d' : Draft} {tokens : List PlacedToken}
    (spelled : ∀ t ∈ tokens, t.token.WellSpelled) (within : d.Within s.room)
    (h : s.acceptAll d tokens = .ok d') :
    d'.Within s.room ∧ ∃ marks, Written marks tokens ∧ d'.marks = d.marks ++ marks := by
  induction tokens generalizing d with
  | nil =>
    cases h
    exact ⟨within, [], .nil, by simp⟩
  | cons t tokens ih =>
    rw [acceptAll_cons] at h
    obtain ⟨next, first, rest⟩ := bind_eq_ok_iff.mp h
    obtain ⟨kept, mark, fits, marks⟩ := accept_keeps (spelled t (by simp)) within first
    obtain ⟨kept', more, written, marks'⟩ :=
      ih (fun u member => spelled u (List.mem_cons_of_mem t member)) kept rest
    refine ⟨kept', mark :: more, .cons fits written, ?_⟩
    rw [marks', marks, List.append_assoc, List.singleton_append]

def Outlook.IsQuiet : Outlook → Prop
  | .ending (.finish _) | .spent _ => True
  | .ending (.fault _ _) => False

theorem resume_eq_ok_iff {s : Session} {d : Draft} {last : Position} {tokens : List PlacedToken}
    {document : Document} :
    (s.resume d last tokens).1 = .ok document ↔
      Outlook.IsQuiet s.outlook ∧ s.acceptAll d tokens = .ok (.complete document) := by
  induction tokens generalizing d last with
  | nil =>
    rw [acceptAll_nil]
    unfold resume settle
    cases outlook : s.outlook with
    | ending ending => cases ending <;> cases d <;> simp [Outlook.IsQuiet, Draft.document?]
    | spent position => cases d <;> simp [Outlook.IsQuiet, Draft.document?]
  | cons t tokens ih =>
    rw [acceptAll_cons]
    unfold resume
    cases h : s.accept d t with
    | ok next => exact ih
    | error problem => simp [Bind.bind, Except.bind]

theorem resume_cons (s : Session) (d : Draft) (last : Position) (t : PlacedToken)
    (tokens : List PlacedToken) :
    (s.resume d last (t :: tokens)).1 =
      s.accept d t >>= fun next => (s.resume next t.position tokens).1 := by
  rw [resume]
  cases s.accept d t <;> rfl

theorem eq_of_accept_error {s : Session} {d : Draft} {t : PlacedToken} {e : Diagnostic}
    (h : s.accept d t = .error e) :
    e = tooDeep s.limit t.position ∨ e = d.expectation.diagnostic (some t.token) t.position := by
  unfold accept at h
  split at h
  · exact .inl (Except.error.inj h).symm
  · split at h
    · cases h
    · exact .inr (Except.error.inj h).symm

theorem eq_of_settle_error {s : Session} {d : Draft} {last : Position} {e : Diagnostic}
    (h : (s.settle d last).1 = .error e) :
    (∃ fault p, s.outlook = .ending (.fault fault p) ∧ e = fault.diagnostic p) ∨
      ∃ p, (s.outlook = .ending (.finish p) ∨ s.outlook = .spent p) ∧
        e = d.expectation.diagnostic none p ∧ d.document? = none := by
  unfold settle at h
  split at h
  · rename_i fault p faulty
    exact .inl ⟨fault, p, faulty, (Except.error.inj h).symm⟩
  · rename_i p finished
    split at h
    · cases h
    · rename_i incomplete
      exact .inr ⟨p, .inl finished, (Except.error.inj h).symm, incomplete⟩
  · rename_i p spent
    split at h
    · cases h
    · rename_i incomplete
      exact .inr ⟨p, .inr spent, (Except.error.inj h).symm, incomplete⟩

end Session

theorem Session.start_eq_ok_iff {source : String} {limit : Nat} {s : Session} :
    Session.start source limit = .ok s ↔
      s = ⟨limit, 0, (Scan.ofText source.toList).tokens,
          .ending (Scan.ofText source.toList).ending⟩ ∧
        ¬ ∃ fault p, Scan.ofText source.toList = ⟨[], .fault fault p⟩ := by
  unfold Session.start
  split
  · rename_i fault p scan
    simp [scan]
  · rename_i scanned
    have readable : ¬ ∃ fault p, Scan.ofText source.toList = ⟨[], .fault fault p⟩ := by
      intro h
      obtain ⟨fault, p, scan⟩ := h
      exact scanned fault p scan
    rw [and_iff_left readable, Except.ok.injEq]
    exact eq_comm

/-- A source parses when the session accepts all of its tokens and there is no fault after them. -/
theorem Document.parse_eq_ok_iff_acceptAll {source : String} {limit : Nat} {d : Document} :
    Document.parse source limit = .ok d ↔
      ∃ tokens finish, Scan.ofText source.toList = ⟨tokens, .finish finish⟩ ∧
        Session.acceptAll ⟨limit, 0, tokens, .ending (.finish finish)⟩ .start tokens =
          .ok (.complete d) := by
  unfold Document.parse
  rw [bind_eq_ok_iff]
  constructor
  · intro h
    obtain ⟨s, started, read⟩ := h
    obtain ⟨rfl, -⟩ := Session.start_eq_ok_iff.mp started
    obtain ⟨quiet, accepted⟩ := Session.resume_eq_ok_iff.mp read
    rcases scan : Scan.ofText source.toList with ⟨tokens, ending⟩
    rw [scan] at quiet accepted
    cases ending with
    | finish finish => exact ⟨tokens, finish, rfl, accepted⟩
    | fault fault p => exact quiet.elim
  · intro h
    obtain ⟨tokens, finish, scan, accepted⟩ := h
    refine ⟨⟨limit, 0, tokens, .ending (.finish finish)⟩, ?_, ?_⟩
    · rw [Session.start_eq_ok_iff, scan]
      simp
    · exact Session.resume_eq_ok_iff.mpr ⟨True.intro, accepted⟩

/-- A fault in the first lexeme is reported the same way as one that comes after tokens. -/
theorem Document.parse_eq_resume (source : String) (limit : Nat) :
    Document.parse source limit =
      (Session.resume ⟨limit, 0, (Scan.ofText source.toList).tokens,
        .ending (Scan.ofText source.toList).ending⟩ .start .origin
        (Scan.ofText source.toList).tokens).1 := by
  unfold Document.parse Session.start
  split
  · rename_i fault p scan
    rw [scan]
    rfl
  · rfl

end TypedConfig
