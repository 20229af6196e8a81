import TypedConfig.Proofs.Reading.Shifting

namespace TypedConfig

def Progress.containers : Progress → Nat
  | more draft => draft.containers
  | done _ => 0

theorem Progress.containers_ofValue (v : Value) (frames : List Frame) :
    (ofValue v frames).containers = frames.length := by
  match frames with
  | [] => rfl
  | .array items :: frames => rfl
  | .dict pairs key :: frames => rfl

theorem Draft.containers_ofProgress (constants : List Declaration) (subject : Subject)
    (progress : Progress) :
    (ofProgress constants subject progress).containers = progress.containers := by
  cases progress with
  | more draft => rfl
  | done v => cases subject <;> rfl

theorem Token.free_of_asName? {t : Token} {name : String} (h : t.asName? = some name) :
    t.opensContainer = false ∧ t.closesContainer = false := by
  cases t <;> first | exact ⟨rfl, rfl⟩ | cases h

namespace ValueDraft

variable {frames : List Frame} {t : Token} {progress : Progress}

theorem containers_of_startValue? (h : startValue? frames t = some progress) :
    frames.length + t.opensContainer.toNat = progress.containers ∧ t.closesContainer = false := by
  cases t <;> cases h
  · exact ⟨(Progress.containers_ofValue _ frames).symm, rfl⟩
  all_goals exact ⟨rfl, rfl⟩

theorem containers_of_readKey? {pairs : List (String × Value)}
    (h : readKey? frames pairs t = some progress) :
    progress.containers = frames.length + 1 ∧ t.opensContainer = false ∧
      t.closesContainer = false := by
  obtain ⟨key, named, rfl⟩ := Option.map_eq_some_iff.mp h
  exact ⟨rfl, Token.free_of_asName? named⟩

/-- A draft counts the brackets that it has been given. -/
theorem containers_of_extend? {d : ValueDraft} {p : Position}
    (h : d.extend? t p = some progress) :
    d.containers + t.opensContainer.toNat = progress.containers + t.closesContainer.toNat := by
  obtain ⟨frames, place⟩ := d
  cases step_of_extend? h with
  | value h | firstItem h =>
    obtain ⟨count, closes⟩ := containers_of_startValue? h
    rw [closes]
    exact count
  | firstKey h | key h =>
    obtain ⟨count, opens, closes⟩ := containers_of_readKey? h
    rw [count, opens, closes]
    rfl
  | emptyArray | closeArray _ | emptyDict | closeDict _ | refClose _ =>
    rw [Progress.containers_ofValue]
    rfl
  | comma _ | colon _ _ | semicolon _ => rfl
  | refName name named =>
    obtain ⟨opens, closes⟩ := Token.free_of_asName? named
    rw [opens, closes]
    rfl

theorem awaitsValue_of_extend? {d : ValueDraft} {p : Position}
    (h : d.extend? t p = some progress) (opens : t.opensContainer = true) :
    d.place.awaitsValue = true := by
  obtain ⟨frames, place⟩ := d
  cases t <;> cases opens
  all_goals cases place <;> first | rfl | cases h

end ValueDraft

namespace Draft

variable {d d' : Draft} {t : Token} {p : Position}

theorem containers_of_extend? (h : d.extend? t p = some d') :
    d.containers + t.opensContainer.toNat = d'.containers + t.closesContainer.toNat := by
  cases step_of_extend? h with
  | keyword _ | entry _ _ => rfl
  | declaration constants name named =>
    obtain ⟨opens, closes⟩ := Token.free_of_asName? named
    rw [opens, closes]
    rfl
  | entryValue constants taken | value constants subject taken =>
    rw [containers_ofProgress]
    exact ValueDraft.containers_of_extend? taken

theorem awaitsValue_of_extend? (h : d.extend? t p = some d') (opens : t.opensContainer = true) :
    d.awaitsValue = true := by
  cases d with
  | preamble constants => cases t <;> cases opens <;> cases h
  | keyword constants => rfl
  | value constants subject draft =>
    obtain ⟨progress, taken, -⟩ := Option.map_eq_some_iff.mp h
    exact ValueDraft.awaitsValue_of_extend? taken opens
  | complete document => cases h

end Draft

namespace Session

variable {s : Session} {d d' : Draft}

theorem openings_cons (t : PlacedToken) (tokens : List PlacedToken) :
    openings (t :: tokens) = t.token.opensContainer.toNat + openings tokens := by
  rw [openings, List.countP_cons, Nat.add_comm]
  cases t.token.opensContainer <;> rfl

theorem closings_cons (t : PlacedToken) (tokens : List PlacedToken) :
    closings (t :: tokens) = t.token.closesContainer.toNat + closings tokens := by
  rw [closings, List.countP_cons, Nat.add_comm]
  cases t.token.closesContainer <;> rfl

theorem containers_of_acceptAll {tokens : List PlacedToken} (h : s.acceptAll d tokens = .ok d')
    (room : d.containers ≤ s.room) :
    d.containers + openings tokens = d'.containers + closings tokens ∧ d'.containers ≤ s.room := by
  induction tokens generalizing d with
  | nil =>
    cases h
    exact ⟨rfl, room⟩
  | cons t tokens ih =>
    obtain ⟨next, accepted, later⟩ := bind_eq_ok_iff.mp h
    obtain ⟨allowed, taken⟩ := accept_eq_ok_iff.mp accepted
    have count := Draft.containers_of_extend? taken
    -- Only a token that opens a container needs room, and it is let in where there is some.
    have inside : next.containers ≤ s.room := by
      cases opens : t.token.opensContainer with
      | true =>
        have below := allowed (Draft.awaitsValue_of_extend? taken opens) opens
        rw [opens] at count
        simp only [Bool.toNat_true] at count
        omega
      | false =>
        rw [opens] at count
        simp only [Bool.toNat_false] at count
        omega
    obtain ⟨counts, inside'⟩ := ih later inside
    rw [openings_cons, closings_cons]
    exact ⟨by omega, inside'⟩

/-- A run leaves off before a token that is refused, or when no tokens are left. -/
theorem exists_left (s : Session) (d : Draft) (last : Position) (tokens : List PlacedToken) :
    ∃ taken left d', tokens = taken ++ left ∧ s.acceptAll d taken = .ok d' ∧
      (left ≠ [] ∧ (s.resume d last tokens).2 =
          { s with depth := s.depth + d'.containers, tokens := left } ∨
        left = [] ∧ (s.resume d last tokens).2 =
          (s.settle d' ((taken.getLast?.map PlacedToken.position).getD last)).2) := by
  induction tokens generalizing d last with
  | nil => exact ⟨[], [], d, rfl, rfl, .inr ⟨rfl, rfl⟩⟩
  | cons t tokens ih =>
    rw [resume]
    cases accepted : s.accept d t with
    | error problem => exact ⟨[], t :: tokens, d, rfl, rfl, .inl ⟨by simp, rfl⟩⟩
    | ok next =>
      obtain ⟨taken, left, d', rfl, run, outcome⟩ := ih next t.position
      refine ⟨t :: taken, left, d', rfl, ?_, ?_⟩
      · rw [acceptAll_cons, accepted]
        exact run
      · have final : ((t :: taken).getLast?.map PlacedToken.position).getD last =
            (taken.getLast?.map PlacedToken.position).getD t.position := by
          rw [List.getLast?_cons]
          cases taken.getLast? <;> rfl
        rw [final]
        exact outcome

/-- A session has taken a part of its tokens, and unless a fault has been reported, something is
left to be read. -/
structure GoesOn (s : Session) (limit : Nat) (scan : Scan) : Prop where
  limited : s.limit = limit
  fits : s.depth ≤ limit
  taken : ∃ consumed, scan.tokens = consumed ++ s.tokens ∧
    s.depth + closings consumed = openings consumed
  outlook : s.outlook = .ending scan.ending ∧ (s.tokens = [] → ∃ p, scan.ending = .finish p) ∨
    s.tokens = [] ∧ ∃ fault p t, scan.ending = .fault fault p ∧ scan.tokens.getLast? = some t ∧
      s.outlook = .spent t.position

theorem goesOn_of_start {source : String} {limit : Nat} (h : start source limit = .ok s) :
    s.GoesOn limit (Scan.ofText source.toList) := by
  obtain ⟨rfl, readable⟩ := start_eq_ok_iff.mp h
  refine ⟨rfl, Nat.zero_le limit, ⟨[], rfl, rfl⟩, .inl ⟨rfl, ?_⟩⟩
  intro nothing
  rcases scan : Scan.ofText source.toList with ⟨tokens, ending⟩
  rw [scan] at nothing readable
  cases ending with
  | finish p => exact ⟨p, rfl⟩
  | fault fault p =>
    obtain rfl : tokens = [] := nothing
    exact absurd ⟨fault, p, rfl⟩ readable

theorem read_of_spent {p : Position} (nothing : s.tokens = []) (spent : s.outlook = .spent p) :
    s.read = (.error ⟨.unexpectedEnd "Expected config entry name" p, none, some 203⟩, s) := by
  obtain ⟨limit, depth, tokens, outlook⟩ := s
  subst nothing spent
  rfl

theorem GoesOn.take {limit : Nat} {scan : Scan} (h : s.GoesOn limit scan)
    {taken left : List PlacedToken} (tokens : s.tokens = taken ++ left)
    (run : s.acceptAll .start taken = .ok d) :
    s.depth + d.containers ≤ limit ∧ ∃ consumed, scan.tokens = consumed ++ left ∧
      s.depth + d.containers + closings consumed = openings consumed := by
  obtain ⟨consumed, split, count⟩ := h.taken
  obtain ⟨counts, inside⟩ := containers_of_acceptAll run (Nat.zero_le _)
  have start : Draft.start.containers = 0 := rfl
  have limited := h.limited
  have fits := h.fits
  refine ⟨?_, consumed ++ taken, ?_, ?_⟩
  · unfold Session.room at inside
    omega
  · rw [split, tokens, List.append_assoc]
  · unfold closings openings at *
    rw [List.countP_append, List.countP_append]
    omega

theorem GoesOn.read {limit : Nat} {scan : Scan} (h : s.GoesOn limit scan) :
    s.read.2.GoesOn limit scan := by
  rcases h.outlook with ⟨outlook, finished⟩ | ⟨nothing, fault, p, t, ending, last, spent⟩
  swap
  · rwa [read_of_spent nothing spent]
  obtain ⟨taken, left, d, tokens, run, outcome⟩ := s.exists_left .start .origin s.tokens
  obtain ⟨fits, consumed⟩ := h.take tokens run
  have read : s.read = s.resume .start .origin s.tokens := rfl
  rw [read]
  rcases outcome with ⟨more, stopped⟩ | ⟨rfl, settled⟩
  · rw [stopped]
    exact ⟨h.limited, fits, consumed, .inl ⟨outlook, fun nothing => absurd nothing more⟩⟩
  · rw [settled, settle, outlook]
    cases ending : scan.ending with
    | finish p =>
      dsimp only
      have same : Outlook.ending (.finish p) = .ending scan.ending := by rw [ending]
      split <;> exact ⟨h.limited, fits, consumed, .inl ⟨same, fun _ => ⟨p, ending⟩⟩⟩
    | fault fault p =>
      -- A source without tokens before the fault is not opened, so the fault has a token before it.
      have nonempty : s.tokens ≠ [] := by
        intro nothing
        obtain ⟨q, finish⟩ := finished nothing
        rw [ending] at finish
        cases finish
      rw [List.append_nil] at tokens
      obtain ⟨t, last⟩ := Option.isSome_iff_exists.mp (List.getLast?_isSome.mpr nonempty)
      obtain ⟨earlier, split, -⟩ := h.taken
      refine ⟨h.limited, fits, consumed, .inr ⟨rfl, fault, p, t, ending, ?_, ?_⟩⟩
      · rw [split, List.getLast?_append, last]
        rfl
      · rw [← tokens, last]
        rfl

theorem GoesOn.after {limit : Nat} {scan : Scan} (h : s.GoesOn limit scan) (n : Nat) :
    (s.after n).GoesOn limit scan := by
  induction n with
  | zero => exact h
  | succ n ih => exact ih.read

theorem after_of_spent {p : Position} (nothing : s.tokens = []) (spent : s.outlook = .spent p)
    (n : Nat) : s.after n = s := by
  induction n with
  | zero => rfl
  | succ n ih => rw [after, ih, read_of_spent nothing spent]

end Session

/-- What is left of the tokens of a source is what the rest of the source is read as, from the first
of them on. -/
theorem Scan.exists_rest {source : List Char} {first later : List PlacedToken}
    (h : (Scan.ofText source).tokens = first ++ later) :
    ∃ p before rest, StandsAt source p before rest ∧
      (Scan.places ⟨later, (Scan.ofText source).ending⟩).head? = some p ∧
      (⟨later, (Scan.ofText source).ending⟩ : Scan) =
        (Scan.ofText rest).relocate (Position.ofText before).shift := by
  obtain ⟨s, before, here, scan⟩ := Scan.exists_cursor h
  let gap := s.rest.takeWhile Text.isBlank
  have place : s.skipBlanks.position = .ofText (before ++ gap) := by
    rw [Position.ofText_append, ← here.2]
    rfl
  refine ⟨s.next.1.start, before ++ gap, s.skipBlanks.rest, ⟨?_, ?_⟩, ?_, ?_⟩
  · rw [here.1, List.append_assoc]
    exact congrArg (before ++ ·) List.takeWhile_append_dropWhile.symm
  · rw [Cursor.start_next, place]
  · rw [← scan, Cursor.head?_places]
  · rw [← scan, ← s.scan_skipBlanks, ← place]
    exact Cursor.scan_shift (s := Cursor.ofText s.skipBlanks.rest) s.skipBlanks.position (Nat.le_refl 1)

namespace Session

theorem front?_of_ending {s : Session} {ending : Ending} (outlook : s.outlook = .ending ending)
    (finished : s.tokens = [] → ∃ p, ending = .finish p) :
    s.front? = (Scan.places ⟨s.tokens, ending⟩).head? := by
  unfold front?
  rw [outlook]
  cases tokens : s.tokens with
  | cons t tokens => rfl
  | nil =>
    obtain ⟨p, rfl⟩ := finished tokens
    rfl

theorem front?_of_spent {s : Session} {p : Position} (nothing : s.tokens = [])
    (spent : s.outlook = .spent p) : s.front? = none := by
  unfold front?
  rw [nothing, spent]

end Session

/-- The first read of a fresh session, in a session at the same tokens elsewhere. -/
theorem Session.read_moved {s : Session} {text : String} {f : Position → Position}
    (fits : s.depth ≤ s.limit) {ending : Ending} (outlook : s.outlook = .ending ending)
    (same : (⟨s.tokens, ending⟩ : Scan) = (Scan.ofText text.toList).relocate f) :
    s.read.1 = ((Document.parse text (s.limit - s.depth)).map (Document.relocate f)).mapError
      (reword f s.limit) := by
  obtain ⟨tokens, rfl⟩ := Scan.mk.inj same
  let fresh : Session := ⟨s.limit - s.depth, 0, (Scan.ofText text.toList).tokens,
    .ending (Scan.ofText text.toList).ending⟩
  have limit : s.limit = fresh.limit + s.depth := (Nat.sub_add_cancel fits).symm
  have depth : s.depth = fresh.depth + s.depth := (Nat.zero_add s.depth).symm
  have outlook' : fresh.outlook = .ending (Scan.ofText text.toList).ending := rfl
  rw [Document.parse_eq_resume, read, tokens]
  exact resume_moved f limit depth outlook outlook' .start .origin .origin fresh.tokens

/-- A session that has been read before reads on like a fresh one on the rest of the source, with
the room that the open containers leave. -/
theorem session_starts_afresh {source : String} {limit : Nat} {s₀ : Session}
    (h : Session.start source limit = .ok s₀) (n : Nat) :
    let s := s₀.after n
    (∀ p, s.front? = some p →
      (s.depth ≤ limit ∧ ∃ consumed, (Scan.ofText source.toList).tokens = consumed ++ s.tokens ∧
        s.depth + Session.closings consumed = Session.openings consumed) ∧
      ∃ before rest, StandsAt source.toList p before rest ∧
        s.read.1 = ((Document.parse (String.ofList rest) (limit - s.depth)).map
          (Document.relocate (Position.ofText before).shift)).mapError
            fun e => (e.withLimit limit).relocate (Position.ofText before).shift) ∧
    (s.front? = none → ∃ fault q t, (Scan.ofText source.toList).ending = .fault fault q ∧
      (Scan.ofText source.toList).tokens.getLast? = some t ∧
      ∀ m, (s.after m).read = (.error ⟨.unexpectedEnd "Expected config entry name" t.position, none,
        some 203⟩, s)) := by
  intro s
  have kept : s.GoesOn limit (Scan.ofText source.toList) := (Session.goesOn_of_start h).after n
  obtain ⟨consumed, split, count⟩ := kept.taken
  rcases kept.outlook with ⟨outlook, finished⟩ | ⟨nothing, fault, q, t, ending, last, spent⟩
  · have front := Session.front?_of_ending outlook finished
    obtain ⟨p, before, rest, stands, first, moved⟩ := Scan.exists_rest split
    rw [first] at front
    constructor
    · intro q ahead
      obtain rfl : p = q := Option.some.inj (front.symm.trans ahead)
      refine ⟨⟨kept.fits, consumed, split, count⟩, before, rest, stands, ?_⟩
      have fits : s.depth ≤ s.limit := by
        rw [kept.limited]
        exact kept.fits
      rw [← String.toList_ofList (l := rest)] at moved
      rw [← kept.limited]
      exact Session.read_moved fits outlook moved
    · intro none
      rw [front] at none
      cases none
  · have front := Session.front?_of_spent nothing spent
    constructor
    · intro p ahead
      rw [front] at ahead
      cases ahead
    · intro _
      refine ⟨fault, q, t, ending, last, ?_⟩
      intro m
      rw [Session.after_of_spent nothing spent, Session.read_of_spent nothing spent]

theorem session_starts_afresh_inside_array :
    ∃ s₀ : Session, Session.start "a [1\nb [2]" 1 = .ok s₀ ∧ (s₀.after 1).front? = some ⟨2, 1⟩ ∧
      (s₀.after 1).depth = 1 ∧ ∃ before rest, StandsAt "a [1\nb [2]".toList ⟨2, 1⟩ before rest ∧
        (s₀.after 1).read.1 = ((Document.parse (String.ofList rest) (1 - 1)).map
          (Document.relocate (Position.ofText before).shift)).mapError
            fun e => (e.withLimit 1).relocate (Position.ofText before).shift := by
  let s₀ : Session := ⟨1, 0, [⟨.name "a", ⟨1, 1⟩⟩, ⟨.openBracket, ⟨1, 3⟩⟩, ⟨.number 1, ⟨1, 4⟩⟩,
    ⟨.name "b", ⟨2, 1⟩⟩, ⟨.openBracket, ⟨2, 3⟩⟩, ⟨.number 2, ⟨2, 4⟩⟩, ⟨.closeBracket, ⟨2, 5⟩⟩],
    .ending (.finish ⟨2, 6⟩)⟩
  have started : Session.start "a [1\nb [2]" 1 = .ok s₀ := by decide +kernel
  have front : (s₀.after 1).front? = some ⟨2, 1⟩ := by decide
  have depth : (s₀.after 1).depth = 1 := by decide
  obtain ⟨-, before, rest, stands, read⟩ := (session_starts_afresh started 1).1 _ front
  rw [depth] at read
  exact ⟨s₀, started, front, depth, before, rest, stands, read⟩

end TypedConfig
