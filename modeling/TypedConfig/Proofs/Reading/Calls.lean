import TypedConfig.Proofs.Reading.Failures
import TypedConfig.Proofs.Reading.Restart
import TypedConfig.Session.Descent

namespace TypedConfig

namespace Reader

variable {r : Reader} {t : Token}

theorem found?_eq_some_iff : r.found? = some t ↔ r.ahead = .token t := by
  unfold found?
  cases r.ahead <;> simp

theorem waiting_of_found? (h : r.found? = some t) :
    r.waiting = ⟨t, r.place⟩ :: r.rest.scan.tokens := by
  simp only [waiting, found?_eq_some_iff.mp h]

theorem unexpected_eq_diagnostic (r : Reader) (e : Expectation) :
    r.unexpected e.text (e.advice? r.found?) e.code = e.diagnostic r.found? r.place := by
  unfold unexpected Expectation.diagnostic found?
  cases r.ahead with
  | token t => cases e.advice? (some t) <;> rfl
  | finish => rfl
  | nothing => rfl

structure Fetches (r r' : Reader) : Prop where
  limited : r'.limit = r.limit
  depth : r'.depth = r.depth
  waiting : r'.waiting = r.rest.scan.tokens
  outlook : r'.outlook = .ending r.rest.scan.ending
  found : r'.found? = r.second?
  ahead : r'.ahead ≠ .nothing
  finished : r'.ahead = .finish → r'.rest.rest = []
  left : r'.left ≤ r.rest.rest.length

theorem fetch_cases (r : Reader) :
    (∃ r', r.fetch = (.ok (), r') ∧ r.Fetches r') ∨
    ∃ fault p, r.rest.scan = ⟨[], .fault fault p⟩ ∧ r.fetch =
      (.error (fault.diagnostic p), { r with ahead := .nothing, rest := r.rest.next.2 }) := by
  unfold fetch
  dsimp only
  cases lexeme : r.rest.next.1.lexeme with
  | none =>
    have outcome := Reading.outcome_eq_ok_none_iff.mpr lexeme
    have scan := Cursor.scan_of_end lexeme
    have finished : r.rest.next.2.rest = [] := by
      rcases r.rest.next_cases with ⟨-, -, left⟩ | ⟨_, _, _, _, -, -, -, -, found, -⟩
      · rw [left]
      · rw [found] at lexeme
        cases lexeme
    rw [outcome]
    refine .inl ⟨_, rfl, rfl, rfl, ?_, ?_, ?_, ?_, ?_, ?_⟩
    · rw [scan]
      rfl
    · rw [scan]
      rfl
    · rw [second?, outcome]
      rfl
    · intro nothing
      cases nothing
    · intro _
      exact finished
    · exact Nat.zero_le _
  | some found =>
    obtain ⟨text, reading⟩ := found
    cases reading with
    | ok token =>
      have outcome := Reading.outcome_eq_ok_some_iff.mpr ⟨text, lexeme⟩
      have scan := Cursor.scan_of_token lexeme rfl
      rw [outcome]
      refine .inl ⟨_, rfl, rfl, rfl, ?_, ?_, ?_, ?_, ?_, ?_⟩
      · rw [scan]
        rfl
      · rw [scan]
        rfl
      · rw [second?, outcome]
        rfl
      · intro nothing
        cases nothing
      · intro finish
        cases finish
      · exact Cursor.length_next_lt lexeme
    | error fault =>
      have outcome : r.rest.next.1.outcome = .error (fault.diagnostic r.rest.next.1.start) := by
        rw [Reading.outcome, lexeme]
      have scan := Cursor.scan_of_fault lexeme rfl
      rw [outcome]
      exact .inr ⟨fault, r.rest.next.1.start, scan, rfl⟩

/-- The session `s` goes on where the reader stands. Their counters are not compared after a fault,
when the descent has taken a bracket without leaving its container. -/
structure Keeps (r : Reader) (s : Session) : Prop where
  limited : r.limit = s.limit
  within : r.depth ≤ s.limit
  waiting : r.waiting = s.tokens
  outlook : r.outlook = s.outlook
  depth : r.ahead ≠ .nothing → r.depth = s.depth
  finished : r.ahead = .finish → r.rest.rest = []

end Reader

theorem Draft.exists_extend?_of_opensContainer {d : Draft} {t : Token} {p : Position}
    (awaits : d.awaitsValue = true) (opens : t.opensContainer = true) :
    ∃ next, d.extend? t p = some next := by
  cases d with
  | preamble constants => cases awaits
  | keyword constants => cases t <;> cases opens <;> exact ⟨_, rfl⟩
  | value constants subject draft =>
    obtain ⟨frames, place⟩ := draft
    cases place <;> cases awaits <;> cases t <;> cases opens <;> exact ⟨_, rfl⟩
  | complete document => cases awaits

namespace Session

variable {s : Session} {d d' : Draft}

theorem accept_of_extend?_eq_none {t : PlacedToken} (h : d.extend? t.token t.position = none) :
    s.accept d t = .error (d.expectation.diagnostic (some t.token) t.position) := by
  unfold accept
  split
  · rename_i refused
    simp only [Bool.and_eq_true] at refused
    obtain ⟨next, taken⟩ := Draft.exists_extend?_of_opensContainer
      (p := t.position) refused.1.1 refused.1.2
    rw [h] at taken
    cases taken
  · rw [h]

theorem resume_congr {last : Position} {tokens : List PlacedToken}
    (containers : d.containers = d'.containers) (expectation : d.expectation = d'.expectation)
    (document : d.document? = d'.document?) (awaits : d.awaitsValue = d'.awaitsValue)
    (alike : ∀ t ∈ tokens.head?, d.extend? t.token t.position = d'.extend? t.token t.position) :
    s.resume d last tokens = s.resume d' last tokens := by
  cases tokens with
  | nil => rw [resume, resume, settle, settle, containers, document, expectation]
  | cons t tokens =>
    have accepted : s.accept d t = s.accept d' t :=
      accept_congr awaits containers expectation (alike t rfl)
    rw [resume, resume, accepted, containers]

end Session

variable {s : Session} {answer : Except Diagnostic Document × Session} {d d' : Draft} {depth : Nat}
  {log : Log}

namespace Log

/-- The descent stands where a run of `s` stands at `d`, which will end with `answer`, and it is in
`depth` containers more than at the start of the run. -/
structure At (s : Session) (answer : Except Diagnostic Document × Session) (d : Draft) (depth : Nat)
    (log : Log) : Prop where
  limited : log.reader.limit = s.limit
  depth : log.reader.depth = s.depth + depth
  within : log.reader.depth ≤ s.limit
  outlook : log.reader.outlook = s.outlook
  ahead : log.reader.ahead ≠ .nothing
  finished : log.reader.ahead = .finish → log.reader.rest.rest = []
  answer : ∃ last, s.resume d last log.reader.waiting = answer
  ordered : ∀ m ∈ log.moments, m.InOrder s.limit

structure Failed (s : Session) (answer : Except Diagnostic Document × Session) (e : Diagnostic)
    (log : Log) : Prop where
  outcome : answer.1 = .error e
  keeps : log.reader.Keeps answer.2
  code : e.code ≠ some 201
  ordered : ∀ m ∈ log.moments, m.InOrder s.limit

namespace At

theorem congr (h : log.At s answer d depth) (containers : d.containers = d'.containers)
    (expectation : d.expectation = d'.expectation) (document : d.document? = d'.document?)
    (awaits : d.awaitsValue = d'.awaitsValue)
    (alike : ∀ t, log.reader.found? = some t →
      d.extend? t log.reader.place = d'.extend? t log.reader.place) :
    log.At s answer d' depth := by
  obtain ⟨last, run⟩ := h.answer
  refine { h with answer := ⟨last, ?_⟩ }
  rw [← run]
  refine (Session.resume_congr containers expectation document awaits ?_).symm
  intro t first
  unfold Reader.waiting at first
  cases ahead : log.reader.ahead with
  | token found =>
    rw [ahead] at first
    cases first
    exact alike found (Reader.found?_eq_some_iff.mpr ahead)
  | finish =>
    rw [ahead] at first
    cases first
  | nothing =>
    rw [ahead] at first
    cases first

theorem refuse (h : log.At s answer d d.containers)
    (refused : ∀ t, log.reader.found? = some t → d.extend? t log.reader.place = none)
    (unfinished : log.reader.ahead = .finish → d.document? = none) :
    log.Failed s answer (d.expectation.diagnostic log.reader.found? log.reader.place) := by
  have stopped : answer =
      (.error (d.expectation.diagnostic log.reader.found? log.reader.place),
        { s with depth := s.depth + d.containers, tokens := log.reader.waiting }) := by
    obtain ⟨last, run⟩ := h.answer
    rw [← run]
    cases ahead : log.reader.ahead with
    | token t =>
      have found := Reader.found?_eq_some_iff.mpr ahead
      have refusal : s.accept d ⟨t, log.reader.place⟩ = _ :=
        Session.accept_of_extend?_eq_none (refused t found)
      rw [Reader.waiting_of_found? found, found, Session.resume, refusal]
    | finish =>
      have outlook := h.outlook
      simp only [Reader.outlook, ahead] at outlook
      simp only [Reader.waiting, Reader.found?, ahead]
      rw [Session.resume, Session.settle, ← outlook]
      dsimp only
      rw [unfinished ahead]
    | nothing => exact absurd ahead h.ahead
  have code : (d.expectation.diagnostic log.reader.found? log.reader.place).code ≠ some 201 := by
    have least := d.expectation.le_code
    rw [Expectation.code_diagnostic, ne_eq, Option.some.injEq]
    omega
  subst stopped
  exact ⟨rfl, ⟨h.limited, h.within, rfl, h.outlook, fun _ => h.depth, h.finished⟩, code, h.ordered⟩

theorem settle {document : Document} (h : log.At s answer (.complete document) 0)
    (finish : log.reader.ahead = .finish) :
    answer.1 = .ok document ∧ log.reader.Keeps answer.2 := by
  obtain ⟨last, run⟩ := h.answer
  have outlook := h.outlook
  have waiting : log.reader.waiting = [] := by
    simp only [Reader.waiting, finish]
  have settled : answer = (.ok document, { s with depth := s.depth + 0, tokens := [] }) := by
    rw [← run, waiting, Session.resume, Session.settle, ← outlook]
    simp only [Reader.outlook, finish]
    rfl
  subst settled
  exact ⟨rfl, h.limited, h.within, waiting, outlook, fun _ => h.depth, h.finished⟩

theorem ordered_append {o : Operation} (h : log.At s answer d depth)
    (order : Moment.InOrder s.limit ⟨o, log.reader⟩) :
    ∀ m ∈ log.moments ++ [⟨o, log.reader⟩], m.InOrder s.limit := by
  intro m member
  rcases List.mem_append.mp member with earlier | now
  · exact h.ordered m earlier
  · rw [List.mem_singleton.mp now]
    exact order

end At

end Log

namespace Descent

variable {α β : Type} {m : Descent α} {f : α → Descent β} {P Q : α → Log → Prop}
  {R : β → Log → Prop} {t : Token}

/-- The call comes back, with a result as in `Q` or else with a failure. -/
def Yields (s : Session) (answer : Except Diagnostic Document × Session) (m : Descent α) (log : Log)
    (Q : α → Log → Prop) : Prop :=
  ∃ outcome log', m log = some (outcome, log') ∧
    match outcome with
    | .ok a => Q a log'
    | .error e => log'.Failed s answer e

theorem Yields.mono (h : Yields s answer m log P) (weaker : ∀ a log', P a log' → Q a log') :
    Yields s answer m log Q := by
  obtain ⟨outcome, log', run, post⟩ := h
  refine ⟨outcome, log', run, ?_⟩
  cases outcome with
  | ok a => exact weaker a log' post
  | error e => exact post

theorem yields_pure {a : α} (h : Q a log) : Yields s answer (pure a) log Q :=
  ⟨.ok a, log, rfl, h⟩

theorem yields_throw {e : Diagnostic} (h : log.Failed s answer e) :
    Yields s answer (throw e) log Q :=
  ⟨.error e, log, rfl, h⟩

theorem yields_bind (first : Yields s answer m log Q)
    (next : ∀ a log', Q a log' → Yields s answer (f a) log' R) :
    Yields s answer (m >>= f) log R := by
  obtain ⟨outcome, log', run, post⟩ := first
  cases outcome with
  | ok a =>
    obtain ⟨outcome, log'', later, post⟩ := next a log' post
    refine ⟨outcome, log'', ?_, post⟩
    show (m log).bind _ = _
    rw [run]
    exact later
  | error e =>
    refine ⟨.error e, log', ?_, post⟩
    show (m log).bind _ = _
    rw [run]
    rfl

theorem reader_bind (f : Reader → Descent β) : (reader >>= f) log = f log.reader log := rfl

theorem yields_reader {f : Reader → Descent β} (h : Yields s answer (f log.reader) log R) :
    Yields s answer (reader >>= f) log R := h

theorem yields_refuse (h : log.At s answer d d.containers)
    (refused : ∀ t, log.reader.found? = some t → d.extend? t log.reader.place = none)
    (unfinished : log.reader.ahead = .finish → d.document? = none) :
    Yields s answer (refuse d.expectation) log Q := by
  refine yields_reader (yields_throw ?_)
  rw [Reader.unexpected_eq_diagnostic]
  exact h.refuse refused unfinished

/-- A fault after the token is reported as soon as the token is taken. The run reports it then too,
since it has no tokens left. -/
theorem yields_take (h : log.At s answer d depth) (found : log.reader.found? = some t)
    (taken : d.extend? t log.reader.place = some d')
    (room : d.awaitsValue = true → t.opensContainer = true → d.containers < s.room) :
    Yields s answer (perform .take) log fun _ log' =>
      log'.reader.left < log.reader.left ∧ log'.reader.found? = log.reader.second? ∧
        log'.At s answer d' depth := by
  obtain ⟨r, moments⟩ := log
  have ahead : r.ahead = .token t := Reader.found?_eq_some_iff.mp found
  have performed : r.perform .take = r.fetch := by
    simp only [Reader.perform, ahead]
  have ordered := h.ordered_append (o := .take) ⟨h.within, t, ahead⟩
  have outlook : .ending r.rest.scan.ending = s.outlook := by
    rw [← h.outlook]
    simp only [Reader.outlook, ahead]
  have answered : s.resume d' r.place r.rest.scan.tokens = answer := by
    have accepted : s.accept d ⟨t, r.place⟩ = .ok d' := Session.accept_eq_ok_iff.mpr ⟨room, taken⟩
    obtain ⟨last, run⟩ := h.answer
    rw [← run]
    dsimp only
    rw [Reader.waiting_of_found? found, Session.resume, accepted]
  rcases r.fetch_cases with ⟨r', fetched, next⟩ | ⟨fault, p, scan, fetched⟩
  · refine ⟨.ok (), ⟨r', moments ++ [⟨.take, r⟩]⟩, ?_, ?_, next.found, ?_⟩
    · simp only [perform, performed, fetched]
    · have left := next.left
      simp only [Reader.left, ahead] at left ⊢
      omega
    · constructor
      · exact next.limited.trans h.limited
      · exact next.depth.trans h.depth
      · rw [next.depth]
        exact h.within
      · exact next.outlook.trans outlook
      · exact next.ahead
      · exact next.finished
      · exact ⟨r.place, next.waiting ▸ answered⟩
      · exact ordered
  · have stopped : answer = (.error (fault.diagnostic p),
        ⟨s.limit, s.depth + d'.containers, [], .spent r.place⟩) := by
      rw [scan] at outlook answered
      rw [← answered, Session.resume, Session.settle, ← outlook]
    let r' : Reader := { r with ahead := .nothing, rest := r.rest.next.2 }
    refine ⟨.error (fault.diagnostic p), ⟨r', moments ++ [⟨.take, r⟩]⟩, ?_, ?_⟩
    · simp only [perform, performed, fetched, r']
    · subst stopped
      refine ⟨rfl, ⟨h.limited, h.within, rfl, rfl, ?_, ?_⟩, ?_, ordered⟩
      · intro more
        exact absurd rfl more
      · intro finish
        cases finish
      · cases fault <;> simp [LexicalFault.diagnostic]

theorem yields_enter (h : log.At s answer d d.containers) (found : log.reader.found? = some t)
    (awaits : d.awaitsValue = true) (opens : t.opensContainer = true) :
    Yields s answer (perform .enter) log fun _ log' =>
      log'.reader = { log.reader with depth := log.reader.depth + 1 } ∧ d.containers < s.room ∧
        log'.At s answer d (d.containers + 1) := by
  obtain ⟨r, moments⟩ := log
  have ordered := h.ordered_append (o := .enter) ⟨h.within, True.intro⟩
  have limited : r.limit = s.limit := h.limited
  have counted : r.depth = s.depth + d.containers := h.depth
  by_cases deep : r.limit ≤ r.depth
  · have refused : s.accept d ⟨t, r.place⟩ = .error (Session.tooDeep r.limit r.place) := by
      have full : s.limit ≤ s.depth + d.containers := by omega
      rw [Session.accept, awaits, opens, decide_eq_true full, limited]
      rfl
    have stopped : answer = (.error (Session.tooDeep r.limit r.place),
        { s with depth := s.depth + d.containers, tokens := r.waiting }) := by
      obtain ⟨last, run⟩ := h.answer
      rw [← run]
      dsimp only
      rw [Reader.waiting_of_found? found, Session.resume, refused]
    refine ⟨.error (Session.tooDeep r.limit r.place), ⟨r, moments ++ [⟨.enter, r⟩]⟩, ?_, ?_⟩
    · simp only [perform, Reader.perform, if_pos deep]
    · subst stopped
      refine ⟨rfl, ⟨limited, h.within, rfl, h.outlook, fun _ => counted, h.finished⟩, ?_, ordered⟩
      simp [Session.tooDeep]
  · let inside : Reader := { r with depth := r.depth + 1 }
    have deeper : inside.depth = s.depth + (d.containers + 1) := by
      simp only [inside]
      omega
    have within : inside.depth ≤ s.limit := by
      simp only [inside]
      omega
    have room : d.containers < s.room := by
      unfold Session.room
      omega
    refine ⟨.ok (), ⟨inside, moments ++ [⟨.enter, r⟩]⟩, ?_, rfl, room, ?_⟩
    · simp only [perform, Reader.perform, if_neg deep, inside]
    · exact ⟨limited, deeper, within, h.outlook, h.ahead, h.finished, h.answer, ordered⟩

theorem yields_leave (h : log.At s answer d (depth + 1)) :
    Yields s answer (perform .leave) log fun _ log' =>
      log'.reader.left = log.reader.left ∧ log'.At s answer d depth := by
  obtain ⟨r, moments⟩ := log
  have counted : r.depth = s.depth + (depth + 1) := h.depth
  have entered : 0 < r.depth := by omega
  have lower : r.depth - 1 = s.depth + depth := by omega
  have within : r.depth - 1 ≤ s.limit := Nat.le_trans (Nat.sub_le r.depth 1) h.within
  have ordered := h.ordered_append (o := .leave) ⟨h.within, entered⟩
  refine ⟨.ok (), ⟨{ r with depth := r.depth - 1 }, moments ++ [⟨.leave, r⟩]⟩, rfl, rfl, ?_⟩
  exact ⟨h.limited, lower, within, h.outlook, h.ahead, h.finished, h.answer, ordered⟩

theorem yields_take_free (h : log.At s answer d depth) (found : log.reader.found? = some t)
    (free : t.opensContainer = false) (taken : d.extend? t log.reader.place = some d') :
    Yields s answer (perform .take) log fun _ log' =>
      log'.reader.left < log.reader.left ∧ log'.reader.found? = log.reader.second? ∧
        log'.At s answer d' depth := by
  refine yields_take h found taken ?_
  intro _ opens
  rw [free] at opens
  cases opens

theorem yields_open (h : log.At s answer d d.containers) (found : log.reader.found? = some t)
    (awaits : d.awaitsValue = true) (opens : t.opensContainer = true)
    (taken : d.extend? t log.reader.place = some d')
    (next : ∀ log', log'.reader.left < log.reader.left → log'.At s answer d' (d.containers + 1) →
      Yields s answer m log' Q) :
    Yields s answer (perform .enter >>= fun _ => perform .take >>= fun _ => m) log Q := by
  refine yields_bind (yields_enter h found awaits opens) ?_
  intro _ inside h
  obtain ⟨same, room, h⟩ := h
  have found : inside.reader.found? = some t := by
    rw [same]
    exact found
  have taken : d.extend? t inside.reader.place = some d' := by
    rw [same]
    exact taken
  refine yields_bind (yields_take h found taken fun _ _ => room) ?_
  intro _ log' h
  obtain ⟨less, -, h⟩ := h
  rw [same] at less
  exact next log' less h

theorem yields_close {a : α} (h : log.At s answer d (depth + 1))
    (found : log.reader.found? = some t) (free : t.opensContainer = false)
    (taken : d.extend? t log.reader.place = some d')
    (result : ∀ log', log'.reader.left < log.reader.left → log'.At s answer d' depth → Q a log') :
    Yields s answer (perform .take >>= fun _ => perform .leave >>= fun _ => pure a) log Q := by
  refine yields_bind (yields_take_free h found free taken) ?_
  intro _ inside h
  obtain ⟨less, -, h⟩ := h
  refine yields_bind (yields_leave h) ?_
  intro _ log' h
  obtain ⟨same, h⟩ := h
  exact yields_pure (result log' (same ▸ less) h)

theorem yields_name {text : String} (expected : String) (code : Nat) (h : log.At s answer d depth)
    (found : log.reader.found? = some t) (named : t.asName? = some text)
    (taken : d.extend? t log.reader.place = some d') :
    Yields s answer (name expected code) log fun result log' =>
      result = (text, log.reader.place) ∧ log'.reader.left < log.reader.left ∧
        log'.reader.found? = log.reader.second? ∧ log'.At s answer d' depth := by
  have free := (Token.free_of_asName? named).1
  have branch : log.reader.found?.bind Token.asName? = some text := by
    rw [found]
    exact named
  refine yields_reader ?_
  rw [branch]
  refine yields_bind (yields_take_free h found free taken) ?_
  intro _ log' h
  exact yields_pure ⟨rfl, h⟩

theorem name_of_none (expected : String) (code : Nat)
    (missing : log.reader.found?.bind Token.asName? = none) :
    name expected code log = some (.error (log.reader.unexpected expected none code), log) := by
  rw [name, reader_bind, missing]
  rfl

theorem yields_name_of_none {Q : String × Position → Log → Prop}
    (h : log.At s answer d d.containers) (missing : log.reader.found?.bind Token.asName? = none)
    (bare : d.expectation.advice? log.reader.found? = none)
    (refused : ∀ t, t.asName? = none → d.extend? t log.reader.place = none)
    (unfinished : d.document? = none) :
    Yields s answer (name d.expectation.text d.expectation.code) log Q := by
  refine ⟨_, log, name_of_none _ _ missing, ?_⟩
  show log.Failed s answer _
  rw [← bare, Reader.unexpected_eq_diagnostic]
  refine h.refuse ?_ fun _ => unfinished
  intro t found
  rw [found] at missing
  exact refused t missing

theorem yields_name_only (next : String → Draft) (h : log.At s answer d d.containers)
    (bare : d.expectation.advice? log.reader.found? = none)
    (taken : ∀ t text, t.asName? = some text → d.extend? t log.reader.place = some (next text))
    (refused : ∀ t, t.asName? = none → d.extend? t log.reader.place = none)
    (unfinished : d.document? = none) :
    Yields s answer (name d.expectation.text d.expectation.code) log fun result log' =>
      result.2 = log.reader.place ∧ log'.reader.left < log.reader.left ∧
        log'.At s answer (next result.1) d.containers := by
  cases named : log.reader.found?.bind Token.asName? with
  | none => exact yields_name_of_none h named bare refused unfinished
  | some text =>
    obtain ⟨t, found, named⟩ := Option.bind_eq_some_iff.mp named
    refine (yields_name _ _ h found named (taken t text named)).mono ?_
    intro result log' h
    obtain ⟨rfl, less, -, h⟩ := h
    exact ⟨rfl, less, h⟩

theorem yields_expect (h : log.At s answer d d.containers) (free : t.opensContainer = false)
    (taken : d.extend? t log.reader.place = some d')
    (refused : ∀ other, other ≠ t → d.extend? other log.reader.place = none)
    (unfinished : d.document? = none) :
    Yields s answer (expect t d.expectation) log fun _ log' =>
      log'.reader.left < log.reader.left ∧ log'.At s answer d' d.containers := by
  refine yields_reader ?_
  split
  · rename_i found
    refine (yields_take_free h found free taken).mono ?_
    intro _ log' h
    obtain ⟨less, -, h⟩ := h
    exact ⟨less, h⟩
  · rename_i missing
    refine yields_refuse h ?_ fun _ => unfinished
    intro other found
    exact refused other fun same => missing (same ▸ found)

end Descent

end TypedConfig
