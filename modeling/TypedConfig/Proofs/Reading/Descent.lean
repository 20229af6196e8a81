import TypedConfig.Proofs.Reading.Calls

namespace TypedConfig

variable {s : Session} {answer : Except Diagnostic Document × Session} {log : Log}

namespace Descent

section

variable {constants : List Declaration} {subject : Subject} {frames : List Frame}

def HasRead (s : Session) (answer : Except Diagnostic Document × Session)
    (constants : List Declaration) (subject : Subject) (frames : List Frame) (log : Log) (v : Value)
    (log' : Log) : Prop :=
  log'.reader.left < log.reader.left ∧
    log'.At s answer (.ofProgress constants subject (.ofValue v frames)) frames.length

/-- From `draft` on, the call reads the rest of a value inside of `frames`. -/
def Completes (s : Session) (answer : Except Diagnostic Document × Session)
    (constants : List Declaration) (subject : Subject) (draft : ValueDraft) (frames : List Frame)
    (m : Descent Value) (log : Log) : Prop :=
  log.At s answer (.value constants subject draft) draft.containers →
    Yields s answer m log (HasRead s answer constants subject frames log)

theorem Completes.later {draft : ValueDraft} {m : Descent Value} {log' : Log}
    (h : Completes s answer constants subject draft frames m log')
    (less : log'.reader.left < log.reader.left)
    (here : log'.At s answer (.value constants subject draft) draft.containers) :
    Yields s answer m log' (HasRead s answer constants subject frames log) := by
  refine (h here).mono ?_
  intro v after read
  obtain ⟨less', read⟩ := read
  exact ⟨Nat.lt_trans less' less, read⟩

theorem completes_reference (found : log.reader.found? = some .pipe) :
    Completes s answer constants subject ⟨frames, .value⟩ frames reference log := by
  intro h
  refine yields_bind (yields_take_free h found rfl rfl) ?_
  intro _ log₁ h
  obtain ⟨less₁, -, h⟩ := h
  have named := yields_name_only
    (fun text => .value constants subject ⟨frames, .refClose ⟨text, log₁.reader.place⟩⟩) h rfl
    (fun t text named => by cases t <;> cases named <;> rfl)
    (fun t other => by cases t <;> first | rfl | cases other) rfl
  refine yields_bind named ?_
  intro result log₂ h
  obtain ⟨place, less₂, h⟩ := h
  have closed := yields_expect (t := .pipe) h rfl rfl
    (fun t other => by cases t <;> first | rfl | exact absurd rfl other) rfl
  refine yields_bind closed ?_
  intro _ log₃ h
  obtain ⟨less₃, h⟩ := h
  rw [← place] at h
  exact yields_pure ⟨by omega, h⟩

section

variable {close : Token} {place : Place} {next : ValueDraft} {contents more : Descent Value}
  (closes : close.opensContainer = false)

include closes

theorem completes_container {t : Token} {empty : Value}
    (found : log.reader.found? = some t) (opens : t.opensContainer = true)
    (taken : ∀ p, ValueDraft.extend? ⟨frames, .value⟩ t p = some (.more ⟨frames, place⟩))
    (closed : ∀ p, ValueDraft.extend? ⟨frames, place⟩ close p = some (.ofValue empty frames))
    (inside : place.containers = 1 ∧ next.containers = frames.length + 1)
    (alike : place.expectation = next.place.expectation ∧
      place.awaitsValue = next.place.awaitsValue)
    (same : ∀ other, other ≠ close → ∀ p,
      ValueDraft.extend? ⟨frames, place⟩ other p = next.extend? other p)
    (rest : ∀ log', log'.reader.left < log.reader.left →
      Completes s answer constants subject next frames contents log') :
    Completes s answer constants subject ⟨frames, .value⟩ frames (container close empty contents)
      log := by
  intro h
  have taken : (Draft.value constants subject ⟨frames, .value⟩).extend? t log.reader.place =
      some (.value constants subject ⟨frames, place⟩) := by
    rw [Draft.extend?, taken]
    rfl
  refine yields_open h found rfl opens taken ?_
  intro log₁ less₁ h
  refine yields_reader ?_
  split
  · rename_i found
    have taken : (Draft.value constants subject ⟨frames, place⟩).extend? close log₁.reader.place =
        some (.ofProgress constants subject (.ofValue empty frames)) := by
      rw [Draft.extend?, closed]
      rfl
    refine yields_close h found closes taken ?_
    intro log₂ less₂ h
    exact ⟨by omega, h⟩
  · rename_i filled
    have containers : (Draft.value constants subject ⟨frames, place⟩).containers =
        (Draft.value constants subject next).containers := by
      show frames.length + place.containers = next.containers
      rw [inside.1, inside.2]
    have here : log₁.At s answer (.value constants subject next) (frames.length + 1) := by
      refine h.congr containers alike.1 rfl alike.2 ?_
      intro other found
      rw [Draft.extend?, Draft.extend?, same other fun same => filled (same ▸ found)]
    rw [← inside.2] at here
    exact (rest log₁ less₁).later less₁ here

theorem yields_further {separator : Token} {e : Expectation} {read : Value} {before : Log}
    (less : log.reader.left < before.reader.left)
    (h : log.At s answer (.value constants subject ⟨frames, place⟩) (frames.length + 1))
    (expects : place.expectation = e) (parts : separator.opensContainer = false)
    (parted : ∀ p, ValueDraft.extend? ⟨frames, place⟩ separator p = some (.more next))
    (closed : ∀ p, ValueDraft.extend? ⟨frames, place⟩ close p = some (.ofValue read frames))
    (refused : ∀ other, other ≠ separator → other ≠ close → ∀ p,
      ValueDraft.extend? ⟨frames, place⟩ other p = none)
    (inside : place.containers = 1 ∧ next.containers = frames.length + 1)
    (rest : ∀ log', log'.reader.left < before.reader.left →
      Completes s answer constants subject next frames more log') :
    Yields s answer (further separator close e read more) log
      (HasRead s answer constants subject frames before) := by
  subst expects
  refine yields_reader ?_
  split
  · rename_i found
    have taken : (Draft.value constants subject ⟨frames, place⟩).extend? separator
        log.reader.place = some (.value constants subject next) := by
      rw [Draft.extend?, parted]
      rfl
    refine yields_bind (yields_take_free h found parts taken) ?_
    intro _ log₁ h
    obtain ⟨less₁, -, h⟩ := h
    rw [← inside.2] at h
    exact (rest log₁ (by omega)).later (by omega) h
  split
  · rename_i found
    have taken : (Draft.value constants subject ⟨frames, place⟩).extend? close log.reader.place =
        some (.ofProgress constants subject (.ofValue read frames)) := by
      rw [Draft.extend?, closed]
      rfl
    refine yields_close h found closes taken ?_
    intro log₁ less₁ h
    exact ⟨by omega, h⟩
  · rename_i noSeparator noClose
    have containers : (Draft.value constants subject ⟨frames, place⟩).containers =
        frames.length + 1 := congrArg (frames.length + ·) inside.1
    rw [← containers] at h
    refine yields_refuse h ?_ fun _ => rfl
    intro other found
    rw [Draft.extend?, refused other (fun same => noSeparator (same ▸ found))
      fun same => noClose (same ▸ found)]
    rfl

end

theorem yields_pair {before : List (String × Value)} {value : Descent Value}
    (read : ∀ frames log', log'.reader.left < log.reader.left →
      Completes s answer constants subject ⟨frames, .value⟩ frames value log')
    (h : log.At s answer (.value constants subject ⟨frames, .key before⟩) (frames.length + 1)) :
    Yields s answer (pair value) log fun pair log' => log'.reader.left < log.reader.left ∧
      log'.At s answer (.value constants subject ⟨frames, .nextPair (before ++ [pair])⟩)
        (frames.length + 1) := by
  have named := yields_name_only
    (fun key => .value constants subject ⟨frames, .colon before key⟩) h rfl
    (fun t text named => by cases t <;> cases named <;> rfl)
    (fun t other => by cases t <;> first | rfl | cases other) rfl
  refine yields_bind named ?_
  intro result log₁ h
  obtain ⟨-, less₁, h⟩ := h
  have parted := yields_expect (t := .colon) h rfl rfl
    (fun t other => by cases t <;> first | rfl | exact absurd rfl other) rfl
  refine yields_bind parted ?_
  intro _ log₂ h
  obtain ⟨less₂, h⟩ := h
  refine yields_bind (read (.dict before result.1 :: frames) log₂ (by omega) h) ?_
  intro v log₃ h
  obtain ⟨less₃, h⟩ := h
  exact yields_pure ⟨by omega, h⟩

structure Bounded (s : Session) (answer : Except Diagnostic Document × Session)
    (constants : List Declaration) (subject : Subject) (n : Nat) : Prop where
  value : ∀ frames log, 2 * log.reader.left + 1 ≤ n →
    Completes s answer constants subject ⟨frames, .value⟩ frames (value n) log
  items : ∀ frames log before, 2 * log.reader.left + 2 ≤ n →
    Completes s answer constants subject ⟨.array before :: frames, .value⟩ frames (items n before)
      log
  pairs : ∀ frames log before, 2 * log.reader.left + 2 ≤ n →
    Completes s answer constants subject ⟨frames, .key before⟩ frames (pairs n before) log

section

variable {n : Nat} (bounded : Bounded s answer constants subject n)

include bounded

theorem completes_value (enough : 2 * log.reader.left + 1 ≤ n + 1) :
    Completes s answer constants subject ⟨frames, .value⟩ frames (value (n + 1)) log := by
  intro h
  rw [value]
  refine yields_reader ?_
  split
  · rename_i found
    refine completes_container rfl found rfl (fun _ => rfl) (fun _ => rfl) ?_ ?_ ?_
      (fun log' less => bounded.items frames log' [] (by omega)) h
    · exact ⟨rfl, rfl⟩
    · exact ⟨rfl, rfl⟩
    · intro other filled p
      cases other <;> first | rfl | exact absurd rfl filled
  · rename_i found
    refine completes_container rfl found rfl (fun _ => rfl) (fun _ => rfl) ?_ ?_ ?_
      (fun log' less => bounded.pairs frames log' [] (by omega)) h
    · exact ⟨rfl, rfl⟩
    · exact ⟨rfl, rfl⟩
    · intro other filled p
      cases other <;> first | rfl | exact absurd rfl filled
  · rename_i found
    exact completes_reference found h
  · rename_i i found
    refine yields_bind (yields_take_free h found rfl rfl) ?_
    intro _ log' h
    obtain ⟨less, -, h⟩ := h
    exact yields_pure ⟨less, h⟩
  · rename_i noBracket noBrace noPipe noNumber
    refine yields_refuse h ?_ fun _ => rfl
    intro t found
    cases t <;> first
      | rfl
      | exact absurd found (noNumber _)
      | exact absurd found noBracket
      | exact absurd found noBrace
      | exact absurd found noPipe

theorem completes_items (before : List Value) (enough : 2 * log.reader.left + 2 ≤ n + 1) :
    Completes s answer constants subject ⟨.array before :: frames, .value⟩ frames
      (items (n + 1) before) log := by
  intro h
  rw [items]
  refine yields_bind (bounded.value _ log (by omega) h) ?_
  intro item log₁ h
  obtain ⟨less, h⟩ := h
  refine yields_further rfl less h rfl rfl (fun _ => rfl) (fun _ => rfl) ?_ ⟨rfl, rfl⟩ ?_
  · intro other noComma noBracket p
    cases other <;> first | rfl | exact absurd rfl noComma | exact absurd rfl noBracket
  · exact fun log' less => bounded.items frames log' (before ++ [item]) (by omega)

theorem completes_pairs (before : List (String × Value))
    (enough : 2 * log.reader.left + 2 ≤ n + 1) :
    Completes s answer constants subject ⟨frames, .key before⟩ frames (pairs (n + 1) before)
      log := by
  intro h
  rw [pairs]
  refine yields_bind (yields_pair (fun frames log' less => bounded.value frames log' ?_) h) ?_
  · omega
  intro pair log₁ h
  obtain ⟨less, h⟩ := h
  refine yields_further rfl less h rfl rfl (fun _ => rfl) (fun _ => rfl) ?_ ⟨rfl, rfl⟩ ?_
  · intro other noSemicolon noBrace p
    cases other <;> first | rfl | exact absurd rfl noSemicolon | exact absurd rfl noBrace
  · exact fun log' less => bounded.pairs frames log' (before ++ [pair]) (by omega)

end

/-- Whenever the calls are back at the reading of a value a token has been taken, and the bound has
fallen by two at most. -/
theorem bounded (n : Nat) : Bounded s answer constants subject n := by
  induction n with
  | zero => constructor <;> intros <;> omega
  | succ n ih =>
    constructor
    · exact fun frames log enough => completes_value ih enough
    · exact fun frames log before enough => completes_items ih before enough
    · exact fun frames log before enough => completes_pairs ih before enough

end

section

variable {n : Nat}

theorem yields_declaration {before : List Declaration} {text : String}
    (enough : 2 * log.reader.left ≤ n) (h : log.At s answer (.preamble before) 0)
    (found : log.reader.found? = some .var)
    (named : log.reader.second?.bind Token.asName? = some text) :
    Yields s answer (declaration n) log fun declaration log' =>
      log'.reader.left < log.reader.left ∧
        log'.At s answer (.preamble (before ++ [declaration])) 0 := by
  have taken : (Draft.preamble before).extend? .var log.reader.place =
      some (.keyword before) := rfl
  refine yields_bind (yields_take_free h found rfl taken) ?_
  intro _ log₁ h
  obtain ⟨less₁, second, h⟩ := h
  rw [← second] at named
  obtain ⟨t, found, named⟩ := Option.bind_eq_some_iff.mp named
  have taken : (Draft.keyword before).extend? t log₁.reader.place =
      some (.value before (.declaration text log₁.reader.place) .start) := by
    simp only [Draft.extend?, named]
  refine yields_bind (yields_name _ _ h found named taken) ?_
  intro result log₂ h
  obtain ⟨rfl, less₂, -, h⟩ := h
  refine yields_bind ((bounded n).value [] log₂ (by omega) h) ?_
  intro v log₃ h
  obtain ⟨less₃, h⟩ := h
  exact yields_pure ⟨by omega, h⟩

theorem yields_declarations {before : List Declaration} (enough : 2 * log.reader.left + 1 ≤ n)
    (h : log.At s answer (.preamble before) 0) :
    Yields s answer (declarations n before) log fun constants log' =>
      log'.reader.left ≤ log.reader.left ∧ log'.At s answer (.preamble constants) 0 ∧
        (log'.reader.found? = some .var → log'.reader.second?.bind Token.asName? = none) := by
  induction n generalizing log before with
  | zero => omega
  | succ n ih =>
    rw [declarations]
    refine yields_reader ?_
    split
    · rename_i opens
      obtain ⟨found, second⟩ := opens
      obtain ⟨text, named⟩ := Option.isSome_iff_exists.mp second
      refine yields_bind (yields_declaration (by omega) h found named) ?_
      intro declaration log₁ h
      obtain ⟨less₁, h⟩ := h
      refine (ih (by omega) h).mono ?_
      intro constants log₂ h
      obtain ⟨less₂, h⟩ := h
      exact ⟨by omega, h⟩
    · rename_i ends
      refine yields_pure ⟨Nat.le_refl _, h, ?_⟩
      intro found
      rw [not_and] at ends
      simpa using ends found

/-- The entry may have the keyword as its name. A run knows that only from the token after it. -/
theorem yields_entryName {constants : List Declaration}
    (h : log.At s answer (.preamble constants) 0)
    (last : log.reader.found? = some .var → log.reader.second?.bind Token.asName? = none) :
    Yields s answer (name Expectation.entryName.text Expectation.entryName.code) log
      fun result log' => log'.reader.left < log.reader.left ∧
        log'.At s answer (.value constants (.entry result.1) .start) 0 := by
  cases named : log.reader.found?.bind Token.asName? with
  | none =>
    refine yields_name_of_none (d := .preamble constants) h named rfl ?_ rfl
    intro t other
    cases t <;> first | rfl | cases other
  | some text =>
    obtain ⟨t, found, named⟩ := Option.bind_eq_some_iff.mp named
    by_cases keyword : t = .var
    · subst keyword
      cases named
      have taken : (Draft.preamble constants).extend? .var log.reader.place =
          some (.keyword constants) := rfl
      refine (yields_name _ _ h found rfl taken).mono ?_
      intro result log' h
      obtain ⟨rfl, less, second, h⟩ := h
      refine ⟨less, h.congr rfl rfl rfl rfl ?_⟩
      intro t next
      have other : t.asName? = none := by
        rw [← last found, ← second, next]
        rfl
      simp only [Draft.extend?, other]
    · have taken : (Draft.preamble constants).extend? t log.reader.place =
          some (.value constants (.entry text) .start) := by
        cases t <;> cases named <;> first | rfl | exact absurd rfl keyword
      refine (yields_name _ _ h found named taken).mono ?_
      intro result log' h
      obtain ⟨rfl, less, -, h⟩ := h
      exact ⟨less, h⟩

theorem yields_document (enough : 2 * log.reader.left + 1 ≤ n) (h : log.At s answer .start 0) :
    Yields s answer (document n) log fun document log' =>
      log'.reader.ahead = .finish ∧ log'.At s answer (.complete document) 0 := by
  refine yields_bind (yields_declarations enough h) ?_
  intro constants log₁ h
  obtain ⟨less₁, h, last⟩ := h
  refine yields_bind (yields_entryName h last) ?_
  intro result log₂ h
  obtain ⟨less₂, h⟩ := h
  refine yields_bind ((bounded n).value [] log₂ (by omega) h) ?_
  intro v log₃ h
  obtain ⟨-, h⟩ := h
  refine yields_reader ?_
  split
  · rename_i finish
    exact yields_pure ⟨finish, h⟩
  · rename_i more
    exact yields_refuse h (fun t _ => rfl) fun finish => absurd finish more

end

end Descent

namespace Reader

variable {r : Reader}

theorem read_of_found?_eq_none (h : r.found? = none) :
    r.read = some (.error ⟨.unexpectedEnd "Expected config entry name" r.place, none, some 203⟩,
      ⟨r, []⟩) := by
  let log : Log := ⟨r, []⟩
  have declarations : ∀ n, Descent.declarations (n + 1) [] log = some (.ok [], log) := by
    intro n
    have other : ¬ (r.found? = some .var ∧ (r.second?.bind Token.asName?).isSome = true) := by
      simp [h]
    rw [Descent.declarations, Descent.reader_bind, if_neg other]
    rfl
  have name : Descent.name Expectation.entryName.text Expectation.entryName.code log =
      some (.error (Expectation.entryName.diagnostic none r.place), log) := by
    have missing : r.found?.bind Token.asName? = none := by rw [h]; rfl
    have report := r.unexpected_eq_diagnostic .entryName
    rw [h] at report
    rw [Descent.name_of_none _ _ missing, ← report]
    rfl
  rw [read, Descent.document]
  show (Descent.declarations _ [] log).bind _ = _
  rw [declarations]
  show (Descent.name Expectation.entryName.text Expectation.entryName.code log).bind _ = _
  rw [name]
  rfl

structure Agrees (r : Reader) (s : Session) (result : Except Diagnostic Document) (log : Log) :
    Prop where
  outcome : result = s.read.1
  keeps : log.reader.Keeps s.read.2
  ordered : ∀ m ∈ log.moments, m.InOrder s.limit
  code : ∀ e, result = .error e → e.code ≠ some 201
  closed : ∀ document, result = .ok document →
    log.reader.depth = r.depth ∧ log.reader.ahead = .finish

theorem Keeps.read (h : r.Keeps s) :
    ∃ result log, r.read = some (result, log) ∧ r.Agrees s result log := by
  by_cases nothing : r.ahead = .nothing
  · have found : r.found? = none := by
      simp only [found?, nothing]
    have waiting := h.waiting
    have outlook := h.outlook
    simp only [Reader.waiting, nothing] at waiting
    simp only [Reader.outlook, nothing] at outlook
    have stays := Session.read_of_spent waiting.symm outlook.symm
    refine ⟨_, _, read_of_found?_eq_none found, ?_, ?_, ?_, ?_, ?_⟩
    · rw [stays]
    · rw [stays]
      exact h
    · intro m member
      cases member
    · intro e failed
      cases failed
      simp
    · intro document done
      cases done
  · have started : Log.At s s.read .start 0 ⟨r, []⟩ := by
      refine ⟨h.limited, h.depth nothing, h.within, h.outlook, nothing, h.finished, ?_, ?_⟩
      · refine ⟨.origin, ?_⟩
        dsimp only
        rw [h.waiting]
        rfl
      · intro m member
        cases member
    obtain ⟨result, log, run, post⟩ := Descent.yields_document (Nat.le_refl _) started
    refine ⟨result, log, run, ?_⟩
    cases result with
    | ok document =>
      obtain ⟨finish, here⟩ := post
      obtain ⟨outcome, keeps⟩ := here.settle finish
      refine ⟨outcome.symm, keeps, here.ordered, ?_, ?_⟩
      · intro e failed
        cases failed
      · intro _ _
        exact ⟨here.depth.trans (h.depth nothing).symm, finish⟩
    | error e =>
      refine ⟨post.outcome.symm, post.keeps, post.ordered, ?_, ?_⟩
      · intro e' same
        cases same
        exact post.code
      · intro document done
        cases done

theorem start_cases (source : String) (limit : Nat) :
    (∃ e, start source limit = .error e ∧ Session.start source limit = .error e) ∨
    ∃ r, start source limit = .ok r ∧ Session.start source limit = .ok r.session ∧
      r.Keeps r.session := by
  let unread : Reader := ⟨limit, 0, .nothing, .origin, .ofText source.toList⟩
  have opened : start source limit = unread.fetch.1.map fun _ => unread.fetch.2 := rfl
  rcases unread.fetch_cases with ⟨r, fetched, next⟩ | ⟨fault, p, scan, fetched⟩
  · rw [fetched] at opened
    have session : r.session = ⟨limit, 0, (Scan.ofText source.toList).tokens,
        .ending (Scan.ofText source.toList).ending⟩ := by
      rw [Reader.session, next.limited, next.depth, next.waiting, next.outlook]
      rfl
    refine .inr ⟨r, opened, Session.start_eq_ok_iff.mpr ⟨session, ?_⟩, ?_⟩
    · intro faulty
      obtain ⟨fault, p, scan⟩ := faulty
      have waiting : r.waiting = [] := next.waiting.trans (congrArg Scan.tokens scan)
      have outlook : r.outlook = .ending (.fault fault p) :=
        next.outlook.trans (congrArg (fun scan => Outlook.ending scan.ending) scan)
      unfold Reader.waiting at waiting
      unfold Reader.outlook at outlook
      cases ahead : r.ahead <;> rw [ahead] at waiting outlook
      · cases waiting
      · cases outlook
      · cases outlook
    · refine ⟨rfl, ?_, rfl, rfl, fun _ => rfl, next.finished⟩
      rw [next.depth]
      exact Nat.zero_le _
  · rw [fetched] at opened
    refine .inl ⟨fault.diagnostic p, opened, ?_⟩
    have scan : Scan.ofText source.toList = ⟨[], .fault fault p⟩ := scan
    rw [Session.start, scan]

theorem Keeps.after {s₀ : Session} (h : r.Keeps s₀) (n : Nat) :
    ∃ r', r.after n = some r' ∧ r'.Keeps (s₀.after n) := by
  induction n with
  | zero => exact ⟨r, rfl, h⟩
  | succ n ih =>
    obtain ⟨r', reached, kept⟩ := ih
    obtain ⟨result, log, read, agrees⟩ := kept.read
    refine ⟨log.reader, ?_, agrees.keeps⟩
    rw [Reader.after, reached, Option.bind_some, read]
    rfl

theorem after_add_of_found?_eq_none {r₀ : Reader} {n : Nat} (reached : r₀.after n = some r)
    (h : r.found? = none) (k : Nat) : r₀.after (n + k) = some r := by
  induction k with
  | zero => exact reached
  | succ k ih =>
    show (r₀.after (n + k)).bind _ = _
    rw [ih, Option.bind_some, read_of_found?_eq_none h]
    rfl

end Reader

/-- The calls of a reading are made in order, whatever has been read before, and no reading asks for
a token that it does not have. -/
theorem reader_stays_in_order {source : String} {limit : Nat} {r₀ : Reader}
    (h : Reader.start source limit = .ok r₀) :
    Session.start source limit = .ok r₀.session ∧ ∀ n, ∃ r result log,
      r₀.after n = some r ∧ r.read = some (result, log) ∧
      result = (r₀.session.after n).read.1 ∧
      (r.ahead ≠ .nothing → r.depth = (r₀.session.after n).depth) ∧
      (∀ m ∈ log.moments, m.InOrder limit) ∧ log.reader.depth ≤ limit ∧
      (∀ e, result = .error e → e.code ≠ some 201) ∧
      ∀ document, result = .ok document →
        log.reader.depth = r.depth ∧ log.reader.ahead = .finish ∧ log.reader.rest.rest = [] ∧
        ∀ k, r₀.after (n + 1 + k) = some log.reader ∧
          log.reader.read = some (.error ⟨.unexpectedEnd "Expected config entry name"
            (Position.ofText source.toList).next, none, some 203⟩, ⟨log.reader, []⟩) := by
  rcases Reader.start_cases source limit with ⟨e, failed, -⟩ | ⟨r, opened, session, kept⟩
  · rw [h] at failed
    cases failed
  obtain rfl : r₀ = r := Except.ok.inj (h.symm.trans opened)
  refine ⟨session, ?_⟩
  intro n
  have goesOn := Session.goesOn_of_start session
  obtain ⟨r, reached, keeps⟩ := kept.after n
  obtain ⟨result, log, read, agrees⟩ := keeps.read
  have limited : (r₀.session.after n).limit = limit := (goesOn.after n).limited
  have next : (r₀.session.after (n + 1)).GoesOn limit _ := goesOn.after (n + 1)
  have depth : log.reader.depth ≤ limit := next.limited ▸ agrees.keeps.within
  refine ⟨r, result, log, reached, read, agrees.outcome, keeps.depth, limited ▸ agrees.ordered,
    depth, agrees.code, ?_⟩
  intro document done
  obtain ⟨level, finish⟩ := agrees.closed document done
  refine ⟨level, finish, agrees.keeps.finished finish, ?_⟩
  have found : log.reader.found? = none := by
    simp only [Reader.found?, finish]
  have stopped : r₀.after (n + 1) = some log.reader := by
    rw [Reader.after, reached, Option.bind_some, read]
    rfl
  have place : log.reader.place = (Position.ofText source.toList).next := by
    have outlook := agrees.keeps.outlook
    simp only [Reader.outlook, finish] at outlook
    rcases next.outlook with ⟨same, -⟩ | ⟨-, _, _, _, -, -, spent⟩
    · have ending := Outlook.ending.inj (outlook.trans same)
      exact Scan.place_of_finish ending.symm
    · cases outlook.trans spent
  intro k
  rw [← place]
  exact ⟨Reader.after_add_of_found?_eq_none stopped found k, Reader.read_of_found?_eq_none found⟩

theorem reader_stays_in_order_after_failure :
    ∃ r₀, Reader.start "a [1\nb 2" 1 = .ok r₀ ∧ ∃ r log, r₀.after 1 = some r ∧
      r.read = some (.ok ⟨[], ⟨"b", .int 2⟩⟩, log) ∧ (∀ m ∈ log.moments, m.InOrder 1) ∧
      log.reader.depth = r.depth ∧ ∀ k, r₀.after (2 + k) = some log.reader ∧
        log.reader.read = some (.error ⟨.unexpectedEnd "Expected config entry name" ⟨2, 4⟩, none,
          some 203⟩, ⟨log.reader, []⟩) := by
  let s₀ : Session := ⟨1, 0, [⟨.name "a", ⟨1, 1⟩⟩, ⟨.openBracket, ⟨1, 3⟩⟩, ⟨.number 1, ⟨1, 4⟩⟩,
    ⟨.name "b", ⟨2, 1⟩⟩, ⟨.number 2, ⟨2, 3⟩⟩], .ending (.finish ⟨2, 4⟩)⟩
  have session : Session.start "a [1\nb 2" 1 = .ok s₀ := by decide +kernel
  rcases Reader.start_cases "a [1\nb 2" 1 with ⟨e, -, failed⟩ | ⟨r₀, opened, started, -⟩
  · rw [session] at failed
    cases failed
  have same : r₀.session = s₀ := Except.ok.inj (started.symm.trans session)
  obtain ⟨-, readings⟩ := reader_stays_in_order opened
  obtain ⟨r, result, log, reached, read, outcome, -, ordered, -, -, closed⟩ := readings 1
  have done : result = .ok ⟨[], ⟨"b", .int 2⟩⟩ := by
    rw [outcome, same]
    rfl
  subst done
  obtain ⟨level, -, -, later⟩ := closed _ rfl
  have finish : (Position.ofText "a [1\nb 2".toList).next = ⟨2, 4⟩ := by decide
  rw [finish] at later
  exact ⟨r₀, opened, r, log, reached, read, ordered, level, later⟩

end TypedConfig
