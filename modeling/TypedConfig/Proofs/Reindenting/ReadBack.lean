import TypedConfig.Proofs.Reindenting.Legible
import TypedConfig.Proofs.Reindenting.TwoPhases

namespace TypedConfig.Markup

variable {events later : List Event} {e e' : Event} {names names' : List (List Char)}
  {rest tail content : List Char}

namespace Reader

theorem scan_congr {r s : Reader} (same : r.next = s.next) : r.scan = s.scan := by
  cases next : s.next with
  | none => rw [scan_of_end next, scan_of_end (same.trans next)]
  | some outcome =>
    match outcome with
    | .error fault => rw [scan_of_fault next, scan_of_fault (same.trans next)]
    | .ok (e, after) => rw [scan_of_next next, scan_of_next (same.trans next)]

theorem scan_append_of_blanks (blank : ∀ c ∈ tail, isBlank c = true) :
    (Reader.mk (tail ++ rest) names).scan = (Reader.mk rest names).scan := by
  apply scan_congr
  rw [next, next, piece?, piece?]
  simp only [List.dropWhile_append_of_pos blank]

theorem scan_blanks (blank : ∀ c ∈ tail, isBlank c = true) :
    (Reader.mk tail names).scan = ⟨[], none⟩ := by
  have skipped : (Reader.mk (tail ++ []) names).scan = (Reader.mk [] names).scan :=
    scan_append_of_blanks blank
  rw [List.append_nil] at skipped
  rw [skipped]
  exact scan_of_end rfl

theorem scan_run (run : IsRun content) (blank : ∀ c ∈ tail, isBlank c = true)
    (ends : rest = [] ∨ ∃ inner, rest = '<' :: inner) :
    (Reader.mk (content ++ (tail ++ rest)) names).scan =
      (Reader.mk rest names).scan.cons (.text content) := by
  have read := Piece.text_of_run run blank ends
  obtain ⟨c, later, rfl⟩ := List.exists_cons_of_ne_nil run.ne
  have found : (Reader.mk (c :: later ++ (tail ++ rest)) names).piece? =
      some (Piece.text (c :: later ++ (tail ++ rest))) :=
    piece?_text (run.inside c List.mem_cons_self) (run.first c rfl)
  rw [read] at found
  exact scan_of_piece found rfl rfl

theorem piece?_written (again : e.ReadAs e') (rest : List Char) (names : List (List Char)) :
    (Reader.mk (e.written ++ rest) names).piece? = some ⟨.ok e', rest⟩ := by
  obtain ⟨inner, written, read⟩ := again
  rw [written, List.cons_append, piece?_construct, read]

theorem scan_written (again : e.ReadAs e') (nests : e'.nest names = .ok names')
    (rest : List Char) :
    (Reader.mk (e.written ++ rest) names).scan = (Reader.mk rest names').scan.cons e' :=
  scan_of_piece (piece?_written again rest names) rfl nests

theorem scan_written_of_error {fault : Fault} (again : e.ReadAs e')
    (fails : e'.nest names = .error fault) (rest : List Char) :
    (Reader.mk (e.written ++ rest) names).scan = ⟨[], some (fault, rest)⟩ := by
  apply scan_of_fault
  rw [next, piece?_written again]
  simp only [Option.map_some, fails]

theorem isBlank_lineStart (breaks : Bool) (level : Nat) :
    ∀ c ∈ Layout.lineStart breaks level, isBlank c = true := by
  cases breaks with
  | false => simp [Layout.lineStart]
  | true =>
    refine List.forall_mem_cons.mpr ⟨rfl, ?_⟩
    intro c member
    rw [List.eq_of_mem_replicate member]
    rfl

theorem scan_draw_text (run : IsRun content) (legible : ∀ e ∈ later, e.Legible)
    (apart : (.text content :: later).IsChain Event.Apart) (depth : Nat)
    (names : List (List Char)) :
    (Reader.mk (content ++ (draw depth false later ++ ['\n'])) names).scan =
      (Reader.mk (draw depth false later ++ ['\n']) names).scan.cons (.text content) := by
  cases later with
  | nil =>
    have blank : ∀ c ∈ ['\n'], isBlank c = true := by simp [isBlank]
    have ended : (Reader.mk (content ++ (['\n'] ++ [])) names).scan =
        (Reader.mk [] names).scan.cons (.text content) := scan_run run blank (.inl rfl)
    rw [List.append_nil] at ended
    rw [draw, List.nil_append, ended, scan_blanks blank, scan_blanks (by simp)]
  | cons next later =>
    have other : ∀ second, next ≠ .text second := by
      intro second
      exact (List.isChain_cons_cons.mp apart).1 content second rfl
    obtain ⟨inner, written, -⟩ := (legible next List.mem_cons_self).readAs_asRead other
    have begins : ∃ inner, draw depth false (next :: later) ++ ['\n'] = '<' :: inner := by
      rw [draw_cons, written]
      exact ⟨_, rfl⟩
    have nothing : ∀ c ∈ ([] : List Char), isBlank c = true := by simp
    exact scan_run run nothing (.inr begins)

theorem scan_draw_cons (legible : ∀ d ∈ e :: later, d.Legible)
    (apart : (e :: later).IsChain Event.Apart) (nests : e.asRead.nest names = .ok names')
    (depth : Nat) (breaks : Bool) :
    (Reader.mk (draw depth breaks (e :: later) ++ ['\n']) names).scan =
      (Reader.mk (draw (e.depthAfter depth) (!e.isInline) later ++ ['\n']) names').scan.cons
        e.asRead := by
  rw [draw_cons, List.append_assoc, List.append_assoc,
    scan_append_of_blanks (isBlank_lineStart _ _)]
  obtain ⟨here, later_legible⟩ := List.forall_mem_cons.mp legible
  -- Only the end of a text depends on what comes after it.
  by_cases is_text : ∃ content, e = .text content
  · obtain ⟨content, rfl⟩ := is_text
    cases nests
    exact scan_draw_text here later_legible apart depth names
  · have other : ∀ content, e ≠ .text content := not_exists.mp is_text
    exact scan_written (here.readAs_asRead other) nests _

theorem scan_draw_cons_of_error {fault : Fault} (legible : e.Legible)
    (fails : e.asRead.nest names = .error fault) (depth : Nat) (breaks : Bool) :
    (Reader.mk (draw depth breaks (e :: later) ++ ['\n']) names).scan.fault ≠ none := by
  have other : ∀ content, e ≠ .text content := by
    rintro content rfl
    cases fails
  rw [draw_cons, List.append_assoc, List.append_assoc,
    scan_append_of_blanks (isBlank_lineStart _ _),
    scan_written_of_error (legible.readAs_asRead other) fails]
  simp

/-- What is drawn is read back whole when it nests, and else reading it fails. -/
theorem scan_draw (legible : ∀ e ∈ events, e.Legible) (apart : events.IsChain Event.Apart)
    (depth : Nat) (breaks : Bool) (names : List (List Char)) :
    (∃ names', nestAll names (events.map Event.asRead) = .ok names') ∧
      (Reader.mk (draw depth breaks events ++ ['\n']) names).scan =
        ⟨events.map Event.asRead, none⟩ ∨
    (∃ fault, nestAll names (events.map Event.asRead) = .error fault) ∧
      (Reader.mk (draw depth breaks events ++ ['\n']) names).scan.fault ≠ none := by
  induction events generalizing depth breaks names with
  | nil => exact .inl ⟨⟨names, rfl⟩, scan_blanks (by simp [draw, isBlank])⟩
  | cons e later ih =>
    -- The reader checks each tag as it comes, so the first tag that does not nest is the fault.
    rw [List.map_cons, nestAll_cons]
    cases nests : e.asRead.nest names with
    | error fault =>
      have here := legible e List.mem_cons_self
      exact .inr ⟨⟨fault, rfl⟩, scan_draw_cons_of_error here nests depth breaks⟩
    | ok inner =>
      have read := scan_draw_cons legible apart nests depth breaks
      have later_legible := (List.forall_mem_cons.mp legible).2
      have later_apart := (List.isChain_cons.mp apart).2
      rw [read]
      rcases ih later_legible later_apart (e.depthAfter depth) (!e.isInline) inner with
        ⟨nested, sound⟩ | ⟨fails, faulty⟩
      · exact .inl ⟨nested, by rw [sound]; rfl⟩
      · exact .inr ⟨fails, faulty⟩

end Reader

def declared : List Char := "xml version=\"1.0\" ".toList

theorem readAs_declared : (Event.declaration declared).ReadAs (.declaration declared) := by
  have reading : (Piece.instruction (declared ++ ['?', '>'])).reading =
      .ok (.declaration declared) := by decide
  exact scanned_of_instruction reading

theorem ofText_laid (body : List Char) :
    EventScan.ofText (declarationLine ++ body ++ ['\n']) =
      (Reader.mk (body ++ ['\n']) []).scan.cons (.declaration declared) := by
  have unmarked : EventScan.ofText (declarationLine ++ body ++ ['\n']) =
      (Reader.mk ((Event.declaration declared).written ++ ('\n' :: (body ++ ['\n']))) []).scan := by
    rfl
  have skipped : (Reader.mk (['\n'] ++ (body ++ ['\n'])) []).scan =
      (Reader.mk (body ++ ['\n']) []).scan := Reader.scan_append_of_blanks (by simp [isBlank])
  rw [unmarked, Reader.scan_written readAs_declared rfl]
  rw [← skipped]
  rfl

theorem map_asRead (named : .emptyTag [] ∉ events) : events.map Event.asRead = events := by
  induction events with
  | nil => rfl
  | cons e events ih =>
    rw [List.mem_cons, not_or] at named
    obtain ⟨here, later⟩ := named
    rw [List.map_cons, ih later, Event.asRead_of_ne (Ne.symm here)]

theorem length_of_nest_asRead {after after' : List (List Char)} (nested : e.nest names = .ok after)
    (again : e.asRead.nest names' = .ok after') :
    after'.length + names.length + (if e = .emptyTag [] then 1 else 0) =
      after.length + names'.length := by
  by_cases bare : e = .emptyTag []
  · subst bare
    cases nested
    rw [nest_endTag_eq_ok_iff.mp again, if_pos rfl, List.length_cons]
    omega
  · rw [Event.asRead_of_ne bare] at again
    have left := length_of_nest nested
    have left' := length_of_nest again
    rw [if_neg bare]
    cases e with
    | endTag found =>
      rw [nest_endTag_eq_ok_iff.mp nested, nest_endTag_eq_ok_iff.mp again]
      simp only [List.length_cons]
      omega
    | _ =>
      simp only [Event.depthAfter] at left left'
      omega

/-- Each bare empty tag closes one element more when it is read as an end tag. -/
theorem length_of_nestAll_asRead {after after' : List (List Char)}
    (nested : nestAll names events = .ok after)
    (again : nestAll names' (events.map Event.asRead) = .ok after') :
    after'.length + names.length + events.count (.emptyTag []) = after.length + names'.length := by
  induction events generalizing names names' with
  | nil =>
    cases nested
    cases again
    rw [List.count_nil]
    omega
  | cons e events ih =>
    obtain ⟨inner, here, nested⟩ := bind_eq_ok_iff.mp nested
    obtain ⟨inner', here', again⟩ := bind_eq_ok_iff.mp again
    have later := ih nested again
    have first := length_of_nest_asRead here here'
    rw [List.count_cons]
    simp only [beq_iff_eq]
    omega

theorem mem_consText_iff {first content : List Char} :
    .emptyTag content ∈ consText first events ↔ .emptyTag content ∈ events := by
  unfold consText
  split <;> simp

theorem mem_joinTexts_iff {content : List Char} :
    .emptyTag content ∈ joinTexts events ↔ .emptyTag content ∈ events := by
  fun_induction joinTexts events with
  | case1 first events ih => rw [mem_consText_iff, ih, List.mem_cons, or_iff_right (by simp)]
  | case2 e events _ ih => rw [List.mem_cons, List.mem_cons, ih]
  | case3 => rfl

theorem mem_of_mem_collapse {content : List Char} (h : .emptyTag content ∈ collapse events) :
    .emptyTag content ∈ events ∨ .startTag content ∈ events := by
  fun_induction collapse events with
  | case1 opening name events ih =>
    rcases List.mem_cons.mp h with here | later
    · cases here
      exact .inr List.mem_cons_self
    · have past {e : Event} (member : e ∈ events) :
          e ∈ .startTag opening :: .endTag name :: events := .tail _ (.tail _ member)
      exact (ih later).imp past past
  | case2 e events _ ih =>
    rcases List.mem_cons.mp h with here | later
    · exact .inl (here ▸ List.mem_cons_self)
    · exact (ih later).imp (List.mem_cons_of_mem e) (List.mem_cons_of_mem e)
  | case3 => cases h

variable {text laid : List Char}

/-- Bare empty tags come from bare start tags only: a bare empty tag is no construct. -/
theorem bare_not_mem_normal (named : .startTag [] ∉ (EventScan.ofText text).events) :
    .emptyTag [] ∉ normal (EventScan.ofText text).events := by
  intro member
  rcases mem_of_mem_collapse (mem_joinTexts_iff.mp member) with empty | opened
  · have found := (List.mem_filter.mp empty).1
    exact Event.ne_bare_of_readAs (scanned_of_mem_ofText found rfl) rfl
  · exact named (List.mem_filter.mp opened).1

theorem ofText_of_reindentText (h : reindentText text = .ok laid) :
    (.emptyTag [] ∉ normal (EventScan.ofText text).events ∧
      EventScan.ofText laid =
        ⟨.declaration declared :: normal (EventScan.ofText text).events, none⟩) ∨
    (.emptyTag [] ∈ normal (EventScan.ofText text).events ∧
      (EventScan.ofText laid).fault ≠ none) := by
  have nested := nestAll_normal (nests_of_reindentText h).2
  have apart : (normal (EventScan.ofText text).events).IsChain Event.Apart := isChain_joinTexts _
  rw [reindentText_ok h, ofText_laid]
  rcases Reader.scan_draw (legible_normal text) apart 0 false [] with
    ⟨⟨names, again⟩, read⟩ | ⟨⟨fault, fails⟩, faulty⟩
  · have counted := length_of_nestAll_asRead nested again
    have named : .emptyTag [] ∉ normal (EventScan.ofText text).events := by
      rw [← List.count_eq_zero]
      simp only [List.length_nil] at counted
      omega
    rw [map_asRead named] at read
    exact .inl ⟨named, by rw [read]; rfl⟩
  · refine .inr ⟨?_, faulty⟩
    apply Decidable.byContradiction
    intro named
    rw [map_asRead named, nested] at fails
    cases fails

/-- What is laid out is read as the events of the text before, without declarations and document
types, with one empty tag for an element without content and one text for texts that have come to
stand side by side. -/
theorem reindent_preserves_events {source laid : String} (h : reindent source = .ok laid)
    (named : .startTag [] ∉ (EventScan.ofText source.toList).events) :
    EventScan.ofText laid.toList =
      ⟨.declaration "xml version=\"1.0\" ".toList :: normal (EventScan.ofText source.toList).events,
        none⟩ := by
  obtain ⟨text, laid_out, rfl⟩ := map_eq_ok_iff.mp h
  rw [String.toList_ofList]
  rcases ofText_of_reindentText laid_out with ⟨-, read⟩ | ⟨bare, -⟩
  · exact read
  · exact absurd bare (bare_not_mem_normal named)

theorem reindent_preserves_events_around_doctype :
    reindent "<a>x<!DOCTYPE d>y</a>" = .ok "<?xml version=\"1.0\" ?>\n<a>xy</a>\n" ∧
    (EventScan.ofText "<a>x<!DOCTYPE d>y</a>".toList).events =
      [.startTag ['a'], .text ['x'], .doctype ['d'], .text ['y'], .endTag ['a']] ∧
    EventScan.ofText "<?xml version=\"1.0\" ?>\n<a>xy</a>\n".toList =
      ⟨[.declaration "xml version=\"1.0\" ".toList, .startTag ['a'], .text ['x', 'y'],
        .endTag ['a']], none⟩ := by
  have opened : (Reader.mk "<a>x<!DOCTYPE d>y</a>".toList []).next =
      some (.ok (.startTag ['a'], ⟨"x<!DOCTYPE d>y</a>".toList, [['a']]⟩)) := rfl
  have first : (Reader.mk "x<!DOCTYPE d>y</a>".toList [['a']]).next =
      some (.ok (.text ['x'], ⟨"<!DOCTYPE d>y</a>".toList, [['a']]⟩)) := rfl
  have typed : (Reader.mk "<!DOCTYPE d>y</a>".toList [['a']]).next =
      some (.ok (.doctype ['d'], ⟨"y</a>".toList, [['a']]⟩)) := rfl
  have second : (Reader.mk "y</a>".toList [['a']]).next =
      some (.ok (.text ['y'], ⟨"</a>".toList, [['a']]⟩)) := rfl
  have closed : (Reader.mk "</a>".toList [['a']]).next = some (.ok (.endTag ['a'], ⟨[], []⟩)) := rfl
  have ended : (Reader.mk [] []).next = none := rfl
  have read : EventScan.ofText "<a>x<!DOCTYPE d>y</a>".toList =
      ⟨[.startTag ['a'], .text ['x'], .doctype ['d'], .text ['y'], .endTag ['a']], none⟩ := by
    have whole := Reader.scan_of_next opened
    rw [Reader.scan_of_next first, Reader.scan_of_next typed, Reader.scan_of_next second,
      Reader.scan_of_next closed, Reader.scan_of_end ended] at whole
    exact whole
  have laid_out : reindent "<a>x<!DOCTYPE d>y</a>" =
      .ok "<?xml version=\"1.0\" ?>\n<a>xy</a>\n" := by
    simp only [reindent, reindentText, read]
    decide +kernel
  have named : .startTag [] ∉ (EventScan.ofText "<a>x<!DOCTYPE d>y</a>".toList).events := by
    rw [read]
    decide
  have preserved := reindent_preserves_events laid_out named
  rw [read] at preserved
  exact ⟨laid_out, congrArg EventScan.events read, preserved⟩

end TypedConfig.Markup
