import TypedConfig.Proofs.Reindenting.Steps

namespace TypedConfig.Markup

theorem openAfter_append_singleton (before : List Event) (e : Event) :
    openAfter (before ++ [e]) = e.depthAfter (openAfter before) := by
  simp [openAfter]

theorem eventOffence?_append (before first later : List Event) :
    eventOffence? before (first ++ later) =
      (eventOffence? before first).or (eventOffence? (before ++ first) later) := by
  induction first generalizing before with
  | nil => simp [eventOffence?]
  | cons e first ih => simp [eventOffence?, ih, Option.or_assoc]

theorem eventOffence?_cons_of_none {before : List Event} {e : Event} (h : e.offence? before = none)
    (later : List Event) :
    eventOffence? before (e :: later) = eventOffence? (before ++ [e]) later := by
  rw [eventOffence?, h, Option.none_or]

namespace Event

variable {before : List Event} {e : Event}

theorem offence?_of_apart (apart : e.isInline = false) (inner : e.beginsElement = false) :
    e.offence? before = none := by
  simp [offence?, apart, inner]

theorem offence?_inside (inside : openAfter before ≠ 0) (e : Event) : e.offence? before = none :=
  if_pos inside

theorem offence?_outside_eq_none_iff (outside : openAfter before = 0) :
    e.offence? before = none ↔
      e.isInline = false ∧ (e.beginsElement = true → before.any beginsElement = false) := by
  unfold offence?
  rw [if_neg (not_not_intro outside)]
  cases e.isInline <;> cases e.beginsElement <;> cases before.any beginsElement <;> simp

end Event

namespace Layout

variable {s t : Layout} {e : Event} {events before : List Event} {text body : List Char}

/-- What a layout knows of the events before it. -/
structure Follows (s : Layout) (before : List Event) : Prop where
  depth : s.depth = openAfter before
  rooted : s.rooted = before.any Event.beginsElement
  inside : s.held ≠ none → s.depth ≠ 0

theorem follows_start : start.Follows [] := ⟨rfl, rfl, fun h => absurd rfl h⟩

inductive Step (s : Layout) : Event → List Char → Layout → Prop where
  | hold (content : List Char) :
    Step s (.startTag content) s.release.1 ⟨some content, s.depth + 1, true, s.release.2.breaks⟩
  | close (name : List Char) (free : s.held = none) :
    Step s (.endTag name) (lineStart s.breaks (s.depth - 1) ++ Event.written (.endTag name))
      ⟨none, s.depth - 1, s.rooted, true⟩
  | collapse (name : List Char) {content : List Char} (held : s.held = some content) :
    Step s (.endTag name) (lineStart s.breaks (s.depth - 1) ++ Event.written (.emptyTag content))
      ⟨none, s.depth - 1, s.rooted, true⟩
  | stand {e : Event} (alone : e.standsAlone = true) :
    Step s e
      (s.release.1 ++ (lineStart (s.release.2.breaks && !e.isInline) s.depth ++ e.written))
      ⟨none, s.depth, s.rooted || e.beginsElement, !e.isInline⟩
  | pass {e : Event} (dropped : e.isKept = false) : Step s e [] s

theorem offence?_of_beginsElement (h : s.Follows before) (begins : e.beginsElement = true) :
    e.offence? before =
      if s.depth = 0 ∧ s.rooted = true then some (notOneElement "More than one root element")
      else none := by
  unfold Event.offence?
  rw [← h.depth, ← h.rooted, begins, Event.isInline_of_beginsElement begins]
  by_cases outside : s.depth = 0 <;> simp [outside]

theorem offence?_of_isInline (h : s.Follows before) (inline : e.isInline = true) :
    e.offence? before =
      if s.depth = 0 then some (notOneElement "Text outside of the root element") else none := by
  unfold Event.offence?
  rw [← h.depth, if_pos inline]
  by_cases outside : s.depth = 0 <;> simp [outside]

theorem Step.stand_inline (inline : e.isInline = true) :
    Step s e (s.release.1 ++ e.written) ⟨none, s.depth, s.rooted, false⟩ := by
  have stood := Step.stand (s := s) (Event.standsAlone_of_isInline inline)
  rw [inline, Event.beginsElement_of_isInline inline, Bool.or_false, Bool.not_true,
    Bool.and_false] at stood
  exact stood

theorem Step.stand_alone (alone : e.standsAlone = true) (apart : e.isInline = false) :
    Step s e (s.release.1 ++ (lineStart s.release.2.breaks s.depth ++ e.written))
      ⟨none, s.depth, s.rooted || e.beginsElement, true⟩ := by
  have stood := Step.stand (s := s) alone
  rw [apart, Bool.not_false, Bool.and_true] at stood
  exact stood

def Heeds (s : Layout) (before : List Event) (e : Event) : Prop :=
  (∃ d, e.offence? before = some d ∧ s.step e = .error d) ∨
  (e.offence? before = none ∧ ∃ written t, s.step e = .ok (written, t) ∧ s.Step e written t)

theorem heeds_of_isInline (h : s.Follows before) (inline : e.isInline = true) :
    s.Heeds before e := by
  rw [Heeds, offence?_of_isInline h inline, step_inline s inline]
  split
  · exact .inl ⟨_, rfl, rfl⟩
  · exact .inr ⟨rfl, _, _, rfl, .stand_inline inline⟩

theorem heeds_of_isRemark (remark : e.isRemark = true) : s.Heeds before e := by
  have alone := Event.standsAlone_of_isRemark remark
  have apart := Event.isInline_of_isRemark remark
  have inner := Event.beginsElement_of_isRemark remark
  have stood := Step.stand_alone (s := s) alone apart
  rw [inner, Bool.or_false] at stood
  exact .inr ⟨Event.offence?_of_apart apart inner, _, _, step_remark s remark, stood⟩

theorem heeds_startTag (h : s.Follows before) (content : List Char) :
    s.Heeds before (.startTag content) := by
  rw [Heeds, offence?_of_beginsElement h rfl, step_begins_startTag]
  split
  · exact .inl ⟨_, rfl, rfl⟩
  · exact .inr ⟨rfl, _, _, rfl, .hold content⟩

theorem heeds_emptyTag (h : s.Follows before) (content : List Char) :
    s.Heeds before (.emptyTag content) := by
  have stood := Step.stand_alone (s := s) (e := .emptyTag content) rfl rfl
  rw [Event.beginsElement, Bool.or_true] at stood
  rw [Heeds, offence?_of_beginsElement h rfl, step_emptyTag]
  split
  · exact .inl ⟨_, rfl, rfl⟩
  · exact .inr ⟨rfl, _, _, rfl, stood⟩

theorem heeds_endTag (name : List Char) : s.Heeds before (.endTag name) := by
  refine .inr ⟨Event.offence?_of_apart rfl rfl, ?_⟩
  cases held : s.held with
  | none => exact ⟨_, _, step_endTag_of_free name held, .close name held⟩
  | some content => exact ⟨_, _, step_endTag_of_held name held, .collapse name held⟩

theorem Follows.heeds (h : s.Follows before) (e : Event) : s.Heeds before e := by
  cases e with
  | startTag content => exact heeds_startTag h content
  | emptyTag content => exact heeds_emptyTag h content
  | endTag name => exact heeds_endTag name
  | text content => exact heeds_of_isInline h rfl
  | cdata content => exact heeds_of_isInline h rfl
  | comment content => exact heeds_of_isRemark rfl
  | instruction content => exact heeds_of_isRemark rfl
  | declaration content => exact .inr ⟨Event.offence?_of_apart rfl rfl, [], s, rfl, .pass rfl⟩
  | doctype content => exact .inr ⟨Event.offence?_of_apart rfl rfl, [], s, rfl, .pass rfl⟩

theorem failure?_step (h : s.Follows before) (e : Event) :
    failure? (s.step e) = e.offence? before := by
  rcases h.heeds e with ⟨d, offends, failed⟩ | ⟨passed, written, t, stepped, -⟩
  · rw [failed, offends]
    rfl
  · rw [stepped, passed]
    rfl

theorem step_ok {written : List Char} (h : s.Follows before)
    (stepped : s.step e = .ok (written, t)) : s.Step e written t := by
  rcases h.heeds e with ⟨d, -, failed⟩ | ⟨-, written', t', stepped', taken⟩
  · rw [stepped] at failed
    cases failed
  · rw [stepped] at stepped'
    cases stepped'
    exact taken

theorem Follows.step {written : List Char} (h : s.Follows before)
    (stepped : s.step e = .ok (written, t)) : t.Follows (before ++ [e]) := by
  obtain ⟨depth, rooted, inside⟩ := h
  have rooted' : (before ++ [e]).any Event.beginsElement = (s.rooted || e.beginsElement) := by
    rw [rooted, List.any_append]
    simp
  have depth' := openAfter_append_singleton before e
  rw [← depth] at depth'
  cases step_ok ⟨depth, rooted, inside⟩ stepped with
  | hold content => exact ⟨depth'.symm, by rw [rooted']; simp [Event.beginsElement], by simp⟩
  | close name free => exact ⟨depth'.symm, by rw [rooted']; simp [Event.beginsElement], by simp⟩
  | collapse name held => exact ⟨depth'.symm, by rw [rooted']; simp [Event.beginsElement], by simp⟩
  | stand alone =>
    exact ⟨(depth'.trans (Event.depthAfter_of_standsAlone alone _)).symm, rooted'.symm, by simp⟩
  | pass dropped =>
    rw [Event.beginsElement_of_not_isKept dropped, Bool.or_false] at rooted'
    exact ⟨(depth'.trans (Event.depthAfter_of_not_isKept dropped _)).symm, rooted'.symm, inside⟩

theorem Follows.print (h : s.Follows before) (printed : s.print events = .ok (body, t)) :
    t.Follows (before ++ events) := by
  induction events generalizing s before body with
  | nil =>
    cases printed
    rwa [List.append_nil]
  | cons e events ih =>
    obtain ⟨⟨first, next⟩, stepped, printed⟩ := bind_eq_ok_iff.mp printed
    obtain ⟨⟨rest, last⟩, rest_printed, printed⟩ := bind_eq_ok_iff.mp printed
    cases printed
    have followed := ih (h.step stepped) rest_printed
    rwa [List.append_assoc] at followed

theorem failure?_print (h : s.Follows before) (events : List Event) :
    failure? (s.print events) = eventOffence? before events := by
  induction events generalizing s before with
  | nil => rfl
  | cons e events ih =>
    rw [Layout.print, eventOffence?, ← failure?_step h e]
    apply failure?_bind
    rintro ⟨first, next⟩ stepped
    rw [← ih (h.step stepped)]
    exact failure?_bind_pure _ _

theorem failure?_finish (h : s.Follows before) : failure? s.finish = endOffence? before := by
  unfold finish endOffence?
  rw [h.depth, h.rooted]
  split
  · rfl
  · cases before.any Event.beginsElement <;> rfl

end Layout

end TypedConfig.Markup
