import TypedConfig.Proofs.Reindenting.Steps

namespace TypedConfig.Markup

def nestAll (names : List (List Char)) (events : List Event) : Except Fault (List (List Char)) :=
  events.foldlM Event.nest names

variable {names names' : List (List Char)} {events : List Event} {e : Event}

theorem nestAll_cons (names : List (List Char)) (e : Event) (events : List Event) :
    nestAll names (e :: events) = e.nest names >>= fun names => nestAll names events :=
  List.foldlM_cons

theorem nestAll_cons_of_nest {inner : List (List Char)} (h : e.nest names = .ok inner) :
    nestAll names (e :: events) = nestAll inner events := by
  rw [nestAll_cons, h]
  rfl

theorem nestAll_cons_congr {later : List Event}
    (h : ∀ names, nestAll names events = nestAll names later) :
    nestAll names (e :: events) = nestAll names (e :: later) := by
  simp only [nestAll_cons, h]

theorem nestAll_filter_isKept (names : List (List Char)) (events : List Event) :
    nestAll names (events.filter Event.isKept) = nestAll names events := by
  induction events generalizing names with
  | nil => rfl
  | cons e events ih =>
    cases kept : e.isKept with
    | true => rw [List.filter_cons_of_pos kept]; exact nestAll_cons_congr ih
    | false =>
      have passed : e.nest names = .ok names := by cases e <;> first | rfl | cases kept
      rw [List.filter_cons_of_neg (by simp [kept]), ih, nestAll_cons_of_nest passed]

theorem nest_endTag_eq_ok_iff {found : List Char} :
    (Event.endTag found).nest names = .ok names' ↔ names = found :: names' := by
  cases names with
  | nil => simp [Event.nest]
  | cons expected names =>
    by_cases same : expected = found <;> simp [Event.nest, same]

theorem nestAll_collapse (h : nestAll names events = .ok names') :
    nestAll names (collapse events) = .ok names' := by
  fun_induction collapse events generalizing names with
  | case1 content name events ih =>
    rw [nestAll_cons_of_nest rfl, nestAll_cons] at h
    obtain ⟨inner, closed, h⟩ := bind_eq_ok_iff.mp h
    cases nest_endTag_eq_ok_iff.mp closed
    exact ih h
  | case2 e events _ ih =>
    rw [nestAll_cons] at h ⊢
    obtain ⟨inner, nested, h⟩ := bind_eq_ok_iff.mp h
    exact bind_eq_ok_iff.mpr ⟨inner, nested, ih h⟩
  | case3 => exact h

theorem nestAll_joinTexts (names : List (List Char)) (events : List Event) :
    nestAll names (joinTexts events) = nestAll names events := by
  fun_induction joinTexts events generalizing names with
  | case1 first events ih =>
    rw [nestAll_cons_of_nest rfl, ← ih]
    unfold consText
    split
    · rename_i joined
      rw [joined]
      rfl
    · rfl
  | case2 e events _ ih => exact nestAll_cons_congr ih
  | case3 => rfl

theorem nestAll_normal (h : nestAll names events = .ok names') :
    nestAll names (normal events) = .ok names' := by
  rw [normal, nestAll_joinTexts]
  apply nestAll_collapse
  rwa [nestAll_filter_isKept]

theorem length_of_nest (h : e.nest names = .ok names') :
    names'.length = e.depthAfter names.length := by
  cases e with
  | endTag found =>
    rw [nest_endTag_eq_ok_iff.mp h]
    rfl
  | _ => cases h; rfl

theorem length_of_nestAll (h : nestAll names events = .ok names') :
    names'.length = events.foldl Event.depthAfter names.length := by
  induction events generalizing names with
  | nil => cases h; rfl
  | cons e events ih =>
    obtain ⟨inner, nested, h⟩ := bind_eq_ok_iff.mp h
    rw [ih h, length_of_nest nested]
    rfl

/-- Where all tags nest, the names that are left over tell how many elements are open. -/
theorem openAfter_eq_length (h : nestAll [] events = .ok names) : openAfter events = names.length :=
  (length_of_nestAll h).symm

namespace Reader

theorem scan_of_next {r after : Reader} (h : r.next = some (.ok (e, after))) :
    r.scan = after.scan.cons e := by
  rw [scan]
  split <;> simp_all

theorem scan_of_fault {r : Reader} {fault : Fault × List Char} (h : r.next = some (.error fault)) :
    r.scan = ⟨[], some fault⟩ := by
  rw [scan]
  split <;> simp_all

theorem scan_of_end {r : Reader} (h : r.next = none) : r.scan = ⟨[], none⟩ := by
  rw [scan]
  split <;> simp_all

theorem forall_mem_scan {P : Event → Prop}
    (each : ∀ (r : Reader) e after, r.next = some (.ok (e, after)) → P e) (r : Reader) :
    ∀ e ∈ r.scan.events, P e := by
  cases next : r.next with
  | none => simp [scan_of_end next]
  | some outcome =>
    match outcome with
    | .error fault => simp [scan_of_fault next]
    | .ok (e, after) =>
      have shorter := length_next_lt next
      rw [scan_of_next next]
      exact List.forall_mem_cons.mpr ⟨each r e after next, forall_mem_scan each after⟩
termination_by r.rest.length

theorem nest_of_next {r after : Reader} (h : r.next = some (.ok (e, after))) :
    e.nest r.names = .ok after.names := by
  obtain ⟨piece, -, h⟩ := Option.map_eq_some_iff.mp h
  split at h
  · cases h
  · split at h <;> cases h
    assumption

theorem scan_nests (r : Reader) (sound : r.scan.fault = none) :
    ∃ names, nestAll r.names r.scan.events = .ok names := by
  cases next : r.next with
  | none => exact ⟨r.names, by rw [scan_of_end next]; rfl⟩
  | some outcome =>
    match outcome with
    | .error fault =>
      rw [scan_of_fault next] at sound
      cases sound
    | .ok (e, after) =>
      have shorter := length_next_lt next
      rw [scan_of_next next] at sound ⊢
      obtain ⟨names, nested⟩ := scan_nests after sound
      exact ⟨names, (nestAll_cons_of_nest (nest_of_next next)).trans nested⟩
termination_by r.rest.length

end Reader

theorem EventScan.ofText_nests {text : List Char} (sound : (EventScan.ofText text).fault = none) :
    ∃ names, nestAll [] (EventScan.ofText text).events = .ok names :=
  Reader.scan_nests _ sound

end TypedConfig.Markup
