import TypedConfig.Proofs.Reindenting.ReadBack

namespace TypedConfig.Markup

variable {text laid again : List Char}

theorem reindentText_congr {other : List Char} (sound : (EventScan.ofText text).fault = none)
    (other_sound : (EventScan.ofText other).fault = none)
    (same : Layout.start.print (EventScan.ofText text).events =
      Layout.start.print (EventScan.ofText other).events) :
    reindentText text = reindentText other := by
  simp only [reindentText, sound, other_sound, same]

theorem reindentText_again (h : reindentText text = .ok laid)
    (read : EventScan.ofText laid =
      ⟨.declaration declared :: normal (EventScan.ofText text).events, none⟩) :
    reindentText laid = .ok laid := by
  have printed : Layout.start.print (EventScan.ofText laid).events =
      Layout.start.print (EventScan.ofText text).events := by
    rw [read, Layout.print_cons_of_step (Layout.step_of_not_kept rfl),
      ← Layout.print_eq_printAfter, Layout.print_normal]
  rw [reindentText_congr (by rw [read]) (nests_of_reindentText h).1 printed, h]

theorem reindentText_again_iff (h : reindentText text = .ok laid) :
    reindentText laid = .ok again ↔
      again = laid ∧ .emptyTag [] ∉ normal (EventScan.ofText text).events := by
  rcases ofText_of_reindentText h with ⟨named, read⟩ | ⟨bare, faulty⟩
  · rw [reindentText_again h read]
    simp [named, eq_comm]
  · constructor
    · intro laid_again
      exact absurd (nests_of_reindentText laid_again).1 faulty
    · intro stable
      exact absurd bare stable.2

/-- A laid out text comes out the same when it is laid out again just when it holds no bare empty
tag. -/
theorem reindent_again_iff {source laid : String} (h : reindent source = .ok laid)
    (again : String) :
    reindent laid = .ok again ↔
      again = laid ∧ .emptyTag [] ∉ normal (EventScan.ofText source.toList).events := by
  obtain ⟨text, laid_out, rfl⟩ := map_eq_ok_iff.mp h
  rw [reindent, map_eq_ok_iff, String.toList_ofList]
  constructor
  · intro h
    obtain ⟨result, laid_again, rfl⟩ := h
    obtain ⟨rfl, named⟩ := (reindentText_again_iff laid_out).mp laid_again
    exact ⟨rfl, named⟩
  · intro h
    obtain ⟨rfl, named⟩ := h
    exact ⟨text, (reindentText_again_iff laid_out).mpr ⟨rfl, named⟩, rfl⟩

theorem reindent_again_iff_empty_element :
    reindent "<a></a>" = .ok "<?xml version=\"1.0\" ?>\n<a/>\n" ∧
    reindent "<?xml version=\"1.0\" ?>\n<a/>\n" = .ok "<?xml version=\"1.0\" ?>\n<a/>\n" := by
  have opened : (Reader.mk "<a></a>".toList []).next =
      some (.ok (.startTag ['a'], ⟨"</a>".toList, [['a']]⟩)) := rfl
  have closed : (Reader.mk "</a>".toList [['a']]).next = some (.ok (.endTag ['a'], ⟨[], []⟩)) := rfl
  have ended : (Reader.mk [] []).next = none := rfl
  have read : EventScan.ofText "<a></a>".toList = ⟨[.startTag ['a'], .endTag ['a']], none⟩ := by
    have whole := Reader.scan_of_next opened
    rw [Reader.scan_of_next closed, Reader.scan_of_end ended] at whole
    exact whole
  have laid_out : reindent "<a></a>" = .ok "<?xml version=\"1.0\" ?>\n<a/>\n" := by
    simp only [reindent, reindentText, read]
    decide +kernel
  refine ⟨laid_out, (reindent_again_iff laid_out _).mpr ⟨rfl, ?_⟩⟩
  rw [read]
  decide

/-- An element with neither name nor content is laid out as a text that cannot be read. -/
theorem reindent_again_fails_nameless :
    reindent "<></>" = .ok "<?xml version=\"1.0\" ?>\n</>\n" ∧
    ∀ again, reindent "<?xml version=\"1.0\" ?>\n</>\n" ≠ .ok again := by
  have opened : (Reader.mk "<></>".toList []).next =
      some (.ok (.startTag [], ⟨"</>".toList, [[]]⟩)) := rfl
  have closed : (Reader.mk "</>".toList [[]]).next = some (.ok (.endTag [], ⟨[], []⟩)) := rfl
  have ended : (Reader.mk [] []).next = none := rfl
  have read : EventScan.ofText "<></>".toList = ⟨[.startTag [], .endTag []], none⟩ := by
    have whole := Reader.scan_of_next opened
    rw [Reader.scan_of_next closed, Reader.scan_of_end ended] at whole
    exact whole
  have laid_out : reindentText "<></>".toList =
      .ok "<?xml version=\"1.0\" ?>\n</>\n".toList := by
    simp only [reindentText, read]
    decide +kernel
  refine ⟨map_eq_ok_iff.mpr ⟨_, laid_out, String.ofList_toList⟩, ?_⟩
  intro again laid_again
  obtain ⟨text, laid_again, -⟩ := map_eq_ok_iff.mp laid_again
  have named := ((reindentText_again_iff laid_out).mp laid_again).2
  rw [read] at named
  exact named List.mem_cons_self

end TypedConfig.Markup
