import TypedConfig.Proofs.Resolving.Histories
import TypedConfig.Proofs.Writing.JsonTexts
import TypedConfig.Relocate

namespace TypedConfig

theorem JsonValue.text_inj {layout : JsonLayout} {j j' : JsonValue} :
    j.text layout = j'.text layout ↔ j = j' := by
  constructor
  · intro h
    have texts : j.render layout 0 ++ [] = j'.render layout 0 ++ [] := by
      rw [String.ofList_inj.mp h]
    exact (render_append_inj layout 0 j j' endsNumber_nil endsNumber_nil texts).1
  · intro h
    rw [h]

namespace Value

mutual

theorem jsonMembers_relocate (f : Position → Position) (v : Value) :
    (v.relocate f).jsonMembers = v.jsonMembers := by
  match v with
  | int n => rfl
  | ref r => rfl
  | array items => rw [relocate, jsonMembers, jsonMembers, itemsJson_relocate f items]
  | dict pairs => rw [relocate, jsonMembers, jsonMembers, pairsJson_relocate f pairs]

theorem itemsJson_relocate (f : Position → Position) (items : List Value) :
    itemsJson (relocateItems f items) = itemsJson items := by
  match items with
  | [] => rfl
  | item :: items =>
    rw [relocateItems, itemsJson, itemsJson, jsonMembers_relocate f item,
      itemsJson_relocate f items]

theorem pairsJson_relocate (f : Position → Position) (pairs : List (String × Value)) :
    pairsJson (relocatePairs f pairs) = pairsJson pairs := by
  match pairs with
  | [] => rfl
  | (key, value) :: pairs =>
    rw [relocatePairs, pairsJson, pairsJson, jsonMembers_relocate f value,
      pairsJson_relocate f pairs]

end

theorem tag?_eq_of_jsonMembers {v w : Value} (h : v.jsonMembers = w.jsonMembers) :
    v.tag? = w.tag? := by
  cases v <;> cases w <;> first | rfl | simp [jsonMembers, Tag.text] at h

mutual

theorem relocate_eq_of_jsonMembers (p : Position) (v w : Value) (h : v.jsonMembers = w.jsonMembers) :
    v.relocate (fun _ => p) = w.relocate fun _ => p := by
  match v, w with
  | int m, int n =>
    simp only [jsonMembers, List.cons.injEq, Prod.mk.injEq, JsonValue.int.injEq, true_and,
      and_true] at h
    rw [Int64.toInt.inj h]
  | ref r, ref r' =>
    simp only [jsonMembers, List.cons.injEq, Prod.mk.injEq, JsonValue.string.injEq, true_and,
      and_true] at h
    rw [relocate, relocate, h]
  | array items, array items' =>
    simp only [jsonMembers, List.cons.injEq, Prod.mk.injEq, JsonValue.array.injEq, true_and,
      and_true] at h
    rw [relocate, relocate, relocateItems_eq_of_itemsJson p items items' h]
  | dict pairs, dict pairs' =>
    simp only [jsonMembers, List.cons.injEq, Prod.mk.injEq, JsonValue.array.injEq, true_and,
      and_true] at h
    rw [relocate, relocate, relocatePairs_eq_of_pairsJson p pairs pairs' h]
  | int _, array _ | int _, dict _ | int _, ref _ | array _, int _ | array _, dict _
  | array _, ref _ | dict _, int _ | dict _, array _ | dict _, ref _ | ref _, int _
  | ref _, array _ | ref _, dict _ => cases tag?_eq_of_jsonMembers h

theorem relocateItems_eq_of_itemsJson (p : Position) (items items' : List Value)
    (h : itemsJson items = itemsJson items') :
    relocateItems (fun _ => p) items = relocateItems (fun _ => p) items' := by
  match items, items' with
  | [], [] => rfl
  | [], _ :: _ | _ :: _, [] => cases h
  | item :: items, item' :: items' =>
    simp only [itemsJson, List.cons.injEq, JsonValue.object.injEq] at h
    rw [relocateItems, relocateItems, relocate_eq_of_jsonMembers p item item' h.1,
      relocateItems_eq_of_itemsJson p items items' h.2]

theorem relocatePairs_eq_of_pairsJson (p : Position) (pairs pairs' : List (String × Value))
    (h : pairsJson pairs = pairsJson pairs') :
    relocatePairs (fun _ => p) pairs = relocatePairs (fun _ => p) pairs' := by
  match pairs, pairs' with
  | [], [] => rfl
  | [], (_, _) :: _ | (_, _) :: _, [] => cases h
  | (key, value) :: pairs, (key', value') :: pairs' =>
    simp only [pairsJson, List.cons.injEq, JsonValue.object.injEq, Prod.mk.injEq,
      JsonValue.string.injEq, true_and] at h
    obtain ⟨⟨keys, values⟩, later⟩ := h
    rw [relocatePairs, relocatePairs, keys, relocate_eq_of_jsonMembers p value value' values,
      relocatePairs_eq_of_pairsJson p pairs pairs' later]

end

theorem json_inj {v w : Value} :
    v.json = w.json ↔ v.relocate (fun _ => .origin) = w.relocate fun _ => .origin := by
  constructor
  · intro h
    exact relocate_eq_of_jsonMembers .origin v w (JsonValue.object.inj h)
  · intro h
    rw [json, json, ← jsonMembers_relocate (fun _ => .origin) v, h, jsonMembers_relocate]

mutual

theorem relocate_of_occurrences {k : Nat} (f : Position → Position) (v : Value)
    (h : v.occurrences k = []) : v.relocate f = v := by
  match v with
  | int n => rfl
  | ref r => cases h
  | array items => rw [relocate, relocateItems_of_occurrences f items h]
  | dict pairs => rw [relocate, relocatePairs_of_occurrences f pairs h]

theorem relocateItems_of_occurrences {k : Nat} (f : Position → Position) (items : List Value)
    (h : itemsOccurrences k items = []) : relocateItems f items = items := by
  match items with
  | [] => rfl
  | item :: items =>
    obtain ⟨first, later⟩ := List.append_eq_nil_iff.mp h
    rw [relocateItems, relocate_of_occurrences f item first,
      relocateItems_of_occurrences f items later]

theorem relocatePairs_of_occurrences {k : Nat} (f : Position → Position)
    (pairs : List (String × Value)) (h : pairsOccurrences k pairs = []) :
    relocatePairs f pairs = pairs := by
  match pairs with
  | [] => rfl
  | (key, value) :: pairs =>
    obtain ⟨first, later⟩ := List.append_eq_nil_iff.mp h
    rw [relocatePairs, relocate_of_occurrences f value first,
      relocatePairs_of_occurrences f pairs later]

end

end Value

namespace Entry

theorem exportJson_eq_ok_iff {e : Entry} {text : String} :
    e.exportJson = .ok text ↔ e.value.occurrences 0 = [] ∧ text = e.json.text .indented := by
  unfold exportJson
  rw [← Value.firstRef?_eq_none_iff]
  cases e.value.firstRef? with
  | none => simp [eq_comm]
  | some r => simp

theorem exportJson_eq_error_iff {e : Entry} {d : Diagnostic} :
    e.exportJson = .error d ↔ ∃ o others, e.value.occurrences 0 = o :: others ∧
      d = ⟨.unresolved o.2.name, some "Resolve the document before exporting it", some 402⟩ := by
  unfold exportJson
  cases first : e.value.firstRef? with
  | none => simp [Value.firstRef?_eq_none_iff.mp first]
  | some r =>
    obtain ⟨o, others, found, rfl⟩ := Value.firstRef?_eq_some_iff.mp first
    simp [found, eq_comm]

theorem json_inj {e e' : Entry} (closed : e.value.occurrences 0 = [])
    (closed' : e'.value.occurrences 0 = []) : e.json = e'.json ↔ e = e' := by
  constructor
  · intro h
    simp only [json, JsonValue.object.injEq, List.cons.injEq, Prod.mk.injEq,
      JsonValue.string.injEq, true_and, and_true] at h
    obtain ⟨names, values⟩ := h
    have same := Value.json_inj.mp values
    rw [Value.relocate_of_occurrences _ _ closed, Value.relocate_of_occurrences _ _ closed'] at same
    exact congrArg₂ Entry.mk names same
  · intro h
    rw [h]

end Entry

/-- No two values share a JSON text unless they differ in the places of references only, and no two
exported entries share one at all. -/
theorem json_text_determines_value :
    (∀ v w : Value, v.json.text .compact = w.json.text .compact ↔
      v.relocate (fun _ => .origin) = w.relocate fun _ => .origin) ∧
    (∀ (e e' : Entry) (text text' : String), e.exportJson = .ok text → e'.exportJson = .ok text' →
      (text = text' ↔ e = e')) ∧
    (∀ e : Entry, (∃ text, e.exportJson = .ok text) ↔ e.value.occurrences 0 = []) ∧
    ∀ (e : Entry) (d : Diagnostic), e.exportJson = .error d ↔
      ∃ o others, e.value.occurrences 0 = o :: others ∧
        d = ⟨.unresolved o.2.name, some "Resolve the document before exporting it", some 402⟩ := by
  refine ⟨?_, ?_, ?_, fun e d => Entry.exportJson_eq_error_iff⟩
  · intro v w
    rw [JsonValue.text_inj, Value.json_inj]
  · intro e e' text text' exported exported'
    obtain ⟨closed, rfl⟩ := Entry.exportJson_eq_ok_iff.mp exported
    obtain ⟨closed', rfl⟩ := Entry.exportJson_eq_ok_iff.mp exported'
    rw [JsonValue.text_inj, Entry.json_inj closed closed']
  · intro e
    constructor
    · rintro ⟨text, exported⟩
      exact (Entry.exportJson_eq_ok_iff.mp exported).1
    · intro closed
      exact ⟨_, Entry.exportJson_eq_ok_iff.mpr ⟨closed, rfl⟩⟩

theorem json_text_determines_value_element_key :
    (Entry.mk "a" (.array [.int 1])).exportJson =
      .ok ((Entry.mk "a" (.array [.int 1])).json.text .indented) ∧
    (Entry.mk "a" (.dict [("element", .int 1)])).exportJson =
      .ok ((Entry.mk "a" (.dict [("element", .int 1)])).json.text .indented) ∧
    (Entry.mk "a" (.array [.int 1])).json.text .indented ≠
      (Entry.mk "a" (.dict [("element", .int 1)])).json.text .indented := by
  have array : (Entry.mk "a" (.array [.int 1])).exportJson =
      .ok ((Entry.mk "a" (.array [.int 1])).json.text .indented) := rfl
  have dict : (Entry.mk "a" (.dict [("element", .int 1)])).exportJson =
      .ok ((Entry.mk "a" (.dict [("element", .int 1)])).json.text .indented) := rfl
  refine ⟨array, dict, ?_⟩
  intro same
  have entries := (json_text_determines_value.2.1 _ _ _ _ array dict).mp same
  cases entries

end TypedConfig
