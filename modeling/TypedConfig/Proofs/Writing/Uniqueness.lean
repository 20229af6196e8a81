import TypedConfig.Proofs.Writing.Events

namespace TypedConfig

open Markup

theorem Tag.eq_of_attribute {tag tag' : Option Tag}
    (h : Tag.attribute tag = Tag.attribute tag') : tag = tag' := by
  revert h
  rcases tag with _ | _ | _ | _ <;> rcases tag' with _ | _ | _ | _ <;> decide

theorem Markup.eq_of_startTag {name name' : List Char} (word : Text.isWord name = true)
    (word' : Text.isWord name' = true) {tag tag' : Option Tag}
    (h : name ++ Tag.attribute tag = name' ++ Tag.attribute tag') : name = name' ∧ tag = tag' := by
  have names : tagName (name ++ Tag.attribute tag) = tagName (name' ++ Tag.attribute tag') := by
    rw [h]
  rw [(isPlain_of_isWord word).tagName_append, (isPlain_of_isWord word').tagName_append] at names
  subst names
  exact ⟨rfl, Tag.eq_of_attribute (List.append_cancel_left h)⟩

/-- The start tag gives away the name and the kind of an element. What is inside goes on up to the
end tag, so it is compared with all that comes after it. -/
theorem elementEvents_append_inj {name name' : List Char} (word : Text.isWord name = true)
    (word' : Text.isWord name' = true) {tag tag' : Option Tag}
    {inner inner' rest rest' : List Event}
    (h : elementEvents name tag inner ++ rest = elementEvents name' tag' inner' ++ rest') :
    name = name' ∧ tag = tag' ∧
      inner ++ .endTag name :: rest = inner' ++ .endTag name' :: rest' := by
  simp only [elementEvents, List.cons_append, List.append_assoc, List.nil_append, List.cons.injEq,
    Event.startTag.injEq] at h
  obtain ⟨start, inside⟩ := h
  obtain ⟨names, tags⟩ := Markup.eq_of_startTag word word' start
  exact ⟨names, tags, inside⟩

theorem isWord_itemName : Text.isWord itemName = true := by decide

namespace Value

mutual

theorem bodyEvents_append_inj {v w : Value} (hv : v.Writable) (hw : w.Writable)
    (kind : v.tag? = w.tag?) {name name' : List Char} {rest rest' : List Event}
    (h : v.bodyEvents ++ .endTag name :: rest = w.bodyEvents ++ .endTag name' :: rest') :
    v = w ∧ rest = rest' := by
  match v, w with
  | int m, int n =>
    simp only [bodyEvents, List.cons_append, List.nil_append, List.cons.injEq,
      Event.text.injEq] at h
    obtain ⟨digits, -, rest⟩ := h
    exact ⟨by rw [Lexeme.eq_of_toString digits], rest⟩
  | array items, array items' =>
    obtain ⟨same, rest⟩ := itemsEvents_append_inj hv hw h
    exact ⟨by rw [same], rest⟩
  | dict pairs, dict pairs' =>
    obtain ⟨same, rest⟩ := pairsEvents_append_inj hv hw h
    exact ⟨by rw [same], rest⟩
  | int _, array _ | int _, dict _ | array _, int _ | array _, dict _ | dict _, int _
  | dict _, array _ => cases kind
  | ref _, _ => cases hv
  | _, ref _ => cases hw

theorem itemsEvents_append_inj {items items' : List Value} (hi : ItemsWritable items)
    (hi' : ItemsWritable items') {name name' : List Char} {rest rest' : List Event}
    (h : itemsEvents items ++ .endTag name :: rest = itemsEvents items' ++ .endTag name' :: rest') :
    items = items' ∧ rest = rest' := by
  match items, items' with
  | [], [] => exact ⟨rfl, (List.cons.inj h).2⟩
  | [], _ :: _ => cases h
  | _ :: _, [] => cases h
  | item :: items, item' :: items' =>
    rw [itemsEvents, itemsEvents, List.append_assoc, List.append_assoc] at h
    obtain ⟨-, kind, inside⟩ := elementEvents_append_inj isWord_itemName isWord_itemName h
    obtain ⟨first, later⟩ := bodyEvents_append_inj hi.1 hi'.1 kind inside
    obtain ⟨others, rest⟩ := itemsEvents_append_inj hi.2 hi'.2 later
    exact ⟨by rw [first, others], rest⟩

theorem pairsEvents_append_inj {pairs pairs' : List (String × Value)} (hp : PairsWritable pairs)
    (hp' : PairsWritable pairs') {name name' : List Char} {rest rest' : List Event}
    (h : pairsEvents pairs ++ .endTag name :: rest = pairsEvents pairs' ++ .endTag name' :: rest') :
    pairs = pairs' ∧ rest = rest' := by
  match pairs, pairs' with
  | [], [] => exact ⟨rfl, (List.cons.inj h).2⟩
  | [], (_, _) :: _ => cases h
  | (_, _) :: _, [] => cases h
  | (key, value) :: pairs, (key', value') :: pairs' =>
    rw [pairsEvents, pairsEvents, List.append_assoc, List.append_assoc] at h
    obtain ⟨keys, kind, inside⟩ := elementEvents_append_inj hp.1 hp'.1 h
    obtain ⟨first, later⟩ := bodyEvents_append_inj hp.2.1 hp'.2.1 kind inside
    obtain ⟨others, rest⟩ := pairsEvents_append_inj hp.2.2 hp'.2.2 later
    exact ⟨by rw [String.toList_inj.mp keys, first, others], rest⟩

end

theorem itemsEvents_eq_pairsEvents (items : List Value) :
    itemsEvents items = pairsEvents (items.map (Prod.mk "element")) := by
  induction items with
  | nil => rfl
  | cons item items ih =>
    rw [itemsEvents, ih]
    rfl

theorem itemsBody_eq_pairsBody (items : List Value) :
    itemsBody items = pairsBody (items.map (Prod.mk "element")) := by
  induction items with
  | nil => rfl
  | cons item items ih =>
    rw [itemsBody, ih]
    rfl

theorem pairsWritable_of_itemsWritable {items : List Value} (h : ItemsWritable items) :
    PairsWritable (items.map (Prod.mk "element")) := by
  induction items with
  | nil => exact True.intro
  | cons item items ih => exact ⟨isWord_itemName, h.1, ih h.2⟩

theorem pairs_eq_of_items {items : List Value} {pairs : List (String × Value)}
    (hi : ItemsWritable items) (hp : PairsWritable pairs) {name : List Char}
    (h : itemsEvents items ++ [.endTag name] = pairsEvents pairs ++ [.endTag name]) :
    items.map (Prod.mk "element") = pairs := by
  rw [itemsEvents_eq_pairsEvents] at h
  exact (pairsEvents_append_inj (pairsWritable_of_itemsWritable hi) hp h).1

/-- One value is an array, and the other a dictionary of its items, each under the name of items. -/
def ArrayAsDict (v w : Value) : Prop :=
  ∃ items, v = array items ∧ w = dict (items.map (Prod.mk "element"))

theorem body_eq_of_arrayAsDict {v w : Value} (h : ArrayAsDict v w) : v.body = w.body := by
  obtain ⟨items, rfl, rfl⟩ := h
  exact itemsBody_eq_pairsBody items

theorem int_not_container {n : Int64} {name : List Char} :
    (∀ items, (int n).bodyEvents ++ [.endTag name] ≠ itemsEvents items ++ [.endTag name]) ∧
      ∀ pairs, (int n).bodyEvents ++ [.endTag name] ≠ pairsEvents pairs ++ [.endTag name] := by
  constructor
  · intro items h
    cases items <;> cases h
  · intro pairs h
    cases pairs <;> cases h

theorem eq_or_arrayAsDict {v w : Value} (hv : v.Writable) (hw : w.Writable) {name : List Char}
    (h : v.bodyEvents ++ [.endTag name] = w.bodyEvents ++ [.endTag name]) :
    v = w ∨ ArrayAsDict v w ∨ ArrayAsDict w v := by
  by_cases kind : v.tag? = w.tag?
  · exact .inl (bodyEvents_append_inj hv hw kind h).1
  match v, w with
  | array items, dict pairs =>
    have same := pairs_eq_of_items hv hw h
    exact .inr (.inl ⟨items, rfl, by rw [same]⟩)
  | dict pairs, array items =>
    have same := pairs_eq_of_items hw hv h.symm
    exact .inr (.inr ⟨items, rfl, by rw [same]⟩)
  | int _, array items => exact absurd h (int_not_container.1 items)
  | int _, dict pairs => exact absurd h (int_not_container.2 pairs)
  | array items, int _ => exact absurd h.symm (int_not_container.1 items)
  | dict pairs, int _ => exact absurd h.symm (int_not_container.2 pairs)
  | int _, int _ | array _, array _ | dict _, dict _ => exact absurd rfl kind
  | ref _, _ => cases hv
  | _, ref _ => cases hw

end Value

theorem Markup.Reader.ReadsAs.unique {text : List Char} {events events' : List Event}
    (h : Reader.ReadsAs text events) (h' : Reader.ReadsAs text events') : events = events' := by
  have same : (Reader.mk ['<'] []).scan.prepend events =
      (Reader.mk ['<'] []).scan.prepend events' := (h [] []).symm.trans (h' [] [])
  exact List.append_cancel_right (congrArg EventScan.events same)

theorem Value.pairs_eq_of_content {pairs pairs' : List (String × Value)} {text : List Char}
    (h : pairsContent pairs = .ok text) (h' : pairsContent pairs' = .ok text) : pairs = pairs' := by
  obtain ⟨hp, rfl⟩ := pairsContent_eq_ok_iff.mp h
  obtain ⟨hp', same⟩ := pairsContent_eq_ok_iff.mp h'
  have reads := Reader.readsAs_pairsBody hp
  have reads' := Reader.readsAs_pairsBody hp'
  rw [← same] at reads'
  have events : pairsEvents pairs ++ [.endTag []] = pairsEvents pairs' ++ [.endTag []] := by
    rw [reads.unique reads']
  exact (pairsEvents_append_inj hp hp' events).1

theorem Entry.markup_inj {e e' : Entry} (writable : e.Writable) (writable' : e'.Writable)
    (h : elementMarkup e.name.toList none e.value.body =
      elementMarkup e'.name.toList none e'.value.body) :
    e.name = e'.name ∧ (e.value = e'.value ∨ e.value.ArrayAsDict e'.value ∨
      e'.value.ArrayAsDict e.value) := by
  have scans := ofText_markup writable
  rw [h, ofText_markup writable'] at scans
  have same : elementEvents e'.name.toList none e'.value.bodyEvents =
      elementEvents e.name.toList none e.value.bodyEvents := congrArg EventScan.events scans
  have events : elementEvents e'.name.toList none e'.value.bodyEvents ++ [] =
      elementEvents e.name.toList none e.value.bodyEvents ++ [] := by rw [same]
  obtain ⟨names, -, inside⟩ := elementEvents_append_inj writable'.1 writable.1 events
  rw [names] at inside
  have values := Value.eq_or_arrayAsDict writable.2 writable'.2 inside.symm
  exact ⟨(String.toList_inj.mp names).symm, values⟩

/-- The markup of an entry determines the entry, except that an array at the root is written like a
dictionary of its items under the key that items have. -/
theorem markup_determines_entry :
    (∀ (e e' : Entry) (xml xml' : String), e.markup = .ok xml → e'.markup = .ok xml' →
      (xml = xml' ↔ e.name = e'.name ∧ (e.value = e'.value ∨
        ∃ items : List Value,
          e.value = .array items ∧ e'.value = .dict (items.map fun v => ("element", v)) ∨
          e.value = .dict (items.map fun v => ("element", v)) ∧ e'.value = .array items))) ∧
    ∀ (pairs pairs' : List (String × Value)) (text : List Char),
      Value.pairsContent pairs = .ok text → Value.pairsContent pairs' = .ok text →
        pairs = pairs' := by
  constructor
  · intro e e' xml xml' written written'
    obtain ⟨writable, rfl⟩ := Entry.markup_eq_ok_iff.mp written
    obtain ⟨writable', rfl⟩ := Entry.markup_eq_ok_iff.mp written'
    rw [String.ofList_inj]
    constructor
    · intro h
      obtain ⟨names, values⟩ := Entry.markup_inj writable writable' h
      refine ⟨names, ?_⟩
      rcases values with same | ⟨items, array, dict⟩ | ⟨items, array, dict⟩
      · exact .inl same
      · exact .inr ⟨items, .inl ⟨array, dict⟩⟩
      · exact .inr ⟨items, .inr ⟨dict, array⟩⟩
    · intro h
      obtain ⟨names, values⟩ := h
      have bodies : e.value.body = e'.value.body := by
        rcases values with same | ⟨items, ⟨array, dict⟩ | ⟨dict, array⟩⟩
        · rw [same]
        · exact Value.body_eq_of_arrayAsDict ⟨items, array, dict⟩
        · exact (Value.body_eq_of_arrayAsDict ⟨items, array, dict⟩).symm
      rw [names, bodies]
  · intro pairs pairs' text written written'
    exact Value.pairs_eq_of_content written written'

theorem markup_determines_entry_array_root :
    (Entry.mk "a" (.array [.int (-1)])).markup = .ok "<a><element type=\"int\">-1</element></a>" ∧
    (Entry.mk "a" (.dict [("element", .int (-1))])).markup =
      .ok "<a><element type=\"int\">-1</element></a>" ∧
    Value.pairsContent [("element", .int (-1))] =
      .ok "<element type=\"int\">-1</element>".toList ∧
    (Value.array [.int (-1)] = .dict [("element", .int (-1))] ∨
      ∃ items : List Value,
        Value.array [.int (-1)] = .array items ∧
          Value.dict [("element", .int (-1))] = .dict (items.map fun v => ("element", v)) ∨
        Value.array [.int (-1)] = .dict (items.map fun v => ("element", v)) ∧
          Value.dict [("element", .int (-1))] = .array items) ∧
    [("element", Value.int (-1))] = [("element", Value.int (-1))] := by
  have array : (Entry.mk "a" (.array [.int (-1)])).markup =
      .ok "<a><element type=\"int\">-1</element></a>" := by
    apply Entry.markup_eq_ok_iff.mpr
    exact ⟨⟨by decide, True.intro, True.intro⟩, by decide +kernel⟩
  have dict : (Entry.mk "a" (.dict [("element", .int (-1))])).markup =
      .ok "<a><element type=\"int\">-1</element></a>" := by
    apply Entry.markup_eq_ok_iff.mpr
    exact ⟨⟨by decide, by decide, True.intro, True.intro⟩, by decide +kernel⟩
  have content : Value.pairsContent [("element", .int (-1))] =
      .ok "<element type=\"int\">-1</element>".toList := by
    apply Value.pairsContent_eq_ok_iff.mpr
    exact ⟨⟨by decide, True.intro, True.intro⟩, by decide +kernel⟩
  refine ⟨array, dict, content, ?_, ?_⟩
  · exact ((markup_determines_entry.1 _ _ _ _ array dict).mp rfl).2
  · exact markup_determines_entry.2 _ _ _ content content

end TypedConfig
