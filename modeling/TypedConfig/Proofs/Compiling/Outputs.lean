import TypedConfig.Proofs.Compiling.Errors
import TypedConfig.Proofs.Reading.Spelled
import TypedConfig.Proofs.Writing.Layout

namespace TypedConfig

namespace Value

variable {meaning : String → Option Value}

mutual

theorem writable_of_substitute? (writable : ∀ name w, meaning name = some w → w.Writable)
    {v w : Value} (spelled : v.KeysSpelled) (h : v.substitute? meaning = some w) : w.Writable := by
  cases v with
  | int n => cases h; exact True.intro
  | ref r => exact writable r.name w h
  | array items =>
    obtain ⟨items', inside, rfl⟩ := Option.map_eq_some_iff.mp h
    exact itemsWritable_of_substituteItems? writable spelled inside
  | dict pairs =>
    obtain ⟨pairs', inside, rfl⟩ := Option.map_eq_some_iff.mp h
    exact pairsWritable_of_substitutePairs? writable spelled inside

theorem itemsWritable_of_substituteItems?
    (writable : ∀ name w, meaning name = some w → w.Writable) {items items' : List Value}
    (spelled : ItemsKeysSpelled items) (h : substituteItems? meaning items = some items') :
    ItemsWritable items' := by
  cases items with
  | nil => cases h; exact True.intro
  | cons item items =>
    obtain ⟨first, item', h⟩ := Option.bind_eq_some_iff.mp h
    obtain ⟨rest, items', h⟩ := Option.bind_eq_some_iff.mp h
    cases h
    exact ⟨writable_of_substitute? writable spelled.1 item',
      itemsWritable_of_substituteItems? writable spelled.2 items'⟩

theorem pairsWritable_of_substitutePairs?
    (writable : ∀ name w, meaning name = some w → w.Writable) {pairs pairs' : List (String × Value)}
    (spelled : PairsKeysSpelled pairs) (h : substitutePairs? meaning pairs = some pairs') :
    PairsWritable pairs' := by
  match pairs with
  | [] => cases h; exact True.intro
  | (key, value) :: pairs =>
    obtain ⟨first, value', h⟩ := Option.bind_eq_some_iff.mp h
    obtain ⟨rest, pairs', h⟩ := Option.bind_eq_some_iff.mp h
    cases h
    exact ⟨spelled.1, writable_of_substitute? writable spelled.2.1 value',
      pairsWritable_of_substitutePairs? writable spelled.2.2 pairs'⟩

end

end Value

theorem writable_of_meaning? {declarations : List Declaration}
    (spelled : ∀ c ∈ declarations, c.value.KeysSpelled) {name : String} {w : Value}
    (h : meaning? declarations name = some w) : w.Writable := by
  induction declarations generalizing name w with
  | nil => cases h
  | cons d earlier ih =>
    obtain ⟨first, before⟩ := List.forall_mem_cons.mp spelled
    unfold meaning? at h
    split at h
    · exact Value.writable_of_substitute? (fun _ _ => ih before) first h
    · exact ih before h

namespace Entry

theorem writable_of_resolve {d : Document} {limit : Nat} {table : ConstantTable} {e : Entry}
    (spelled : d.NamesSpelled) (h : d.resolve limit = .ok (table, e)) : e.Writable := by
  obtain ⟨-, represents, resolved, name⟩ := Document.resolve_ok h
  have replaced := (represents.resolve_eq_ok_iff.mp resolved).2
  have constants : ∀ c ∈ d.constants.reverse, c.value.KeysSpelled := by
    intro c member
    exact spelled.constantKeys c (List.mem_reverse.mp member)
  constructor
  · rw [name]
    exact spelled.entryName
  · exact Value.writable_of_substitute? (fun _ _ => writable_of_meaning? constants)
      spelled.entryKeys replaced

theorem writable_of_entryOf {source : String} {limit : Nat} {e : Entry}
    (h : entryOf source limit = .ok e) : e.Writable := by
  obtain ⟨d, parsed, h⟩ := bind_eq_ok_iff.mp h
  obtain ⟨⟨table, entry⟩, resolved, h⟩ := bind_eq_ok_iff.mp h
  cases h
  exact writable_of_resolve (Document.namesSpelled_of_parse parsed) resolved

variable {e : Entry}

theorem exists_markup (writable : e.Writable) : ∃ xml, e.markup = .ok xml :=
  ⟨_, markup_eq_ok_iff.mpr ⟨writable, rfl⟩⟩

theorem exists_exportJson (writable : e.Writable) : ∃ json, e.exportJson = .ok json := by
  rw [exportJson, Value.firstRef?_of_writable writable.2]
  exact ⟨_, rfl⟩

theorem exists_reindent {xml : String} (h : e.markup = .ok xml) :
    ∃ pretty, Markup.reindent xml = .ok pretty := by
  obtain ⟨writable, rfl⟩ := markup_eq_ok_iff.mp h
  exact ⟨_, reindent_markup writable⟩

end Entry

section

variable {source : String} {limit : Nat} {e : Diagnostic}

theorem compile_eq_error_iff : compile source limit = .error e ↔ entryOf source limit = .error e :=
  bind_eq_error_iff_of_ok fun _ found => Entry.exists_markup (Entry.writable_of_entryOf found)

theorem compileJson_eq_error_iff :
    compileJson source limit = .error e ↔ entryOf source limit = .error e :=
  bind_eq_error_iff_of_ok fun _ found => Entry.exists_exportJson (Entry.writable_of_entryOf found)

theorem compilePretty_eq_error_iff :
    compilePretty source = .error e ↔ compile source Session.defaultLimit = .error e := by
  apply bind_eq_error_iff_of_ok
  intro xml compiled
  obtain ⟨entry, found, written⟩ := bind_eq_ok_iff.mp compiled
  exact Entry.exists_reindent written

end

/-- Writing never fails after reading and resolving, so every failure is one of the source. -/
theorem outputs_fail_together (source : String) (limit : Nat) :
    (∀ entry, entryOf source limit = .ok entry →
      ∃ xml json pretty, entry.markup = .ok xml ∧ entry.exportJson = .ok json ∧
        Markup.reindent xml = .ok pretty) ∧
    (∀ e, compile source limit = .error e ↔ compileJson source limit = .error e) ∧
    (∀ e, compilePretty source = .error e ↔ compile source Session.defaultLimit = .error e) ∧
    ∀ e, compile source limit = .error e ∨ compileJson source limit = .error e ∨
        compilePretty source = .error e →
      e.category = .source ∨ e.category = .duplicateConstant ∨ e.category = .unknownConstant := by
  refine ⟨?_, ?_, ?_, ?_⟩
  · intro entry found
    have writable := Entry.writable_of_entryOf found
    obtain ⟨xml, markup⟩ := Entry.exists_markup writable
    obtain ⟨json, exported⟩ := Entry.exists_exportJson writable
    obtain ⟨pretty, laidOut⟩ := Entry.exists_reindent markup
    exact ⟨xml, json, pretty, markup, exported, laidOut⟩
  · intro e
    rw [compile_eq_error_iff, compileJson_eq_error_iff]
  · intro e
    exact compilePretty_eq_error_iff
  · intro e failed
    rcases failed with failed | failed | failed
    · exact category_of_entryOf (compile_eq_error_iff.mp failed)
    · exact category_of_entryOf (compileJson_eq_error_iff.mp failed)
    · exact category_of_entryOf (compile_eq_error_iff.mp (compilePretty_eq_error_iff.mp failed))

end TypedConfig
