import TypedConfig.Proofs.Reading.Shifting
import TypedConfig.Proofs.Resolving.Renaming
import TypedConfig.Stage

namespace TypedConfig

variable {f : Position → Position}

theorem Diagnostic.SameButForPlace.refl (e : Diagnostic) : e.SameButForPlace e := rfl

namespace Value

mutual

theorem relocate_eq_mapRefs (v : Value) : v.relocate f = v.mapRefs (.relocate f) := by
  cases v with
  | int n => rfl
  | ref r => rfl
  | array items => rw [relocate, mapRefs, relocateItems_eq_itemsMapRefs items]
  | dict pairs => rw [relocate, mapRefs, relocatePairs_eq_pairsMapRefs pairs]

theorem relocateItems_eq_itemsMapRefs (items : List Value) :
    relocateItems f items = itemsMapRefs (.relocate f) items := by
  cases items with
  | nil => rfl
  | cons item items =>
    rw [relocateItems, itemsMapRefs, relocate_eq_mapRefs item, relocateItems_eq_itemsMapRefs items]

theorem relocatePairs_eq_pairsMapRefs (pairs : List (String × Value)) :
    relocatePairs f pairs = pairsMapRefs (.relocate f) pairs := by
  match pairs with
  | [] => rfl
  | (key, value) :: pairs =>
    rw [relocatePairs, pairsMapRefs, relocate_eq_mapRefs value,
      relocatePairs_eq_pairsMapRefs pairs]

end

end Value

namespace Document

theorem relocate_eq_mapRefs (d : Document) : d.relocate f = d.mapRefs (.relocate f) := by
  have declarations : Declaration.relocate f = Declaration.mapRefs (.relocate f) := by
    funext c
    rw [Declaration.relocate, Value.relocate_eq_mapRefs]
    rfl
  rw [relocate, Entry.relocate, declarations, Value.relocate_eq_mapRefs]
  rfl

/-- Places decide nothing in resolving: where they are moved, the report moves along. -/
theorem resolve_relocate (d : Document) (limit : Nat) :
    (d.relocate f).resolve limit = (d.resolve limit).mapError (Diagnostic.relocate f) := by
  have renames : Renames (.relocate f) id := ⟨fun _ => rfl, Function.injective_id⟩
  have related : Related (Diagnostic.Transfers (.relocate f)) _ (d.resolve limit)
      ((d.mapRefs (.relocate f)).resolve limit) := d.related_resolve renames
  rw [relocate_eq_mapRefs]
  generalize d.resolve limit = outcome at related
  generalize (d.mapRefs (.relocate f)).resolve limit = outcome' at related
  cases related with
  | @ok found found' same =>
    rw [same, ConstantTable.rename_id]
    rfl
  | error transfers => cases transfers <;> rfl

/-- What is read from a source, moved, can be told from its scan, moved. -/
theorem parse_relocate (source : String) (limit : Nat) :
    ((parse source limit).map (Document.relocate f)).mapError (Diagnostic.relocate f) =
      (Session.resume ⟨limit, 0, [], .ending ((Scan.ofText source.toList).relocate f).ending⟩
        .start .origin ((Scan.ofText source.toList).relocate f).tokens).1 := by
  let scan := Scan.ofText source.toList
  let s : Session := ⟨limit, 0, scan.tokens, .ending scan.ending⟩
  let moved : Session := ⟨limit, 0, [], .ending (scan.ending.relocate f)⟩
  have outlook : moved.outlook = .ending (scan.ending.relocate f) := rfl
  have outlook' : s.outlook = .ending scan.ending := rfl
  have limits : moved.limit = s.limit := rfl
  have depths : moved.depth = s.depth := rfl
  rw [parse_eq_resume]
  exact (Session.resume_relocate f limits depths outlook outlook' .start .origin .origin _).symm

variable {source other : String} {limit : Nat}

theorem related_parse
    (same : (Scan.ofText source.toList).relocate f = (Scan.ofText other.toList).relocate f) :
    Related (fun e e' => e.relocate f = e'.relocate f) (fun d d' => d.relocate f = d'.relocate f)
      (parse source limit) (parse other limit) := by
  -- Neither run is followed: both are the run on the moved tokens, moved back.
  apply Related.of_map_eq
  rw [parse_relocate, parse_relocate, same]

theorem related_resolve_of_relocate {d d' : Document} (same : d.relocate f = d'.relocate f) :
    Related (fun e e' => e.relocate f = e'.relocate f) Eq (d.resolve limit) (d'.resolve limit) := by
  have outcomes : (d.resolve limit).mapError (Diagnostic.relocate f) =
      (d'.resolve limit).mapError (Diagnostic.relocate f) := by
    rw [← resolve_relocate, ← resolve_relocate, same]
  apply Related.of_map_eq (g := id)
  simpa using outcomes

end Document

theorem related_entryOf {source other : String}
    (same : (Scan.ofText source.toList).relocate f = (Scan.ofText other.toList).relocate f)
    (limit : Nat) :
    Related (fun e e' => e.relocate f = e'.relocate f) Eq
      (entryOf source limit) (entryOf other limit) := by
  apply (Document.related_parse same).bind
  intro d d' same
  apply (Document.related_resolve_of_relocate same).bind
  rintro found _ rfl
  exact .ok rfl

/-- Sources with the same tokens compile to the same texts, or fail with the same reports but for
the places in them. -/
theorem compile_depends_on_tokens {source other : String} {tokens tokens' : List PlacedToken}
    {finish finish' : Position} (scan : Scan.ofText source.toList = ⟨tokens, .finish finish⟩)
    (scan' : Scan.ofText other.toList = ⟨tokens', .finish finish'⟩)
    (same : tokens.map PlacedToken.token = tokens'.map PlacedToken.token) (limit : Nat) :
    Related Diagnostic.SameButForPlace Eq (compile source limit) (compile other limit) ∧
      Related Diagnostic.SameButForPlace Eq (compileJson source limit)
        (compileJson other limit) := by
  have erased : (Scan.ofText source.toList).relocate (fun _ => .origin) =
      (Scan.ofText other.toList).relocate fun _ => .origin := by
    have placed := congrArg (List.map fun t => PlacedToken.mk t .origin) same
    rw [List.map_map, List.map_map] at placed
    rw [scan, scan']
    exact congrArg (Scan.mk · (.finish .origin)) placed
  have entries : Related Diagnostic.SameButForPlace Eq
      (entryOf source limit) (entryOf other limit) := related_entryOf erased limit
  constructor
  · apply entries.bind
    rintro e _ rfl
    exact .refl .refl _
  · apply entries.bind
    rintro e _ rfl
    exact .refl .refl _

theorem compile_depends_on_tokens_respelled :
    (Scan.ofText "a [7, |k|]".toList).tokens.map PlacedToken.token =
      (Scan.ofText "a [+007,\n| k |]".toList).tokens.map PlacedToken.token ∧
    Related Diagnostic.SameButForPlace Eq (compile "a [7, |k|]" 1)
      (compile "a [+007,\n| k |]" 1) := by
  have scan : Scan.ofText "a [7, |k|]".toList = ⟨[⟨.name "a", ⟨1, 1⟩⟩, ⟨.openBracket, ⟨1, 3⟩⟩,
      ⟨.number 7, ⟨1, 4⟩⟩, ⟨.comma, ⟨1, 5⟩⟩, ⟨.pipe, ⟨1, 7⟩⟩, ⟨.name "k", ⟨1, 8⟩⟩,
      ⟨.pipe, ⟨1, 9⟩⟩, ⟨.closeBracket, ⟨1, 10⟩⟩], .finish ⟨1, 11⟩⟩ := by decide +kernel
  have scan' : Scan.ofText "a [+007,\n| k |]".toList = ⟨[⟨.name "a", ⟨1, 1⟩⟩,
      ⟨.openBracket, ⟨1, 3⟩⟩, ⟨.number 7, ⟨1, 4⟩⟩, ⟨.comma, ⟨1, 8⟩⟩, ⟨.pipe, ⟨2, 1⟩⟩,
      ⟨.name "k", ⟨2, 3⟩⟩, ⟨.pipe, ⟨2, 5⟩⟩, ⟨.closeBracket, ⟨2, 6⟩⟩],
      .finish ⟨2, 7⟩⟩ := by decide +kernel
  rw [scan, scan']
  exact ⟨rfl, (compile_depends_on_tokens scan scan' rfl 1).1⟩

end TypedConfig
