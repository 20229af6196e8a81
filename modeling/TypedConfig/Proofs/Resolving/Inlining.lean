import Mathlib.Data.List.Induction
import Mathlib.Data.List.Nodup
import TypedConfig.Proofs.Reading.Parse
import TypedConfig.Proofs.Resolving.Tables

namespace TypedConfig

theorem Reference.offence?_eq_none_iff {declarations : List Declaration} {limit enclosing : Nat}
    {r : Reference} :
    r.offence? declarations limit enclosing = none ↔
      ∃ m, meaning? declarations r.name = some m ∧ enclosing + m.depth ≤ limit := by
  unfold offence?
  cases meaning? declarations r.name <;> simp

namespace Value

theorem offence?_eq_none_iff {declarations : List Declaration} {limit : Nat} {v : Value} :
    v.offence? declarations limit = none ↔
      ∀ o ∈ v.occurrences 0,
        ∃ m, meaning? declarations o.2.name = some m ∧ o.1 + m.depth ≤ limit := by
  simp only [offence?, List.findSome?_eq_none_iff, Reference.offence?_eq_none_iff]

theorem depth_le_of_offence? {declarations : List Declaration} {limit : Nat} {v w : Value}
    (fits : v.offence? declarations limit = none)
    (replaced : v.substitute? (meaning? declarations) = some w) (depth : v.depth ≤ limit) :
    w.depth ≤ limit := by
  have uses := deepestUse_le_of_uses (offence?_eq_none_iff.mp fits)
  rw [depth_eq_max_of_substitute? replaced]
  exact Nat.max_le.mpr ⟨depth, uses⟩

end Value

theorem mem_names_of_meaning? {declarations : List Declaration} {name : String} {v : Value}
    (h : meaning? declarations name = some v) : name ∈ declarations.map Declaration.name := by
  induction declarations with
  | nil => cases h
  | cons d earlier ih =>
    rw [List.map_cons, List.mem_cons]
    unfold meaning? at h
    split at h
    · rename_i same
      exact .inl same.symm
    · exact .inr (ih h)

/-- Does `P` hold of each declaration with those before it? The latest comes first. -/
def EachAfter (P : List Declaration → Declaration → Prop) : List Declaration → Prop
  | [] => True
  | d :: earlier => P earlier d ∧ EachAfter P earlier

theorem EachAfter.of_append {P : List Declaration → Declaration → Prop}
    {later earlier : List Declaration} (h : EachAfter P (later ++ earlier)) :
    EachAfter P earlier := by
  induction later with
  | nil => exact h
  | cons d later ih => exact ih h.2

theorem eachAfter_reverse_iff {P : List Declaration → Declaration → Prop}
    {declarations : List Declaration} :
    EachAfter P declarations.reverse ↔
      ∀ before c after, declarations = before ++ c :: after → P before.reverse c := by
  constructor
  · intro h before c after parts
    subst parts
    rw [List.reverse_append, List.reverse_cons, List.append_assoc] at h
    exact h.of_append.1
  · intro h
    induction declarations using List.reverseRecOn with
    | nil => exact True.intro
    | append_singleton declarations d ih =>
      rw [List.reverse_append]
      refine ⟨h declarations d [] rfl, ih ?_⟩
      intro before c after parts
      subst parts
      exact h before c (after ++ [d]) (by simp)

def Known (earlier : List Declaration) (d : Declaration) : Prop :=
  d.value.NamesOnly (earlier.map Declaration.name)

theorem Value.namesOnly_reverse_iff {declarations : List Declaration} {v : Value} :
    v.NamesOnly (declarations.reverse.map Declaration.name) ↔
      v.NamesOnly (declarations.map Declaration.name) := by
  simp [NamesOnly]

theorem eachAfter_known_reverse_iff {declarations : List Declaration} :
    EachAfter Known declarations.reverse ↔
      ∀ before c after, declarations = before ++ c :: after →
        c.value.NamesOnly (before.map Declaration.name) := by
  rw [eachAfter_reverse_iff]
  simp only [Known, Value.namesOnly_reverse_iff]

def Admitted (limit : Nat) (earlier : List Declaration) (d : Declaration) : Prop :=
  d.offence? earlier limit = none

theorem meaning?_of_mem_names {declarations : List Declaration} {name : String}
    (known : EachAfter Known declarations) (h : name ∈ declarations.map Declaration.name) :
    ∃ v, meaning? declarations name = some v := by
  induction declarations generalizing name with
  | nil => cases h
  | cons d earlier ih =>
    obtain ⟨inside, before⟩ := known
    unfold meaning?
    split
    · apply Option.isSome_iff_exists.mp
      rw [Value.substitute?_isSome_iff 0]
      intro o member
      exact Option.isSome_iff_exists.mpr (ih before (inside o member))
    · rename_i other
      rw [List.map_cons, List.mem_cons] at h
      rcases h with same | member
      · exact absurd same.symm other
      · exact ih before member

theorem Value.offence?_eq_none_iff_of_known {declarations : List Declaration} {limit : Nat}
    (known : EachAfter Known declarations) {v : Value} :
    v.offence? declarations limit = none ↔
      v.NamesOnly (declarations.map Declaration.name) ∧ v.UsesWithin limit declarations := by
  rw [offence?_eq_none_iff]
  constructor
  · intro h
    constructor
    · intro o member
      obtain ⟨m, named, -⟩ := h o member
      exact mem_names_of_meaning? named
    · intro o member m named
      obtain ⟨m', named', shallow⟩ := h o member
      rw [named] at named'
      cases named'
      exact shallow
  · intro h o member
    obtain ⟨names, uses⟩ := h
    obtain ⟨m, named⟩ := meaning?_of_mem_names known (names o member)
    exact ⟨m, named, uses o member m named⟩

theorem admitted_iff {earlier : List Declaration} {limit : Nat} {d : Declaration} :
    Admitted limit earlier d ↔
      d.name ∉ earlier.map Declaration.name ∧ d.value.offence? earlier limit = none := by
  unfold Admitted Declaration.offence?
  split <;> simp_all

theorem eachAfter_admitted_iff {declarations : List Declaration} {limit : Nat} :
    EachAfter (Admitted limit) declarations ↔
      (declarations.map Declaration.name).Nodup ∧ EachAfter Known declarations ∧
        EachAfter (fun earlier d => d.value.UsesWithin limit earlier) declarations := by
  induction declarations with
  | nil => simp [EachAfter]
  | cons d earlier ih =>
    rw [EachAfter, EachAfter, EachAfter, ih, admitted_iff, List.map_cons,
      List.nodup_cons]
    constructor
    · intro h
      obtain ⟨⟨new, fits⟩, distinct, known, uses⟩ := h
      obtain ⟨names, within⟩ := (Value.offence?_eq_none_iff_of_known known).mp fits
      exact ⟨⟨new, distinct⟩, ⟨names, known⟩, within, uses⟩
    · intro h
      obtain ⟨⟨new, distinct⟩, ⟨names, known⟩, within, uses⟩ := h
      have fits := (Value.offence?_eq_none_iff_of_known known).mpr ⟨names, within⟩
      exact ⟨⟨new, fits⟩, distinct, known, uses⟩

theorem firstOffence?_eq_none_iff {limit : Nat} {v : Value}
    {earlier declarations : List Declaration} (before : EachAfter (Admitted limit) earlier) :
    firstOffence? limit v earlier declarations = none ↔
      EachAfter (Admitted limit) (declarations.reverse ++ earlier) ∧
        v.offence? (declarations.reverse ++ earlier) limit = none := by
  induction declarations generalizing earlier with
  | nil => simp [firstOffence?, before]
  | cons d declarations ih =>
    rw [firstOffence?, Option.or_eq_none_iff, List.reverse_cons, List.append_assoc]
    constructor
    · intro h
      obtain ⟨first, rest⟩ := h
      have next : EachAfter (Admitted limit) (d :: earlier) := ⟨first, before⟩
      exact (ih next).mp rest
    · intro h
      have next : EachAfter (Admitted limit) (d :: earlier) := h.1.of_append
      exact ⟨next.1, (ih next).mpr h⟩

namespace Document

theorem offence?_eq_none_iff {d : Document} {limit : Nat} :
    d.offence? limit = none ↔ d.Inlinable limit := by
  have names : d.constants.reverse.map Declaration.name =
      (d.constants.map Declaration.name).reverse := List.map_reverse
  have uses : EachAfter (fun earlier c => c.value.UsesWithin limit earlier) d.constants.reverse ↔
      ∀ before c after, d.constants = before ++ c :: after →
        c.value.UsesWithin limit before.reverse := eachAfter_reverse_iff
  have none : EachAfter (Admitted limit) [] := True.intro
  rw [offence?, firstOffence?_eq_none_iff none, List.append_nil, eachAfter_admitted_iff, names,
    List.nodup_reverse, uses]
  constructor
  · intro h
    obtain ⟨⟨distinct, before, within⟩, entry⟩ := h
    obtain ⟨entryNames, entryUses⟩ := (Value.offence?_eq_none_iff_of_known before).mp entry
    have known := eachAfter_known_reverse_iff.mp before
    exact ⟨distinct, known, Value.namesOnly_reverse_iff.mp entryNames, within, entryUses⟩
  · intro h
    obtain ⟨distinct, before, entryKnown, within, entryUses⟩ := h
    have after := eachAfter_known_reverse_iff.mpr before
    have entryNames := Value.namesOnly_reverse_iff.mpr entryKnown
    have entry := (Value.offence?_eq_none_iff_of_known after).mpr ⟨entryNames, entryUses⟩
    exact ⟨⟨distinct, after, within⟩, entry⟩

theorem exists_resolve_iff {d : Document} {limit : Nat} :
    (∃ table entry, d.resolve limit = .ok (table, entry)) ↔ d.Inlinable limit := by
  rw [← offence?_eq_none_iff, ← failure?_resolve, failure?_eq_none_iff, Prod.exists]

end Document

theorem ConstantTable.find?_of_mem {table : ConstantTable} {c : Constant}
    (distinct : (table.constants.map Constant.name).Nodup) (member : c ∈ table.constants) :
    table.find? c.name = some c := by
  obtain ⟨constants⟩ := table
  induction constants with
  | nil => cases member
  | cons first rest ih =>
    obtain ⟨new, distinct⟩ := List.nodup_cons.mp distinct
    rcases List.mem_cons.mp member with rfl | member
    · simp [find?]
    · have other : first.name ≠ c.name := by
        intro same
        exact new (same ▸ List.mem_map_of_mem member)
      have found := ih distinct member
      simpa [find?, other] using found

theorem ConstantTable.Represents.depth_le {table table' : ConstantTable}
    {earlier declarations : List Declaration} {limit : Nat} (h : table.Represents earlier)
    (raw : ∀ d ∈ declarations, d.value.depth ≤ limit)
    (before : ∀ c ∈ table.constants, c.value.depth ≤ limit)
    (built : declarations.foldlM (addDeclaration limit) table = .ok table') :
    ∀ c ∈ table'.constants, c.value.depth ≤ limit := by
  induction declarations generalizing table earlier with
  | nil => cases built; exact before
  | cons d declarations ih =>
    rw [List.foldlM_cons] at built
    obtain ⟨next, added, rest⟩ := bind_eq_ok_iff.mp built
    obtain ⟨w, resolved, rfl, h'⟩ := h.addDeclaration_ok added
    obtain ⟨fits, replaced⟩ := h.resolve_eq_ok_iff.mp resolved
    apply ih h' (fun d' member => raw d' (List.mem_cons_of_mem d member)) ?_ rest
    intro c member
    rcases List.mem_append.mp member with member | member
    · exact before c member
    · rw [List.mem_singleton.mp member]
      exact Value.depth_le_of_offence? fits replaced (raw d List.mem_cons_self)

namespace Document

theorem inlinesTo_of_resolve {d : Document} {limit : Nat} {table : ConstantTable} {entry : Entry}
    (h : d.resolve limit = .ok (table, entry)) : d.InlinesTo table entry := by
  obtain ⟨-, represented, resolved, name⟩ := resolve_ok h
  have inlinable : d.Inlinable limit := exists_resolve_iff.mp ⟨table, entry, h⟩
  have names : table.constants.map Constant.name = d.constants.map Declaration.name := by
    rw [represented.names, List.map_reverse, List.reverse_reverse]
  have distinct : (table.constants.map Constant.name).Nodup := names ▸ inlinable.distinct
  have held : ∀ c ∈ table.constants,
      meaning? d.constants.reverse c.name = some c.value ∧ c.depth = c.value.depth := by
    intro c member
    have found := ConstantTable.find?_of_mem distinct member
    rw [represented.find] at found
    obtain ⟨v, named, same⟩ := Option.map_eq_some_iff.mp found
    have value : v = c.value := congrArg Constant.value same
    have depth : v.depth = c.depth := congrArg Constant.depth same
    rw [← value, ← depth]
    exact ⟨named, rfl⟩
  exact ⟨names, fun c member => (held c member).1, fun c member => (held c member).2, name,
    (represented.resolve_eq_ok_iff.mp resolved).2⟩

theorem depth_le_of_resolve {d : Document} {limit : Nat} {table : ConstantTable} {entry : Entry}
    (h : d.resolve limit = .ok (table, entry)) (raw : ∀ c ∈ d.constants, c.value.depth ≤ limit)
    (rawEntry : d.entry.value.depth ≤ limit) :
    (∀ c ∈ table.constants, c.value.depth ≤ limit) ∧ entry.value.depth ≤ limit := by
  obtain ⟨built, represented, resolved, -⟩ := resolve_ok h
  obtain ⟨fits, replaced⟩ := represented.resolve_eq_ok_iff.mp resolved
  constructor
  · exact ConstantTable.represents_empty.depth_le raw (by simp [ConstantTable.empty]) built
  · exact Value.depth_le_of_offence? fits replaced rawEntry

end Document

/-- Resolving a document succeeds when inlining makes sense, and gives the inlined document. -/
theorem resolve_is_inlining (d : Document) (limit : Nat) :
    ((∃ table entry, d.resolve limit = .ok (table, entry)) ↔ d.Inlinable limit) ∧
    ∀ table entry, d.resolve limit = .ok (table, entry) →
      d.InlinesTo table entry ∧
      ((∀ c ∈ d.constants, c.value.depth ≤ limit) → d.entry.value.depth ≤ limit →
        (∀ c ∈ table.constants, c.value.depth ≤ limit) ∧ entry.value.depth ≤ limit) := by
  constructor
  · exact Document.exists_resolve_iff
  · intro table entry resolved
    exact ⟨Document.inlinesTo_of_resolve resolved, Document.depth_le_of_resolve resolved⟩

theorem Value.fits_of_substitute? {v w : Value} {declarations : List Declaration}
    (h : v.substitute? (meaning? declarations) = some w) :
    v.depth ≤ w.depth ∧ v.UsesWithin w.depth declarations := by
  have depths := depth_eq_max_of_substitute? h
  constructor
  · omega
  · intro o member m named
    have uses : deepestUse (meaning? declarations) (v.occurrences 0) ≤ w.depth := by omega
    have reach := deepestUse_le_iff.mp uses o member
    simpa [useDepth, named] using reach

theorem Value.UsesWithin.mono {limit limit' : Nat} {declarations : List Declaration} {v : Value}
    (h : v.UsesWithin limit declarations) (le : limit ≤ limit') :
    v.UsesWithin limit' declarations :=
  fun o member m named => Nat.le_trans (h o member m named) le

theorem meaning?_append_of_not_mem {later earlier : List Declaration} {name : String}
    (h : name ∉ later.map Declaration.name) :
    meaning? (later ++ earlier) name = meaning? earlier name := by
  induction later with
  | nil => rfl
  | cons d later ih =>
    rw [List.map_cons, List.mem_cons, not_or] at h
    rw [List.cons_append, meaning?, if_neg (Ne.symm h.1), ih h.2]

theorem meaning?_of_split {before after : List Declaration} {c : Declaration}
    (distinct : ((before ++ c :: after).map Declaration.name).Nodup) :
    meaning? (before ++ c :: after).reverse c.name =
      c.value.substitute? (meaning? before.reverse) := by
  have apart : c.name ∉ after.reverse.map Declaration.name := by
    rw [List.map_append, List.map_cons] at distinct
    rw [List.map_reverse, List.mem_reverse]
    exact (List.nodup_cons.mp distinct.of_append_right).1
  rw [List.reverse_append, List.reverse_cons, List.append_assoc, meaning?_append_of_not_mem apart,
    List.singleton_append, meaning?, if_pos rfl]

namespace Document

variable {d : Document} {limit limit' : Nat} {table : ConstantTable} {entry : Entry}

theorem value_of_split (h : d.resolve limit = .ok (table, entry)) {before after : List Declaration}
    {c : Declaration} (split : d.constants = before ++ c :: after) :
    ∃ k ∈ table.constants, c.value.substitute? (meaning? before.reverse) = some k.value := by
  have inlinable : d.Inlinable limit := exists_resolve_iff.mp ⟨table, entry, h⟩
  have inlines := inlinesTo_of_resolve h
  have stored : c.name ∈ table.constants.map Constant.name := by
    rw [inlines.names, split]
    simp
  obtain ⟨k, member, named⟩ := List.mem_map.mp stored
  have distinct := inlinable.distinct
  have value := inlines.values k member
  rw [split] at distinct
  rw [named, split, meaning?_of_split distinct] at value
  exact ⟨k, member, value⟩

/-- A limit that the resolved values keep is enough for reading and for resolving. -/
theorem fits_of_resolve (h : d.resolve limit = .ok (table, entry))
    (constants : ∀ c ∈ table.constants, c.value.depth ≤ limit')
    (value : entry.value.depth ≤ limit') : d.Inlinable limit' ∧ d.Within limit' := by
  have inlinable : d.Inlinable limit := exists_resolve_iff.mp ⟨table, entry, h⟩
  have entryFits := Value.fits_of_substitute? (inlinesTo_of_resolve h).entryValue
  have fits : ∀ before c after, d.constants = before ++ c :: after →
      c.value.depth ≤ limit' ∧ c.value.UsesWithin limit' before.reverse := by
    intro before c after split
    obtain ⟨k, member, replaced⟩ := value_of_split h split
    obtain ⟨raw, uses⟩ := Value.fits_of_substitute? replaced
    have shallow := constants k member
    exact ⟨Nat.le_trans raw shallow, uses.mono shallow⟩
  refine ⟨⟨inlinable.distinct, inlinable.known, inlinable.entryKnown, ?_, ?_⟩, ?_, ?_⟩
  · intro before c after split
    exact (fits before c after split).2
  · exact entryFits.2.mono value
  · intro c member
    obtain ⟨before, after, split⟩ := List.append_of_mem member
    exact (fits before c after split).1
  · exact Nat.le_trans entryFits.1 value

end Document

end TypedConfig
