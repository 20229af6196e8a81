import Mathlib.Logic.Equiv.Basic
import TypedConfig.Proofs.Resolving.Tables
import TypedConfig.Relocate

namespace TypedConfig

/-- A change of references that gives each name another one, and different names different ones. -/
structure Renames (g : Reference → Reference) (f : String → String) : Prop where
  name : ∀ r, (g r).name = f r.name
  injective : f.Injective

def Declaration.reference (d : Declaration) : Reference := ⟨d.name, d.position⟩

def Declaration.mapRefs (g : Reference → Reference) (d : Declaration) : Declaration :=
  ⟨(g d.reference).name, d.value.mapRefs g, (g d.reference).position⟩

def Document.mapRefs (g : Reference → Reference) (d : Document) : Document :=
  ⟨d.constants.map (.mapRefs g), ⟨d.entry.name, d.entry.value.mapRefs g⟩⟩

variable {g : Reference → Reference} {f : String → String} {t : ConstantTable} {limit : Nat}

theorem ConstantTable.find?_rename (renames : Renames g f) (t : ConstantTable) (r : Reference) :
    (t.rename f).find? (g r).name = (t.find? r.name).map (.rename f) := by
  have same : (fun c : Constant => decide (f c.name = f r.name)) =
      fun c => decide (c.name = r.name) := by
    funext c
    exact decide_eq_decide.mpr renames.injective.eq_iff
  rw [renames.name, find?, rename, List.find?_map, find?]
  exact congrArg (fun p => (t.constants.find? p).map (Constant.rename f)) same

theorem Reference.related_resolve (renames : Renames g f) (enclosing : Nat) (r : Reference) :
    Related (Diagnostic.Transfers g) Eq (r.resolve t limit enclosing)
      ((g r).resolve (t.rename f) limit enclosing) := by
  unfold resolve ConstantTable.lookup
  rw [ConstantTable.find?_rename renames]
  cases t.find? r.name with
  | none => exact .error (.unknown r)
  | some c =>
    by_cases fits : enclosing + c.depth ≤ limit
    · simpa [Bind.bind, Except.bind, Constant.rename, fits] using .ok rfl
    · simpa [Bind.bind, Except.bind, Constant.rename, fits] using
        .error (.tooDeep r limit c.depth enclosing)

namespace Value

mutual

theorem related_resolveWithin (renames : Renames g f) (enclosing : Nat) (v : Value) :
    Related (Diagnostic.Transfers g) Eq (v.resolveWithin t limit enclosing)
      ((v.mapRefs g).resolveWithin (t.rename f) limit enclosing) := by
  cases v with
  | int n => exact .ok rfl
  | ref r => exact Reference.related_resolve renames enclosing r
  | array items =>
    apply (related_resolveItems renames (enclosing + 1) items).bind
    rintro items _ rfl
    exact .ok rfl
  | dict pairs =>
    apply (related_resolvePairs renames (enclosing + 1) pairs).bind
    rintro pairs _ rfl
    exact .ok rfl

theorem related_resolveItems (renames : Renames g f) (enclosing : Nat) (items : List Value) :
    Related (Diagnostic.Transfers g) Eq (resolveItems t limit enclosing items)
      (resolveItems (t.rename f) limit enclosing (itemsMapRefs g items)) := by
  cases items with
  | nil => exact .ok rfl
  | cons item items =>
    apply (related_resolveWithin renames enclosing item).bind
    rintro item _ rfl
    apply (related_resolveItems renames enclosing items).bind
    rintro items _ rfl
    exact .ok rfl

theorem related_resolvePairs (renames : Renames g f) (enclosing : Nat)
    (pairs : List (String × Value)) :
    Related (Diagnostic.Transfers g) Eq (resolvePairs t limit enclosing pairs)
      (resolvePairs (t.rename f) limit enclosing (pairsMapRefs g pairs)) := by
  match pairs with
  | [] => exact .ok rfl
  | (key, value) :: pairs =>
    apply (related_resolveWithin renames enclosing value).bind
    rintro value _ rfl
    apply (related_resolvePairs renames enclosing pairs).bind
    rintro pairs _ rfl
    exact .ok rfl

end

end Value

namespace ConstantTable

theorem related_ensureUndeclared (renames : Renames g f) (t : ConstantTable) (r : Reference) :
    Related (Diagnostic.Transfers g) (fun _ _ => t.find? r.name = none)
      (t.ensureUndeclared r.name r.position)
      ((t.rename f).ensureUndeclared (g r).name (g r).position) := by
  unfold ensureUndeclared
  rw [find?_rename renames]
  cases t.find? r.name with
  | none => exact .ok rfl
  | some c => exact .error (.duplicate r)

theorem related_addDeclaration (renames : Renames g f) {earlier : List Declaration}
    (h : t.Represents earlier) (d : Declaration) :
    Related (Diagnostic.Transfers g) (fun next next' => next' = next.rename f)
      (t.addDeclaration limit d) ((t.rename f).addDeclaration limit (d.mapRefs g)) := by
  apply (related_ensureUndeclared renames t d.reference).bind
  intro _ _ new
  apply (Value.related_resolveWithin renames 0 d.value).bind_of_ok
  rintro w _ resolved rfl
  -- What has been resolved holds no name any more, so it is let in under either name.
  have replaced := (h.resolve_eq_ok_iff.mp resolved).2
  have closed : w.firstRef? = none :=
    Value.firstRef?_of_substitute? (fun _ _ => firstRef?_of_meaning?) replaced
  have new' : (t.rename f).find? (g d.reference).name = none := by
    rw [find?_rename renames, new]
    rfl
  have declared : t.declare { d with value := w } = .ok ⟨t.constants ++ [⟨d.name, w, w.depth⟩]⟩ :=
    declare_substituted new replaced
  have declared' : (t.rename f).declare { d.mapRefs g with value := w } =
      .ok ⟨(t.rename f).constants ++ [⟨(g d.reference).name, w, w.depth⟩]⟩ :=
    declare_eq_ok_iff.mpr ⟨new', closed, rfl⟩
  rw [declared, declared']
  apply Related.ok
  simp [rename, Constant.rename, renames.name, Declaration.reference]

theorem related_foldlM (renames : Renames g f) {earlier : List Declaration}
    (h : t.Represents earlier) (declarations : List Declaration) :
    Related (Diagnostic.Transfers g) (fun next next' => next' = next.rename f)
      (declarations.foldlM (addDeclaration limit) t)
      ((declarations.map (.mapRefs g)).foldlM (addDeclaration limit) (t.rename f)) := by
  induction declarations generalizing t earlier with
  | nil => exact .ok rfl
  | cons d declarations ih =>
    rw [List.map_cons, List.foldlM_cons, List.foldlM_cons]
    apply (related_addDeclaration renames h d).bind_of_ok
    rintro next _ added rfl
    obtain ⟨w, -, -, h'⟩ := h.addDeclaration_ok added
    exact ih h'

end ConstantTable

theorem Document.related_resolve (renames : Renames g f) (d : Document) :
    Related (Diagnostic.Transfers g) (fun found found' => found' = (found.1.rename f, found.2))
      (d.resolve limit) ((d.mapRefs g).resolve limit) := by
  apply (ConstantTable.related_foldlM renames ConstantTable.represents_empty d.constants).bind
  rintro table _ rfl
  apply (Value.related_resolveWithin renames 0 d.entry.value).bind
  rintro value _ rfl
  exact .ok rfl

theorem Renames.of_injective {f : String → String} (injective : f.Injective) :
    Renames (.rename f) f :=
  ⟨fun _ => rfl, injective⟩

/-- Other names for the constants, different where they were different, change neither whether
resolving succeeds nor the entry. -/
theorem resolve_is_blind_to_names {f : String → String} (injective : f.Injective) (d : Document)
    (limit : Nat) :
    ((∃ table entry, (d.rename f).resolve limit = .ok (table, entry)) ↔
      ∃ table entry, d.resolve limit = .ok (table, entry)) ∧
    (∀ table entry, d.resolve limit = .ok (table, entry) →
      (d.rename f).resolve limit = .ok (table.rename f, entry)) ∧
    ∀ e, d.resolve limit = .error e → ∃ e', (d.rename f).resolve limit = .error e' ∧
      Diagnostic.Transfers (.rename f) e e' := by
  have related : Related (Diagnostic.Transfers (.rename f))
      (fun found found' => found' = (found.1.rename f, found.2))
      (d.resolve limit) ((d.rename f).resolve limit) :=
    Document.related_resolve (.of_injective injective) d
  generalize d.resolve limit = outcome at related
  generalize (d.rename f).resolve limit = outcome' at related
  cases related with
  | @ok found found' same =>
    obtain ⟨table, entry⟩ := found
    subst same
    simp
  | error transfers => simpa using transfers

theorem resolve_is_blind_to_names_swapped :
    Function.Injective (Equiv.swap "a" "b") ∧
    (Document.rename (Equiv.swap "a" "b")
      ⟨[⟨"a", .int 1, ⟨1, 5⟩⟩, ⟨"b", .array [.ref ⟨"a", ⟨2, 9⟩⟩], ⟨2, 5⟩⟩],
        ⟨"a", .dict [("a", .ref ⟨"b", ⟨3, 8⟩⟩), ("b", .int 2)]⟩⟩).resolve 2 =
      .ok (⟨[⟨"b", .int 1, 0⟩, ⟨"a", .array [.int 1], 1⟩]⟩,
        ⟨"a", .dict [("a", .array [.int 1]), ("b", .int 2)]⟩) := by
  have injective := (Equiv.swap "a" "b").injective
  refine ⟨injective, (resolve_is_blind_to_names injective _ 2).2.1 ⟨[⟨"a", .int 1, 0⟩,
    ⟨"b", .array [.int 1], 1⟩]⟩ _ ?_⟩
  rfl

end TypedConfig
