import TypedConfig.Proofs.Resolving.Inlining

namespace TypedConfig

variable {limit : Nat} {earlier : List Declaration}

/-- A name that is declared also means something, as long as the declarations before refer only to
what comes before them. -/
theorem Site.offence?_used (known : EachAfter Known earlier) (enclosing : Nat) (r : Reference) :
    (used earlier enclosing r).offence? limit = r.offence? earlier limit enclosing := by
  simp only [offence?, Reference.offence?]
  cases named : meaning? earlier r.name with
  | none =>
    have undeclared : r.name ∉ earlier.map Declaration.name := by
      intro member
      obtain ⟨v, some⟩ := meaning?_of_mem_names known member
      rw [named] at some
      cases some
    exact if_pos undeclared
  | some v =>
    have declared : ¬ r.name ∉ earlier.map Declaration.name :=
      not_not_intro (mem_names_of_meaning? named)
    rw [if_neg declared, Option.bind_some]
    by_cases fits : enclosing + v.depth ≤ limit
    · exact (if_neg (Nat.not_lt.mpr fits)).trans (if_pos fits).symm
    · exact (if_pos (Nat.lt_of_not_le fits)).trans (if_neg fits).symm

theorem Site.eq_of_offence? {site : Site} {e : Diagnostic} (h : site.offence? limit = some e) :
    match site with
    | declared _ name p => e = ConstantTable.duplicate name p
    | used _ enclosing r =>
      e = ConstantTable.unknown r ∨ ∃ depth, e = r.tooDeep limit depth enclosing := by
  cases site with
  | declared earlier name p =>
    simp only [offence?] at h
    split at h
    · exact (Option.some.inj h).symm
    · cases h
  | used earlier enclosing r =>
    simp only [offence?] at h
    split at h
    · exact .inl (Option.some.inj h).symm
    · obtain ⟨v, -, deep⟩ := Option.bind_eq_some_iff.mp h
      split at deep
      · exact .inr ⟨v.depth, (Option.some.inj deep).symm⟩
      · cases deep

theorem Value.findSome?_sites (known : EachAfter Known earlier) (v : Value) :
    (v.sites earlier).findSome? (Site.offence? limit) = v.offence? earlier limit := by
  unfold sites offence?
  rw [List.findSome?_map]
  congr 1
  funext ⟨enclosing, r⟩
  exact Site.offence?_used known enclosing r

theorem Declaration.findSome?_sites (known : EachAfter Known earlier) (d : Declaration) :
    (d.sites earlier).findSome? (Site.offence? limit) = d.offence? earlier limit := by
  unfold sites offence?
  rw [List.findSome?_cons, Value.findSome?_sites known]
  by_cases taken : d.name ∈ earlier.map Declaration.name
  · simp only [Site.offence?, if_pos taken]
  · simp only [Site.offence?, if_neg taken]

theorem findSome?_sitesAfter (v : Value) (before : EachAfter (Admitted limit) earlier)
    (declarations : List Declaration) :
    (sitesAfter v earlier declarations).findSome? (Site.offence? limit) =
      firstOffence? limit v earlier declarations := by
  have known : EachAfter Known earlier := (eachAfter_admitted_iff.mp before).2.1
  induction declarations generalizing earlier with
  | nil => exact Value.findSome?_sites known v
  | cons d declarations ih =>
    rw [sitesAfter, firstOffence?, List.findSome?_append, Declaration.findSome?_sites known]
    cases offence : d.offence? earlier limit with
    | some e => rfl
    | none =>
      -- Only a declaration that is let in leaves all names before the next one good.
      have next : EachAfter (Admitted limit) (d :: earlier) := ⟨offence, before⟩
      exact congrArg (Option.or none) (ih next (eachAfter_admitted_iff.mp next).2.1)

theorem Document.failure?_resolve_eq_findSome? (d : Document) (limit : Nat) :
    failure? (d.resolve limit) = d.sites.findSome? (Site.offence? limit) := by
  have none : EachAfter (Admitted limit) [] := True.intro
  rw [failure?_resolve, sites, findSome?_sitesAfter d.entry.value none, offence?]

theorem Document.resolve_eq_error_iff {d : Document} {e : Diagnostic} :
    d.resolve limit = .error e ↔ ∃ before site, before ++ [site] <+: d.sites ∧
      (∀ p ∈ before, p.offence? limit = none) ∧ site.offence? limit = some e := by
  rw [← failure?_eq_some_iff, failure?_resolve_eq_findSome?, List.findSome?_eq_some_iff]
  constructor
  · intro h
    obtain ⟨before, site, after, walk, offends, passed⟩ := h
    exact ⟨before, site, ⟨after, by simp [walk]⟩, passed, offends⟩
  · intro h
    obtain ⟨before, site, ⟨after, walk⟩, passed, offends⟩ := h
    exact ⟨before, site, after, by simp [← walk], offends, passed⟩

/-- Resolving fails with the report of the first site that offends, and so it does for every other
document that is the same up to that site. -/
theorem resolve_reports_first_offence (d : Document) (limit : Nat) (e : Diagnostic) :
    d.resolve limit = .error e ↔ ∃ before site, before ++ [site] <+: d.sites ∧
      (∀ p ∈ before, p.offence? limit = none) ∧ site.offence? limit = some e ∧
      ∀ other : Document, before ++ [site] <+: other.sites → other.resolve limit = .error e := by
  constructor
  · intro h
    obtain ⟨before, site, walk, passed, offends⟩ := Document.resolve_eq_error_iff.mp h
    refine ⟨before, site, walk, passed, offends, ?_⟩
    intro other same
    exact Document.resolve_eq_error_iff.mpr ⟨before, site, same, passed, offends⟩
  · intro h
    obtain ⟨before, site, walk, passed, offends, -⟩ := h
    exact Document.resolve_eq_error_iff.mpr ⟨before, site, walk, passed, offends⟩

end TypedConfig
