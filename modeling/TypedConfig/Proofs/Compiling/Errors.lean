import TypedConfig.Proofs.Resolving.Tables
import TypedConfig.Stage

namespace TypedConfig

theorem LexicalFault.category_diagnostic (fault : LexicalFault) (p : Position) :
    (fault.diagnostic p).category = .source := by
  cases fault <;> rfl

theorem Expectation.category_diagnostic (e : Expectation) (found : Option Token) (p : Position) :
    (e.diagnostic found p).category = .source := by
  unfold diagnostic
  cases found with
  | none => rfl
  | some token =>
    cases e.advice? (some token) with
    | none => rfl
    | some advice => rfl

namespace Session

variable {s : Session} {d : Draft} {t : PlacedToken} {e : Diagnostic}

theorem category_of_accept (h : s.accept d t = .error e) : e.category = .source := by
  unfold accept at h
  split at h
  · cases h
    rfl
  split at h
  · cases h
  · cases h
    exact Expectation.category_diagnostic _ _ _

theorem category_of_settle {last : Position} (h : (s.settle d last).1 = .error e) :
    e.category = .source := by
  unfold settle at h
  split at h
  · cases h
    exact LexicalFault.category_diagnostic _ _
  all_goals
    split at h
    · cases h
    · cases h
      exact Expectation.category_diagnostic _ _ _

theorem category_of_resume {last : Position} {tokens : List PlacedToken}
    (h : (s.resume d last tokens).1 = .error e) : e.category = .source := by
  induction tokens generalizing d last with
  | nil => exact category_of_settle h
  | cons t tokens ih =>
    unfold resume at h
    cases accepted : s.accept d t with
    | ok next =>
      rw [accepted] at h
      exact ih h
    | error problem =>
      rw [accepted] at h
      cases h
      exact category_of_accept accepted

end Session

theorem category_of_parse {source : String} {limit : Nat} {e : Diagnostic}
    (h : Document.parse source limit = .error e) : e.category = .source := by
  rcases bind_eq_error_iff.mp h with failed | ⟨s, -, failed⟩
  · unfold Session.start at failed
    split at failed
    · cases failed
      exact LexicalFault.category_diagnostic _ _
    · cases failed
  · exact Session.category_of_resume failed

def Category.OfSource (c : Category) : Prop :=
  c = .source ∨ c = .duplicateConstant ∨ c = .unknownConstant

theorem Reference.category_of_offence? {declarations : List Declaration} {limit enclosing : Nat}
    {r : Reference} {e : Diagnostic} (h : r.offence? declarations limit enclosing = some e) :
    e.category.OfSource := by
  unfold offence? at h
  split at h
  · cases h
    exact .inr (.inr rfl)
  split at h
  · cases h
  · cases h
    exact .inl rfl

theorem Value.category_of_offence? {declarations : List Declaration} {limit : Nat} {v : Value}
    {e : Diagnostic} (h : v.offence? declarations limit = some e) : e.category.OfSource := by
  obtain ⟨⟨enclosing, r⟩, -, found⟩ := List.exists_of_findSome?_eq_some h
  exact Reference.category_of_offence? found

theorem Declaration.category_of_offence? {earlier : List Declaration} {limit : Nat}
    {d : Declaration} {e : Diagnostic} (h : d.offence? earlier limit = some e) :
    e.category.OfSource := by
  unfold offence? at h
  split at h
  · cases h
    exact .inr (.inl rfl)
  · exact Value.category_of_offence? h

theorem category_of_firstOffence? {limit : Nat} {v : Value}
    {earlier declarations : List Declaration} {e : Diagnostic}
    (h : firstOffence? limit v earlier declarations = some e) :
    e.category.OfSource := by
  induction declarations generalizing earlier with
  | nil => exact Value.category_of_offence? h
  | cons d declarations ih =>
    rw [firstOffence?] at h
    rcases Option.or_eq_some_iff.mp h with first | ⟨-, later⟩
    · exact Declaration.category_of_offence? first
    · exact ih later

theorem category_of_resolve {d : Document} {limit : Nat} {e : Diagnostic}
    (h : d.resolve limit = .error e) : e.category.OfSource := by
  have failed := d.failure?_resolve limit
  rw [h] at failed
  exact category_of_firstOffence? failed.symm

theorem category_of_entryOf {source : String} {limit : Nat} {e : Diagnostic}
    (h : entryOf source limit = .error e) : e.category.OfSource := by
  rcases bind_eq_error_iff.mp h with failed | ⟨d, -, failed⟩
  · exact .inl (category_of_parse failed)
  · rcases bind_eq_error_iff.mp failed with failed | ⟨_, -, failed⟩
    · exact category_of_resolve failed
    · cases failed

end TypedConfig
