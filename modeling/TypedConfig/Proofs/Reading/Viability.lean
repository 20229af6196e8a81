import TypedConfig.Proofs.Reading.Parse
import TypedConfig.Proofs.Reading.Relocation

namespace TypedConfig

/-- Tokens that a source can have, and that make a document of the draft. -/
def Draft.Completable (s : Session) (d : Draft) : Prop :=
  ∃ (more : List PlacedToken) (document : Document),
    (∀ t ∈ more, t.token.WellSpelled) ∧ s.acceptAll d more = .ok (.complete document)

namespace Draft

variable {s : Session}

theorem Completable.of_accept {d next : Draft} {t : PlacedToken} (h : next.Completable s)
    (spelled : t.token.WellSpelled) (accepted : s.accept d t = .ok next) : d.Completable s := by
  obtain ⟨more, document, later, completed⟩ := h
  refine ⟨t :: more, document, List.forall_mem_cons.mpr ⟨spelled, later⟩, ?_⟩
  rwa [Session.acceptAll_cons_of_ok accepted]

theorem Completable.of_extend? {d next : Draft} (t : Token) (h : next.Completable s)
    (spelled : t.WellSpelled) (closed : t.opensContainer = false)
    (taken : d.extend? t .origin = some next) : d.Completable s :=
  h.of_accept (t := ⟨t, .origin⟩) spelled (Session.accept_of_extend? closed taken)

theorem completable_complete (document : Document) : (complete document).Completable s :=
  ⟨[], document, by simp, rfl⟩

theorem name_wellSpelled : (Token.name "x").WellSpelled :=
  ⟨by decide, by decide⟩

theorem completable_preamble (constants : List Declaration) :
    (preamble constants).Completable s := by
  have done : (value constants (.entry "x") .start).Completable s :=
    (completable_complete ⟨constants, ⟨"x", .int 0⟩⟩).of_extend? (.number 0) True.intro rfl rfl
  exact done.of_extend? (.name "x") name_wellSpelled rfl rfl

theorem completable_ofValue (constants : List Declaration) (subject : Subject) (v : Value)
    (frames : List Frame) :
    (ofProgress constants subject (.ofValue v frames)).Completable s := by
  induction frames generalizing v with
  | nil =>
    cases subject with
    | declaration name p => exact completable_preamble (constants ++ [⟨name, v, p⟩])
    | entry name => exact completable_complete ⟨constants, ⟨name, v⟩⟩
  | cons frame frames ih =>
    cases frame with
    | array items =>
      exact (ih (.array (items ++ [v]))).of_extend? .closeBracket True.intro rfl rfl
    | dict pairs key =>
      exact (ih (.dict (pairs ++ [(key, v)]))).of_extend? .closeBrace True.intro rfl rfl

theorem completable_value (constants : List Declaration) (subject : Subject) (draft : ValueDraft) :
    (value constants subject draft).Completable s := by
  obtain ⟨frames, place⟩ := draft
  have closed (v : Value) := completable_ofValue (s := s) constants subject v frames
  have valued (frames : List Frame) : (value constants subject ⟨frames, .value⟩).Completable s :=
    (completable_ofValue constants subject (.int 0) frames).of_extend? (.number 0) True.intro rfl
      rfl
  have keyed (pairs : List (String × Value)) (key : String) :
      (value constants subject ⟨frames, .colon pairs key⟩).Completable s :=
    (valued (.dict pairs key :: frames)).of_extend? .colon True.intro rfl rfl
  have referred (reference : Reference) :
      (value constants subject ⟨frames, .refClose reference⟩).Completable s :=
    (closed (.ref reference)).of_extend? .pipe True.intro rfl rfl
  cases place with
  | value => exact valued frames
  | firstItem => exact (closed (.array [])).of_extend? .closeBracket True.intro rfl rfl
  | nextItem items => exact (closed (.array items)).of_extend? .closeBracket True.intro rfl rfl
  | firstKey => exact (closed (.dict [])).of_extend? .closeBrace True.intro rfl rfl
  | key pairs => exact (keyed pairs "x").of_extend? (.name "x") name_wellSpelled rfl rfl
  | colon pairs key => exact keyed pairs key
  | nextPair pairs => exact (closed (.dict pairs)).of_extend? .closeBrace True.intro rfl rfl
  | refName => exact (referred ⟨"x", .origin⟩).of_extend? (.name "x") name_wellSpelled rfl rfl
  | refClose reference => exact referred reference

theorem completable (d : Draft) : d.Completable s := by
  cases d with
  | preamble constants => exact completable_preamble constants
  | keyword constants =>
    exact (completable_complete ⟨constants, ⟨"var", .int 0⟩⟩).of_extend? (.number 0) True.intro rfl
      rfl
  | value constants subject draft => exact completable_value constants subject draft
  | complete document => exact completable_complete document

end Draft

namespace Session

variable {s : Session} {tokens : List PlacedToken}

theorem complete_of_acceptAll {document : Document}
    (spelled : ∀ t ∈ tokens, t.token.WellSpelled)
    (h : s.acceptAll .start tokens = .ok (.complete document)) :
    Complete s.room (tokens.map PlacedToken.token) := by
  obtain ⟨written, within⟩ := Document.written_of_acceptAll spelled h
  exact ⟨document, written.map_token_eq.symm, within⟩

theorem viable_of_acceptAll {d : Draft} (spelled : ∀ t ∈ tokens, t.token.WellSpelled)
    (h : s.acceptAll .start tokens = .ok d) : Viable s.room (tokens.map PlacedToken.token) := by
  obtain ⟨more, document, later, completed⟩ := d.completable (s := s)
  refine ⟨more.map PlacedToken.token, ?_⟩
  rw [← List.map_append]
  apply complete_of_acceptAll (List.forall_mem_append.mpr ⟨spelled, later⟩)
  rwa [acceptAll_append_of_ok h]

/-- Moved to one place, the tokens of a document are accepted, so they are where they stand. -/
theorem acceptAll_of_complete (h : Complete s.room (tokens.map PlacedToken.token)) :
    ∃ document, s.acceptAll .start tokens = .ok (.complete document) := by
  obtain ⟨document, same, within⟩ := h
  have moved : document.tokens.map (fun token => ⟨token, .origin⟩) =
      tokens.map (PlacedToken.relocate fun _ => .origin) := by
    rw [same, List.map_map]
    rfl
  have written := document.written_relocate .origin
  rw [moved] at written
  have here : document.Within s.room := within
  have accepted := acceptAll_document (here.relocate _) written
  rw [← Draft.relocate_start, acceptAll_relocate] at accepted
  cases read : s.acceptAll .start tokens with
  | error problem =>
    rw [read] at accepted
    cases accepted
  | ok d =>
    rw [read] at accepted
    cases d with
    | complete document => exact ⟨document, rfl⟩
    | _ => cases accepted

theorem acceptAll_of_viable (h : Viable s.room (tokens.map PlacedToken.token)) :
    ∃ d, s.acceptAll .start tokens = .ok d := by
  obtain ⟨more, completed⟩ := h
  let place (token : Token) : PlacedToken := ⟨token, .origin⟩
  have same : more = (more.map place).map PlacedToken.token := by
    rw [List.map_map]
    exact (List.map_id more).symm
  rw [same, ← List.map_append] at completed
  obtain ⟨document, accepted⟩ := acceptAll_of_complete completed
  rw [acceptAll_append] at accepted
  obtain ⟨d, first, -⟩ := bind_eq_ok_iff.mp accepted
  exact ⟨d, first⟩

end Session

end TypedConfig
