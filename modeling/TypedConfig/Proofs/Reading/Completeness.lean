import TypedConfig.Proofs.Reading.Runs

namespace TypedConfig

open Value

def Token.startsValue : Token → Bool
  | .number _ | .openBracket | .openBrace | .pipe => true
  | _ => false

theorem Token.opensContainer_ofWord (word : String) : (ofWord word).opensContainer = false := by
  unfold ofWord
  split <;> rfl

theorem Value.marks_startsValue (v : Value) :
    ∃ mark marks, v.marks = mark :: marks ∧ mark.token.startsValue = true := by
  match v with
  | .int n => exact ⟨_, _, rfl, rfl⟩
  | .ref r => exact ⟨_, _, rfl, rfl⟩
  | .array [] => exact ⟨_, _, rfl, rfl⟩
  | .array (_ :: _) => exact ⟨_, _, rfl, rfl⟩
  | .dict [] => exact ⟨_, _, rfl, rfl⟩
  | .dict ((_, _) :: _) => exact ⟨_, _, rfl, rfl⟩

theorem Written.startsValue {v : Value} {tokens : List PlacedToken} (h : Written v.marks tokens) :
    ∃ t rest, tokens = t :: rest ∧ t.token.startsValue = true := by
  obtain ⟨mark, marks, eq, starts⟩ := v.marks_startsValue
  rw [eq] at h
  obtain ⟨t, rest, fits, -, rfl⟩ := List.forall₂_cons_left_iff.mp h
  exact ⟨t, rest, rfl, by rw [← fits.1, starts]⟩

namespace Session

variable {s : Session} {constants : List Declaration} {subject : Subject} {frames : List Frame}

theorem acceptAll_append (d : Draft) (left right : List PlacedToken) :
    s.acceptAll d (left ++ right) = s.acceptAll d left >>= fun d => s.acceptAll d right :=
  List.foldlM_append

theorem acceptAll_append_of_ok {d d' : Draft} {left : List PlacedToken}
    (h : s.acceptAll d left = .ok d') (right : List PlacedToken) :
    s.acceptAll d (left ++ right) = s.acceptAll d' right := by
  rw [acceptAll_append, h]
  rfl

theorem acceptAll_cons_of_ok {d d' : Draft} {t : PlacedToken} (h : s.accept d t = .ok d')
    (tokens : List PlacedToken) : s.acceptAll d (t :: tokens) = s.acceptAll d' tokens := by
  rw [acceptAll_cons, h]
  rfl

theorem accept_of_extend? {d d' : Draft} {t : PlacedToken}
    (closed : t.token.opensContainer = false) (h : d.extend? t.token t.position = some d') :
    s.accept d t = .ok d' := by
  apply accept_eq_ok_iff.mpr
  refine ⟨?_, h⟩
  intro _ opens
  rw [closed] at opens
  cases opens

theorem accept_congr {d d' : Draft} {t : PlacedToken} (awaits : d.awaitsValue = d'.awaitsValue)
    (containers : d.containers = d'.containers) (expectation : d.expectation = d'.expectation)
    (step : d.extend? t.token t.position = d'.extend? t.token t.position) :
    s.accept d t = s.accept d' t := by
  unfold accept
  rw [awaits, containers, expectation, step]

theorem accept_firstItem {t : PlacedToken} (h : t.token.startsValue = true) :
    s.accept (.value constants subject ⟨frames, .firstItem⟩) t =
      s.accept (.value constants subject ⟨.array [] :: frames, .value⟩) t := by
  refine accept_congr rfl rfl rfl ?_
  cases token : t.token <;> rw [token] at h <;> first | rfl | cases h

theorem accept_keyword {t : PlacedToken} (h : t.token.startsValue = true) :
    s.accept (.keyword constants) t = s.accept (.value constants (.entry "var") .start) t := by
  refine accept_congr rfl rfl rfl ?_
  cases token : t.token <;> rw [token] at h <;> first | rfl | cases h

theorem acceptAll_of_accept_eq {d d' : Draft} {tokens : List PlacedToken} {v : Value}
    (written : Written v.marks tokens)
    (h : ∀ t : PlacedToken, t.token.startsValue = true → s.accept d t = s.accept d' t) :
    s.acceptAll d tokens = s.acceptAll d' tokens := by
  obtain ⟨t, rest, rfl, starts⟩ := written.startsValue
  rw [acceptAll_cons, acceptAll_cons, h t starts]

theorem accept_openBracket {p : Position} (h : frames.length < s.room) :
    s.accept (.value constants subject ⟨frames, .value⟩) ⟨.openBracket, p⟩ =
      .ok (.value constants subject ⟨frames, .firstItem⟩) :=
  accept_eq_ok_iff.mpr ⟨fun _ _ => h, rfl⟩

theorem accept_openBrace {p : Position} (h : frames.length < s.room) :
    s.accept (.value constants subject ⟨frames, .value⟩) ⟨.openBrace, p⟩ =
      .ok (.value constants subject ⟨frames, .firstKey⟩) :=
  accept_eq_ok_iff.mpr ⟨fun _ _ => h, rfl⟩

theorem accept_refName (text : String) (p : Position) :
    s.accept (.value constants subject ⟨frames, .refName⟩) ⟨.ofWord text, p⟩ =
      .ok (.value constants subject ⟨frames, .refClose ⟨text, p⟩⟩) := by
  apply accept_of_extend? (Token.opensContainer_ofWord text)
  simp [Draft.extend?, ValueDraft.extend?, Token.asName?_ofWord, Draft.ofProgress]

theorem accept_firstKey (text : String) (p : Position) :
    s.accept (.value constants subject ⟨frames, .firstKey⟩) ⟨.ofWord text, p⟩ =
      .ok (.value constants subject ⟨frames, .colon [] text⟩) := by
  apply accept_of_extend? (Token.opensContainer_ofWord text)
  unfold Token.ofWord
  split
  · rename_i keyword
    rw [keyword]
    rfl
  · rfl

theorem accept_nextKey (pairs : List (String × Value)) (text : String) (p : Position) :
    s.accept (.value constants subject ⟨frames, .key pairs⟩) ⟨.ofWord text, p⟩ =
      .ok (.value constants subject ⟨frames, .colon pairs text⟩) := by
  apply accept_of_extend? (Token.opensContainer_ofWord text)
  simp [Draft.extend?, ValueDraft.extend?, ValueDraft.readKey?, Token.asName?_ofWord,
    Draft.ofProgress]

theorem accept_comma (items : List Value) (p : Position) :
    s.accept (.value constants subject ⟨frames, .nextItem items⟩) ⟨.comma, p⟩ =
      .ok (.value constants subject ⟨.array items :: frames, .value⟩) :=
  accept_of_extend? rfl rfl

theorem accept_semicolon (pairs : List (String × Value)) (p : Position) :
    s.accept (.value constants subject ⟨frames, .nextPair pairs⟩) ⟨.semicolon, p⟩ =
      .ok (.value constants subject ⟨frames, .key pairs⟩) :=
  accept_of_extend? rfl rfl

theorem accept_colon (pairs : List (String × Value)) (key : String) (p : Position) :
    s.accept (.value constants subject ⟨frames, .colon pairs key⟩) ⟨.colon, p⟩ =
      .ok (.value constants subject ⟨.dict pairs key :: frames, .value⟩) :=
  accept_of_extend? rfl rfl

mutual

theorem acceptAll_value (v : Value) (constants : List Declaration) (subject : Subject)
    (frames : List Frame) {tokens : List PlacedToken} (depth : frames.length + v.depth ≤ s.room)
    (written : Written v.marks tokens) :
    s.acceptAll (.value constants subject ⟨frames, .value⟩) tokens =
      .ok (.ofProgress constants subject (.ofValue v frames)) := by
  match v with
  | .int n =>
    obtain ⟨p, _, rfl, nothing⟩ := written.free
    obtain rfl := List.forall₂_nil_left_iff.mp nothing
    rw [acceptAll_cons_of_ok (accept_of_extend? rfl rfl), acceptAll_nil]
  | .ref r =>
    obtain ⟨p, _, rfl, named⟩ := written.free
    obtain ⟨_, rfl, closed⟩ := named.placedName
    obtain ⟨q, _, rfl, nothing⟩ := closed.free
    obtain rfl := List.forall₂_nil_left_iff.mp nothing
    rw [acceptAll_cons_of_ok (accept_of_extend? rfl rfl)]
    rw [Draft.ofProgress, acceptAll_cons_of_ok (accept_refName r.name r.position)]
    rw [acceptAll_cons_of_ok (accept_of_extend? rfl rfl), acceptAll_nil]
  | .array [] =>
    obtain ⟨p, _, rfl, closed⟩ := written.free
    obtain ⟨q, _, rfl, nothing⟩ := closed.free
    obtain rfl := List.forall₂_nil_left_iff.mp nothing
    rw [acceptAll_cons_of_ok (accept_openBracket depth)]
    rw [acceptAll_cons_of_ok (accept_of_extend? rfl rfl), acceptAll_nil]
  | .array (item :: items) =>
    rw [Value.depth, itemsDepth] at depth
    obtain ⟨p, _, rfl, inside⟩ := written.free
    obtain ⟨left, right, rfl, first, later⟩ := Written.split inside
    have begun : s.acceptAll (.value constants subject ⟨frames, .firstItem⟩) left =
        s.acceptAll (.value constants subject ⟨.array [] :: frames, .value⟩) left :=
      acceptAll_of_accept_eq first fun _ => accept_firstItem
    have opened : frames.length < s.room := by omega
    have shallow : frames.length + 1 + item.depth ≤ s.room := by omega
    have item' := acceptAll_value item constants subject (.array [] :: frames) shallow first
    rw [acceptAll_cons_of_ok (accept_openBracket opened),
      acceptAll_append_of_ok (begun.trans item')]
    exact acceptAll_items items [item] constants subject frames (by omega) later
  | .dict [] =>
    obtain ⟨p, _, rfl, closed⟩ := written.free
    obtain ⟨q, _, rfl, nothing⟩ := closed.free
    obtain rfl := List.forall₂_nil_left_iff.mp nothing
    rw [acceptAll_cons_of_ok (accept_openBrace depth)]
    rw [acceptAll_cons_of_ok (accept_of_extend? rfl rfl), acceptAll_nil]
  | .dict ((key, value) :: pairs) =>
    rw [Value.depth, pairsDepth] at depth
    obtain ⟨p, _, rfl, named⟩ := written.free
    obtain ⟨q, _, rfl, parted⟩ := named.name
    obtain ⟨r, _, rfl, inside⟩ := parted.free
    obtain ⟨left, right, rfl, first, later⟩ := Written.split inside
    have opened : frames.length < s.room := by omega
    have shallow : frames.length + 1 + value.depth ≤ s.room := by omega
    have value' := acceptAll_value value constants subject (.dict [] key :: frames) shallow first
    rw [acceptAll_cons_of_ok (accept_openBrace opened),
      acceptAll_cons_of_ok (accept_firstKey key q), acceptAll_cons_of_ok (accept_colon [] key r),
      acceptAll_append_of_ok value']
    exact acceptAll_pairs pairs [(key, value)] constants subject frames (by omega) later

theorem acceptAll_items (items before : List Value) (constants : List Declaration)
    (subject : Subject) (frames : List Frame) {tokens : List PlacedToken}
    (depth : frames.length + 1 + itemsDepth items ≤ s.room)
    (written : Written (itemsMarks items) tokens) :
    s.acceptAll (.value constants subject ⟨frames, .nextItem before⟩) tokens =
      .ok (.ofProgress constants subject (.ofValue (.array (before ++ items)) frames)) := by
  match items with
  | [] =>
    obtain ⟨p, _, rfl, nothing⟩ := written.free
    obtain rfl := List.forall₂_nil_left_iff.mp nothing
    rw [acceptAll_cons_of_ok (accept_of_extend? rfl rfl), acceptAll_nil, List.append_nil]
  | item :: items =>
    rw [itemsDepth] at depth
    obtain ⟨p, _, rfl, inside⟩ := written.free
    obtain ⟨left, right, rfl, first, later⟩ := Written.split inside
    have shallow : frames.length + 1 + item.depth ≤ s.room := by omega
    have item' := acceptAll_value item constants subject (.array before :: frames) shallow first
    rw [acceptAll_cons_of_ok (accept_comma before p), acceptAll_append_of_ok item']
    have deeper : frames.length + 1 + itemsDepth items ≤ s.room := by omega
    have rest :=
      acceptAll_items items (before ++ [item]) constants subject frames deeper later
    rwa [List.append_assoc] at rest

theorem acceptAll_pairs (pairs before : List (String × Value)) (constants : List Declaration)
    (subject : Subject) (frames : List Frame) {tokens : List PlacedToken}
    (depth : frames.length + 1 + pairsDepth pairs ≤ s.room)
    (written : Written (pairsMarks pairs) tokens) :
    s.acceptAll (.value constants subject ⟨frames, .nextPair before⟩) tokens =
      .ok (.ofProgress constants subject (.ofValue (.dict (before ++ pairs)) frames)) := by
  match pairs with
  | [] =>
    obtain ⟨p, _, rfl, nothing⟩ := written.free
    obtain rfl := List.forall₂_nil_left_iff.mp nothing
    rw [acceptAll_cons_of_ok (accept_of_extend? rfl rfl), acceptAll_nil, List.append_nil]
  | (key, value) :: pairs =>
    rw [pairsDepth] at depth
    obtain ⟨p, _, rfl, named⟩ := written.free
    obtain ⟨q, _, rfl, parted⟩ := named.name
    obtain ⟨r, _, rfl, inside⟩ := parted.free
    obtain ⟨left, right, rfl, first, later⟩ := Written.split inside
    have shallow : frames.length + 1 + value.depth ≤ s.room := by omega
    have value' :=
      acceptAll_value value constants subject (.dict before key :: frames) shallow first
    rw [acceptAll_cons_of_ok (accept_semicolon before p),
      acceptAll_cons_of_ok (accept_nextKey before key q),
      acceptAll_cons_of_ok (accept_colon before key r), acceptAll_append_of_ok value']
    have deeper : frames.length + 1 + pairsDepth pairs ≤ s.room := by omega
    have rest :=
      acceptAll_pairs pairs (before ++ [(key, value)]) constants subject frames deeper later
    rwa [List.append_assoc] at rest

end

theorem acceptAll_declaration (d : Declaration) (constants : List Declaration)
    {tokens : List PlacedToken} (depth : d.value.depth ≤ s.room)
    (written : Written d.marks tokens) :
    s.acceptAll (.preamble constants) tokens = .ok (.preamble (constants ++ [d])) := by
  obtain ⟨p, _, rfl, named⟩ := written.free
  obtain ⟨rest, rfl, inside⟩ := named.placedName
  have name : s.accept (.keyword constants) ⟨.ofWord d.name, d.position⟩ =
      .ok (.value constants (.declaration d.name d.position) .start) := by
    apply accept_of_extend? (Token.opensContainer_ofWord d.name)
    simp [Draft.extend?, Token.asName?_ofWord]
  have shallow : ([] : List Frame).length + d.value.depth ≤ s.room := by simpa using depth
  have value' :=
    acceptAll_value d.value constants (.declaration d.name d.position) [] shallow inside
  rw [acceptAll_cons_of_ok (accept_of_extend? rfl rfl), acceptAll_cons_of_ok name]
  exact value'

theorem acceptAll_entry (e : Entry) (constants : List Declaration) {tokens : List PlacedToken}
    (depth : e.value.depth ≤ s.room)
    (written : Written e.marks tokens) :
    s.acceptAll (.preamble constants) tokens = .ok (.complete ⟨constants, e⟩) := by
  obtain ⟨p, rest, rfl, inside⟩ := written.name
  have shallow : ([] : List Frame).length + e.value.depth ≤ s.room := by simpa using depth
  have value' := acceptAll_value e.value constants (.entry e.name) [] shallow inside
  -- The keyword as a name is only told from a declaration by the token after it.
  by_cases keyword : e.name = "var"
  · have var : Token.ofWord e.name = .var := if_pos keyword
    rw [keyword] at value'
    rw [var, acceptAll_cons_of_ok (accept_of_extend? rfl rfl),
      acceptAll_of_accept_eq inside fun t => accept_keyword]
    rw [ValueDraft.start, value', ← keyword]
    rfl
  · have name : Token.ofWord e.name = .name e.name := if_neg keyword
    rw [name, acceptAll_cons_of_ok (accept_of_extend? rfl rfl)]
    exact value'

theorem acceptAll_preamble (declarations constants : List Declaration) {tokens : List PlacedToken}
    (depth : ∀ c ∈ declarations, c.value.depth ≤ s.room)
    (written : Written (declarations.flatMap Declaration.marks) tokens) :
    s.acceptAll (.preamble constants) tokens = .ok (.preamble (constants ++ declarations)) := by
  induction declarations generalizing constants tokens with
  | nil =>
    obtain rfl := List.forall₂_nil_left_iff.mp written
    rw [acceptAll_nil, List.append_nil]
  | cons d declarations ih =>
    rw [List.flatMap_cons] at written
    obtain ⟨left, right, rfl, first, later⟩ := written.split
    have declaration := acceptAll_declaration d constants (depth d (by simp)) first
    rw [acceptAll_append_of_ok declaration]
    have rest := ih (constants ++ [d])
      (fun c member => depth c (List.mem_cons_of_mem d member)) later
    rwa [List.append_assoc] at rest

theorem acceptAll_document {d : Document} {tokens : List PlacedToken} (within : d.Within s.room)
    (written : Written d.marks tokens) : s.acceptAll .start tokens = .ok (.complete d) := by
  obtain ⟨left, right, rfl, declared, entry⟩ := Written.split written
  rw [Draft.start, acceptAll_append_of_ok (acceptAll_preamble d.constants [] within.1 declared)]
  exact acceptAll_entry d.entry d.constants within.2 entry

end Session

end TypedConfig
