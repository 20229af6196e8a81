import TypedConfig.Markup.Event

namespace TypedConfig.Markup

structure Piece where
  reading : Except Fault Event
  rest : List Char

namespace Piece

def trimEnd (content : List Char) : List Char :=
  (content.reverse.dropWhile isBlank).reverse

def unclosed (fault : Fault) : Piece := ⟨.error fault, []⟩

def cdata (rest : List Char) : Piece :=
  match cutAt [']', ']', '>'] rest with
  | none => unclosed .unclosedCdata
  | some (inner, after) =>
    match "CDATA[".toList.isPrefixOf inner with
    | true => ⟨.ok (.cdata (inner.drop 6)), after⟩
    | false => ⟨.error .unclosedCdata, after⟩

/-- A comment, of which `<!-` has been read. Its end is looked for after the second hyphen. -/
def comment : List Char → Piece
  | [] => unclosed .unclosedComment
  | hyphen :: rest =>
    match cutAt ['-', '-', '>'] rest with
    | none => unclosed .unclosedComment
    | some (content, after) =>
      if hyphen = '-' then ⟨.ok (.comment content), after⟩ else ⟨.error .unclosedComment, after⟩

def doctype (rest : List Char) : Piece :=
  match cutBalanced 0 rest with
  | none => unclosed .unclosedDoctype
  | some (inner, after) =>
    if (inner.take 7).map Char.toUpper = "DOCTYPE".toList then
      match (inner.drop 7).dropWhile isBlank with
      | [] => ⟨.error .unnamedDoctype, after⟩
      | content => ⟨.ok (.doctype content), after⟩
    else ⟨.error .unclosedDoctype, after⟩

def bang (rest : List Char) : Piece :=
  match rest with
  | '[' :: rest => cdata rest
  | '-' :: rest => comment rest
  | 'D' :: _ | 'd' :: _ => doctype rest
  | rest => ⟨.error .unknownMarkup, '!' :: rest⟩

def isDeclaration (content : List Char) : Bool :=
  tagName content = ['x', 'm', 'l']

/-- An instruction, of which `<?` has been read. Its end needs a question mark of its own. -/
def instruction (rest : List Char) : Piece :=
  match rest with
  | '>' :: after => ⟨.error .unclosedInstruction, after⟩
  | rest =>
    match cutAt ['?', '>'] rest with
    | none => unclosed .unclosedInstruction
    | some (content, after) =>
      if isDeclaration content then ⟨.ok (.declaration content), after⟩
      else ⟨.ok (.instruction content), after⟩

def endTag (rest : List Char) : Piece :=
  match cutTag none rest with
  | none => unclosed .unclosedTag
  | some (content, after) =>
    let name := trimEnd content
    ⟨.ok (.endTag (if name.isEmpty then content else name)), after⟩

def tag (rest : List Char) : Piece :=
  match cutTag none rest with
  | none => unclosed .unclosedTag
  | some (content, after) =>
    if content.getLast? = some '/' then ⟨.ok (.emptyTag content.dropLast), after⟩
    else ⟨.ok (.startTag content), after⟩

def construct (rest : List Char) : Piece :=
  match rest with
  | '!' :: rest => bang rest
  | '?' :: rest => instruction rest
  | '/' :: rest => endTag rest
  | rest => tag rest

def text (rest : List Char) : Piece :=
  ⟨.ok (.text (trimEnd (rest.takeWhile (· ≠ '<')))), rest.dropWhile (· ≠ '<')⟩

theorem length_cdata_le (rest : List Char) : (cdata rest).rest.length ≤ rest.length := by
  unfold cdata
  split
  · exact Nat.zero_le _
  · rename_i hcut
    have := congrArg List.length (eq_of_cutAt hcut)
    split <;> simp_all <;> omega

theorem length_comment_le (rest : List Char) : (comment rest).rest.length ≤ rest.length := by
  unfold comment
  split
  · exact Nat.zero_le _
  split
  · exact Nat.zero_le _
  · rename_i hcut
    have := congrArg List.length (eq_of_cutAt hcut)
    split <;> simp_all <;> omega

theorem length_doctype_le (rest : List Char) : (doctype rest).rest.length ≤ rest.length := by
  unfold doctype
  split
  · exact Nat.zero_le _
  · rename_i hcut
    have := congrArg List.length (eq_of_cutBalanced hcut)
    repeat' split
    all_goals
      simp_all
      omega

theorem length_bang_le (rest : List Char) : (bang rest).rest.length ≤ rest.length + 1 := by
  unfold bang
  split
  · rename_i rest
    have := length_cdata_le rest
    simp only [List.length_cons]
    omega
  · rename_i rest
    have := length_comment_le rest
    simp only [List.length_cons]
    omega
  · exact Nat.le_succ_of_le (length_doctype_le _)
  · exact Nat.le_succ_of_le (length_doctype_le _)
  · simp

theorem length_instruction_le (rest : List Char) :
    (instruction rest).rest.length ≤ rest.length := by
  unfold instruction
  split
  · simp
  split
  · exact Nat.zero_le _
  · rename_i hcut
    have := congrArg List.length (eq_of_cutAt hcut)
    split <;> simp_all <;> omega

theorem length_endTag_le (rest : List Char) : (endTag rest).rest.length ≤ rest.length := by
  unfold endTag
  split
  · exact Nat.zero_le _
  · rename_i hcut
    have := congrArg List.length (eq_of_cutTag hcut)
    simp_all
    omega

theorem length_tag_le (rest : List Char) : (tag rest).rest.length ≤ rest.length := by
  unfold tag
  split
  · exact Nat.zero_le _
  · rename_i hcut
    have := congrArg List.length (eq_of_cutTag hcut)
    split <;> simp_all <;> omega

theorem length_construct_le (rest : List Char) : (construct rest).rest.length ≤ rest.length := by
  unfold construct
  split
  · exact length_bang_le _
  · exact Nat.le_succ_of_le (length_instruction_le _)
  · exact Nat.le_succ_of_le (length_endTag_le _)
  · exact length_tag_le _

theorem length_text_lt {c : Char} (rest : List Char) (h : c ≠ '<') :
    (text (c :: rest)).rest.length < (c :: rest).length := by
  have := (List.dropWhile_suffix (fun c => decide (c ≠ '<')) (l := rest)).length_le
  simp only [text, List.dropWhile_cons, h, ne_eq, not_false_eq_true, decide_true, ↓reduceIte,
    List.length_cons]
  simp only [ne_eq] at this
  omega

end Piece

/-- The names of the open elements after an event, when `names` were open before it, the innermost
first. -/
def Event.nest (names : List (List Char)) : Event → Except Fault (List (List Char))
  | startTag content => .ok (tagName content :: names)
  | endTag found =>
    match names with
    | [] => .error (.unmatchedEnd found)
    | expected :: names =>
      if expected = found then .ok names else .error (.mismatchedEnd expected found)
  | _ => .ok names

structure Reader where
  rest : List Char
  names : List (List Char)

namespace Reader

def piece? (r : Reader) : Option Piece :=
  match r.rest.dropWhile isBlank with
  | [] => none
  | '<' :: rest => some (Piece.construct rest)
  | c :: rest => some (Piece.text (c :: rest))

/-- The next event and the reader after it; `none` at the end of the text. A fault comes with what
is left of the text after it. -/
def next (r : Reader) : Option (Except (Fault × List Char) (Event × Reader)) :=
  r.piece?.map fun piece =>
    match piece.reading with
    | .error fault => .error (fault, piece.rest)
    | .ok event =>
      match event.nest r.names with
      | .error fault => .error (fault, piece.rest)
      | .ok names => .ok (event, ⟨piece.rest, names⟩)

theorem length_piece_lt {r : Reader} {piece : Piece} (h : r.piece? = some piece) :
    piece.rest.length < r.rest.length := by
  have skipped := (List.dropWhile_suffix isBlank (l := r.rest)).length_le
  unfold piece? at h
  split at h
  · cases h
  · rename_i rest hr
    cases h
    have := Piece.length_construct_le rest
    rw [hr, List.length_cons] at skipped
    omega
  · rename_i c rest hc hr
    cases h
    have ne : c ≠ '<' := fun eq => hc eq
    have := Piece.length_text_lt rest ne
    rw [hr] at skipped
    omega

theorem length_next_lt {r after : Reader} {event : Event}
    (h : r.next = some (.ok (event, after))) : after.rest.length < r.rest.length := by
  obtain ⟨piece, hpiece, hnext⟩ := Option.map_eq_some_iff.1 h
  have := length_piece_lt hpiece
  split at hnext
  · cases hnext
  split at hnext
  · cases hnext
  · cases hnext
    exact this

end Reader

structure EventScan where
  events : List Event
  fault : Option (Fault × List Char)

def EventScan.cons (e : Event) (s : EventScan) : EventScan :=
  ⟨e :: s.events, s.fault⟩

def Reader.scan (r : Reader) : EventScan :=
  match _h : r.next with
  | none => ⟨[], none⟩
  | some (.error fault) => ⟨[], some fault⟩
  | some (.ok (event, after)) => after.scan.cons event
termination_by r.rest.length
decreasing_by exact length_next_lt ‹_›

def withoutMark : List Char → List Char
  | '\ufeff' :: text => text
  | text => text

def EventScan.ofText (text : List Char) : EventScan :=
  (Reader.mk (withoutMark text) []).scan

end TypedConfig.Markup
