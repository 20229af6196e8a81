import TypedConfig.Json
import TypedConfig.Proofs.Writing.Tags

namespace TypedConfig.JsonValue

def hexValue (c : Char) : Nat :=
  if c.isDigit then c.toNat - '0'.toNat else 10 + (c.toNat - 'a'.toNat)

/-- The first character that a text inside quotes stands for. None comes before the closing one. -/
def unescape? : List Char → Option (Char × List Char)
  | [] => none
  | '"' :: _ => none
  | '\\' :: 'b' :: rest => some ('\x08', rest)
  | '\\' :: 'f' :: rest => some ('\x0c', rest)
  | '\\' :: 'n' :: rest => some ('\n', rest)
  | '\\' :: 'r' :: rest => some ('\r', rest)
  | '\\' :: 't' :: rest => some ('\t', rest)
  | '\\' :: 'u' :: '0' :: '0' :: high :: low :: rest =>
    some (Char.ofNat (16 * hexValue high + hexValue low), rest)
  | '\\' :: c :: rest => some (c, rest)
  | c :: rest => some (c, rest)

theorem ofNat_hexValue {n : Nat} (h : n < 0x20) :
    16 * hexValue (Nat.digitChar (n / 16)) + hexValue (Nat.digitChar (n % 16)) = n := by
  revert n
  decide

theorem unescape?_escape (c : Char) (rest : List Char) :
    unescape? (escape c ++ rest) = some (c, rest) := by
  unfold escape
  iterate 7
    split
    · subst c
      rfl
  split
  · rename_i control
    show some (Char.ofNat _, rest) = some (c, rest)
    rw [ofNat_hexValue control, Char.ofNat_toNat]
  · rename_i quote backslash _ _ _ _ _ _
    show unescape? (c :: rest) = some (c, rest)
    unfold unescape?
    split <;> simp_all

theorem escape_append_inj {c d : Char} {rest rest' : List Char}
    (h : escape c ++ rest = escape d ++ rest') : c = d ∧ rest = rest' := by
  have same := unescape?_escape c rest
  rw [h, unescape?_escape, Option.some.injEq, Prod.mk.injEq] at same
  exact ⟨same.1.symm, same.2.symm⟩

theorem escape_append_ne (c : Char) (rest rest' : List Char) :
    escape c ++ rest ≠ '"' :: rest' := by
  intro h
  have same := unescape?_escape c rest
  rw [h] at same
  cases same

theorem flatMap_escape_append_inj {text text' : List Char} {rest rest' : List Char}
    (h : text.flatMap escape ++ '"' :: rest = text'.flatMap escape ++ '"' :: rest') :
    text = text' ∧ rest = rest' := by
  induction text generalizing text' with
  | nil =>
    cases text' with
    | nil => exact ⟨rfl, (List.cons.inj h).2⟩
    | cons d text' =>
      rw [List.flatMap_cons, List.append_assoc] at h
      exact absurd h.symm (escape_append_ne d _ _)
  | cons c text ih =>
    cases text' with
    | nil =>
      rw [List.flatMap_cons, List.append_assoc] at h
      exact absurd h (escape_append_ne c _ _)
    | cons d text' =>
      simp only [List.flatMap_cons, List.append_assoc] at h
      obtain ⟨rfl, later⟩ := escape_append_inj h
      obtain ⟨rfl, rest⟩ := ih later
      exact ⟨rfl, rest⟩

theorem quote_append_inj {s s' : String} {rest rest' : List Char}
    (h : quote s ++ rest = quote s' ++ rest') : s = s' ∧ rest = rest' := by
  simp only [quote, List.cons_append, List.append_assoc, List.nil_append, List.cons.injEq,
    true_and] at h
  obtain ⟨chars, rest⟩ := flatMap_escape_append_inj h
  exact ⟨String.toList_inj.mp chars, rest⟩

def isNumeric (c : Char) : Bool :=
  c.isDigit || c = '-'

def EndsNumber (rest : List Char) : Prop :=
  ∀ c ∈ rest.head?, isNumeric c = false

theorem endsNumber_nil : EndsNumber [] := by
  simp [EndsNumber]

theorem isNumeric_toString (n : Int) : ∀ c ∈ (toString n).toList, isNumeric c = true := by
  intro c member
  simpa [isNumeric] using Lexeme.isDigit_or_minus_of_mem_toString member

theorem takeWhile_toString (n : Int) {rest : List Char} (ends : EndsNumber rest) :
    ((toString n).toList ++ rest).takeWhile isNumeric = (toString n).toList := by
  rw [List.takeWhile_append_of_pos (isNumeric_toString n)]
  cases rest with
  | nil => simp
  | cons c rest => simp [ends c rfl]

theorem toString_append_inj {m n : Int} {rest rest' : List Char} (ends : EndsNumber rest)
    (ends' : EndsNumber rest') (h : (toString m).toList ++ rest = (toString n).toList ++ rest') :
    m = n ∧ rest = rest' := by
  have numbers : (toString m).toList = (toString n).toList := by
    rw [← takeWhile_toString m ends, h, takeWhile_toString n ends']
  have value : m = n := by
    rw [← Lexeme.signedValue_toString m, numbers, Lexeme.signedValue_toString]
  rw [numbers] at h
  exact ⟨value, List.append_cancel_left h⟩

/-- The kinds of trees, told by the first character of a text; closing brackets and line breaks
begin no tree. -/
inductive Opening where
  | null
  | int
  | string
  | array
  | object
  | none
deriving DecidableEq

def Opening.of (c : Char) : Opening :=
  if c = 'n' then null
  else if c = '"' then string
  else if c = '[' then array
  else if c = '\x7b' then object
  else if isNumeric c then int
  else none

def opening : JsonValue → Opening
  | null => .null
  | int _ => .int
  | string _ => .string
  | array _ => .array
  | object _ => .object

theorem opening_of_isNumeric {c : Char} (h : isNumeric c = true) : Opening.of c = .int := by
  have apart : c ≠ 'n' ∧ c ≠ '"' ∧ c ≠ '[' ∧ c ≠ '\x7b' := by
    refine ⟨?_, ?_, ?_, ?_⟩ <;> rintro rfl <;> cases h
  simp [Opening.of, apart, h]

variable {layout : JsonLayout} {level : Nat}

theorem exists_render_cons (j : JsonValue) (layout : JsonLayout) (level : Nat) :
    ∃ c text, j.render layout level = c :: text ∧ Opening.of c = j.opening := by
  match j with
  | null => exact ⟨'n', _, rfl, rfl⟩
  | int n =>
    have numeric := isNumeric_toString n
    obtain ⟨c, text, written⟩ := List.exists_cons_of_ne_nil (Markup.number_ne_nil n)
    rw [written] at numeric
    exact ⟨c, text, written, opening_of_isNumeric (numeric c List.mem_cons_self)⟩
  | string s => exact ⟨'"', _, rfl, rfl⟩
  | array [] => exact ⟨'[', _, rfl, rfl⟩
  | array (_ :: _) => exact ⟨'[', _, rfl, rfl⟩
  | object [] => exact ⟨'\x7b', _, rfl, rfl⟩
  | object ((_, _) :: _) => exact ⟨'\x7b', _, rfl, rfl⟩

theorem opening_eq {j j' : JsonValue} {rest rest' : List Char}
    (h : j.render layout level ++ rest = j'.render layout level ++ rest') :
    j.opening = j'.opening := by
  obtain ⟨c, text, written, kind⟩ := j.exists_render_cons layout level
  obtain ⟨c', text', written', kind'⟩ := j'.exists_render_cons layout level
  rw [written, written'] at h
  rw [← kind, ← kind', (List.cons.inj h).1]

theorem endsNumber_lineBreak {c : Char} (h : isNumeric c = false) (rest : List Char) :
    EndsNumber (layout.lineBreak level ++ c :: rest) := by
  intro d first
  cases layout <;> cases first
  · exact h
  · rfl

theorem endsNumber_renderItems (items : List JsonValue) (rest : List Char) :
    EndsNumber (renderItems layout level items ++ rest) := by
  cases items with
  | nil =>
    rw [renderItems, List.append_assoc]
    exact endsNumber_lineBreak rfl _
  | cons item items =>
    intro c first
    cases first
    rfl

theorem endsNumber_renderMembers (members : List (String × JsonValue)) (rest : List Char) :
    EndsNumber (renderMembers layout level members ++ rest) := by
  match members with
  | [] =>
    rw [renderMembers, List.append_assoc]
    exact endsNumber_lineBreak rfl _
  | (name, value) :: members =>
    intro c first
    cases first
    rfl

theorem array_nil_ne_cons (item : JsonValue) (items : List JsonValue) (rest rest' : List Char) :
    (array []).render layout level ++ rest ≠ (array (item :: items)).render layout level ++ rest' := by
  intro h
  simp only [render, List.cons_append, List.nil_append, List.append_assoc, List.cons.injEq,
    true_and] at h
  cases layout with
  | compact =>
    obtain ⟨c, text, written, kind⟩ := item.exists_render_cons .compact (level + 1)
    rw [written] at h
    obtain rfl : ']' = c := (List.cons.inj h).1
    cases item <;> cases kind
  | indented => cases h

theorem object_nil_ne_cons (member : String × JsonValue) (members : List (String × JsonValue))
    (rest rest' : List Char) :
    (object []).render layout level ++ rest ≠
      (object (member :: members)).render layout level ++ rest' := by
  obtain ⟨name, value⟩ := member
  intro h
  simp only [render, List.cons_append, List.nil_append, List.append_assoc, List.cons.injEq,
    true_and] at h
  cases layout <;> cases h

theorem renderItems_nil_ne_cons (item : JsonValue) (items : List JsonValue)
    (rest rest' : List Char) :
    renderItems layout level [] ++ rest ≠ renderItems layout level (item :: items) ++ rest' := by
  intro h
  cases layout <;> cases h

theorem renderMembers_nil_ne_cons (member : String × JsonValue)
    (members : List (String × JsonValue)) (rest rest' : List Char) :
    renderMembers layout level [] ++ rest ≠
      renderMembers layout level (member :: members) ++ rest' := by
  obtain ⟨name, value⟩ := member
  intro h
  cases layout <;> cases h

mutual

theorem render_append_inj (layout : JsonLayout) (level : Nat) (j j' : JsonValue)
    {rest rest' : List Char} (ends : EndsNumber rest) (ends' : EndsNumber rest')
    (h : j.render layout level ++ rest = j'.render layout level ++ rest') :
    j = j' ∧ rest = rest' := by
  match j, j' with
  | null, null => exact ⟨rfl, List.append_cancel_left h⟩
  | int m, int n =>
    obtain ⟨same, rest⟩ := toString_append_inj ends ends' h
    exact ⟨by rw [same], rest⟩
  | string s, string s' =>
    obtain ⟨same, rest⟩ := quote_append_inj h
    exact ⟨by rw [same], rest⟩
  | array [], array [] => exact ⟨rfl, List.append_cancel_left h⟩
  | array [], array (item :: items) => exact absurd h (array_nil_ne_cons item items _ _)
  | array (item :: items), array [] => exact absurd h.symm (array_nil_ne_cons item items _ _)
  | array (item :: items), array (item' :: items') =>
    simp only [render, List.cons_append, List.append_assoc, List.cons.injEq, true_and] at h
    obtain ⟨rfl, later⟩ := render_append_inj layout (level + 1) item item'
      (endsNumber_renderItems _ _) (endsNumber_renderItems _ _) (List.append_cancel_left h)
    obtain ⟨rfl, rest⟩ := renderItems_append_inj layout level items items' later
    exact ⟨rfl, rest⟩
  | object [], object [] => exact ⟨rfl, List.append_cancel_left h⟩
  | object [], object (member :: members) => exact absurd h (object_nil_ne_cons member members _ _)
  | object (member :: members), object [] =>
    exact absurd h.symm (object_nil_ne_cons member members _ _)
  | object ((name, value) :: members), object ((name', value') :: members') =>
    simp only [render, List.cons_append, List.append_assoc, List.cons.injEq, true_and] at h
    obtain ⟨rfl, inside⟩ := quote_append_inj (List.append_cancel_left h)
    obtain ⟨rfl, later⟩ := render_append_inj layout (level + 1) value value'
      (endsNumber_renderMembers _ _) (endsNumber_renderMembers _ _) (List.append_cancel_left inside)
    obtain ⟨rfl, rest⟩ := renderMembers_append_inj layout level members members' later
    exact ⟨rfl, rest⟩
  -- Trees of two kinds differ in the first character.
  | null, int _ | null, string _ | null, array _ | null, object _ | int _, null | int _, string _
  | int _, array _ | int _, object _ | string _, null | string _, int _ | string _, array _
  | string _, object _ | array _, null | array _, int _ | array _, string _ | array _, object _
  | object _, null | object _, int _ | object _, string _ | object _, array _ =>
    cases opening_eq h

theorem renderItems_append_inj (layout : JsonLayout) (level : Nat) (items items' : List JsonValue)
    {rest rest' : List Char}
    (h : renderItems layout level items ++ rest = renderItems layout level items' ++ rest') :
    items = items' ∧ rest = rest' := by
  match items, items' with
  | [], [] => exact ⟨rfl, List.append_cancel_left h⟩
  | [], item :: items => exact absurd h (renderItems_nil_ne_cons item items _ _)
  | item :: items, [] => exact absurd h.symm (renderItems_nil_ne_cons item items _ _)
  | item :: items, item' :: items' =>
    simp only [renderItems, List.cons_append, List.append_assoc, List.cons.injEq, true_and] at h
    obtain ⟨rfl, later⟩ := render_append_inj layout (level + 1) item item'
      (endsNumber_renderItems _ _) (endsNumber_renderItems _ _) (List.append_cancel_left h)
    obtain ⟨rfl, rest⟩ := renderItems_append_inj layout level items items' later
    exact ⟨rfl, rest⟩

theorem renderMembers_append_inj (layout : JsonLayout) (level : Nat)
    (members members' : List (String × JsonValue)) {rest rest' : List Char}
    (h : renderMembers layout level members ++ rest =
      renderMembers layout level members' ++ rest') :
    members = members' ∧ rest = rest' := by
  match members, members' with
  | [], [] => exact ⟨rfl, List.append_cancel_left h⟩
  | [], member :: members => exact absurd h (renderMembers_nil_ne_cons member members _ _)
  | member :: members, [] => exact absurd h.symm (renderMembers_nil_ne_cons member members _ _)
  | (name, value) :: members, (name', value') :: members' =>
    simp only [renderMembers, List.cons_append, List.append_assoc, List.cons.injEq, true_and] at h
    obtain ⟨rfl, inside⟩ := quote_append_inj (List.append_cancel_left h)
    obtain ⟨rfl, later⟩ := render_append_inj layout (level + 1) value value'
      (endsNumber_renderMembers _ _) (endsNumber_renderMembers _ _) (List.append_cancel_left inside)
    obtain ⟨rfl, rest⟩ := renderMembers_append_inj layout level members members' later
    exact ⟨rfl, rest⟩

end

end TypedConfig.JsonValue
