import TypedConfig.Entry.Markup
import TypedConfig.Markup.Reader
import TypedConfig.Proofs.Lexing.Lexemes

namespace TypedConfig.Markup

/-- Characters that end a name, a text or a tag, or that open a quote. -/
def specials : List Char := [' ', '\t', '\n', '\r', '<', '>', '/', '\'', '"']

def IsPlain (text : List Char) : Prop := ∀ c ∈ text, c ∉ specials

theorem isPlain_of_all {p : Char → Bool} (apart : specials.all (fun c => !p c) = true)
    {text : List Char} (h : ∀ c ∈ text, p c = true) : IsPlain text := by
  intro c member special
  have out := List.all_eq_true.mp apart c special
  rw [h c member] at out
  cases out

theorem isPlain_of_isWord {name : List Char} (word : Text.isWord name = true) : IsPlain name := by
  apply isPlain_of_all (p := Text.isWordCharacter) (by decide)
  cases name with
  | nil => cases word
  | cons first rest =>
    simp only [Text.isWord, Bool.and_eq_true, List.all_eq_true] at word
    exact List.forall_mem_cons.mpr ⟨Text.isWordCharacter_of_isAlpha word.1, word.2⟩

theorem isPlain_number (n : Int) : IsPlain (toString n).toList := by
  apply isPlain_of_all (p := fun c => c.isDigit || c = '-') (by decide)
  intro c member
  simpa using Lexeme.isDigit_or_minus_of_mem_toString member

theorem number_ne_nil (n : Int) : (toString n).toList ≠ [] := by
  rw [Int.toString_eq_repr, Int.repr_eq_if]
  split
  · rw [Nat.toList_repr]
    exact Nat.toDigits_ne_nil
  · rw [String.toList_append]
    exact List.append_ne_nil_of_left_ne_nil (by decide) _

namespace IsPlain

variable {text : List Char}

theorem not_mem {c : Char} (plain : IsPlain text) (special : c ∈ specials) : c ∉ text :=
  fun member => plain c member special

theorem not_blank (plain : IsPlain text) : ∀ c ∈ text, isBlank c = false := by
  intro c member
  have ordinary := plain c member
  simp only [specials, List.mem_cons, not_or] at ordinary
  simp [isBlank, ordinary]

theorem cutTag (plain : IsPlain text) (rest : List Char) :
    cutTag none (text ++ rest) =
      (cutTag none rest).map fun (before, after) => (text ++ before, after) := by
  induction text with
  | nil => simp
  | cons c text ih =>
    have ordinary := plain c (by simp)
    simp only [specials, List.mem_cons, not_or] at ordinary
    have later := ih fun c member => plain c (List.mem_cons_of_mem _ member)
    simp only [List.cons_append, Markup.cutTag]
    simp [ordinary, quoteAfter, later, Function.comp_def]

theorem trimEnd (plain : IsPlain text) : Piece.trimEnd text = text := by
  have kept : text.reverse.dropWhile isBlank = text.reverse := by
    cases h : text.reverse with
    | nil => rfl
    | cons c later =>
      have member : c ∈ text := List.mem_reverse.mp (by simp [h])
      simp [plain.not_blank c member]
  rw [Piece.trimEnd, kept, List.reverse_reverse]

end IsPlain

theorem cutTag_attribute (tag : Option Tag) (rest : List Char) :
    cutTag none (Tag.attribute tag ++ '>' :: rest) = some (Tag.attribute tag, rest) := by
  cases tag with
  | none => rfl
  | some tag => cases tag <;> rfl

theorem slash_not_mem_attribute (tag : Option Tag) : '/' ∉ Tag.attribute tag := by
  cases tag with
  | none => decide
  | some tag => cases tag <;> decide

theorem tagName_attribute (tag : Option Tag) : tagName (Tag.attribute tag) = [] := by
  cases tag <;> rfl

theorem IsPlain.tagName_append {name : List Char} (plain : IsPlain name) (tag : Option Tag) :
    tagName (name ++ Tag.attribute tag) = name := by
  have within : ∀ c ∈ name, (!isBlank c) = true := by
    intro c member
    rw [plain.not_blank c member]
    rfl
  have after := tagName_attribute tag
  unfold tagName at after ⊢
  rw [List.takeWhile_append_of_pos within, after, List.append_nil]

namespace Piece

theorem construct_of_isAlpha {c : Char} (letter : c.isAlpha = true) (rest : List Char) :
    construct (c :: rest) = tag (c :: rest) := by
  unfold construct
  split
  case h_4 => rfl
  all_goals
    rename_i eq
    cases eq
    cases letter

theorem construct_startTag {name : List Char} (word : Text.isWord name = true) (tag : Option Tag)
    (rest : List Char) :
    construct (name ++ Tag.attribute tag ++ '>' :: rest) =
      ⟨.ok (.startTag (name ++ Tag.attribute tag)), rest⟩ := by
  have plain := isPlain_of_isWord word
  have content : cutTag none (name ++ Tag.attribute tag ++ '>' :: rest) =
      some (name ++ Tag.attribute tag, rest) := by
    rw [List.append_assoc, plain.cutTag, cutTag_attribute]
    rfl
  have no_slash : (name ++ Tag.attribute tag).getLast? ≠ some '/' := by
    intro last
    rcases List.mem_append.mp (List.mem_of_getLast? last) with member | member
    · exact plain.not_mem (by decide) member
    · exact slash_not_mem_attribute tag member
  have as_tag : construct (name ++ Tag.attribute tag ++ '>' :: rest) =
      Piece.tag (name ++ Tag.attribute tag ++ '>' :: rest) := by
    cases name with
    | nil => cases word
    | cons c name =>
      simp only [Text.isWord, Bool.and_eq_true] at word
      exact construct_of_isAlpha word.1 _
  rw [as_tag]
  simp only [Piece.tag, content, if_neg no_slash]

theorem construct_endTag {name : List Char} (plain : IsPlain name) (rest : List Char) :
    construct ('/' :: (name ++ '>' :: rest)) = ⟨.ok (.endTag name), rest⟩ := by
  have content : cutTag none (name ++ '>' :: rest) = some (name, rest) := by
    have close : cutTag none ('>' :: rest) = some ([], rest) := rfl
    rw [plain.cutTag, close]
    simp
  simp only [construct, endTag, content, plain.trimEnd, ite_self]

theorem text_append {content : List Char} (plain : IsPlain content) (rest : List Char) :
    text (content ++ '<' :: rest) = ⟨.ok (.text content), '<' :: rest⟩ := by
  have within : ∀ c ∈ content, decide (c ≠ '<') = true := by
    intro c member
    have other : c ≠ '<' := fun eq => plain.not_mem (by decide) (eq ▸ member)
    simp [other]
  have taken : (content ++ '<' :: rest).takeWhile (· ≠ '<') = content := by
    rw [List.takeWhile_append_of_pos within]
    simp
  have left : (content ++ '<' :: rest).dropWhile (· ≠ '<') = '<' :: rest := by
    rw [List.dropWhile_append_of_pos within]
    simp
  rw [text, taken, left, plain.trimEnd]

end Piece

end TypedConfig.Markup
