import Mathlib.Data.List.DropRight
import TypedConfig.Proofs.Writing.Events

namespace TypedConfig.Markup

variable {mark text before after name tail : List Char} {quote : Option Char}

theorem cutAt_append (ne : mark ≠ []) (h : cutAt mark text = some (before, after))
    (rest : List Char) : cutAt mark (before ++ mark ++ rest) = some (before, rest) := by
  induction text generalizing before with
  | nil => cases h
  | cons c text ih =>
    unfold cutAt at h
    split at h
    · cases h
      obtain ⟨m, ms, rfl⟩ := List.exists_cons_of_ne_nil ne
      simp [cutAt]
    · rename_i none_here
      obtain ⟨⟨before, after⟩, later, same⟩ := Option.map_eq_some_iff.mp h
      cases same
      have still_none : ¬ mark.isPrefixOf (c :: (before ++ mark ++ rest)) = true := by
        -- A mark at the start would end no later than the first mark of the old text.
        intro here
        apply none_here
        rw [List.isPrefixOf_iff_prefix] at here ⊢
        have within : mark <+: c :: (before ++ mark) := by
          apply List.prefix_of_prefix_length_le here ⟨rest, rfl⟩
          simp only [List.length_cons, List.length_append]
          omega
        rw [eq_of_cutAt later]
        exact within.trans ⟨after, rfl⟩
      simp only [List.cons_append]
      rw [cutAt, if_neg still_none, ih later]
      rfl

/-- The first character of a tag is passed over when it does not end the tag. -/
theorem cutTag_eq_cons_iff {c : Char} :
    cutTag quote text = some (c :: before, after) ↔ ∃ rest, text = c :: rest ∧
      ¬ (quote = none ∧ c = '>') ∧ cutTag (quoteAfter quote c) rest = some (before, after) := by
  cases text with
  | nil => simp [cutTag]
  | cons d rest =>
    rw [cutTag]
    split
    · rename_i closes
      simp only [List.cons.injEq, Option.some.injEq, Prod.mk.injEq, reduceCtorEq, false_and,
        false_iff, not_exists]
      intro rest' same
      obtain ⟨⟨rfl, -⟩, other, -⟩ := same
      exact other closes
    · rename_i other
      simp only [Option.map_eq_some_iff, Prod.mk.injEq, List.cons.injEq]
      constructor
      · intro h
        obtain ⟨⟨_, _⟩, later, ⟨rfl, rfl⟩, rfl⟩ := h
        exact ⟨rest, ⟨rfl, rfl⟩, other, later⟩
      · intro h
        obtain ⟨_, ⟨rfl, rfl⟩, -, later⟩ := h
        exact ⟨_, later, ⟨rfl, rfl⟩, rfl⟩

theorem quote_of_cutTag_nil (h : cutTag quote text = some ([], after)) : quote = none := by
  cases text with
  | nil => cases h
  | cons c text =>
    rw [cutTag] at h
    split at h
    · rename_i closes
      exact closes.1
    · obtain ⟨_, -, same⟩ := Option.map_eq_some_iff.mp h
      cases same

theorem cutTag_append (h : cutTag quote text = some (before, after)) (more : List Char) :
    cutTag quote (before ++ more) =
      (cutTag none more).map fun (first, rest) => (before ++ first, rest) := by
  induction before generalizing quote text with
  | nil =>
    rw [quote_of_cutTag_nil h]
    simp
  | cons c before ih =>
    obtain ⟨rest, -, passed, later⟩ := cutTag_eq_cons_iff.mp h
    rw [List.cons_append, cutTag, if_neg passed, ih later, Option.map_map]
    rfl

theorem quoteAfter_of_isBlank {c : Char} (blank : isBlank c = true)
    (visible : ∀ q ∈ quote, isBlank q = false) : quoteAfter quote c = quote := by
  cases quote with
  | none =>
    rw [quoteAfter, if_neg]
    rintro (rfl | rfl) <;> cases blank
  | some q =>
    rw [quoteAfter, if_neg]
    rintro rfl
    rw [visible c rfl] at blank
    cases blank

theorem visible_quoteAfter (visible : ∀ q ∈ quote, isBlank q = false) (c : Char) :
    ∀ q ∈ quoteAfter quote c, isBlank q = false := by
  unfold quoteAfter
  split
  · split
    · rename_i quotes
      rintro q ⟨⟩
      rcases quotes with rfl | rfl <;> rfl
    · simp
  · split
    · simp
    · exact visible

/-- Blanks at the end of a tag are no part of a quotation, so it can be cut before them. -/
theorem cutTag_of_append_blanks (visible : ∀ q ∈ quote, isBlank q = false)
    (blank : ∀ c ∈ tail, isBlank c = true) (h : cutTag quote text = some (name ++ tail, after))
    (rest : List Char) : cutTag quote (name ++ '>' :: rest) = some (name, rest) := by
  induction name generalizing quote text with
  | cons c name ih =>
    obtain ⟨later_text, -, passed, later⟩ := cutTag_eq_cons_iff.mp h
    rw [List.cons_append, cutTag, if_neg passed, ih (visible_quoteAfter visible c) later]
    rfl
  | nil =>
    have unquoted : quote = none := by
      induction tail generalizing text with
      | nil => exact quote_of_cutTag_nil h
      | cons c tail ih =>
        obtain ⟨later_text, -, -, later⟩ := cutTag_eq_cons_iff.mp h
        obtain ⟨c_blank, blank⟩ := List.forall_mem_cons.mp blank
        rw [quoteAfter_of_isBlank c_blank visible] at later
        exact ih blank later
    rw [unquoted]
    rfl

end TypedConfig.Markup

namespace TypedConfig.Markup

variable {content first second tail rest : List Char} {c : Char}

theorem trimEnd_trimEnd (content : List Char) :
    Piece.trimEnd (Piece.trimEnd content) = Piece.trimEnd content :=
  List.rdropWhile_idempotent isBlank content

theorem exists_trimEnd_append (content : List Char) :
    ∃ tail, content = Piece.trimEnd content ++ tail ∧ ∀ c ∈ tail, isBlank c = true := by
  refine ⟨(content.reverse.takeWhile isBlank).reverse, ?_, ?_⟩
  · rw [Piece.trimEnd, ← List.reverse_append, List.takeWhile_append_dropWhile, List.reverse_reverse]
  · intro c member
    exact List.mem_takeWhile_imp (List.mem_reverse.mp member)

structure IsRun (content : List Char) : Prop where
  ne : content ≠ []
  inside : ∀ c ∈ content, c ≠ '<'
  first : ∀ c ∈ content.head?, isBlank c = false
  last : ∀ c ∈ content.getLast?, isBlank c = false

namespace IsRun

theorem append (before : IsRun first) (after : IsRun second) : IsRun (first ++ second) where
  ne := List.append_ne_nil_of_left_ne_nil before.ne second
  inside := List.forall_mem_append.mpr ⟨before.inside, after.inside⟩
  first := by
    rw [List.head?_append_of_ne_nil _ before.ne]
    exact before.first
  last := by
    rw [List.getLast?_append_of_ne_nil _ after.ne]
    exact after.last

theorem trimEnd_append (run : IsRun content) (blank : ∀ c ∈ tail, isBlank c = true) :
    Piece.trimEnd (content ++ tail) = content := by
  have dropped : (content.reverse).dropWhile isBlank = content.reverse := by
    cases reversed : content.reverse with
    | nil => rfl
    | cons c later =>
      have final : content.getLast? = some c := by
        rw [← List.head?_reverse, reversed]
        rfl
      rw [List.dropWhile_cons_of_neg (by simp [run.last c final])]
  have skipped : ∀ c ∈ tail.reverse, isBlank c = true := by
    intro c member
    exact blank c (List.mem_reverse.mp member)
  rw [Piece.trimEnd, List.reverse_append, List.dropWhile_append_of_pos skipped, dropped,
    List.reverse_reverse]

end IsRun

theorem isRun_trimEnd (visible : isBlank c = false) (inside : ∀ d ∈ c :: rest, d ≠ '<') :
    IsRun (Piece.trimEnd (c :: rest)) := by
  obtain ⟨tail, whole, blank⟩ := exists_trimEnd_append (c :: rest)
  have ne : Piece.trimEnd (c :: rest) ≠ [] := by
    intro none
    rw [none, List.nil_append] at whole
    rw [blank c (whole ▸ List.mem_cons_self)] at visible
    cases visible
  refine ⟨ne, ?_, ?_, ?_⟩
  · intro d member
    apply inside d
    rw [whole]
    exact List.mem_append_left tail member
  · intro d first
    have head : (c :: rest).head? = some d := by
      rw [whole, List.head?_append_of_ne_nil _ ne]
      exact first
    cases head
    exact visible
  · intro d last
    rw [List.getLast?_eq_some_getLast ne] at last
    cases last
    exact Bool.eq_false_iff.mpr (List.rdropWhile_last_not isBlank (c :: rest) ne)

namespace Piece

theorem isRun_of_text (other : c ≠ '<') (visible : isBlank c = false) :
    ∃ content, (text (c :: rest)).reading = .ok (.text content) ∧ IsRun content := by
  refine ⟨_, rfl, ?_⟩
  rw [List.takeWhile_cons_of_pos (by simp [other])]
  apply isRun_trimEnd visible
  intro d member
  rcases List.mem_cons.mp member with rfl | later
  · exact other
  · simpa using List.mem_takeWhile_imp later

theorem text_of_run (run : IsRun content) (blank : ∀ c ∈ tail, isBlank c = true)
    (ends : rest = [] ∨ ∃ inner, rest = '<' :: inner) :
    text (content ++ (tail ++ rest)) = ⟨.ok (.text content), rest⟩ := by
  have within : ∀ c ∈ content ++ tail, decide (c ≠ '<') = true := by
    intro c member
    rcases List.mem_append.mp member with here | later
    · simp [run.inside c here]
    · have : c ≠ '<' := by
        rintro rfl
        cases blank _ later
      simp [this]
  have taken : rest.takeWhile (· ≠ '<') = [] := by
    rcases ends with rfl | ⟨inner, rfl⟩ <;> simp
  have left : rest.dropWhile (· ≠ '<') = rest := by
    rcases ends with rfl | ⟨inner, rfl⟩ <;> simp
  rw [text, ← List.append_assoc, List.takeWhile_append_of_pos within,
    List.dropWhile_append_of_pos within, taken, left, List.append_nil, run.trimEnd_append blank]

end Piece

end TypedConfig.Markup
