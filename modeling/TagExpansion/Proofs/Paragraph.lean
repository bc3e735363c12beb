import TagExpansion.Markup.Paragraph

/-
This file says how the paragraphs of a text are read.

At every character there either starts a separator, and then a paragraph ends there, or the
character belongs to the paragraph that follows. A separator starts with a blank. So characters
that are not blank stay together, whatever follows them.
-/

namespace TagExpansion.Markup

/-! ### Blank lines -/

theorem afterBlankLine?_eq_some_iff {text rest : Text} :
    afterBlankLine? text = some rest ↔
      text.dropWhile isIndent = '\n' :: rest ∨ text.dropWhile isIndent = '\r' :: '\n' :: rest := by
  unfold afterBlankLine?
  split
  · rename_i unindented
    simp [unindented]
  · rename_i unindented
    simp [unindented]
  · rename_i isFeed isReturn
    simp only [reduceCtorEq, false_iff, not_or]
    exact ⟨isFeed rest, isReturn rest⟩

theorem afterBlankLines_of_eq_some {text rest : Text} (found : afterBlankLine? text = some rest) :
    afterBlankLines text = afterBlankLines rest := by
  rw [afterBlankLines]
  split
  · rename_i other
    rw [found] at other
    cases other
    rfl
  · rename_i missing
    rw [found] at missing
    cases missing

theorem afterBlankLines_of_eq_none {text : Text} (missing : afterBlankLine? text = none) :
    afterBlankLines text = text := by
  rw [afterBlankLines]
  split
  · rename_i found
    rw [missing] at found
    cases found
  · rfl

/-! ### Paragraphs -/

theorem paragraphs_of_eq_some {c : Char} {rest after : Text}
    (found : afterSeparator? (c :: rest) = some after) :
    paragraphs (c :: rest) = [] :: paragraphs after := by
  rw [paragraphs]
  split
  · rename_i other
    rw [found] at other
    cases other
    rfl
  · rename_i missing
    rw [found] at missing
    cases missing

theorem paragraphs_of_eq_none {c : Char} {rest : Text}
    (missing : afterSeparator? (c :: rest) = none) :
    paragraphs (c :: rest) = Text.pushFirst c (paragraphs rest) := by
  rw [paragraphs]
  split
  · rename_i found
    rw [missing] at found
    cases found
  · rfl

/-- No separator starts with a character that is not blank. -/
theorem afterSeparator?_cons_of_solid {c : Char} (solid : Text.isBlank c = false) (rest : Text) :
    afterSeparator? (c :: rest) = none := by
  have indent : ¬isIndent c = true := by
    intro indent
    simp only [isIndent, Bool.or_eq_true, beq_iff_eq] at indent
    rcases indent with rfl | rfl
    · cases solid
    · cases solid
  have missing : afterBlankLine? (c :: rest) = none := by
    refine Option.eq_none_iff_forall_ne_some.mpr fun after found => ?_
    rw [afterBlankLine?_eq_some_iff, List.dropWhile_cons_of_neg indent] at found
    rcases found with same | same
    · cases same
      cases solid
    · cases same
      cases solid
  rw [afterSeparator?, missing]
  rfl

/-- Characters that are not blank belong to the first paragraph of what follows them. -/
theorem paragraphs_append_of_solid {word rest first : Text} {others : List Text}
    (solid : ∀ c ∈ word, Text.isBlank c = false) (split : paragraphs rest = first :: others) :
    paragraphs (word ++ rest) = (word ++ first) :: others := by
  induction word with
  | nil => exact split
  | cons c word inductionHypothesis =>
    rw [List.cons_append, paragraphs_of_eq_none
      (afterSeparator?_cons_of_solid (solid c List.mem_cons_self) _),
      inductionHypothesis fun d member => solid d (List.mem_cons_of_mem c member)]
    rfl

theorem exists_paragraphs_eq_cons (text : Text) :
    ∃ first others, paragraphs text = first :: others := by
  fun_induction paragraphs text with
  | case1 => exact ⟨_, _, rfl⟩
  | case2 c rest after found inductionHypothesis => exact ⟨_, _, rfl⟩
  | case3 c rest missing inductionHypothesis =>
    obtain ⟨first, others, split⟩ := inductionHypothesis
    exact ⟨c :: first, others, by rw [split]; rfl⟩

end TagExpansion.Markup
