import TagExpansion.Proofs.BlankLines

/-
This file proves that a text falls into paragraphs in one way only.

A separator is a run of blank lines that is part of no longer run. It depends on what stands around
it, also on the blanks and the carriage return in front of it. The reader looks for a run from left
to right and takes each as long as it can be, and it is to be shown that the runs that it takes are
separators and that it passes over none.

Both follow from how runs can overlap. Where a run begins inside of another or directly behind it,
both together are one run. So what is read in front of a separator is not changed by it, and a text
is read like the text in front of a separator and then the text behind it.
-/

namespace TagExpansion.Markup

/-! ### Separators -/

/-- A run of blank lines between two texts that is part of no longer one. -/
structure Separator (front run back : Text) : Prop where
  isRun : BlankRun run
  longest : ∀ left right, left <:+ front → right <+: back → BlankRun (left ++ run ++ right) →
    left = [] ∧ right = []

/-- A text without a run of blank lines in it. -/
def Unbroken (text : Text) : Prop := ∀ run, BlankRun run → ¬run <:+: text

/-- A text that stands behind `front` consists of unbroken parts and separators between them. -/
inductive Division : (front text : Text) → (parts : List Text) → Prop where
  | last {front part : Text} (unbroken : Unbroken part) : Division front part [part]
  | next {front part run rest : Text} {parts : List Text} (unbroken : Unbroken part)
      (separator : Separator (front ++ part) run rest)
      (others : Division (front ++ part ++ run) rest parts) :
      Division front (part ++ run ++ rest) (part :: parts)

namespace Separator

variable {front run back : Text}

/-- What stands farther in front does not matter once a separator is known to be one. -/
theorem mono {shorter : Text} (separator : Separator front run back) (suffix : shorter <:+ front) :
    Separator shorter run back where
  isRun := separator.isRun
  longest left right isLeft := separator.longest left right (isLeft.trans suffix)

/-- No blank line follows a separator. -/
theorem behind (separator : Separator front run back) : afterBlankLine? back = none := by
  refine Option.eq_none_iff_forall_ne_some.mpr fun rest found => ?_
  obtain ⟨line, blank, rfl⟩ := afterBlankLine?_eq_some_iff_exists.mp found
  have longer : BlankRun ([] ++ run ++ line) := separator.isRun.append (.singleton blank)
  exact blank.ne_nil (separator.longest [] line List.nil_suffix (List.prefix_append _ _) longer).2

/-- In front of a separator stands neither a blank nor a line feed, but possibly a carriage
return. -/
theorem notMem_of_getLast? (separator : Separator front run back) {c : Char}
    (isLast : front.getLast? = some c) : c ∉ " \t\n".toList := by
  obtain ⟨others, rfl⟩ := List.getLast?_eq_some_iff.mp isLast
  intro member
  have longer : BlankRun (c :: run) := by
    have cases : c = ' ' ∨ c = '\t' ∨ c = '\n' := by simpa using member
    rcases cases with rfl | rfl | rfl
    · exact separator.isRun.indent rfl
    · exact separator.isRun.indent rfl
    · exact separator.isRun.cons .feed
  have nothing := separator.longest [c] [] (List.suffix_append _ _) List.nil_prefix (by simpa)
  exact List.cons_ne_nil c [] nothing.1

end Separator

/-- A text that begins with something and holds a run of blank lines somewhere: either what it
begins with ends before the run, or blank lines lead from there to the end of the run or beyond. -/
theorem exists_of_append_eq_append {begins run front rest back : Text} (blank : BlankLines run)
    (same : begins ++ rest = front ++ run ++ back) :
    (∃ between, front = begins ++ between) ∨
      ∃ more right, BlankLines more ∧ right <+: back ∧ begins ++ more = front ++ run ++ right := by
  rw [List.append_assoc] at same
  rcases List.append_eq_append_iff.mp same with ⟨between, rfl, -⟩ | ⟨inside, rfl, behind⟩
  · exact .inl ⟨between, rfl⟩
  · rcases List.append_eq_append_iff.mp behind with ⟨beyond, rfl, rfl⟩ | ⟨more, rfl, -⟩
    · exact .inr ⟨[], beyond, .nil, List.prefix_append _ _, by simp⟩
    · exact .inr ⟨more, [], blank.of_append, List.nil_prefix, by simp⟩

/-- A text is read like the text in front of a separator and then the text behind it. -/
theorem paragraphs_append_separator {front run back : Text}
    (separator : Separator front run back) :
    paragraphs (front ++ run ++ back) = paragraphs front ++ paragraphs back := by
  fun_induction paragraphs front with
  | case1 =>
    obtain ⟨c, others, rfl⟩ := List.exists_cons_of_ne_nil separator.isRun.ne_nil
    exact paragraphs_of_eq_some
      (afterSeparator?_eq_some_iff.mpr ⟨_, separator.isRun, rfl, separator.behind⟩)
  | case2 c rest after found inductionHypothesis =>
    obtain ⟨first, isRun, same, missing⟩ := afterSeparator?_eq_some_iff.mp found
    have found : afterSeparator? (c :: (rest ++ run ++ back)) = some (after ++ run ++ back) := by
      refine afterSeparator?_eq_some_iff.mpr ⟨first, isRun, ?_, ?_⟩
      · simpa using congrArg (· ++ (run ++ back)) same
      refine Option.eq_none_iff_forall_ne_some.mpr fun behind begins => ?_
      obtain ⟨line, blank, whole⟩ := afterBlankLine?_eq_some_iff_exists.mp begins
      rcases exists_of_append_eq_append separator.isRun.blankLines whole.symm with
        ⟨between, rfl⟩ | ⟨more, right, others, isRight, covers⟩
      · rw [afterBlankLine?_append blank] at missing
        cases missing
      · have longer : BlankRun (c :: rest ++ run ++ right) := by
          rw [same, List.append_assoc first, List.append_assoc first, ← covers]
          exact isRun.append ((BlankLines.singleton blank).append others)
        exact List.cons_ne_nil c rest (separator.longest _ right List.suffix_rfl isRight longer).1
    have suffix : after <:+ c :: rest := ⟨first, same.symm⟩
    rw [List.cons_append, List.cons_append, paragraphs_of_eq_some found,
      inductionHypothesis (separator.mono suffix)]
    rfl
  | case3 c rest missing inductionHypothesis =>
    have missing : afterSeparator? (c :: (rest ++ run ++ back)) = none := by
      refine Option.eq_none_iff_forall_ne_some.mpr fun behind found => ?_
      obtain ⟨first, isRun, whole, -⟩ := afterSeparator?_eq_some_iff.mp found
      have covered : first ++ behind = c :: rest ++ run ++ back := whole.symm
      rcases exists_of_append_eq_append separator.isRun.blankLines covered with
        ⟨between, same⟩ | ⟨more, right, others, isRight, covers⟩
      · exact afterSeparator?_eq_none_iff.mp missing first isRun ⟨between, same.symm⟩
      · have longer : BlankRun (c :: rest ++ run ++ right) := covers ▸ isRun.append others
        exact List.cons_ne_nil c rest (separator.longest _ right List.suffix_rfl isRight longer).1
    obtain ⟨first, others, split⟩ := exists_paragraphs_eq_cons rest
    rw [List.cons_append, List.cons_append, paragraphs_of_eq_none missing,
      inductionHypothesis (separator.mono (List.suffix_cons c rest)),
      Text.pushFirst_append c (by simp [split])]

/-! ### Divisions -/

theorem unbroken_nil : Unbroken [] := fun _ isRun inside => isRun.ne_nil (List.infix_nil.mp inside)

theorem paragraphs_of_unbroken {text : Text} (unbroken : Unbroken text) :
    paragraphs text = [text] := by
  induction text with
  | nil => rw [paragraphs]
  | cons c rest inductionHypothesis =>
    have missing : afterSeparator? (c :: rest) = none :=
      afterSeparator?_eq_none_iff.mpr fun run isRun isPrefix => unbroken run isRun isPrefix.isInfix
    have unbrokenRest : Unbroken rest := fun run isRun inside =>
      unbroken run isRun (inside.trans (List.suffix_cons c rest).isInfix)
    rw [paragraphs_of_eq_none missing, inductionHypothesis unbrokenRest]
    rfl

namespace Division

variable {front text : Text} {parts : List Text}

/-- The parts of a division are the paragraphs that are read. -/
theorem paragraphs_eq (division : Division front text parts) : paragraphs text = parts := by
  induction division with
  | last unbroken => exact paragraphs_of_unbroken unbroken
  | next unbroken separator _ inductionHypothesis =>
    rw [paragraphs_append_separator (separator.mono (List.suffix_append _ _)),
      paragraphs_of_unbroken unbroken, inductionHypothesis]
    rfl

/-- A character can go over to the first part if no run of blank lines starts with it. -/
theorem push {c : Char} (missing : afterSeparator? (c :: text) = none)
    (division : Division (front ++ [c]) text parts) :
    Division front (c :: text) (Text.pushFirst c parts) := by
  have unbroken_cons {part rest : Text} (whole : c :: text = c :: part ++ rest)
      (unbroken : Unbroken part) : Unbroken (c :: part) := by
    intro run isRun inside
    rcases List.infix_cons_iff.mp inside with isPrefix | inPart
    · refine afterSeparator?_eq_none_iff.mp missing run isRun ?_
      exact whole ▸ isPrefix.trans (List.prefix_append _ _)
    · exact unbroken run isRun inPart
  cases division with
  | last unbroken => exact .last (unbroken_cons (List.append_nil _).symm unbroken)
  | @next _ part run rest parts unbroken separator others =>
    have moved : front ++ [c] ++ part = front ++ c :: part := List.append_assoc _ _ _
    have whole : c :: (part ++ run ++ rest) = c :: part ++ (run ++ rest) := by simp
    rw [moved] at separator others
    exact .next (unbroken_cons whole unbroken) separator others

/-- The paragraphs of a text are the parts of a division, if no run of blank lines leads from what
stands in front of the text into it. -/
theorem of_paragraphs (front text : Text)
    (apart : ∀ left right, left <:+ front → right <+: text → BlankRun (left ++ right) →
      left = [] ∨ right = []) : Division front text (paragraphs text) := by
  fun_induction paragraphs text generalizing front with
  | case1 => exact .last unbroken_nil
  | case2 c rest after found inductionHypothesis =>
    obtain ⟨run, isRun, same, missing⟩ := afterSeparator?_eq_some_iff.mp found
    have ends {right : Text} (isRight : right <+: after) (blank : BlankLines right) :
        right = [] := by
      obtain ⟨behind, rfl⟩ := isRight
      exact eq_nil_of_afterBlankLine?_eq_none missing blank
    have separator : Separator (front ++ []) run after := by
      refine ⟨isRun, fun left right isLeft isRight longer => ?_⟩
      rw [List.append_nil] at isLeft
      rw [List.append_assoc] at longer
      have inText : run ++ right <+: c :: rest :=
        same ▸ (List.prefix_append_right_inj run).mpr isRight
      have nothing := (apart left (run ++ right) isLeft inText longer).resolve_right
        (List.append_ne_nil_of_left_ne_nil isRun.ne_nil right)
      exact ⟨nothing, ends isRight longer.blankLines.of_append.of_append⟩
    have others : Division (front ++ [] ++ run) after (paragraphs after) :=
      inductionHypothesis _ fun left right _ isRight isRun =>
        .inr (ends isRight isRun.blankLines.of_append)
    rw [same]
    exact .next unbroken_nil separator others
  | case3 c rest missing inductionHypothesis =>
    refine (inductionHypothesis (front ++ [c]) ?_).push missing
    intro left right isLeft isRight isRun
    rcases List.suffix_concat_iff.mp isLeft with nothing | ⟨others, rfl, isSuffix⟩
    · exact .inl nothing
    · rw [List.append_assoc, List.singleton_append] at isRun
      have inText : c :: right <+: c :: rest := List.cons_prefix_cons.mpr ⟨rfl, isRight⟩
      rcases apart others (c :: right) isSuffix inText isRun with rfl | nothing
      · exact absurd inText (afterSeparator?_eq_none_iff.mp missing _ isRun)
      · cases nothing

/-- A text consists of its paragraphs and separators between them, and of no others. -/
theorem iff_eq_paragraphs {text : Text} {parts : List Text} :
    Division [] text parts ↔ parts = paragraphs text := by
  refine ⟨fun division => division.paragraphs_eq.symm, ?_⟩
  rintro rfl
  exact of_paragraphs [] text fun left right isLeft _ _ => .inl (List.suffix_nil.mp isLeft)

end Division

end TagExpansion.Markup
