import TagExpansion.Proofs.Separators

/-
This file proves what becomes of the separators of a text.

Both formats write a break of their own for every separator and keep everything else. The break of
HTML has a line feed in it, but between characters that are not blank, so no run of blank lines is
left or comes about: a second time there is nothing to replace.

The plain break is a run of blank lines itself. Neither line feeds nor blanks can stand in front of
it, since they would have been part of the separator, and no blank line follows it, so three line
feeds never stand in a row. What can stand in front of it is a carriage return that had something
other than a line feed behind it. This carriage return now has a line feed behind it, and the two
are a line end, so the break is longer than it was written. That is the only way in which a second
time can change something.
-/

namespace TagExpansion.Markup

/-! ### Breaks of HTML -/

/-- A part of a text without one of its characters stands on one side of it. -/
theorem infix_of_infix_append_cons {part front back : Text} {c : Char}
    (inside : part <:+: front ++ c :: back) (without : c ∉ part) :
    part <:+: front ∨ part <:+: back := by
  induction front with
  | nil =>
    rcases List.infix_cons_iff.mp inside with isPrefix | behind
    · rcases List.prefix_cons_iff.mp isPrefix with rfl | ⟨rest, rfl, -⟩
      · exact .inl List.nil_infix
      · exact absurd List.mem_cons_self without
    · exact .inr behind
  | cons d front inductionHypothesis =>
    rcases List.infix_cons_iff.mp inside with isPrefix | behind
    · have splits : d :: front ++ [c] <+: d :: (front ++ c :: back) := ⟨back, by simp⟩
      rcases List.prefix_or_prefix_of_prefix isPrefix splits with shorter | longer
      · rcases List.prefix_concat_iff.mp shorter with rfl | isPrefix
        · exact absurd (List.mem_concat_self) without
        · exact .inl isPrefix.isInfix
      · exact absurd (longer.subset (List.mem_concat_self)) without
    · exact (inductionHypothesis behind).imp_left fun inFront =>
        inFront.trans (List.suffix_cons d front).isInfix

namespace Unbroken

variable {front back : Text} {c : Char}

theorem append_cons (unbroken : Unbroken front) (solid : c ∉ " \t\r\n".toList)
    (behind : Unbroken back) : Unbroken (front ++ c :: back) := by
  intro run isRun inside
  have without : c ∉ run := fun member => solid (isRun.blankLines.mem member)
  rcases infix_of_infix_append_cons inside without with inFront | inBack
  · exact unbroken run isRun inFront
  · exact behind run isRun inBack

theorem append_solid {word : Text} (solid : ∀ c ∈ word, c ∉ " \t\r\n".toList)
    (behind : Unbroken back) : Unbroken (word ++ back) := by
  induction word with
  | nil => exact behind
  | cons c word inductionHypothesis =>
    rw [List.forall_mem_cons] at solid
    exact unbroken_nil.append_cons solid.1 (inductionHypothesis solid.2)

/-- A line feed is not a run of blank lines. -/
theorem lineFeed : Unbroken ['\n'] := by
  intro run isRun inside
  have short := inside.length_le
  have long := isRun.two_le_length
  rw [List.length_singleton] at short
  omega

/-- Unbroken parts with breaks of HTML between them are unbroken. -/
theorem join {parts : List Text} (unbroken : ∀ part ∈ parts, Unbroken part) :
    Unbroken (Text.join "</p>\n<p>".toList parts) := by
  refine Text.join_induction unbroken_nil unbroken fun part member rest later => ?_
  have opened : Unbroken ("p>".toList ++ rest) := append_solid (by simp) later
  have closed : Unbroken ("/p>".toList ++ (['\n'] ++ '<' :: ("p>".toList ++ rest))) :=
    append_solid (by simp) (lineFeed.append_cons (by decide) opened)
  exact (unbroken part member).append_cons (by decide) closed

end Unbroken

theorem Division.unbroken {front text : Text} {parts : List Text}
    (division : Division front text parts) : ∀ part ∈ parts, Unbroken part := by
  induction division with
  | last unbroken => exact List.forall_mem_singleton.mpr unbroken
  | next unbroken _ _ inductionHypothesis =>
    exact List.forall_mem_cons.mpr ⟨unbroken, inductionHypothesis⟩

theorem unbroken_htmlParagraphs (text : Text) : Unbroken (htmlParagraphs text) :=
  .join (Division.iff_eq_paragraphs.mpr rfl).unbroken

theorem htmlParagraphs_of_unbroken {text : Text} (unbroken : Unbroken text) :
    htmlParagraphs text = text := by
  rw [htmlParagraphs, joinParagraphs, paragraphs_of_unbroken unbroken, Text.join_singleton]

/-! ### Plain breaks -/

/-- A plain break makes no three line feeds in a row if there is no line feed next to it. -/
theorem not_infix_append_break {part rest : Text} (unbroken : ¬['\n', '\n'] <:+: part)
    (inFront : part.getLast? ≠ some '\n') (behind : rest.head? ≠ some '\n')
    (others : ¬['\n', '\n', '\n'] <:+: rest) :
    ¬['\n', '\n', '\n'] <:+: part ++ ("\n\n".toList ++ rest) := by
  have starts {more : Text} (isPrefix : '\n' :: more <+: rest) : rest.head? = some '\n' := by
    obtain ⟨after, rfl⟩ := isPrefix
    rfl
  induction part with
  | nil =>
    intro inside
    rcases List.infix_cons_iff.mp inside with first | inside
    · exact behind (starts (List.cons_prefix_cons.mp (List.cons_prefix_cons.mp first).2).2)
    · rcases List.infix_cons_iff.mp inside with second | inside
      · exact behind (starts (List.cons_prefix_cons.mp second).2)
      · exact others inside
  | cons c part inductionHypothesis =>
    intro inside
    cases part with
    | nil =>
      rcases List.infix_cons_iff.mp inside with first | inside
      · obtain ⟨rfl, -⟩ := List.cons_prefix_cons.mp first
        exact inFront rfl
      · exact inductionHypothesis (fun none => by cases List.infix_nil.mp none) nofun inside
    | cons d part =>
      rcases List.infix_cons_iff.mp inside with first | inside
      · obtain ⟨rfl, second⟩ := List.cons_prefix_cons.mp first
        obtain ⟨rfl, -⟩ := List.cons_prefix_cons.mp second
        exact unbroken ⟨[], part, rfl⟩
      · refine inductionHypothesis (fun later => unbroken ?_) ?_ inside
        · exact later.trans (List.suffix_cons c _).isInfix
        · rwa [List.getLast?_cons_cons] at inFront

theorem Unbroken.not_infix {text : Text} (unbroken : Unbroken text) : ¬['\n', '\n'] <:+: text :=
  unbroken _ ⟨_, _, [], rfl, .feed, .feed, .nil⟩

theorem head?_ne_of_afterBlankLine?_eq_none {text : Text} (missing : afterBlankLine? text = none) :
    text.head? ≠ some '\n' := by
  intro isHead
  obtain ⟨rest, rfl⟩ := List.head?_eq_some_iff.mp isHead
  have found : afterBlankLine? ('\n' :: rest) = some rest := afterBlankLine?_append .feed rest
  rw [found] at missing
  cases missing

/-- With plain breaks between the parts of a text there are nowhere three line feeds in a row, and
none at the front if the text does not begin with a blank line. -/
theorem Division.not_infix_join {front text : Text} {parts : List Text}
    (division : Division front text parts) :
    ¬['\n', '\n', '\n'] <:+: Text.join "\n\n".toList parts ∧
      (afterBlankLine? text = none → (Text.join "\n\n".toList parts).head? ≠ some '\n') := by
  induction division with
  | @last front part unbroken =>
    rw [Text.join_singleton]
    refine ⟨fun inside => unbroken.not_infix (.trans ⟨[], ['\n'], rfl⟩ inside), ?_⟩
    exact head?_ne_of_afterBlankLine?_eq_none
  | @next front part run rest parts unbroken separator others inductionHypothesis =>
    have nonempty : parts ≠ [] := by cases others <;> exact List.cons_ne_nil _ _
    obtain ⟨noThree, apart⟩ := inductionHypothesis
    have inFront : part.getLast? ≠ some '\n' := fun isLast =>
      (separator.mono (List.suffix_append front part)).notMem_of_getLast? isLast (by decide)
    rw [Text.join_cons _ part nonempty]
    refine ⟨not_infix_append_break unbroken.not_infix inFront (apart separator.behind) noThree,
      fun missing => ?_⟩
    cases part with
    | nil =>
      have nothing := eq_nil_of_afterBlankLine?_eq_none missing separator.isRun.blankLines
      exact absurd nothing separator.isRun.ne_nil
    | cons c part =>
      have differs := head?_ne_of_afterBlankLine?_eq_none missing
      exact differs

/-- Every text consists of unbroken parts with separators between them in exactly one way. Both
formats keep the parts as they are and write their own breaks for the separators. -/
theorem exists_division (text : Text) :
    (∃ parts, (∀ others, Division [] text others ↔ others = parts) ∧
        plainParagraphs text = Text.join "\n\n".toList parts ∧
        htmlParagraphs text = Text.join "</p>\n<p>".toList parts) ∧
      Unbroken (htmlParagraphs text) ∧
      htmlParagraphs (htmlParagraphs text) = htmlParagraphs text ∧
      ¬['\n', '\n', '\n'] <:+: plainParagraphs text := by
  have division : Division [] text (paragraphs text) := Division.iff_eq_paragraphs.mpr rfl
  exact ⟨⟨paragraphs text, fun others => Division.iff_eq_paragraphs, rfl, rfl⟩,
    unbroken_htmlParagraphs text, htmlParagraphs_of_unbroken (unbroken_htmlParagraphs text),
    division.not_infix_join.1⟩

end TagExpansion.Markup
