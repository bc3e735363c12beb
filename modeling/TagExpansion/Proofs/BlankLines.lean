import TagExpansion.Proofs.Paragraph
import Mathlib.Data.List.TakeWhile

/-
This file says how blank lines are written and that the reader finds them.

A blank line has one line feed, at its end. So blank lines in a row can be divided behind each of
their line feeds and nowhere else: what stands behind some part of them is made of blank lines
again, and two rows of blank lines that overlap are one row. The reader takes one blank line after
the other until none follows. Nothing else can be taken there, because two blank lines at the front
of a text are the same.
-/

namespace TagExpansion.Markup

/-! ### How blank lines are written -/

/-- Any number of spaces and tabs, a carriage return or none, and a line feed. -/
def BlankLine (line : Text) : Prop :=
  ∃ indent ending, line = indent ++ ending ∧ (∀ c ∈ indent, isIndent c = true) ∧
    (ending = ['\n'] ∨ ending = ['\r', '\n'])

/-- Any number of blank lines. -/
inductive BlankLines : Text → Prop where
  | nil : BlankLines []
  | cons {line others : Text} (first : BlankLine line) (rest : BlankLines others) :
      BlankLines (line ++ others)

/-- Two blank lines or more. -/
def BlankRun (run : Text) : Prop :=
  ∃ first second others, run = first ++ (second ++ others) ∧ BlankLine first ∧ BlankLine second ∧
    BlankLines others

theorem BlankLine.feed : BlankLine ['\n'] := ⟨[], ['\n'], rfl, nofun, .inl rfl⟩

theorem BlankLine.returnFeed : BlankLine ['\r', '\n'] := ⟨[], ['\r', '\n'], rfl, nofun, .inr rfl⟩

/-- A blank line may be indented. -/
theorem BlankLine.cons {c : Char} {line : Text} (indented : isIndent c = true)
    (blank : BlankLine line) : BlankLine (c :: line) := by
  obtain ⟨indent, ending, rfl, all, ends⟩ := blank
  exact ⟨c :: indent, ending, rfl, List.forall_mem_cons.mpr ⟨indented, all⟩, ends⟩

theorem BlankLine.exists_eq_concat {line : Text} (blank : BlankLine line) :
    ∃ front, line = front ++ ['\n'] := by
  obtain ⟨indent, ending, rfl, -, rfl | rfl⟩ := blank
  · exact ⟨indent, rfl⟩
  · exact ⟨indent ++ ['\r'], by simp⟩

theorem BlankLine.ne_nil {line : Text} (blank : BlankLine line) : line ≠ [] := by
  obtain ⟨front, rfl⟩ := blank.exists_eq_concat
  exact List.append_ne_nil_of_right_ne_nil front (List.cons_ne_nil _ _)

/-- The characters of which blank lines are made. -/
theorem BlankLine.mem {line : Text} (blank : BlankLine line) {c : Char} (member : c ∈ line) :
    c ∈ " \t\r\n".toList := by
  have feed : ∀ c ∈ ['\n'], c ∈ " \t\r\n".toList := by simp
  have returnFeed : ∀ c ∈ ['\r', '\n'], c ∈ " \t\r\n".toList := by simp
  obtain ⟨indent, ending, rfl, indented, ends⟩ := blank
  rcases List.mem_append.mp member with inIndent | inEnding
  · have indent := indented c inIndent
    simp only [isIndent, Bool.or_eq_true, beq_iff_eq] at indent
    rcases indent with rfl | rfl
    · decide
    · decide
  · rcases ends with rfl | rfl
    · exact feed c inEnding
    · exact returnFeed c inEnding

/-- What is left of a blank line without its front is a blank line, unless nothing is left. -/
theorem BlankLine.of_append {front back : Text} (blank : BlankLine (front ++ back))
    (nonempty : back ≠ []) : BlankLine back := by
  obtain ⟨indent, ending, same, indented, ends⟩ := blank
  rcases List.append_eq_append_iff.mp same with ⟨rest, rfl, rfl⟩ | ⟨rest, rfl, rfl⟩
  · exact ⟨rest, ending, rfl, fun c member => indented c (List.mem_append_right _ member), ends⟩
  · refine ⟨[], back, rfl, nofun, ?_⟩
    rcases ends with same | same
    · rcases List.append_eq_singleton_iff.mp same with ⟨rfl, rfl⟩ | ⟨rfl, rfl⟩
      · exact .inl rfl
      · exact absurd rfl nonempty
    · rcases rest with _ | ⟨c, _ | ⟨d, rest⟩⟩
      · exact .inr same
      · cases same
        exact .inl rfl
      · simp_all

namespace BlankLines

theorem append {front back : Text} (first : BlankLines front) (second : BlankLines back) :
    BlankLines (front ++ back) := by
  induction first with
  | nil => exact second
  | cons blank _ inductionHypothesis =>
    rw [List.append_assoc]
    exact .cons blank inductionHypothesis

theorem singleton {line : Text} (blank : BlankLine line) : BlankLines line := by
  rw [← List.append_nil line]
  exact .cons blank .nil

/-- What stands behind some part of blank lines is made of blank lines. -/
theorem of_append {front back : Text} (blank : BlankLines (front ++ back)) : BlankLines back := by
  generalize whole : front ++ back = text at blank
  induction blank generalizing front with
  | nil =>
    rw [(List.append_eq_nil_iff.mp whole).2]
    exact .nil
  | @cons line others first rest inductionHypothesis =>
    rcases List.append_eq_append_iff.mp whole with ⟨between, rfl, rfl⟩ | ⟨between, rfl, same⟩
    · by_cases empty : between = []
      · subst empty
        exact rest
      · exact .cons (first.of_append empty) rest
    · exact inductionHypothesis same.symm

theorem exists_line {run : Text} (blank : BlankLines run) (nonempty : run ≠ []) :
    ∃ line others, run = line ++ others ∧ BlankLine line := by
  cases blank with
  | nil => exact absurd rfl nonempty
  | cons first rest => exact ⟨_, _, rfl, first⟩

theorem exists_eq_concat {run : Text} (blank : BlankLines run) (nonempty : run ≠ []) :
    ∃ front, run = front ++ ['\n'] := by
  induction blank with
  | nil => exact absurd rfl nonempty
  | @cons line others first rest inductionHypothesis =>
    by_cases empty : others = []
    · subst empty
      rw [List.append_nil]
      exact first.exists_eq_concat
    · obtain ⟨front, same⟩ := inductionHypothesis empty
      exact ⟨line ++ front, by rw [same, List.append_assoc]⟩

theorem mem {run : Text} (blank : BlankLines run) {c : Char} (member : c ∈ run) :
    c ∈ " \t\r\n".toList := by
  induction blank with
  | nil => cases member
  | cons first _ inductionHypothesis =>
    rcases List.mem_append.mp member with inFirst | inRest
    · exact first.mem inFirst
    · exact inductionHypothesis inRest

end BlankLines

namespace BlankRun

variable {run : Text}

theorem blankLines (isRun : BlankRun run) : BlankLines run := by
  obtain ⟨first, second, others, rfl, blank, next, rest⟩ := isRun
  exact .cons blank (.cons next rest)

theorem ne_nil (isRun : BlankRun run) : run ≠ [] := by
  obtain ⟨first, second, others, rfl, blank, -, -⟩ := isRun
  exact List.append_ne_nil_of_left_ne_nil blank.ne_nil _

theorem two_le_length (isRun : BlankRun run) : 2 ≤ run.length := by
  obtain ⟨first, second, others, rfl, isFirst, isSecond, -⟩ := isRun
  have := List.length_pos_iff.mpr isFirst.ne_nil
  have := List.length_pos_iff.mpr isSecond.ne_nil
  rw [List.length_append, List.length_append]
  omega

theorem getLast? (isRun : BlankRun run) : run.getLast? = some '\n' := by
  obtain ⟨front, rfl⟩ := isRun.blankLines.exists_eq_concat isRun.ne_nil
  exact List.getLast?_concat

/-- Blank lines behind a run make it longer. -/
theorem append {behind : Text} (isRun : BlankRun run) (blank : BlankLines behind) :
    BlankRun (run ++ behind) := by
  obtain ⟨first, second, others, rfl, isFirst, isSecond, rest⟩ := isRun
  exact ⟨first, second, others ++ behind, by simp, isFirst, isSecond, rest.append blank⟩

theorem indent {c : Char} (indented : isIndent c = true) (isRun : BlankRun run) :
    BlankRun (c :: run) := by
  obtain ⟨first, second, others, rfl, isFirst, isSecond, rest⟩ := isRun
  exact ⟨c :: first, second, others, rfl, isFirst.cons indented, isSecond, rest⟩

/-- A blank line in front of a run makes it longer. -/
theorem cons {line : Text} (blank : BlankLine line) (isRun : BlankRun run) :
    BlankRun (line ++ run) := by
  obtain ⟨first, second, others, rfl, isFirst, isSecond, rest⟩ := isRun
  exact ⟨line, first, second ++ others, rfl, blank, isFirst, .cons isSecond rest⟩

end BlankRun

/-! ### How blank lines are read -/

/-- A blank line is taken off the front of a text. -/
theorem afterBlankLine?_append {line : Text} (blank : BlankLine line) (rest : Text) :
    afterBlankLine? (line ++ rest) = some rest := by
  obtain ⟨indent, ending, rfl, indented, ends⟩ := blank
  rw [afterBlankLine?_eq_some_iff, List.append_assoc, List.dropWhile_append_of_pos indented]
  rcases ends with rfl | rfl
  · exact .inl rfl
  · exact .inr rfl

theorem afterBlankLine?_eq_some_iff_exists {text rest : Text} :
    afterBlankLine? text = some rest ↔ ∃ line, BlankLine line ∧ text = line ++ rest := by
  constructor
  · intro found
    have whole := List.takeWhile_append_dropWhile (p := isIndent) (l := text)
    have indented : ∀ c ∈ text.takeWhile isIndent, isIndent c = true :=
      fun c member => List.mem_takeWhile_imp member
    rcases afterBlankLine?_eq_some_iff.mp found with same | same
    · refine ⟨text.takeWhile isIndent ++ ['\n'], ⟨_, _, rfl, indented, .inl rfl⟩, ?_⟩
      rw [List.append_assoc, List.singleton_append, ← same, whole]
    · refine ⟨text.takeWhile isIndent ++ ['\r', '\n'], ⟨_, _, rfl, indented, .inr rfl⟩, ?_⟩
      rw [List.append_assoc, List.cons_append, List.singleton_append, ← same, whole]
  · rintro ⟨line, blank, rfl⟩
    exact afterBlankLine?_append blank rest

/-- Where no blank line is found, a text does not begin with blank lines. -/
theorem eq_nil_of_afterBlankLine?_eq_none {run rest : Text}
    (missing : afterBlankLine? (run ++ rest) = none) (blank : BlankLines run) : run = [] := by
  by_contra nonempty
  obtain ⟨line, others, rfl, first⟩ := blank.exists_line nonempty
  rw [List.append_assoc, afterBlankLine?_append first] at missing
  cases missing

/-- All blank lines at the front of a text are taken off. -/
theorem afterBlankLines_eq_iff {text rest : Text} :
    afterBlankLines text = rest ↔
      ∃ run, BlankLines run ∧ text = run ++ rest ∧ afterBlankLine? rest = none := by
  constructor
  · rintro rfl
    fun_induction afterBlankLines text with
    | case1 text rest found inductionHypothesis =>
      obtain ⟨line, blank, rfl⟩ := afterBlankLine?_eq_some_iff_exists.mp found
      obtain ⟨run, others, same, missing⟩ := inductionHypothesis
      exact ⟨line ++ run, .cons blank others, by rw [List.append_assoc, ← same], missing⟩
    | case2 text missing => exact ⟨[], .nil, rfl, missing⟩
  · rintro ⟨run, blank, rfl, missing⟩
    induction blank with
    | nil => exact afterBlankLines_of_eq_none missing
    | cons first _ inductionHypothesis =>
      rw [List.append_assoc, afterBlankLines_of_eq_some (afterBlankLine?_append first _),
        inductionHypothesis]

/-- A separator is a run of blank lines that no blank line follows. -/
theorem afterSeparator?_eq_some_iff {text rest : Text} :
    afterSeparator? text = some rest ↔
      ∃ run, BlankRun run ∧ text = run ++ rest ∧ afterBlankLine? rest = none := by
  simp only [afterSeparator?, Option.bind_eq_bind, Option.bind_eq_some_iff,
    afterBlankLine?_eq_some_iff_exists, Option.pure_def, Option.some.injEq, afterBlankLines_eq_iff]
  constructor
  · rintro ⟨_, ⟨first, isFirst, rfl⟩, _, ⟨second, isSecond, rfl⟩, others, rest, rfl, missing⟩
    exact ⟨_, ⟨first, second, others, rfl, isFirst, isSecond, rest⟩, by simp, missing⟩
  · rintro ⟨_, ⟨first, second, others, rfl, isFirst, isSecond, rest⟩, rfl, missing⟩
    exact ⟨_, ⟨first, isFirst, List.append_assoc _ _ _⟩, _,
      ⟨second, isSecond, List.append_assoc _ _ _⟩, others, rest, rfl, missing⟩

theorem afterSeparator?_eq_none_iff {text : Text} :
    afterSeparator? text = none ↔ ∀ run, BlankRun run → ¬run <+: text := by
  constructor
  · rintro missing run isRun ⟨behind, rfl⟩
    obtain ⟨others, blank, same, ends⟩ :=
      afterBlankLines_eq_iff.mp (Eq.refl (afterBlankLines behind))
    have found : afterSeparator? (run ++ behind) = some (afterBlankLines behind) := by
      refine afterSeparator?_eq_some_iff.mpr ⟨run ++ others, isRun.append blank, ?_, ends⟩
      rw [List.append_assoc, ← same]
    rw [found] at missing
    cases missing
  · intro noRun
    refine Option.eq_none_iff_forall_ne_some.mpr fun rest found => ?_
    obtain ⟨run, isRun, rfl, -⟩ := afterSeparator?_eq_some_iff.mp found
    exact noRun run isRun (List.prefix_append run rest)

end TagExpansion.Markup
