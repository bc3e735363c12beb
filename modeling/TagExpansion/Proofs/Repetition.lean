import TagExpansion.Proofs.ParagraphBreaks

/-
This file says when setting plain paragraphs a second time changes nothing.

A text gets shorter wherever a run of blank lines in it is longer than a plain break, and nowhere
longer. So it stays as it is only if none of its runs is. After plain paragraphs have been set, the
runs are the breaks, with a carriage return more where one stood in front of a separator. Such a
carriage return is text as long as something other than a line feed follows it. In front of the
break it is part of a line end, and the second time takes it away.
-/

namespace TagExpansion.Markup

/-! ### Breaks one by one -/

section

variable (between : Text)

theorem joinParagraphs_nil : joinParagraphs between [] = [] := by
  rw [joinParagraphs, paragraphs, Text.join_singleton]

theorem joinParagraphs_of_eq_some {c : Char} {rest after : Text}
    (found : afterSeparator? (c :: rest) = some after) :
    joinParagraphs between (c :: rest) = between ++ joinParagraphs between after := by
  obtain ⟨first, others, split⟩ := exists_paragraphs_eq_cons after
  rw [joinParagraphs, joinParagraphs, paragraphs_of_eq_some found,
    Text.join_cons between [] (by simp [split])]
  rfl

theorem joinParagraphs_of_eq_none {c : Char} {rest : Text}
    (missing : afterSeparator? (c :: rest) = none) :
    joinParagraphs between (c :: rest) = c :: joinParagraphs between rest := by
  obtain ⟨first, others, split⟩ := exists_paragraphs_eq_cons rest
  rw [joinParagraphs, joinParagraphs, paragraphs_of_eq_none missing,
    Text.join_pushFirst between c (by simp [split])]

theorem joinParagraphs_append_separator {front run back : Text}
    (separator : Separator front run back) :
    joinParagraphs between (front ++ run ++ back) =
      joinParagraphs between front ++ (between ++ joinParagraphs between back) := by
  obtain ⟨first, others, inFront⟩ := exists_paragraphs_eq_cons front
  obtain ⟨next, more, behind⟩ := exists_paragraphs_eq_cons back
  rw [joinParagraphs, paragraphs_append_separator separator,
    Text.join_append between (by simp [inFront]) (by simp [behind])]
  rfl

/-- The end of a text stays if it is not a line feed. -/
theorem getLast?_joinParagraphs {text : Text} {c : Char} (isLast : text.getLast? = some c)
    (noFeed : c ≠ '\n') : (joinParagraphs between text).getLast? = some c := by
  fun_induction paragraphs text with
  | case1 => cases isLast
  | case2 d rest after found inductionHypothesis =>
    obtain ⟨run, isRun, same, -⟩ := afterSeparator?_eq_some_iff.mp found
    have inAfter : after.getLast? = some c := by
      rw [same, List.getLast?_append, isRun.getLast?] at isLast
      rcases Option.or_eq_some_iff.mp isLast with inAfter | ⟨-, isFeed⟩
      · exact inAfter
      · exact absurd (Option.some.inj isFeed).symm noFeed
    rw [joinParagraphs_of_eq_some between found, List.getLast?_append, inductionHypothesis inAfter]
    rfl
  | case3 d rest missing inductionHypothesis =>
    rw [joinParagraphs_of_eq_none between missing, List.getLast?_cons]
    rw [List.getLast?_cons] at isLast
    cases inRest : rest.getLast? with
    | none =>
      rw [List.getLast?_eq_none_iff.mp inRest, joinParagraphs_nil]
      rwa [inRest] at isLast
    | some e =>
      rw [inRest] at isLast inductionHypothesis
      rw [inductionHypothesis isLast]
      rfl

end

/-! ### Lengths -/

theorem length_plainParagraphs_le (text : Text) :
    (plainParagraphs text).length ≤ text.length := by
  unfold plainParagraphs
  fun_induction paragraphs text with
  | case1 => rw [joinParagraphs_nil]
  | case2 c rest after found inductionHypothesis =>
    obtain ⟨run, isRun, same, -⟩ := afterSeparator?_eq_some_iff.mp found
    have two : "\n\n".toList.length = 2 := rfl
    have := isRun.two_le_length
    rw [joinParagraphs_of_eq_some _ found, same, List.length_append, List.length_append, two]
    omega
  | case3 c rest missing inductionHypothesis =>
    rw [joinParagraphs_of_eq_none _ missing, List.length_cons, List.length_cons]
    omega

/-- Every run of blank lines is part of a separator. -/
theorem BlankRun.exists_separator {run : Text} (isRun : BlankRun run) (front back : Text) :
    ∃ before left right after, front = before ++ left ∧ back = right ++ after ∧
      Separator before (left ++ run ++ right) after := by
  induction isSize : front.length + back.length using Nat.strong_induction_on
    generalizing front run back with
  | _ size inductionHypothesis =>
    by_cases longest : ∀ left right, left <:+ front → right <+: back →
        BlankRun (left ++ run ++ right) → left = [] ∧ right = []
    · exact ⟨front, [], [], back, by simp, rfl, by simpa using ⟨isRun, longest⟩⟩
    · -- A longer run leaves less in front of it and behind it.
      simp only [not_forall, exists_prop] at longest
      obtain ⟨left, right, ⟨outer, rfl⟩, ⟨beyond, rfl⟩, longer, proper⟩ := longest
      have smaller : outer.length + beyond.length < size := by
        have positive : 0 < left.length + right.length := by
          simp only [← List.length_eq_zero_iff] at proper
          omega
        rw [← isSize, List.length_append, List.length_append]
        omega
      obtain ⟨before, moreLeft, moreRight, after, rfl, rfl, separator⟩ :=
        inductionHypothesis _ smaller longer outer beyond rfl
      exact ⟨before, moreLeft ++ left, right ++ moreRight, after, by simp, by simp,
        by simpa using separator⟩

/-- A run of blank lines that is longer than a plain break makes a text shorter. -/
theorem length_plainParagraphs_lt {run : Text} (isRun : BlankRun run) (long : 2 < run.length)
    (front back : Text) :
    (plainParagraphs (front ++ run ++ back)).length < (front ++ run ++ back).length := by
  obtain ⟨before, left, right, after, rfl, rfl, separator⟩ := isRun.exists_separator front back
  have whole : before ++ left ++ run ++ (right ++ after) =
      before ++ (left ++ run ++ right) ++ after := by simp
  have inFront := length_plainParagraphs_le before
  have behind := length_plainParagraphs_le after
  have two : "\n\n".toList.length = 2 := rfl
  rw [whole, plainParagraphs, joinParagraphs_append_separator _ separator]
  simp only [List.length_append, two]
  simp only [plainParagraphs] at inFront behind
  omega

/-- A text that stays as it is has no run of blank lines that is longer than a plain break. -/
theorem length_le_of_plainParagraphs_eq {text run : Text} (stays : plainParagraphs text = text)
    (isRun : BlankRun run) (inside : run <:+: text) : run.length ≤ 2 := by
  obtain ⟨front, back, rfl⟩ := inside
  refine Nat.le_of_not_lt fun long => ?_
  have shorter := length_plainParagraphs_lt isRun long front back
  rw [stays] at shorter
  exact Nat.lt_irrefl _ shorter

/-! ### Breaks that are separators -/

/-- A plain break is a separator, if nothing of which blank lines are made stands in front of it and
no blank line follows. -/
theorem separator_break {part rest : Text}
    (closed : ∀ c, part.getLast? = some c → c ∉ " \t\r\n".toList)
    (missing : afterBlankLine? rest = none) : Separator part "\n\n".toList rest := by
  refine ⟨⟨_, _, [], rfl, .feed, .feed, .nil⟩, fun left right isLeft isRight longer => ⟨?_, ?_⟩⟩
  · by_contra nonempty
    obtain ⟨others, rfl⟩ := isLeft
    have isLast : (others ++ left).getLast? = some (left.getLast nonempty) := by
      rw [List.getLast?_append, List.getLast?_eq_some_getLast nonempty]
      rfl
    have inLine : left.getLast nonempty ∈ left ++ "\n\n".toList ++ right :=
      List.mem_append_left _ (List.mem_append_left _ (List.getLast_mem nonempty))
    exact closed _ isLast (longer.blankLines.mem inLine)
  · obtain ⟨behind, rfl⟩ := isRight
    rw [List.append_assoc] at longer
    exact eq_nil_of_afterBlankLine?_eq_none missing longer.blankLines.of_append.of_append

/-- Whether a text begins with a blank line can be told from its front, if that ends with something
of which no blank line is made. -/
theorem afterBlankLine?_append_eq_none {part : Text} (nonempty : part ≠ [])
    (closed : ∀ c, part.getLast? = some c → c ∉ " \t\r\n".toList) {first : Text}
    (missing : afterBlankLine? (part ++ first) = none) (second : Text) :
    afterBlankLine? (part ++ second) = none := by
  refine Option.eq_none_iff_forall_ne_some.mpr fun rest found => ?_
  obtain ⟨line, blank, whole⟩ := afterBlankLine?_eq_some_iff_exists.mp found
  rcases List.append_eq_append_iff.mp whole with ⟨more, rfl, -⟩ | ⟨more, rfl, -⟩
  · exact closed _ (List.getLast?_eq_some_getLast nonempty)
      (blank.mem (List.mem_append_left _ (List.getLast_mem nonempty)))
  · rw [List.append_assoc, afterBlankLine?_append blank] at missing
    cases missing

/-- If no carriage return stands in front of a separator, the breaks are the separators of what
comes out, and its paragraphs are the same. -/
theorem Division.paragraphs_join {front text : Text} {parts : List Text}
    (division : Division front text parts)
    (noReturn : ∀ before run back, front ++ text = before ++ run ++ back →
      Separator before run back → before.getLast? ≠ some '\r') :
    paragraphs (Text.join "\n\n".toList parts) = parts ∧
      (afterBlankLine? text = none →
        afterBlankLine? (Text.join "\n\n".toList parts) = none) := by
  induction division with
  | last unbroken =>
    rw [Text.join_singleton]
    exact ⟨paragraphs_of_unbroken unbroken, id⟩
  | @next front part run rest parts unbroken separator others inductionHypothesis =>
    obtain ⟨same, missing⟩ := inductionHypothesis fun before other back whole =>
      noReturn before other back (by rw [← whole]; simp)
    have closed : ∀ c, part.getLast? = some c → c ∉ " \t\r\n".toList := by
      intro c isLast member
      have inFront : (front ++ part).getLast? = some c := by
        rw [List.getLast?_append, isLast]
        rfl
      have noBlank := separator.notMem_of_getLast? inFront
      have differs := noReturn (front ++ part) run rest (by simp) separator
      simp only [String.reduceToList, List.mem_cons, List.not_mem_nil, or_false, not_or]
        at noBlank member
      rcases member with rfl | rfl | rfl | rfl
      · exact noBlank.1 rfl
      · exact noBlank.2.1 rfl
      · exact differs inFront
      · exact noBlank.2.2 rfl
    have nonempty : parts ≠ [] := by cases others <;> exact List.cons_ne_nil _ _
    have apart := separator_break closed (missing separator.behind)
    rw [Text.join_cons _ part nonempty, ← List.append_assoc]
    refine ⟨?_, fun noLine => ?_⟩
    · rw [paragraphs_append_separator apart, paragraphs_of_unbroken unbroken, same]
      rfl
    · by_cases empty : part = []
      · subst empty
        have nothing := eq_nil_of_afterBlankLine?_eq_none noLine separator.isRun.blankLines
        exact absurd nothing separator.isRun.ne_nil
      · rw [List.append_assoc] at noLine ⊢
        exact afterBlankLine?_append_eq_none empty closed noLine _

/-- Setting plain paragraphs a second time changes nothing exactly if no separator has a carriage
return in front of it. -/
theorem plainParagraphs_plainParagraphs_eq_iff (text : Text) :
    plainParagraphs (plainParagraphs text) = plainParagraphs text ↔
      ∀ front run back, text = front ++ run ++ back → Separator front run back →
        front.getLast? ≠ some '\r' := by
  constructor
  · rintro stays front run back rfl separator isLast
    have kept : (plainParagraphs front).getLast? = some '\r' :=
      getLast?_joinParagraphs _ isLast (by decide)
    obtain ⟨others, same⟩ := List.getLast?_eq_some_iff.mp kept
    have isRun : BlankRun "\r\n\n".toList :=
      ⟨['\r', '\n'], ['\n'], [], rfl, .returnFeed, .feed, .nil⟩
    have inside : "\r\n\n".toList <:+: plainParagraphs (front ++ run ++ back) := by
      have whole : plainParagraphs (front ++ run ++ back) =
          plainParagraphs front ++ ("\n\n".toList ++ plainParagraphs back) :=
        joinParagraphs_append_separator _ separator
      exact ⟨others, plainParagraphs back, by rw [whole, same]; simp⟩
    exact absurd (length_le_of_plainParagraphs_eq stays isRun inside) (by decide)
  · intro noReturn
    have division : Division [] text (paragraphs text) := Division.iff_eq_paragraphs.mpr rfl
    have same := (division.paragraphs_join noReturn).1
    exact congrArg (Text.join "\n\n".toList) same

/-- A carriage return between blank lines, with a space behind it. What comes out is a run of four
blank lines. -/
theorem plainParagraphs_of_lone_return :
    let text : Text := "\n\n\r \n\n".toList
    plainParagraphs text = "\n\n\r\n\n".toList ∧ BlankRun (plainParagraphs text) ∧
      plainParagraphs (plainParagraphs text) = "\n\n".toList ∧
      plainParagraphs (plainParagraphs text) ≠ plainParagraphs text := by
  intro text
  have once : plainParagraphs text = "\n\n\r\n\n".toList := by decide +kernel
  have twice : plainParagraphs "\n\n\r\n\n".toList = "\n\n".toList := by decide +kernel
  have isRun : BlankRun "\n\n\r\n\n".toList :=
    ⟨['\n'], ['\n'], ['\r', '\n', '\n'], rfl, .feed, .feed,
      .cons .returnFeed (.cons .feed .nil)⟩
  rw [once, twice]
  exact ⟨rfl, isRun, rfl, by decide⟩

end TagExpansion.Markup
