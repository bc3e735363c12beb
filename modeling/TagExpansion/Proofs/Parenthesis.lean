import TagExpansion.Scan.Parenthesis

/-
This file says which closing parenthesis belongs to an opening one, by counting.

A text that stands inside a pair of parentheses has as many closing ones as opening
ones, and no start of it has more closing than opening ones, since the first closing
parenthesis in excess would end the pair. That describes the text between the two,
hence the place of the second, without a word about how it is looked for. The search
counts downwards from the parentheses that are still open, so the description is stated
for any number of them, and a text inside a pair is the case of none.
-/

namespace TagExpansion.Scan

/-- A text that closes `depth` parentheses more than it opens, and at no earlier place more
than that. -/
structure Closing (depth : Nat) (text : Text) : Prop where
  total : text.count ')' = text.count '(' + depth
  start : ∀ front, front <+: text → front.count ')' ≤ front.count '(' + depth

/-- A text whose parentheses belong to one another. -/
abbrev Balanced (text : Text) : Prop := Closing 0 text

theorem closing_nil : Closing 0 [] := by
  refine ⟨rfl, fun front isFront => ?_⟩
  rw [List.prefix_nil.mp isFront]
  exact Nat.le_refl 0

theorem not_closing_nil {depth : Nat} : ¬ Closing (depth + 1) [] := by
  intro closing
  have total := closing.total
  simp only [List.count_nil] at total
  omega

/-- A character in front of a text shifts the number of parentheses that it closes. -/
theorem closing_cons_iff (depth outer : Nat) {c : Char} {text : Text}
    (shift : [c].count ')' + outer = [c].count '(' + depth) :
    Closing depth (c :: text) ↔ Closing outer text ∧ [c].count ')' ≤ [c].count '(' + depth := by
  have counted (other : Char) (rest : Text) :
      (c :: rest).count other = [c].count other + rest.count other := by
    rw [← List.count_append, List.singleton_append]
  constructor
  · rintro ⟨total, start⟩
    have first := start [c] (by simp)
    rw [counted ')', counted '('] at total
    refine ⟨⟨by omega, fun front isFront => ?_⟩, first⟩
    have longer := start (c :: front) (List.cons_prefix_cons.mpr ⟨rfl, isFront⟩)
    rw [counted ')', counted '('] at longer
    omega
  · rintro ⟨⟨total, start⟩, first⟩
    refine ⟨by rw [counted ')', counted '(']; omega, fun front isFront => ?_⟩
    rcases List.prefix_cons_iff.mp isFront with rfl | ⟨rest, rfl, isRest⟩
    · simp
    · have shorter := start rest isRest
      rw [counted ')', counted '(']
      omega

theorem closing_opening {depth : Nat} {text : Text} :
    Closing depth ('(' :: text) ↔ Closing (depth + 1) text := by
  rw [closing_cons_iff depth (depth + 1) (by simp; omega)]
  simp

theorem closing_closing {depth : Nat} {text : Text} :
    Closing (depth + 1) (')' :: text) ↔ Closing depth text := by
  rw [closing_cons_iff (depth + 1) depth (by simp; omega)]
  simp

theorem not_closing_closing {text : Text} : ¬ Closing 0 (')' :: text) := by
  intro closing
  have first := closing.start [')'] (by simp)
  simp at first

theorem closing_other {depth : Nat} {c : Char} {text : Text} (notOpening : c ≠ '(')
    (notClosing : c ≠ ')') : Closing depth (c :: text) ↔ Closing depth text := by
  rw [closing_cons_iff depth depth (by simp [notOpening, notClosing])]
  simp [notOpening, notClosing]

/-! ### The search -/

theorem splitClosing_opening (depth : Nat) (rest : Text) :
    splitClosing depth ('(' :: rest) =
      (splitClosing (depth + 1) rest).map fun split => ('(' :: split.1, split.2) := by
  cases depth <;> simp [splitClosing]

theorem splitClosing_closing_zero (rest : Text) :
    splitClosing 0 (')' :: rest) = some ([], rest) := by
  simp [splitClosing]

theorem splitClosing_closing_succ (depth : Nat) (rest : Text) :
    splitClosing (depth + 1) (')' :: rest) =
      (splitClosing depth rest).map fun split => (')' :: split.1, split.2) := by
  simp [splitClosing]

theorem splitClosing_other (depth : Nat) {c : Char} (rest : Text) (notOpening : c ≠ '(')
    (notClosing : c ≠ ')') :
    splitClosing depth (c :: rest) =
      (splitClosing depth rest).map fun split => (c :: split.1, split.2) := by
  cases depth <;> simp [splitClosing, notOpening, notClosing]

/-- The search stops behind a text that closes what is open, and the parenthesis it stops at is
one too many. -/
theorem splitClosing_append {depth : Nat} {inside : Text} (closing : Closing depth inside)
    (behind : Text) : splitClosing depth (inside ++ ')' :: behind) = some (inside, behind) := by
  induction inside generalizing depth with
  | nil =>
    cases depth with
    | zero => exact splitClosing_closing_zero behind
    | succ depth => exact absurd closing not_closing_nil
  | cons c rest inductionHypothesis =>
    rw [List.cons_append]
    by_cases opening : c = '('
    · subst opening
      rw [splitClosing_opening, inductionHypothesis (closing_opening.mp closing)]
      rfl
    by_cases isClosing : c = ')'
    · subst isClosing
      cases depth with
      | zero => exact absurd closing not_closing_closing
      | succ depth =>
        rw [splitClosing_closing_succ, inductionHypothesis (closing_closing.mp closing)]
        rfl
    · rw [splitClosing_other depth _ opening isClosing,
        inductionHypothesis ((closing_other opening isClosing).mp closing)]
      rfl

/-- What the search passes over closes what is open. -/
theorem closing_of_splitClosing {depth : Nat} {text inside behind : Text}
    (found : splitClosing depth text = some (inside, behind)) : Closing depth inside := by
  induction text generalizing depth inside with
  | nil => simp [splitClosing] at found
  | cons c rest inductionHypothesis =>
    by_cases opening : c = '('
    · subst opening
      rw [splitClosing_opening] at found
      obtain ⟨⟨inner, outer⟩, hit, same⟩ := Option.map_eq_some_iff.mp found
      cases same
      exact closing_opening.mpr (inductionHypothesis hit)
    by_cases isClosing : c = ')'
    · subst isClosing
      cases depth with
      | zero =>
        rw [splitClosing_closing_zero] at found
        cases found
        exact closing_nil
      | succ depth =>
        rw [splitClosing_closing_succ] at found
        obtain ⟨⟨inner, outer⟩, hit, same⟩ := Option.map_eq_some_iff.mp found
        cases same
        exact closing_closing.mpr (inductionHypothesis hit)
    · rw [splitClosing_other depth _ opening isClosing] at found
      obtain ⟨⟨inner, outer⟩, hit, same⟩ := Option.map_eq_some_iff.mp found
      cases same
      exact (closing_other opening isClosing).mpr (inductionHypothesis hit)

/-- The search finds the one closing parenthesis in front of which the text is balanced. -/
theorem splitClosing_eq_some_iff {text inside behind : Text} :
    splitClosing 0 text = some (inside, behind) ↔
      text = inside ++ ')' :: behind ∧ Balanced inside := by
  constructor
  · intro found
    exact ⟨eq_of_splitClosing found, closing_of_splitClosing found⟩
  · rintro ⟨rfl, balanced⟩
    exact splitClosing_append balanced behind

/-- The search fails only where there is no such parenthesis. -/
theorem splitClosing_eq_none_iff {text : Text} :
    splitClosing 0 text = none ↔
      ∀ inside behind, Balanced inside → text ≠ inside ++ ')' :: behind := by
  constructor
  · rintro missing inside behind balanced rfl
    rw [splitClosing_append balanced] at missing
    cases missing
  · intro missing
    rcases found : splitClosing 0 text with _ | ⟨inside, behind⟩
    · rfl
    · exact absurd (eq_of_splitClosing found)
        (missing inside behind (closing_of_splitClosing found))

/-! ### Balanced texts -/

/-- Texts one after the other close what they close one by one. -/
theorem Closing.append {outer inner : Nat} {front back : Text} (first : Closing outer front)
    (second : Closing inner back) : Closing (outer + inner) (front ++ back) where
  total := by
    rw [List.count_append, List.count_append, first.total, second.total]
    omega
  start part isPart := by
    rcases List.prefix_or_prefix_of_prefix isPart (List.prefix_append front back) with
      within | ⟨rest, rfl⟩
    · have early := first.start part within
      omega
    · have total := first.total
      have later := second.start rest ((List.prefix_append_right_inj front).mp isPart)
      rw [List.count_append, List.count_append]
      omega

theorem balanced_of_not_mem {text : Text} (noOpening : '(' ∉ text) (noClosing : ')' ∉ text) :
    Balanced text where
  total := by rw [List.count_eq_zero.mpr noOpening, List.count_eq_zero.mpr noClosing]
  start front isFront := by
    rw [List.count_eq_zero.mpr fun member => noClosing (isFront.subset member)]
    exact Nat.zero_le _

/-- A pair of parentheses around a balanced text is balanced. -/
theorem balanced_enclosed {inside : Text} (balanced : Balanced inside) :
    Balanced ('(' :: inside ++ [')']) := by
  have last : Closing 1 [')'] := closing_closing.mpr closing_nil
  exact closing_opening.mpr (balanced.append last)

end TagExpansion.Scan
