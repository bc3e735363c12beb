import TagExpansion.Proofs.Parenthesis
import TagExpansion.Scan.Piece

/-
This file says where the closing parenthesis stands that belongs to an opening one.

The pair as a whole, with its two parentheses, is a stretch of the text that is closed for the first
time at its end: up to every earlier place more parentheses have been opened than closed. This names
a position without a word about the search for it, and there is at most one such position, since of
two stretches with the same start the shorter one would be closed too early inside of the longer
one. What stands between the two parentheses is balanced, and that is what the search looks for.
-/

namespace TagExpansion.Scan

/-- A stretch that is closed at its end, and open at every place before. -/
structure ClosesLast (stretch : Text) : Prop where
  total : stretch.count '(' = stretch.count ')'
  start : ∀ front, front <+: stretch → front ≠ [] → front ≠ stretch →
    front.count ')' < front.count '('

/-- The text from `start` to `stop` is a pair of parentheses with what stands between them. -/
structure IsPair (text : Text) (start stop : Nat) : Prop where
  nonempty : start < stop
  within : stop ≤ text.length
  closes : ClosesLast (text.extract start stop)

/-! ### Pairs and balanced texts -/

theorem closesLast_enclosed {inside : Text} (balanced : Balanced inside) :
    ClosesLast ('(' :: inside ++ [')']) where
  total := (balanced_enclosed balanced).total.symm
  start front isFront nonempty proper := by
    rcases List.prefix_concat_iff.mp isFront with whole | early
    · exact absurd whole proper
    · rcases List.prefix_cons_iff.mp early with none | ⟨rest, rfl, isRest⟩
      · exact absurd none nonempty
      · have open_ := balanced.start rest isRest
        simp only [List.count_cons_self, List.count_cons_of_ne (show '(' ≠ ')' by decide)]
        omega

/-- What is open from its first parenthesis on and closed at its end is a pair around a balanced
text. -/
theorem exists_balanced_of_closesLast {rest : Text} (closes : ClosesLast ('(' :: rest)) :
    ∃ inside, Balanced inside ∧ rest = inside ++ [')'] := by
  have total := closes.total
  rw [List.count_cons_self, List.count_cons_of_ne (by decide)] at total
  obtain rfl | ⟨inside, last, rfl⟩ := List.eq_nil_or_concat rest
  · simp at total
  · rw [List.concat_eq_append] at closes total ⊢
    have early (front : Text) (isFront : front <+: inside) :
        front.count ')' ≤ front.count '(' := by
      have proper : '(' :: front ≠ '(' :: (inside ++ [last]) := by
        rintro ⟨⟩
        have shorter := isFront.length_le
        rw [List.length_append, List.length_singleton] at shorter
        omega
      have before := closes.start ('(' :: front) (List.cons_prefix_cons.mpr
        ⟨rfl, isFront.trans (List.prefix_append inside [last])⟩) (List.cons_ne_nil _ _) proper
      rw [List.count_cons_self, List.count_cons_of_ne (by decide)] at before
      omega
    have whole := early inside (List.prefix_refl inside)
    rw [List.count_append, List.count_append] at total
    -- Only a closing parenthesis can make up for the one at the front.
    have isClosing : last = ')' := by
      refine Decidable.byContradiction fun other => ?_
      have none : [last].count ')' = 0 := by simp [other]
      omega
    subst isClosing
    refine ⟨inside, ⟨?_, early⟩, rfl⟩
    simp at total
    omega

/-- A pair at a parenthesis is a balanced text behind it and the closing parenthesis behind that. -/
theorem isPair_iff {text : Text} {start stop : Nat} (opening : text[start]? = some '(') :
    IsPair text start stop ↔ ∃ inside behind, Balanced inside ∧
      text.drop (start + 1) = inside ++ ')' :: behind ∧ stop = start + 1 + inside.length + 1 := by
  obtain ⟨inRange, isOpening⟩ := List.getElem?_eq_some_iff.mp opening
  have begins : text.drop start = '(' :: text.drop (start + 1) := by
    rw [List.drop_eq_getElem_cons inRange, isOpening]
  constructor
  · rintro ⟨nonempty, within, closes⟩
    obtain ⟨size, sized⟩ : ∃ size, stop - start = size + 1 := ⟨stop - start - 1, by omega⟩
    rw [List.extract_eq_take_drop, begins, sized, List.take_succ_cons] at closes
    obtain ⟨inside, balanced, split⟩ := exists_balanced_of_closesLast closes
    refine ⟨inside, (text.drop (start + 1)).drop size, balanced, ?_, ?_⟩
    · rw [← List.singleton_append, ← List.append_assoc, ← split, List.take_append_drop]
    · have length := congrArg List.length split
      rw [List.length_take, List.length_drop, List.length_append, List.length_singleton] at length
      omega
  · rintro ⟨inside, behind, balanced, split, rfl⟩
    have length := congrArg List.length split
    rw [List.length_drop, List.length_append, List.length_cons] at length
    refine ⟨by omega, by omega, ?_⟩
    have sized : start + 1 + inside.length + 1 - start = (inside ++ [')']).length + 1 := by
      rw [List.length_append, List.length_singleton]
      omega
    have joined : inside ++ ')' :: behind = (inside ++ [')']) ++ behind := by simp
    rw [List.extract_eq_take_drop, begins, sized, List.take_succ_cons, split, joined,
      List.take_left]
    exact closesLast_enclosed balanced

theorem closingEnd?_eq_some_iff {text : Text} {start stop : Nat}
    (opening : text[start]? = some '(') :
    closingEnd? text start = some stop ↔ IsPair text start stop := by
  rw [isPair_iff opening, closingEnd?, Option.map_eq_some_iff]
  constructor
  · rintro ⟨⟨inside, behind⟩, found, rfl⟩
    obtain ⟨split, balanced⟩ := splitClosing_eq_some_iff.mp found
    exact ⟨inside, behind, balanced, split, rfl⟩
  · rintro ⟨inside, behind, balanced, split, rfl⟩
    exact ⟨(inside, behind), splitClosing_eq_some_iff.mpr ⟨split, balanced⟩, rfl⟩

theorem closingEnd?_eq_none_iff {text : Text} {start : Nat} (opening : text[start]? = some '(') :
    closingEnd? text start = none ↔ ¬∃ stop, IsPair text start stop := by
  simp only [← closingEnd?_eq_some_iff opening, Option.eq_none_iff_forall_ne_some, not_exists,
    ne_eq]

/-! ### What follows for a pair -/

namespace IsPair

variable {text : Text} {start stop : Nat} (isPair : IsPair text start stop)

include isPair

/-- What stands behind a pair has no part in it. -/
theorem append (more : Text) : IsPair (text.take stop ++ more) start stop := by
  have length : (text.take stop).length = stop := List.length_take_of_le isPair.within
  refine ⟨isPair.nonempty, by rw [List.length_append, length]; exact Nat.le_add_right _ _, ?_⟩
  have same : (text.take stop ++ more).extract start stop = text.extract start stop := by
    rw [List.extract_eq_take_drop, List.extract_eq_take_drop, ← List.drop_take, ← List.drop_take,
      List.take_append_of_le_length (Nat.le_of_eq length.symm), List.take_take, Nat.min_self]
  rw [same]
  exact isPair.closes

variable (opening : text[start]? = some '(')

include opening

theorem getElem?_pred : text[stop - 1]? = some ')' := by
  obtain ⟨inside, behind, -, split, rfl⟩ := (isPair_iff opening).mp isPair
  have position : start + 1 + inside.length + 1 - 1 = start + 1 + inside.length := rfl
  rw [position, ← List.getElem?_drop, split, List.getElem?_append_right (Nat.le_refl _),
    Nat.sub_self]
  rfl

theorem balanced_inside : Balanced (text.extract (start + 1) (stop - 1)) := by
  obtain ⟨inside, behind, balanced, split, rfl⟩ := (isPair_iff opening).mp isPair
  have size : start + 1 + inside.length + 1 - 1 - (start + 1) = inside.length := by omega
  rw [List.extract_eq_take_drop, split, size, List.take_left]
  exact balanced

end IsPair

/-- The search for the closing parenthesis finds the end of the pair exactly where there is one.
There is at most one, what stands in the pair is balanced, and what stands behind it does not
matter. -/
theorem closingEnd?_of_opening {text : Text} {start : Nat} (opening : text[start]? = some '(') :
    (∀ stop, closingEnd? text start = some stop ↔ IsPair text start stop) ∧
      (closingEnd? text start = none ↔ ¬∃ stop, IsPair text start stop) ∧
      ∀ stop, closingEnd? text start = some stop →
        (∀ other, IsPair text start other → other = stop) ∧
        text[stop - 1]? = some ')' ∧
        Balanced (text.extract (start + 1) (stop - 1)) ∧
        ∀ more, closingEnd? (text.take stop ++ more) start = some stop := by
  refine ⟨fun _ => closingEnd?_eq_some_iff opening, closingEnd?_eq_none_iff opening,
    fun stop found => ?_⟩
  have isPair := (closingEnd?_eq_some_iff opening).mp found
  refine ⟨fun other isOther => ?_, isPair.getElem?_pred opening, isPair.balanced_inside opening,
    fun more => ?_⟩
  · have again := (closingEnd?_eq_some_iff opening).mpr isOther
    rw [found, Option.some.injEq] at again
    exact again.symm
  · refine (closingEnd?_eq_some_iff ?_).mpr (isPair.append more)
    have inRange : start < (text.take stop).length := by
      rw [List.length_take_of_le isPair.within]
      exact isPair.nonempty
    rw [List.getElem?_append_left inRange, List.getElem?_take_of_lt isPair.nonempty]
    exact opening

/-- Of the parentheses of a call the outermost ones belong together. -/
theorem closingEnd?_of_nested :
    let text := "@code(f(x, (y)) + 1) (z)".toList
    text[5]? = some '(' ∧ closingEnd? text 5 = some 20 ∧ IsPair text 5 20 ∧
      ∀ other, IsPair text 5 other → other = 20 := by
  intro text
  have opening : text[5]? = some '(' := by decide
  have found : closingEnd? text 5 = some 20 := by decide
  obtain ⟨isPair, -, whole⟩ := closingEnd?_of_opening opening
  exact ⟨opening, found, (isPair 20).mp found, (whole 20 found).1⟩

end TagExpansion.Scan
