import Mathlib.Data.List.TakeWhile
import TagExpansion.Tools.Standard

/-
This file says what is left of a text when the codes for a terminal are taken out.

A code is described by its parts. What is recognized at the front of a text is a code in this sense,
and every code is recognized there, whatever follows it. So a text comes out as it was if and only
if no part of it is a code. With that, the toolkit with which the program is run does what the
program counts on.
-/

namespace TagExpansion

namespace Terminal

/-- The classes of characters in a code are ranges, one above the other. -/
theorem not_in_both {low high low' high' c : Char} (apart : high < low')
    (below : low ≤ c && c ≤ high) (above : low' ≤ c && c ≤ high') : False := by
  rw [Bool.and_eq_true, decide_eq_true_eq, decide_eq_true_eq] at below above
  exact Char.not_le.mpr apart (Char.le_trans above.1 below.2)

/-- What is passed over at the front of a text is a code, and every code is passed over. -/
theorem afterCode?_eq_some_iff {text rest : Text} :
    afterCode? text = some rest ↔ ∃ code, IsCode code ∧ text = code ++ rest := by
  constructor
  · intro found
    unfold afterCode? at found
    split at found
    · rename_i behind
      split at found
      · rename_i last after ending
        split at found
        · rename_i ends
          cases found
          have whole : behind.takeWhile isParameter ++
              ((behind.dropWhile isParameter).takeWhile isIntermediate ++ last :: rest) =
                behind := by
            rw [← ending, List.takeWhile_append_dropWhile, List.takeWhile_append_dropWhile]
          refine ⟨_, .intro (fun c => List.mem_takeWhile_imp (l := behind))
            (fun c => List.mem_takeWhile_imp (l := behind.dropWhile isParameter)) ends, ?_⟩
          rw [List.cons_append, List.cons_append, List.append_assoc, List.append_assoc,
            List.singleton_append, whole]
        · cases found
      · cases found
    · cases found
  · rintro ⟨code, ⟨areParameters, areIntermediates, ends⟩, rfl⟩
    rename_i parameters intermediates last
    have afterParameters :
        (parameters ++ (intermediates ++ [last]) ++ rest).dropWhile isParameter =
          intermediates ++ last :: rest := by
      rw [List.append_assoc, List.dropWhile_append_of_pos areParameters, List.append_assoc,
        List.singleton_append]
      cases intermediates with
      | nil =>
        exact List.dropWhile_cons_of_neg fun parameter => not_in_both (by decide) parameter ends
      | cons first others =>
        have intermediate := areIntermediates first List.mem_cons_self
        exact List.dropWhile_cons_of_neg
          fun parameter => not_in_both (by decide) intermediate parameter
    have afterIntermediates :
        (intermediates ++ last :: rest).dropWhile isIntermediate = last :: rest := by
      rw [List.dropWhile_append_of_pos areIntermediates]
      exact List.dropWhile_cons_of_neg fun between => not_in_both (by decide) between ends
    simp only [afterCode?, List.cons_append, afterParameters, afterIntermediates, if_pos ends]

theorem length_dropCodes_le (text : Text) : (dropCodes text).length ≤ text.length := by
  fun_induction dropCodes text with
  | case1 => exact Nat.le_refl 0
  | case2 c rest after found inductionHypothesis =>
    exact Nat.le_trans inductionHypothesis (Nat.le_of_lt (length_of_afterCode? found))
  | case3 c rest none inductionHypothesis => exact Nat.succ_le_succ inductionHypothesis

/-- A text is left as it is if and only if no part of it is a code. -/
theorem dropCodes_eq_self_iff (text : Text) :
    dropCodes text = text ↔ ∀ code, IsCode code → ¬code <:+: text := by
  fun_induction dropCodes text with
  | case1 =>
    refine iff_of_true rfl fun code isCode inside => ?_
    cases isCode
    exact absurd (List.infix_nil.mp inside) (List.cons_ne_nil _ _)
  | case2 c rest after found inductionHypothesis =>
    have shorter := Nat.lt_of_le_of_lt (length_dropCodes_le after) (length_of_afterCode? found)
    obtain ⟨code, isCode, split⟩ := afterCode?_eq_some_iff.mp found
    refine iff_of_false (fun same => ?_) fun free => free code isCode ?_
    · rw [same] at shorter
      exact Nat.lt_irrefl _ shorter
    · rw [split]
      exact (List.prefix_append code after).isInfix
  | case3 c rest none inductionHypothesis =>
    rw [List.cons_inj_right, inductionHypothesis]
    refine forall₂_congr fun code isCode => not_congr ?_
    have notFirst : ¬code <+: c :: rest := by
      rintro ⟨behind, split⟩
      rw [afterCode?_eq_some_iff.mpr ⟨code, isCode, split.symm⟩] at none
      exact nomatch none
    rw [List.infix_cons_iff, or_iff_right notFirst]

end Terminal

/-- The toolkit with which the program is run does what the program counts on. -/
theorem Tools.conforms_standard : Tools.standard.Conforms where
  misuseStatus := rfl
  echo_terminal _ := rfl
  echo_plain _ _ := rfl
  echo_eq_self_iff := Terminal.dropCodes_eq_self_iff

end TagExpansion
