import TagExpansion.Proofs.Tiling

/-
This file says what is left of a text when characters are taken off its ends.

Only characters of the class are taken off, and what is left begins and ends with none of them. No
other part of the text is like this, unless nothing is left at all. So the ends of a text tell what
is taken off it, and a text that was stripped once has nothing more to lose.
-/

namespace TagExpansion.Text

variable {drop : Char → Bool} {text core : Text}

/-- A text without the characters of a class at its ends. -/
structure Trims (drop : Char → Bool) (text core : Text) : Prop where
  split : ∃ front back, text = front ++ core ++ back ∧ (∀ c ∈ front, drop c = true) ∧
    ∀ c ∈ back, drop c = true
  first : ∀ c, core.head? = some c → drop c = false
  last : ∀ c, core.getLast? = some c → drop c = false

theorem trims_stripWith (drop : Char → Bool) (text : Text) :
    Trims drop text (stripWith drop text) := by
  -- What is left of the back is read in reverse, where it is at the front.
  have left := Scan.longest_takeWhile drop text
  have right := Scan.longest_takeWhile drop (text.dropWhile drop).reverse
  have leftWhole : text.takeWhile drop ++ text.dropWhile drop = text :=
    List.takeWhile_append_dropWhile
  have rightWhole : stripWith drop text ++
      ((text.dropWhile drop).reverse.takeWhile drop).reverse = text.dropWhile drop := by
    rw [stripWith, stripRight, stripLeft, ← List.reverse_append, List.takeWhile_append_dropWhile,
      List.reverse_reverse]
  refine ⟨⟨text.takeWhile drop, ((text.dropWhile drop).reverse.takeWhile drop).reverse, ?_,
    left.all, fun c member => right.all c (List.mem_reverse.mp member)⟩, fun c isHead => ?_,
    fun c isLast => ?_⟩
  · rw [List.append_assoc, rightWhole, leftWhole]
  · refine left.stop c ?_
    obtain ⟨rest, same⟩ := List.head?_eq_some_iff.mp isHead
    rw [← rightWhole, same]
    rfl
  · refine right.stop c ?_
    rw [← List.getLast?_reverse]
    exact isLast

/-- What a text is without the characters at its ends is determined. -/
theorem Trims.stripWith_eq (trims : Trims drop text core) : stripWith drop text = core := by
  obtain ⟨⟨front, back, rfl, inFront, inBack⟩, first, last⟩ := trims
  by_cases empty : core = []
  · subst empty
    have all : ∀ c ∈ front ++ [] ++ back, drop c = true := by
      simpa [or_imp, forall_and] using ⟨inFront, inBack⟩
    have left : (front ++ [] ++ back).dropWhile drop = [] := List.dropWhile_eq_nil_iff.mpr all
    rw [stripWith, stripLeft, left]
    rfl
  · have left : Scan.Longest drop front (core ++ back) := by
      refine ⟨inFront, fun c isHead => first c ?_⟩
      rwa [List.head?_append_of_ne_nil core empty] at isHead
    have right : Scan.Longest drop back.reverse core.reverse := by
      refine ⟨fun c member => inBack c (List.mem_reverse.mp member), fun c isHead => last c ?_⟩
      rwa [List.head?_reverse] at isHead
    rw [List.append_assoc, stripWith, stripLeft, left.dropWhile_append, stripRight,
      List.reverse_append, right.dropWhile_append, List.reverse_reverse]

theorem stripWith_infix (drop : Char → Bool) (text : Text) : stripWith drop text <:+: text := by
  obtain ⟨front, back, same, -, -⟩ := (trims_stripWith drop text).split
  exact ⟨front, back, same.symm⟩

theorem stripWith_stripWith (drop : Char → Bool) (text : Text) :
    stripWith drop (stripWith drop text) = stripWith drop text := by
  have trims := trims_stripWith drop text
  have again : Trims drop (stripWith drop text) (stripWith drop text) :=
    ⟨⟨[], [], (List.append_nil _).symm, nofun, nofun⟩, trims.first, trims.last⟩
  exact again.stripWith_eq

end TagExpansion.Text
