/-
This file fixes what a text is for the whole library.

A text is a list of characters. Every position and every length counts
characters, so nothing here depends on how a text is stored in memory, and a
scan that walks a text is plain recursion on a list. Strings appear only at the
rim of the library, where a literal is written down or a line is printed.
-/

namespace TagExpansion

/-- A text is the list of its characters. -/
abbrev Text := List Char

namespace Text

/-- Takes the characters that satisfy `drop` off the front of a text. -/
def stripLeft (drop : Char → Bool) (text : Text) : Text := text.dropWhile drop

/-- Takes the characters that satisfy `drop` off the back of a text. -/
def stripRight (drop : Char → Bool) (text : Text) : Text :=
  (text.reverse.dropWhile drop).reverse

/-- Takes the characters that satisfy `drop` off both ends of a text. -/
def stripWith (drop : Char → Bool) (text : Text) : Text := stripRight drop (stripLeft drop text)

/-- Writes `between` between consecutive parts. -/
def join (between : Text) (parts : List Text) : Text := List.intercalate between parts

/-- Fills a text with blanks on its right up to `width` characters. -/
def padRight (width : Nat) (text : Text) : Text :=
  text ++ List.replicate (width - text.length) ' '

/-- Fills a text with `fill` on its left up to `width` characters. -/
def padLeft (fill : Char) (width : Nat) (text : Text) : Text :=
  List.replicate (width - text.length) fill ++ text

/-- A natural number in decimal. -/
def ofNat (n : Nat) : Text := Nat.toDigits 10 n

/-- An integer in decimal, with a minus sign in front when it is negative. -/
def ofInt : Int → Text
  | .ofNat n => ofNat n
  | .negSucc n => '-' :: ofNat (n + 1)

/-- Two texts in the order of their first different character; a text stands before its
proper extensions. -/
def isBefore : Text → Text → Bool
  | [], [] => false
  | [], _ :: _ => true
  | _ :: _, [] => false
  | a :: s, b :: t => if a = b then isBefore s t else a.toNat < b.toNat

/-- Puts a character in front of the first part, or starts a first part with it. -/
def pushFirst (c : Char) : List Text → List Text
  | [] => [[c]]
  | first :: others => (c :: first) :: others

theorem pushFirst_append (c : Char) {parts : List Text} (nonempty : parts ≠ [])
    (others : List Text) : pushFirst c (parts ++ others) = pushFirst c parts ++ others := by
  obtain ⟨first, rest, rfl⟩ := List.exists_cons_of_ne_nil nonempty
  rfl

theorem pushFirst_ne_nil (c : Char) (parts : List Text) : pushFirst c parts ≠ [] := by
  cases parts with
  | nil => exact List.cons_ne_nil _ _
  | cons first others => exact List.cons_ne_nil _ _

theorem join_singleton (between part : Text) : join between [part] = part :=
  List.intercalate_singleton

theorem join_cons (between part : Text) {others : List Text} (nonempty : others ≠ []) :
    join between (part :: others) = part ++ (between ++ join between others) := by
  obtain ⟨second, rest, rfl⟩ := List.exists_cons_of_ne_nil nonempty
  rw [join, List.intercalate_cons_cons, List.append_assoc]
  rfl

/-- What holds of the empty text and of every part, and goes over from the later parts to a part in
front of them, holds of joined parts. -/
theorem join_induction {holds : Text → Prop} {between : Text} {parts : List Text} (nil : holds [])
    (last : ∀ part ∈ parts, holds part)
    (next : ∀ part ∈ parts, ∀ rest, holds rest → holds (part ++ (between ++ rest))) :
    holds (join between parts) := by
  induction parts with
  | nil => exact nil
  | cons part others inductionHypothesis =>
    rw [List.forall_mem_cons] at last next
    by_cases empty : others = []
    · subst empty
      rw [join_singleton]
      exact last.1
    · rw [join_cons between part empty]
      exact next.1 _ (inductionHypothesis last.2 next.2)

theorem join_pushFirst (between : Text) (c : Char) {parts : List Text} (nonempty : parts ≠ []) :
    join between (pushFirst c parts) = c :: join between parts := by
  obtain ⟨first, others, rfl⟩ := List.exists_cons_of_ne_nil nonempty
  cases others with
  | nil => rw [pushFirst, join_singleton, join_singleton]
  | cons second others =>
    rw [pushFirst, join_cons between _ (List.cons_ne_nil _ _),
      join_cons between _ (List.cons_ne_nil _ _), List.cons_append]

theorem join_append (between : Text) {first second : List Text} (inFront : first ≠ [])
    (behind : second ≠ []) :
    join between (first ++ second) = join between first ++ (between ++ join between second) := by
  induction first with
  | nil => exact absurd rfl inFront
  | cons part others inductionHypothesis =>
    by_cases empty : others = []
    · subst empty
      rw [List.singleton_append, join_cons between part behind, join_singleton]
    · rw [List.cons_append, join_cons between part (List.append_ne_nil_of_left_ne_nil empty second),
        inductionHypothesis empty, join_cons between part empty, List.append_assoc,
        List.append_assoc]

/-- What follows `start` at the front of a text that begins with it. -/
def after? : Text → Text → Option Text
  | [], text => some text
  | _ :: _, [] => none
  | c :: start, d :: text => if c = d then after? start text else none

/-- A text that begins with `start` is `start` and what follows it. -/
theorem eq_append_of_after? {start text rest : Text} (found : after? start text = some rest) :
    text = start ++ rest := by
  fun_induction after? start text with
  | case1 text => simpa using found
  | case2 c start => simp at found
  | case3 c start text ih => rw [ih found, List.cons_append]
  | case4 c start d text different => simp at found

end Text

/-! ### Classes given by ranges of code points -/

/-- Whether a code point lies in one of the given ranges, both ends included. -/
def inRanges (ranges : Array (Nat × Nat)) (code : Nat) : Bool :=
  ranges.any fun (low, high) => low ≤ code && code ≤ high

end TagExpansion
