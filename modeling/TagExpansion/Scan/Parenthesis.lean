import TagExpansion.Text.Basic

/-
This file finds the closing parenthesis that belongs to an opening one.
-/

namespace TagExpansion.Scan

/-- Splits what follows an opening parenthesis at the closing one that belongs to it: the text
inside, and the text behind. `depth` counts the parentheses opened inside and not yet closed. -/
def splitClosing (depth : Nat) : Text → Option (Text × Text)
  | [] => none
  | c :: rest =>
    if c = '(' then (splitClosing (depth + 1) rest).map fun (inside, behind) => (c :: inside, behind)
    else if c = ')' then
      match depth with
      | 0 => some ([], rest)
      | depth + 1 => (splitClosing depth rest).map fun (inside, behind) => (c :: inside, behind)
    else (splitClosing depth rest).map fun (inside, behind) => (c :: inside, behind)

/-- The parts of a split are the text around the closing parenthesis. -/
theorem eq_of_splitClosing {depth : Nat} {text inside behind : Text}
    (found : splitClosing depth text = some (inside, behind)) :
    text = inside ++ ')' :: behind := by
  induction text generalizing depth inside with
  | nil => simp [splitClosing] at found
  | cons c rest ih =>
    unfold splitClosing at found
    split at found
    · obtain ⟨⟨inner, outer⟩, hit, same⟩ := Option.map_eq_some_iff.1 found
      cases same
      simp [ih hit]
    · split at found
      · split at found
        · simp_all
        · obtain ⟨⟨inner, outer⟩, hit, same⟩ := Option.map_eq_some_iff.1 found
          cases same
          simp [ih hit]
      · obtain ⟨⟨inner, outer⟩, hit, same⟩ := Option.map_eq_some_iff.1 found
        cases same
        simp [ih hit]

end TagExpansion.Scan
