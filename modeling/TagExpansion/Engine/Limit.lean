import TagExpansion.Value

/-
This file has the limit of nesting: how deep expansions may stand inside one
another. A limit is given as a number; where settings are taken over unchecked it
may also be a truth value, which counts as one or zero and is shown as a word.
-/

namespace TagExpansion

/-- A limit of nesting as it is given. -/
inductive Limit where
  | number (value : Int)
  | flag (value : Bool)
  deriving DecidableEq, Repr

namespace Limit

/-- The number that a limit stands for. -/
def toInt : Limit → Int
  | .number value => value
  | .flag value => if value then 1 else 0

/-- A limit in words. -/
def shown : Limit → Text
  | .number value => Text.ofInt value
  | .flag value => Value.flagText value

/-- The greatest limit that an engine accepts. -/
def greatest : Nat := 150

/-- The limit when none is given. -/
def default : Limit := .number 64

/-- Whether an engine accepts a limit. -/
def Valid (limit : Limit) : Prop := 1 ≤ limit.toInt ∧ limit.toInt ≤ greatest

instance (limit : Limit) : Decidable limit.Valid :=
  inferInstanceAs (Decidable (1 ≤ limit.toInt ∧ limit.toInt ≤ greatest))

/-- A limit that no engine accepts, in words. -/
def rejection (limit : Limit) : Text :=
  "max_depth must be between 1 and ".toList ++ Text.ofNat greatest ++ ", got ".toList ++ limit.shown

theorem valid_default : default.Valid := by decide

end Limit

end TagExpansion
