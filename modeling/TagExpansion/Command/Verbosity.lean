import TagExpansion.Text.Basic

/-
This file settles how much the program says: a diagnostic is shown when its
verbosity is at most the level that the command line asks for.
-/

namespace TagExpansion.Command

/-- The level when the command line asks for nothing. -/
def defaultVerbosity : Int := 1

/-- The words against asking for more and for nothing at once. -/
def verbosityConflict : Text :=
  "The '--verbose' and '--quiet' options are mutually exclusive.".toList

/-- The level that counts of the two options ask for, unless they contradict each other. -/
def resolveVerbosity? (verbose quiet : Int) : Option Int :=
  if 0 < verbose ∧ 0 < quiet then none
  else if 0 < quiet then some 0
  else some (defaultVerbosity + verbose)

end TagExpansion.Command
