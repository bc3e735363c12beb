import TagExpansion.Diagnostic

/-
This file has the ledger of diagnostics: the list of all that was taken up, in
order, with the questions that are asked of it. Taking up a diagnostic is noted in
the log.
-/

namespace TagExpansion

/-- The diagnostics taken up so far, in order. -/
structure Ledger where
  items : List Diagnostic := []
  deriving DecidableEq, Repr

namespace Ledger

/-- Takes up a diagnostic. -/
def add (ledger : Ledger) (diagnostic : Diagnostic) : Ledger := ⟨ledger.items ++ [diagnostic]⟩

/-- Takes up several diagnostics. -/
def extend (ledger : Ledger) (diagnostics : List Diagnostic) : Ledger :=
  ⟨ledger.items ++ diagnostics⟩

/-- What the log gets when diagnostics are taken up. -/
def additionLog (diagnostics : List Diagnostic) : List Log.Entry :=
  diagnostics.map Diagnostic.additionEntry

/-- Takes up the diagnostic of a report. -/
def receive (ledger : Ledger) (report : Report) : Journal Log.Entry Template.Overflow Ledger := do
  let message ← Report.fillTemplate report.template report.arguments
  let diagnostic : Diagnostic := ⟨report.kind, message, report.verbosity⟩
  Journal.write diagnostic.additionEntry
  return ledger.add diagnostic

/-- The diagnostics of a kind, in order. -/
def ofKind (ledger : Ledger) (kind : Kind) : List Diagnostic :=
  ledger.items.filter fun diagnostic => diagnostic.kind = kind

/-- How many diagnostics of a severity there are. -/
def count (ledger : Ledger) (severity : Severity) : Nat :=
  Diagnostic.countOf severity ledger.items

/-- The number of diagnostics. -/
def size (ledger : Ledger) : Nat := ledger.items.length

/-- Whether there is a diagnostic of a severity. -/
def has (ledger : Ledger) (severity : Severity) : Bool :=
  ledger.items.any fun diagnostic => diagnostic.severity = severity

end Ledger

end TagExpansion
