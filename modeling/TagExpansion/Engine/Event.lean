import TagExpansion.Diagnostic
import TagExpansion.Journal

/-
This file has what can be observed of an expansion while it runs.

An expansion that starts inside another one leaves a mark when it starts and when
it ends, also when it ends by a failure. So the depth at any time can be read off
the events up to that time: it is the number of expansions that have started and
not yet ended.
-/

namespace TagExpansion

/-- A call of the handler of a tag. -/
structure Call where
  name : Text
  parameter : Text
  baseline : Text
  /-- How deep the expansion was when the handler was called. -/
  depth : Nat
  deriving DecidableEq, Repr

/-- Something that happens in the course of an expansion. -/
inductive Event where
  /-- An expansion starts. -/
  | entered
  /-- An expansion ends. -/
  | left
  /-- A handler is called. -/
  | called (call : Call)
  /-- A handler asks for the depth and gets this answer. -/
  | told (depth : Nat)
  /-- A text is handed to the converter. -/
  | converted (text : Text)
  /-- A converted text is handed over to have its paragraphs set. -/
  | arranged (text : Text)
  /-- A report is handed over to the sink. -/
  | reported (report : Report)
  /-- The sink or the log takes notice of something. -/
  | noticed (notice : Notice)
  deriving Repr

/-- What happens in the course of an expansion, and how it ends. -/
abbrev Run (α : Type) := Journal Event Fault α

namespace Event

/-- The call that an event is. -/
def call? : Event → Option Call
  | .called call => some call
  | _ => none

/-- The report that an event hands over. -/
def report? : Event → Option Report
  | .reported report => some report
  | _ => none

/-- The diagnostic that an event records. -/
def diagnostic? : Event → Option Diagnostic
  | .noticed (.recorded diagnostic) => some diagnostic
  | _ => none

/-- The notice that puts something into the log. -/
def logNotice? : Event → Option Notice
  | .noticed (.logged entry) => some (.logged entry)
  | .noticed (.forwarded diagnostic) => some (.forwarded diagnostic)
  | _ => none

/-- The depth after some events, from a depth at which they start. -/
def depthFrom (start : Nat) (events : List Event) : Nat :=
  events.foldl (fun depth event => match event with
    | .entered => depth + 1
    | .left => depth - 1
    | _ => depth) start

/-- The number of expansions that have started and not ended after some events. -/
def depthAfter (events : List Event) : Nat := depthFrom 0 events

end Event

namespace Run

/-- The calls of a run in order. -/
def calls {α : Type} (run : Run α) : List Call := run.entries.filterMap Event.call?

/-- The reports of a run in order, whatever becomes of them. -/
def reports {α : Type} (run : Run α) : List Report := run.entries.filterMap Event.report?

/-- The diagnostics of a run in order. -/
def diagnostics {α : Type} (run : Run α) : List Diagnostic :=
  run.entries.filterMap Event.diagnostic?

/-- What a run puts into the log, in order. -/
def logNotices {α : Type} (run : Run α) : List Notice := run.entries.filterMap Event.logNotice?

/-- Puts an entry into the log. -/
def log (entry : Log.Entry) : Run Unit := .write (.noticed (.logged entry))

/-- Puts several entries into the log. -/
def logAll (entries : List Log.Entry) : Run Unit :=
  ⟨entries.map fun entry => .noticed (.logged entry), .ok ()⟩

end Run

end TagExpansion
