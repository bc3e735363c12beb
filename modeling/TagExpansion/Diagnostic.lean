import TagExpansion.Log
import TagExpansion.Template

/-
This file has the reports about a text that is being expanded.

A malformed text is never refused: every problem becomes a diagnostic, and the
expansion goes on. A diagnostic says what was found, in words, and from which
verbosity on it is worth showing. How serious it is follows from its kind.

Whoever finds a problem hands over a report, that is a template with arguments.
A template that does not fit its arguments is no reason to lose the report: the
template is then shown as it is, with the arguments behind it.

An expansion can fail all the same, though not by itself: those whom it turns to, and
the sink is one of them, may give up. So may what the library is built on, when memory
or the stack gives out.
-/

namespace TagExpansion

/-- How serious a diagnostic is. -/
inductive Severity where
  | info
  | warning
  | error
  deriving DecidableEq, Repr

/-- What a diagnostic is about. The first three kinds are for the handlers of tags, the others
are found by the expansion itself. -/
inductive Kind where
  | info
  | warning
  | error
  | unknownTag
  | unmatchedParenthesis
  | unexpectedParameters
  | nestingTooDeep
  deriving DecidableEq, Repr

namespace Severity

/-- The word for a severity. -/
def name : Severity → Text
  | .info => "info".toList
  | .warning => "warning".toList
  | .error => "error".toList

/-- The color of a severity. -/
def tint : Severity → Tint
  | .info => .blue
  | .warning => .yellow
  | .error => .brightRed

/-- The level at which a diagnostic of this severity is logged. -/
def level : Severity → Log.Level
  | .info => Log.info
  | .warning => Log.warning
  | .error => Log.error

end Severity

namespace Kind

/-- The word for a kind. -/
def name : Kind → Text
  | .info => "info".toList
  | .warning => "warning".toList
  | .error => "error".toList
  | .unknownTag => "unknown-tag".toList
  | .unmatchedParenthesis => "unmatched-parenthesis".toList
  | .unexpectedParameters => "unexpected-parameters".toList
  | .nestingTooDeep => "nesting-too-deep".toList

/-- All kinds. -/
def all : List Kind :=
  [.info, .warning, .error, .unknownTag, .unmatchedParenthesis, .unexpectedParameters,
    .nestingTooDeep]

/-- The kind with a given name. -/
def ofName? (name : Text) : Option Kind := all.find? fun kind => kind.name = name

/-- What the expansion itself finds is worth a warning. -/
def severity : Kind → Severity
  | .info => .info
  | .error => .error
  | _ => .warning

end Kind

/-- A problem that was found. -/
structure Diagnostic where
  kind : Kind
  message : Text
  /-- The least verbosity at which it is shown. -/
  verbosity : Int := 1
  deriving DecidableEq, Repr

namespace Diagnostic

/-- How serious a diagnostic is. -/
def severity (diagnostic : Diagnostic) : Severity := diagnostic.kind.severity

/-- Severity and kind of a diagnostic. -/
def heading (diagnostic : Diagnostic) : Text :=
  diagnostic.severity.name ++ '[' :: diagnostic.kind.name ++ [']']

/-- A diagnostic as one line, whose heading may be colored. -/
def render (paint : Paint) (diagnostic : Diagnostic) (color : Bool) : Text :=
  let heading := diagnostic.heading
  (if color then paint diagnostic.severity.tint heading else heading) ++ ": ".toList ++
    diagnostic.message

/-- How many diagnostics of a severity there are. -/
def countOf (severity : Severity) (diagnostics : List Diagnostic) : Nat :=
  diagnostics.countP fun diagnostic => diagnostic.severity = severity

/-- The counts of the three severities. -/
def counts (diagnostics : List Diagnostic) : List (Text × Nat) :=
  [Severity.info, .warning, .error].map fun severity =>
    (severity.name, countOf severity diagnostics)

/-- Whether there is a diagnostic that is more than information. -/
def anySerious (diagnostics : List Diagnostic) : Bool :=
  diagnostics.any fun diagnostic => diagnostic.severity ≠ .info

/-- The entry that the log gets for a diagnostic that is taken up. -/
def additionEntry (diagnostic : Diagnostic) : Log.Entry :=
  ⟨Log.trace, "Adding [".toList ++ diagnostic.kind.name ++ "]: ".toList ++
    Text.quoted diagnostic.message⟩

end Diagnostic

/-! ### Reports -/

/-- A problem as it is handed over: a template and its arguments. -/
structure Report where
  verbosity : Int
  kind : Kind
  template : Text
  arguments : List Value
  deriving Repr

/-- What becomes of a report. -/
inductive Notice where
  /-- A diagnostic was taken up. -/
  | recorded (diagnostic : Diagnostic)
  /-- A diagnostic went to the log instead. -/
  | forwarded (diagnostic : Diagnostic)
  /-- The log got an entry. -/
  | logged (entry : Log.Entry)
  deriving DecidableEq, Repr

namespace Report

/-- The text of a template with arguments. Without arguments the template is the text. A
template that does not fit is shown as it is with the arguments behind it, and the log notes
the misfit; for that the arguments must have a written form. -/
def fillTemplate (template : Text) (arguments : List Value) :
    Journal Log.Entry Template.Overflow Text :=
  if arguments.isEmpty then .done template
  else match Template.fill template arguments with
    | .ok text => .done text
    | .error (.overflow cause) => .fail cause
    | .error .mismatch =>
      if Value.areWritable arguments then
        let shown := Value.writtenArguments arguments
        ⟨[⟨Log.debug, "Cannot format diagnostic ".toList ++ Text.quoted template ++
          " with ".toList ++ shown⟩], .ok (template ++ ' ' :: shown)⟩
      else .fail .numeral

/-- The diagnostic of a report. -/
def diagnose (report : Report) : Journal Notice Template.Overflow Diagnostic := do
  let message ← (fillTemplate report.template report.arguments).mapEntries .logged
  return ⟨report.kind, message, report.verbosity⟩

end Report

/-- A failure of something that the library is built on: what kind of failure it is, and its
words. -/
structure Breakdown where
  kind : Text
  message : Text
  deriving DecidableEq, Repr

/-- Why an expansion fails. -/
inductive Fault where
  /-- A handler, an adapter or the sink gave up. -/
  | raised (reason : Text)
  /-- A report had a number that its template cannot show. -/
  | overflow (cause : Template.Overflow)
  /-- Memory or the stack gave out. -/
  | exhausted (breakdown : Breakdown)
  deriving DecidableEq, Repr

/-- A sink takes a report and says what becomes of it, or gives up. -/
abbrev Sink := Report → Journal Notice Fault Unit

namespace Sink

/-- Takes up every diagnostic. -/
def collect : Sink := fun report => do
  let diagnostic ← report.diagnose.mapFailure .overflow
  Journal.write (.recorded diagnostic)
  Journal.write (.logged diagnostic.additionEntry)

/-- Sends every diagnostic to the log. -/
def forward : Sink := fun report => do
  let diagnostic ← report.diagnose.mapFailure .overflow
  Journal.write (.forwarded diagnostic)

/-- Takes no notice of anything. -/
def discard : Sink := fun _ => .done ()

end Sink

/-! ### Memory and the stack -/

/-- For which templates and arguments memory or the stack gives out, and how. -/
abbrev Capacity := Text → List Value → Option Breakdown

namespace Capacity

/-- Memory and a stack that are always enough. -/
def ample : Capacity := fun _ _ => none

/-- The text of a template with arguments, as far as the capacity goes. -/
def fillTemplate (capacity : Capacity) (template : Text) (arguments : List Value) :
    Journal Log.Entry Fault Text :=
  match capacity template arguments with
  | some breakdown => .fail (.exhausted breakdown)
  | none => (Report.fillTemplate template arguments).mapFailure .overflow

/-- A sink that makes the texts of reports as far as the capacity goes. -/
def confine (capacity : Capacity) (sink : Sink) : Sink := fun report =>
  match capacity report.template report.arguments with
  | some breakdown => .fail (.exhausted breakdown)
  | none => sink report

end Capacity

end TagExpansion
