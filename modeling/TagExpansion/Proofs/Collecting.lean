import TagExpansion.Proofs.Nesting

/-
This file says what a sink that takes up diagnostics gets from an expansion.

Whoever hands over a report, the expansion itself or a handler, nothing else is taken up. So the
diagnostics of a run are those of its reports, each once and in their order. What is known of the
reports of a run is thereby known of its diagnostics.
-/

namespace TagExpansion

open Tag (Script)

/-- The diagnostic of a report; there is none if the report has a number that its template cannot
show. -/
def Report.diagnosis? (report : Report) : Option Diagnostic :=
  report.diagnose.outcome.toOption

theorem Report.entries_diagnose (report : Report) :
    report.diagnose.entries =
      (fillTemplate report.template report.arguments).entries.map .logged := by
  rw [diagnose, Journal.bind_eq_andThen]
  simp only [Journal.pure_eq_done, ← Journal.map_eq_andThen]
  rfl

theorem Sink.filterMap_entries_collect (report : Report) :
    ((collect report).entries.map Event.noticed).filterMap Event.diagnostic? =
      report.diagnosis?.toList := by
  have misfit : (report.diagnose.entries.map Event.noticed).filterMap Event.diagnostic? = [] := by
    rw [report.entries_diagnose, List.map_map, List.filterMap_map, List.filterMap_eq_nil_iff]
    intro entry _
    rfl
  rw [collect, Journal.bind_eq_andThen, Report.diagnosis?]
  cases ended : report.diagnose.outcome with
  | ok diagnostic =>
    have diagnosed : (report.diagnose.mapFailure Fault.overflow).outcome = .ok diagnostic :=
      congrArg (Except.mapError Fault.overflow) ended
    rw [Journal.andThen_of_ok diagnosed]
    show ((report.diagnose.entries ++ [_, _]).map Event.noticed).filterMap _ = _
    rw [List.map_append, List.filterMap_append, misfit]
    rfl
  | error cause =>
    have failed : (report.diagnose.mapFailure Fault.overflow).outcome = .error (.overflow cause) :=
      congrArg (Except.mapError Fault.overflow) ended
    rw [Journal.andThen_of_error failed]
    exact misfit

theorem Sink.outcome_collect {report : Report} {diagnostic : Diagnostic}
    (diagnosed : report.diagnose = .done diagnostic) : (collect report).outcome = .ok () := by
  rw [collect, diagnosed]
  rfl

/-- Some events take up the diagnostics of their reports, and nothing else. -/
def Event.Collected (events : List Event) : Prop :=
  events.filterMap diagnostic? = (events.filterMap report?).filterMap Report.diagnosis?

theorem Event.Collected.append {front back : List Event} (first : Collected front)
    (second : Collected back) : Collected (front ++ back) := by
  unfold Collected at first second ⊢
  rw [List.filterMap_append, List.filterMap_append, List.filterMap_append, first, second]

namespace Engine

open Event (Collected)

variable {engine : Engine} {nested : Text → Run Text} {depth : Nat}

theorem collected_andThen {α β : Type} {first : Run α} {next : α → Run β}
    (before : Collected first.entries) (after : ∀ value, Collected (next value).entries) :
    Collected (first.andThen next).entries := by
  cases ended : first.outcome with
  | ok value =>
    rw [Journal.andThen_of_ok ended]
    exact before.append (after value)
  | error fault =>
    rw [Journal.andThen_of_error ended]
    exact before

theorem collected_handOver (collects : engine.sink = .collect) (report : Report) :
    Collected (engine.handOver report).entries := by
  have reports : (engine.handOver report).entries.filterMap Event.report? = [report] :=
    reports_handOver engine report
  rw [Collected, reports, List.filterMap_cons, List.filterMap_nil]
  show ((engine.sink report).entries.map Event.noticed).filterMap Event.diagnostic? = _
  rw [collects, Sink.filterMap_entries_collect]
  cases report.diagnosis? with
  | none => rfl
  | some diagnostic => rfl

theorem collected_logAll (entries : List Log.Entry) : Collected (Run.logAll entries).entries := by
  induction entries with
  | nil => rfl
  | cons entry others inductionHypothesis => exact inductionHypothesis

theorem collected_perform (collects : engine.sink = .collect)
    (inner : ∀ text, Collected (nested text).entries) (script : Script) :
    Collected (engine.perform nested depth script).entries := by
  induction script with
  | answer text => rfl
  | decline => rfl
  | fail fault => rfl
  | expand text next inductionHypothesis =>
    exact (inner text).append (inductionHypothesis (nested text).outcome)
  | convert text next inductionHypothesis =>
    exact inductionHypothesis (engine.convertText text).outcome
  | report report next inductionHypothesis =>
    exact (collected_handOver collects report).append
      (inductionHypothesis (engine.handOver report).outcome)
  | askDepth next inductionHypothesis => exact inductionHypothesis depth
  | askTags next inductionHypothesis => exact inductionHypothesis engine.tags.features

theorem collected_spreads (collects : engine.sink = .collect)
    (inner : ∀ text, Collected (nested text).entries) :
    Spreads engine nested depth fun run => Collected run.entries where
  done _ := rfl
  andThen := collected_andThen
  handOver := collected_handOver collects
  logAll := collected_logAll
  convertText _ := rfl
  arrangeText _ := rfl
  replace definition _ parameter baseline := by
    unfold replace
    split
    · rfl
    · rename_i handler _
      have called (call : Call) : Collected (Journal.write (.called call) : Run Unit).entries := rfl
      exact collected_andThen (called _) fun _ =>
        collected_andThen (collected_perform collects inner _) fun _ => rfl
  nested := inner

theorem collected_expandAt (collects : engine.sink = .collect) (depth : Nat) (text : Text) :
    Collected (engine.expandAt depth text).entries := by
  induction depth using engine.expandAt_induction generalizing text with
  | limit depth reached =>
    rw [expandAt_of_le engine reached]
    exact collected_andThen (collected_handOver collects _) fun _ =>
      collected_andThen rfl fun _ => rfl
  | deeper depth below inductionHypothesis =>
    rw [expandAt_of_lt engine below]
    have inside : Collected (engine.expandPieces (engine.expandAt (depth + 1)) (depth + 1) 0
        (Scan.pieces engine.tags text)).entries :=
      (collected_spreads collects inductionHypothesis).expandPieces 0
        fun _ _ _ member => knows_of_mem_pieces member
    have entered : Collected [.entered] := rfl
    have left : Collected [.left] := rfl
    exact entered.append (inside.append left)

/-- A sink that takes up diagnostics has those of the reports. -/
theorem diagnostics_expandAt (collects : engine.sink = .collect) (depth : Nat) (text : Text) :
    (engine.expandAt depth text).diagnostics =
      (engine.expandAt depth text).reports.filterMap Report.diagnosis? :=
  collected_expandAt collects depth text

end Engine

end TagExpansion
