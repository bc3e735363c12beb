import TagExpansion.Proofs.Machine
import TagExpansion.Proofs.Tiling

/-
This file proves what the limit of nesting is for.

Texts that are nested in one another need not get shorter: an abbreviation may stand for a
text that uses it again, and a handler may have any text expanded. What gets less is the
number of expansions that may still be entered. So an expansion ends, no handler ever runs
deeper than the limit, and a text that is to be expanded at the limit is converted and
reported once instead.

The depth is put back by every expansion, however it ends. A run therefore leaves no trace
that a later one could notice, and several texts on one engine come out as each of them
would on an engine of its own. When a run fails, somebody outside of the expansion has
failed: a handler on its own account, an adapter, or the sink.
-/

namespace TagExpansion

open Tag (Definition Script)

/-- The calls of a run are told by its events. -/
theorem Run.mem_calls_iff {α : Type} {run : Run α} {call : Call} :
    call ∈ run.calls ↔ .called call ∈ run.entries := by
  rw [Run.calls, List.mem_filterMap]
  constructor
  · rintro ⟨event, member, isCall⟩
    cases event with
    | called other =>
      cases isCall
      exact member
    | _ => cases isCall
  · intro member
    exact ⟨.called call, member, rfl⟩

/-- The reports of a run are told by its events. -/
theorem Run.mem_reports_iff {α : Type} {run : Run α} {report : Report} :
    report ∈ run.reports ↔ .reported report ∈ run.entries := by
  rw [Run.reports, List.mem_filterMap]
  constructor
  · rintro ⟨event, member, isReport⟩
    cases event with
    | reported other =>
      cases isReport
      exact member
    | _ => cases isReport
  · intro member
    exact ⟨.reported report, member, rfl⟩

namespace Engine

theorem knows_of_mem_pieces {engine : Engine} {text letters : Text} {definition : Definition}
    {argument : Scan.Argument}
    (member : .tag definition letters argument ∈ Scan.pieces engine.tags text) :
    engine.Knows definition := by
  obtain ⟨rest, names⟩ := Scan.names_of_mem_pieces member
  exact ⟨letters, names.registered⟩

/-! ### Properties of the events -/

/-- A property of the events of an expansion that finds a given depth: it holds of what the
expansion writes by itself one level deeper, is kept when events follow one another, and passes
from an expansion inside to the one around it. -/
structure Records (engine : Engine) (holds : Nat → List Event → Prop) : Prop where
  nil : ∀ {depth}, holds depth []
  append : ∀ {depth front back}, holds depth front → holds depth back → holds depth (front ++ back)
  converted : ∀ {depth} text, holds depth [.converted text]
  arranged : ∀ {depth} text, holds depth [.arranged text]
  reported : ∀ {depth} report, holds depth [.reported report]
  noticed : ∀ {depth} notice, holds depth [.noticed notice]
  called : ∀ {depth}, depth < engine.maxDepth → ∀ name parameter baseline,
    holds depth [.called ⟨name, parameter, baseline, depth + 1⟩]
  told : ∀ {depth}, depth < engine.maxDepth → holds depth [.told (depth + 1)]
  outward : ∀ {depth events}, holds (depth + 1) events → holds depth events
  enclosed : ∀ {depth events}, holds depth events → holds depth (.entered :: events ++ [.left])

namespace Records

variable {engine : Engine} {holds : Nat → List Event → Prop}

theorem andThen (records : Records engine holds) {depth : Nat} {α β : Type} {first : Run α}
    {next : α → Run β} (before : holds depth first.entries)
    (after : ∀ value, holds depth (next value).entries) :
    holds depth (first.andThen next).entries := by
  cases ended : first.outcome with
  | ok value =>
    rw [Journal.andThen_of_ok ended]
    exact records.append before (after value)
  | error fault =>
    rw [Journal.andThen_of_error ended]
    exact before

theorem notices (records : Records engine holds) {depth : Nat} (notices : List Notice) :
    holds depth (notices.map .noticed) := by
  induction notices with
  | nil => exact records.nil
  | cons notice rest inductionHypothesis =>
    exact records.append (records.noticed notice) inductionHypothesis

theorem handOver (records : Records engine holds) {depth : Nat} (report : Report) :
    holds depth (engine.handOver report).entries :=
  records.andThen (records.reported report) fun _ => records.notices _

theorem perform (records : Records engine holds) {depth : Nat} (below : depth < engine.maxDepth)
    {nested : Text → Run Text} (inner : ∀ text, holds (depth + 1) (nested text).entries)
    (script : Script) : holds depth (engine.perform nested (depth + 1) script).entries := by
  induction script with
  | answer text => exact records.nil
  | decline => exact records.nil
  | fail fault => exact records.nil
  | expand text next inductionHypothesis =>
    exact records.append (records.outward (inner text)) (inductionHypothesis (nested text).outcome)
  | convert text next inductionHypothesis =>
    exact records.append (records.converted text)
      (inductionHypothesis (engine.convertText text).outcome)
  | report report next inductionHypothesis =>
    exact records.append (records.handOver report)
      (inductionHypothesis (engine.handOver report).outcome)
  | askDepth next inductionHypothesis =>
    exact records.append (records.told below) (inductionHypothesis (depth + 1))
  | askTags next inductionHypothesis => exact inductionHypothesis engine.tags.features

theorem spreads (records : Records engine holds) {depth : Nat} (below : depth < engine.maxDepth)
    {nested : Text → Run Text} (inner : ∀ text, holds (depth + 1) (nested text).entries) :
    Spreads engine nested (depth + 1) fun run => holds depth run.entries where
  done _ := records.nil
  andThen := records.andThen
  handOver := records.handOver
  logAll entries := by
    have logged : holds depth ((entries.map Notice.logged).map .noticed) := records.notices _
    rw [List.map_map] at logged
    exact logged
  convertText := records.converted
  arrangeText := records.arranged
  replace definition _ parameter baseline := by
    unfold replace
    split
    · exact records.nil
    · exact records.andThen (records.called below _ _ _) fun _ =>
        records.andThen (records.perform below inner _) fun _ => records.nil
  nested text := records.outward (inner text)

/-- The property holds of the events of every expansion. -/
theorem expandAt (records : Records engine holds) (depth : Nat) (text : Text) :
    holds depth (engine.expandAt depth text).entries := by
  induction depth using engine.expandAt_induction generalizing text with
  | limit depth reached =>
    rw [expandAt_of_le engine reached]
    exact records.andThen (records.handOver _) fun _ =>
      records.andThen (records.converted text) records.arranged
  | deeper depth below inductionHypothesis =>
    rw [expandAt_of_lt engine below]
    exact records.enclosed ((records.spreads below inductionHypothesis).expandPieces 0
      fun _ _ _ member => knows_of_mem_pieces member)

end Records

/-! ### How deep handlers run -/

/-- What an event tells about the depth lies between two bounds. -/
def Between (least greatest : Nat) : Event → Prop
  | .called call => least ≤ call.depth ∧ call.depth ≤ greatest
  | .told depth => least ≤ depth ∧ depth ≤ greatest
  | _ => True

theorem Between.outward {least greatest : Nat} {event : Event}
    (between : Between (least + 1) greatest event) : Between least greatest event := by
  cases event with
  | called call => exact ⟨Nat.le_of_succ_le between.1, between.2⟩
  | told depth => exact ⟨Nat.le_of_succ_le between.1, between.2⟩
  | entered => trivial
  | left => trivial
  | converted text => trivial
  | arranged text => trivial
  | reported report => trivial
  | noticed notice => trivial

/-- Handlers run deeper than the expansion that they belong to, and never deeper than the limit. -/
theorem records_between (engine : Engine) : Records engine fun depth events =>
    ∀ event ∈ events, Between (depth + 1) engine.maxDepth event where
  nil := by simp
  append front back event member := (List.mem_append.mp member).elim (front event) (back event)
  converted := by simp [Between]
  arranged := by simp [Between]
  reported := by simp [Between]
  noticed := by simp [Between]
  called below name parameter baseline event member := by
    rw [List.mem_singleton.mp member]
    exact ⟨Nat.le_refl _, below⟩
  told below event member := by
    rw [List.mem_singleton.mp member]
    exact ⟨Nat.le_refl _, below⟩
  outward inner event member := (inner event member).outward
  enclosed inner event member := by
    simp only [List.mem_cons, List.mem_append, List.not_mem_nil, or_false] at member
    rcases member with (rfl | inside) | rfl
    · trivial
    · exact inner event inside
    · trivial

/-! ### The depth is put back -/

theorem depthFrom_append (start : Nat) (front back : List Event) :
    Event.depthFrom start (front ++ back) = Event.depthFrom (Event.depthFrom start front) back :=
  List.foldl_append

/-- The events of an expansion leave the depth as they find it. -/
theorem records_depthFrom (engine : Engine) : Records engine fun _ events =>
    ∀ start, Event.depthFrom start events = start where
  nil _ := rfl
  append front back start := by rw [depthFrom_append, front, back]
  converted _ _ := rfl
  arranged _ _ := rfl
  reported _ _ := rfl
  noticed _ _ := rfl
  called _ _ _ _ _ := rfl
  told _ _ := rfl
  outward inner := inner
  enclosed {_ events} inner start := by
    rw [depthFrom_append]
    show Event.depthFrom (Event.depthFrom (start + 1) events) [.left] = start
    rw [inner]
    rfl

/-! ### Where failures come from -/

/-- A script that runs at some depth gives up with a fault of its own: it has not been handed that
fault for anything that it asked for. -/
def GivesUp (engine : Engine) (depth : Nat) (fault : Fault) : Script → Prop
  | .answer _ => False
  | .decline => False
  | .fail other => other = fault
  | .expand text next =>
    (engine.expandAt depth text).outcome ≠ .error fault ∧
      engine.GivesUp depth fault (next (engine.expandAt depth text).outcome)
  | .convert text next =>
    (engine.convertText text).outcome ≠ .error fault ∧
      engine.GivesUp depth fault (next (engine.convertText text).outcome)
  | .report report next =>
    (engine.handOver report).outcome ≠ .error fault ∧
      engine.GivesUp depth fault (next (engine.handOver report).outcome)
  | .askDepth next => engine.GivesUp depth fault (next depth)
  | .askTags next => engine.GivesUp depth fault (next engine.tags.features)

/-- In the course of some events, somebody outside of the expansion gave up with a fault: the
handler of a call, the sink that got a report, or an adapter that got a text. -/
inductive Blames (engine : Engine) (events : List Event) (fault : Fault) : Prop where
  | handler {call : Call} {definition : Definition} {handler : Tag.Handler}
      (member : .called call ∈ events) (known : engine.Knows definition)
      (name : definition.name = call.name) (isHandler : definition.handler = some handler)
      (raises : engine.GivesUp call.depth fault
        (handler call.name call.parameter call.baseline))
  | sink {report : Report} (member : .reported report ∈ events)
      (raises : (engine.sink report).outcome = .error fault)
  | converter {text : Text} (member : .converted text ∈ events)
      (raises : engine.convert text = .error fault)
  | paragraphs {text : Text} (member : .arranged text ∈ events)
      (raises : engine.setParagraphs text = .error fault)

theorem Blames.mono {engine : Engine} {events more : List Event} {fault : Fault}
    (blames : engine.Blames events fault) (included : events ⊆ more) :
    engine.Blames more fault := by
  cases blames with
  | handler member known name isHandler raises =>
    exact .handler (included member) known name isHandler raises
  | sink member raises => exact .sink (included member) raises
  | converter member raises => exact .converter (included member) raises
  | paragraphs member raises => exact .paragraphs (included member) raises

/-- A run that fails has somebody to blame. -/
def Excused (engine : Engine) {α : Type} (run : Run α) : Prop :=
  ∀ fault, run.outcome = .error fault → engine.Blames run.entries fault

theorem excused_andThen {engine : Engine} {α β : Type} {first : Run α} {next : α → Run β}
    (before : engine.Excused first) (after : ∀ value, engine.Excused (next value)) :
    engine.Excused (first.andThen next) := by
  intro fault failed
  cases ended : first.outcome with
  | ok value =>
    rw [Journal.andThen_of_ok ended] at failed ⊢
    exact (after value fault failed).mono (List.subset_append_right _ _)
  | error other =>
    rw [Journal.andThen_of_error ended] at failed ⊢
    cases failed
    exact before fault ended

theorem excused_handOver (engine : Engine) (report : Report) :
    engine.Excused (engine.handOver report) := by
  intro fault failed
  exact .sink List.mem_cons_self failed

theorem excused_convertText (engine : Engine) (text : Text) :
    engine.Excused (engine.convertText text) := by
  intro fault failed
  exact .converter List.mem_cons_self failed

theorem excused_arrangeText (engine : Engine) (text : Text) :
    engine.Excused (engine.arrangeText text) := by
  intro fault failed
  exact .paragraphs List.mem_cons_self failed

/-- A script fails by what it asked for or on its own account. -/
theorem blames_or_givesUp_of_perform {engine : Engine} {depth : Nat}
    (inner : ∀ text, engine.Excused (engine.expandAt depth text)) {script : Script} {fault : Fault}
    (failed : (engine.perform (engine.expandAt depth) depth script).outcome = .error fault) :
    engine.Blames (engine.perform (engine.expandAt depth) depth script).entries fault ∨
      engine.GivesUp depth fault script := by
  induction script with
  | answer text => cases failed
  | decline => cases failed
  | fail other =>
    cases failed
    exact .inr rfl
  | expand text next inductionHypothesis =>
    by_cases handed : (engine.expandAt depth text).outcome = .error fault
    · exact .inl ((inner text fault handed).mono (List.subset_append_left _ _))
    · refine (inductionHypothesis _ failed).imp (fun blames => ?_) fun own => ⟨handed, own⟩
      exact blames.mono (List.subset_append_right _ _)
  | convert text next inductionHypothesis =>
    by_cases handed : (engine.convertText text).outcome = .error fault
    · exact .inl ((excused_convertText engine text fault handed).mono (List.subset_append_left _ _))
    · refine (inductionHypothesis _ failed).imp (fun blames => ?_) fun own => ⟨handed, own⟩
      exact blames.mono (List.subset_append_right _ _)
  | report report next inductionHypothesis =>
    by_cases handed : (engine.handOver report).outcome = .error fault
    · exact .inl ((excused_handOver engine report fault handed).mono (List.subset_append_left _ _))
    · refine (inductionHypothesis _ failed).imp (fun blames => ?_) fun own => ⟨handed, own⟩
      exact blames.mono (List.subset_append_right _ _)
  | askDepth next inductionHypothesis =>
    refine (inductionHypothesis depth failed).imp (fun blames => ?_) id
    exact blames.mono (List.subset_append_right [Event.told depth] _)
  | askTags next inductionHypothesis => exact inductionHypothesis engine.tags.features failed

theorem excused_replace {engine : Engine} {depth : Nat}
    (inner : ∀ text, engine.Excused (engine.expandAt depth text)) {definition : Definition}
    (known : engine.Knows definition) (parameter baseline : Text) :
    engine.Excused
      (engine.replace (engine.expandAt depth) depth definition parameter baseline) := by
  intro fault failed
  unfold replace at failed ⊢
  cases isHandler : definition.handler with
  | none =>
    rw [isHandler] at failed
    cases failed
  | some handler =>
    simp only [isHandler, Journal.bind_eq_andThen, Journal.pure_eq_done,
      ← Journal.map_eq_andThen] at failed ⊢
    have performed : (engine.perform (engine.expandAt depth) depth
        (handler definition.name parameter baseline)).outcome = .error fault :=
      Journal.outcome_map_eq_error_iff.mp failed
    rcases blames_or_givesUp_of_perform inner performed with blames | own
    · exact blames.mono (List.subset_cons_self _ _)
    · exact .handler List.mem_cons_self known rfl isHandler own

theorem excused_spreads {engine : Engine} {depth : Nat}
    (inner : ∀ text, engine.Excused (engine.expandAt depth text)) :
    Spreads engine (engine.expandAt depth) depth engine.Excused where
  done _ _ failed := by cases failed
  andThen := excused_andThen
  handOver := excused_handOver engine
  logAll _ _ failed := by cases failed
  convertText := excused_convertText engine
  arrangeText := excused_arrangeText engine
  replace _ known := excused_replace inner known
  nested := inner

/-- An expansion fails only where a handler, an adapter or the sink does. -/
theorem excused_expandAt (engine : Engine) (depth : Nat) (text : Text) :
    engine.Excused (engine.expandAt depth text) := by
  induction depth using engine.expandAt_induction generalizing text with
  | limit depth reached =>
    rw [expandAt_of_le engine reached]
    exact excused_andThen (excused_handOver engine _) fun _ =>
      excused_andThen (excused_convertText engine text) (excused_arrangeText engine)
  | deeper depth below inductionHypothesis =>
    rw [expandAt_of_lt engine below]
    intro fault failed
    have inside := (excused_spreads inductionHypothesis).expandPieces 0
      (fun _ _ _ member => knows_of_mem_pieces member) fault failed
    refine inside.mono fun event member => ?_
    exact List.mem_cons_of_mem _ (List.mem_append_left _ member)

/-! ### At the limit -/

theorem reports_handOver (engine : Engine) (report : Report) :
    (engine.handOver report).reports = [report] := by
  have silent : ((engine.sink report).entries.map Event.noticed).filterMap Event.report? = [] := by
    rw [List.filterMap_map, List.filterMap_eq_nil_iff]
    intro notice _
    rfl
  show report :: ((engine.sink report).entries.map Event.noticed).filterMap Event.report? = [report]
  rw [silent]

theorem calls_handOver (engine : Engine) (report : Report) :
    (engine.handOver report).calls = [] := by
  show ((engine.sink report).entries.map Event.noticed).filterMap Event.call? = []
  rw [List.filterMap_map, List.filterMap_eq_nil_iff]
  intro notice _
  rfl

/-- At the limit the machine is done with a text in one step. -/
theorem Machine.step_of_le {engine : Engine} {machine : Machine} {text : Text}
    (task : machine.task = .expand text) (reached : engine.maxDepth ≤ machine.depth) :
    machine.step engine = some { machine with
      task := .finish (engine.expandAt machine.depth text).outcome
      events := machine.events ++ (engine.expandAt machine.depth text).entries } := by
  rw [expandAt_of_le engine reached]
  unfold step
  simp only [task, enter, if_pos reached, after, Journal.bind_eq_andThen]
  cases ((engine.handOver engine.nestingTooDeep).andThen fun _ =>
    engine.convertSegment text).outcome with
  | ok result => rfl
  | error fault => rfl

/-- The conversion of a segment tells of nothing but the adapters. -/
theorem filterMap_entries_convertSegment (engine : Engine) {α : Type} (read : Event → Option α)
    (silent : ∀ text, read (.converted text) = none ∧ read (.arranged text) = none)
    (text : Text) : (engine.convertSegment text).entries.filterMap read = [] := by
  cases ended : (engine.convertText text).outcome with
  | ok converted =>
    rw [convertSegment, Journal.bind_eq_andThen, Journal.andThen_of_ok ended]
    show [Event.converted text, .arranged converted].filterMap read = []
    rw [List.filterMap_cons_none (silent text).1, List.filterMap_cons_none (silent converted).2]
    rfl
  | error fault =>
    rw [convertSegment, Journal.bind_eq_andThen, Journal.andThen_of_error ended]
    show [Event.converted text].filterMap read = []
    rw [List.filterMap_cons_none (silent text).1]
    rfl

/-- At the limit there are no calls and one report, and the text is converted unless the sink gives
up. -/
theorem run_of_le {engine : Engine} {depth : Nat} (reached : engine.maxDepth ≤ depth)
    (text : Text) :
    (engine.expandAt depth text).calls = [] ∧
      (engine.expandAt depth text).reports = [engine.nestingTooDeep] ∧
      (engine.expandAt depth text).outcome =
        (engine.sink engine.nestingTooDeep).outcome >>= fun _ =>
          engine.convert text >>= engine.setParagraphs := by
  rw [expandAt_of_le engine reached]
  have calls := calls_handOver engine engine.nestingTooDeep
  have reports := reports_handOver engine engine.nestingTooDeep
  have same : (engine.sink engine.nestingTooDeep).outcome =
      (engine.handOver engine.nestingTooDeep).outcome := rfl
  rw [same]
  cases ended : (engine.handOver engine.nestingTooDeep).outcome with
  | ok value =>
    rw [Journal.andThen_of_ok ended]
    refine ⟨?_, ?_, ?_⟩
    · show ((engine.handOver engine.nestingTooDeep).entries ++ _).filterMap Event.call? = []
      rw [List.filterMap_append, filterMap_entries_convertSegment engine _ fun _ => ⟨rfl, rfl⟩,
        List.append_nil]
      exact calls
    · show ((engine.handOver engine.nestingTooDeep).entries ++ _).filterMap Event.report? = _
      rw [List.filterMap_append, filterMap_entries_convertSegment engine _ fun _ => ⟨rfl, rfl⟩,
        List.append_nil]
      exact reports
    · exact outcome_convertSegment engine text
  | error fault =>
    rw [Journal.andThen_of_error ended]
    exact ⟨calls, reports, rfl⟩

/-- What the limit of nesting is for, told of a text that is expanded at some depth. -/
structure Confined (engine : Engine) (depth : Nat) (text : Text) : Prop where
  /-- After finitely many steps there is an outcome, -/
  reaches : Machine.Reaches engine ⟨depth, .expand text, [], []⟩
    ⟨depth, .finish (engine.expandAt depth text).outcome, [],
      (engine.expandAt depth text).entries⟩
  /-- and nothing is left to be done. -/
  stops : Machine.step engine ⟨depth, .finish (engine.expandAt depth text).outcome, [],
    (engine.expandAt depth text).entries⟩ = none
  /-- Handlers are called deeper than the text, and not deeper than the limit. -/
  called : ∀ call ∈ (engine.expandAt depth text).calls,
    depth + 1 ≤ call.depth ∧ call.depth ≤ engine.maxDepth
  /-- The same holds of every depth that a handler is told. -/
  told : ∀ answer, .told answer ∈ (engine.expandAt depth text).entries →
    depth + 1 ≤ answer ∧ answer ≤ engine.maxDepth
  /-- At no time is the engine deeper than the limit. -/
  within : ∀ machine, Machine.Reaches engine ⟨depth, .expand text, [], []⟩ machine →
    depth ≤ machine.depth ∧ machine.depth ≤ engine.maxDepth
  /-- A text that is to be expanded at the limit is done with in one step: no handler is called,
  there is one report, and the outcome is the converted text unless the sink gives up. -/
  atLimit : ∀ machine inner, Machine.Reaches engine ⟨depth, .expand text, [], []⟩ machine →
    machine.task = .expand inner → machine.depth = engine.maxDepth →
    ∃ run : Run Text,
      machine.step engine = some { machine with
        task := .finish run.outcome, events := machine.events ++ run.entries } ∧
      run.calls = [] ∧ run.reports = [engine.nestingTooDeep] ∧
      run.outcome = (engine.sink engine.nestingTooDeep).outcome >>= fun _ =>
        engine.convert inner >>= engine.setParagraphs
  /-- A failure is that of a handler, an adapter or the sink. -/
  blames : ∀ fault, (engine.expandAt depth text).outcome = .error fault →
    engine.Blames (engine.expandAt depth text).entries fault

/-- Below the limit every text is expanded to an end, within the limit. -/
theorem confined_of_lt (engine : Engine) {depth : Nat} (below : depth < engine.maxDepth)
    (text : Text) : engine.Confined depth text where
  reaches := Machine.ends_expand engine depth text [] []
  stops := rfl
  called _ member := (records_between engine).expandAt depth text _ (Run.mem_calls_iff.mp member)
  told _ member := (records_between engine).expandAt depth text _ member
  within machine reaches :=
    have within := Machine.within_of_reaches (Nat.le_of_lt below) reaches
    ⟨within.least_le, within.le_greatest⟩
  atLimit machine inner _ task reached := by
    refine ⟨_, Machine.step_of_le task reached.ge, ?_⟩
    exact run_of_le reached.ge inner
  blames := excused_expandAt engine depth text

/-- An abbreviation that stands for itself between tags does no harm. -/
theorem confined_of_circular_abbreviation :
    let engine : Engine := {
      tags := .builtin .plain
      abbreviations := .ofList [("x".toList, "@bold(x)".toList)] }
    0 < engine.maxDepth ∧ engine.Confined 0 "@bold(x)".toList :=
  ⟨by decide, confined_of_lt _ (by decide) _⟩

end Engine

/-! ### One engine for several texts -/

namespace Session

@[simp] theorem engine_run (session : Session) (text : Text) :
    (session.run text).2.engine = session.engine := rfl

/-- A run, however it ends, leaves the depth as it finds it. -/
@[simp] theorem depth_run (session : Session) (text : Text) :
    (session.run text).2.depth = session.depth := by
  show Event.depthFrom 0 (session.history ++ _) = session.depth
  rw [Engine.depthFrom_append]
  exact (Engine.records_depthFrom session.engine).expandAt session.depth text session.depth

@[simp] theorem engine_runAll (session : Session) (texts : List Text) :
    (session.runAll texts).2.engine = session.engine := by
  induction texts generalizing session with
  | nil => rfl
  | cons text others inductionHypothesis =>
    show ((session.run text).2.runAll others).2.engine = session.engine
    rw [inductionHypothesis, engine_run]

@[simp] theorem depth_runAll (session : Session) (texts : List Text) :
    (session.runAll texts).2.depth = session.depth := by
  induction texts generalizing session with
  | nil => rfl
  | cons text others inductionHypothesis =>
    show ((session.run text).2.runAll others).2.depth = session.depth
    rw [inductionHypothesis, depth_run]

/-- What becomes of a text depends on the engine and the depth, and on nothing that has happened
before. -/
theorem run_eq_of_depth_eq {session other : Session} (sameEngine : session.engine = other.engine)
    (sameDepth : session.depth = other.depth) (text : Text) :
    (session.run text).1 = (other.run text).1 := by
  show session.engine.expandAt session.depth text = other.engine.expandAt other.depth text
  rw [sameEngine, sameDepth]

theorem runAll_eq_map_run (session : Session) (texts : List Text) :
    (session.runAll texts).1 = texts.map fun text => (session.run text).1 := by
  induction texts generalizing session with
  | nil => rfl
  | cons text others inductionHypothesis =>
    show (session.run text).1 :: ((session.run text).2.runAll others).1 = _
    rw [inductionHypothesis, List.map_cons]
    congr 1
    refine List.map_congr_left fun later _ => ?_
    exact run_eq_of_depth_eq (engine_run session text) (depth_run session text) later

/-- Texts that are expanded one after the other come out as each of them would on an engine of
its own. The depth is zero before and after each of them, and every expansion that the machine
carries out, inside another one or not, puts back the depth that it found, whatever its outcome. -/
theorem runAll_eq_map_fresh (engine : Engine) (texts : List Text) :
    (runAll { engine } texts).1 = texts.map (fun text => (run { engine } text).1) ∧
      (∀ front text back, texts = front ++ text :: back →
        let before := (runAll { engine } front).2
        let after := (before.run text).2
        before.depth = 0 ∧ after.depth = 0 ∧
          (before.run text).1 = (run { engine } text).1 ∧
          Engine.Machine.Reaches engine ⟨before.depth, .expand text, [], before.history⟩
            ⟨after.depth, .finish (before.run text).1.outcome, [], after.history⟩) ∧
      ∀ depth text stack events, ∃ outcome written,
        Engine.Machine.Reaches engine ⟨depth, .expand text, stack, events⟩
          ⟨depth, .finish outcome, stack, events ++ written⟩ := by
  refine ⟨runAll_eq_map_run _ texts, ?_, ?_⟩
  · intro front text back _ before after
    have sameEngine : before.engine = engine := engine_runAll _ front
    have atStart : before.depth = 0 := depth_runAll _ front
    have atEnd : after.depth = before.depth := depth_run before text
    refine ⟨atStart, atEnd.trans atStart, run_eq_of_depth_eq sameEngine atStart text, ?_⟩
    have reaches := Engine.Machine.ends_expand before.engine before.depth text [] before.history
    rw [sameEngine] at reaches
    rw [atEnd]
    show Engine.Machine.Reaches engine _ ⟨before.depth,
      .finish (before.engine.expandAt before.depth text).outcome, [],
      before.history ++ (before.engine.expandAt before.depth text).entries⟩
    rw [sameEngine]
    exact reaches
  · intro depth text stack events
    exact ⟨_, _, Engine.Machine.ends_expand engine depth text stack events⟩

end Session

end TagExpansion
