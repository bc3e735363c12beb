import TagExpansion.Proofs.Expansion
import Mathlib.Logic.Relation

/-
This file carries an expansion out step by step, with one depth for the whole engine.

An expansion as a value says at which depth each of its parts runs, because the depth is
handed down. An engine at work has a single depth instead: it goes up when an expansion is
entered, everybody reads it, and it must be put back when the expansion is left, also when
that happens by a failure that passes through several expansions on its way out. Whether an
expansion is entered at all is decided by that depth. So it is a question whether the engine
ever stops, and whether the depth is right at any time.

The machine here has the depth, a stack of what is waiting for the current step to end, and
the events so far. It does one thing at a time. The main statement is that it agrees with the
expansion as a value: from any depth and above any stack, a text that is to be expanded is
expanded in finitely many steps, with the events and the outcome that its expansion has, and
with the depth and the stack as they were.
-/

namespace TagExpansion.Engine

open Tag (Definition Script)
open Scan (Piece)

/-- What waits for the current step to end. -/
inductive Frame where
  /-- An expansion is to be left, and the depth that it found to be put back. -/
  | restore (depth : Nat)
  /-- More pieces follow, the first of which starts at the given position. -/
  | pieces (start : Nat) (written : Text) (others : List Piece)
  /-- A tag waits for its expanded parameter. -/
  | parameter (definition : Definition)
  /-- A handler waits for a text that it has expanded. -/
  | script (baseline : Text) (next : Except Fault Text → Script)

/-- What is to be done next. -/
inductive Task where
  /-- Expand a text. -/
  | expand (text : Text)
  /-- Go through pieces, the first of which starts at the given position. -/
  | pieces (start : Nat) (written : Text) (others : List Piece)
  /-- Replace a tag that has the given parameter in the text. -/
  | tag (definition : Definition) (parameter : Text)
  /-- Replace a tag whose parameter is ready. -/
  | ready (definition : Definition) (parameter : Text)
  /-- Call the handler of a tag. -/
  | call (definition : Definition) (parameter baseline : Text)
  /-- Follow the script of a handler. -/
  | script (baseline : Text) (script : Script)
  /-- Hand an outcome to what waits for it. -/
  | finish (outcome : Except Fault Text)

/-- An engine at work. -/
structure Machine where
  depth : Nat
  task : Task
  stack : List Frame
  events : List Event

namespace Machine

/-- Does what has no steps of its own, and goes on with its value; a failure is the outcome. -/
def after {α : Type} (machine : Machine) (run : Run α) (next : α → Task) : Machine :=
  { machine with
    task := match run.outcome with
      | .ok value => next value
      | .error fault => .finish (.error fault)
    events := machine.events ++ run.entries }

/-- Starts to expand a text: the depth decides whether its pieces are gone through. -/
def enter (engine : Engine) (machine : Machine) (text : Text) : Machine :=
  if engine.maxDepth ≤ machine.depth then
    machine.after (do
      engine.handOver engine.nestingTooDeep
      engine.convertSegment text) fun result => .finish (.ok result)
  else
    { depth := machine.depth + 1
      task := .pieces 0 [] (Scan.pieces engine.tags text)
      stack := .restore machine.depth :: machine.stack
      events := machine.events ++ [.entered] }

/-- Starts with a piece. Of a tag nothing but the argument is looked at yet. -/
def takePiece (engine : Engine) (machine : Machine) (start : Nat) (written : Text)
    (others : List Piece) (piece : Piece) : Machine :=
  let stop := start + piece.source.length
  match piece with
  | .segment text =>
    machine.after (do
      engine.reportSegment text
      engine.convertSegment text) fun part => .pieces stop (written ++ part) others
  | .escape => { machine with task := .pieces stop (written ++ [Scan.tagChar]) others }
  | .tag definition letters argument =>
    { machine with stack := .pieces stop written others :: machine.stack }.after (do
      engine.reportArgument letters argument
      Run.log (occurrenceEntry definition.name start stop argument.parameter))
      fun _ => .tag definition argument.parameter

/-- Gets the parameter of a tag ready. -/
def takeTag (engine : Engine) (machine : Machine) (definition : Definition) (parameter : Text) :
    Machine :=
  if parameter.isEmpty then
    machine.after (engine.baselineWithout definition.name)
      fun baseline => .call definition parameter baseline
  else if definition.requiresParameter then
    let resolved := engine.abbreviations.resolve parameter
    let resolution : Run Unit := Run.logAll (engine.abbreviations.resolutionLog parameter)
    if definition.expandsParameter then
      { machine with stack := .parameter definition :: machine.stack }.after resolution
        fun _ => .expand resolved
    else machine.after resolution fun _ => .ready definition resolved
  else
    machine.after (engine.handOver (unexpectedParameters definition.name))
      fun _ => .ready definition parameter

/-- Calls a handler, which is told nothing of the depth but may ask for it. -/
def callHandler (machine : Machine) (definition : Definition) (parameter baseline : Text) :
    Machine :=
  match definition.handler with
  | none => { machine with task := .finish (.ok baseline) }
  | some handler =>
    { machine with
      task := .script baseline (handler definition.name parameter baseline)
      events := machine.events ++
        [.called ⟨definition.name, parameter, baseline, machine.depth⟩] }

/-- Follows a script up to the next thing that it asks for. -/
def follow (engine : Engine) (machine : Machine) (baseline : Text) : Script → Machine
  | .answer text => { machine with task := .finish (.ok text) }
  | .decline => { machine with task := .finish (.ok baseline) }
  | .fail fault => { machine with task := .finish (.error fault) }
  | .expand text next =>
    { machine with task := .expand text, stack := .script baseline next :: machine.stack }
  | .convert text next =>
    { machine with
      task := .script baseline (next (engine.convertText text).outcome)
      events := machine.events ++ (engine.convertText text).entries }
  | .report report next =>
    { machine with
      task := .script baseline (next (engine.handOver report).outcome)
      events := machine.events ++ (engine.handOver report).entries }
  | .askDepth next =>
    { machine with
      task := .script baseline (next machine.depth)
      events := machine.events ++ [.told machine.depth] }
  | .askTags next => { machine with task := .script baseline (next engine.tags.features) }

/-- Hands an outcome to what waited for it. An expansion that is left puts its depth back whatever
the outcome; apart from that only a handler stops a failure on its way out. -/
def deliver (machine : Machine) (outcome : Except Fault Text) : Frame → Machine
  | .restore depth =>
    { machine with depth, task := .finish outcome, events := machine.events ++ [.left] }
  | .pieces start written others =>
    machine.after (.ofOutcome outcome) fun part => .pieces start (written ++ part) others
  | .parameter definition =>
    machine.after (.ofOutcome outcome) fun parameter => .ready definition parameter
  | .script baseline next => { machine with task := .script baseline (next outcome) }

/-- One step. There is none when an outcome is there and nothing waits for it. -/
def step (engine : Engine) (machine : Machine) : Option Machine :=
  match machine.task with
  | .expand text => some (machine.enter engine text)
  | .pieces _ written [] => some { machine with task := .finish (.ok written) }
  | .pieces start written (piece :: others) =>
    some (machine.takePiece engine start written others piece)
  | .tag definition parameter => some (machine.takeTag engine definition parameter)
  | .ready definition parameter =>
    some (machine.after (engine.baselineWith definition.name parameter)
      fun baseline => .call definition parameter baseline)
  | .call definition parameter baseline =>
    some (machine.callHandler definition parameter baseline)
  | .script baseline script => some (machine.follow engine baseline script)
  | .finish outcome =>
    match machine.stack with
    | [] => none
    | frame :: stack => some ({ machine with stack }.deliver outcome frame)

/-- The machine gets from one state to another in any number of steps. -/
def Reaches (engine : Engine) : Machine → Machine → Prop :=
  Relation.ReflTransGen fun machine next => machine.step engine = some next

/-! ### Agreement -/

/-- At a depth, a task comes to an end as a run says: whatever is waiting and whatever has
happened before, the machine gets to the outcome of the run with the events of the run, and depth
and stack are as they were. -/
def Ends (engine : Engine) (depth : Nat) (task : Task) (run : Run Text) : Prop :=
  ∀ stack events, Reaches engine ⟨depth, task, stack, events⟩
    ⟨depth, .finish run.outcome, stack, events ++ run.entries⟩

variable {engine : Engine} {depth : Nat}

theorem ends_finish (engine : Engine) (depth : Nat) (outcome : Except Fault Text) :
    Ends engine depth (.finish outcome) (.ofOutcome outcome) := by
  intro stack events
  rw [Journal.ofOutcome, List.append_nil]
  exact .refl

/-- A step that writes events and leaves depth and stack alone. -/
theorem ends_of_step {task next : Task} {run : Run Text} (written : List Event)
    (step : ∀ stack events, Machine.step engine ⟨depth, task, stack, events⟩ =
      some ⟨depth, next, stack, events ++ written⟩)
    (rest : Ends engine depth next run) :
    Ends engine depth task ⟨written ++ run.entries, run.outcome⟩ := by
  intro stack events
  refine .head (step stack events) ?_
  have later := rest stack (events ++ written)
  rw [List.append_assoc] at later
  exact later

theorem after_done {α : Type} (value : α) (machine : Machine) (next : α → Task) :
    machine.after (.done value) next = { machine with task := next value } := by
  show { machine with task := next value, events := machine.events ++ [] } = _
  rw [List.append_nil]

/-- What has no steps of its own is done, and the tasks behind it come to their ends. -/
theorem reaches_of_after {α : Type} (run : Run α) {next : α → Task} {rest : α → Run Text}
    (ends : ∀ value, Ends engine depth (next value) (rest value)) (task : Task)
    (stack : List Frame) (events : List Event) :
    Reaches engine (after ⟨depth, task, stack, events⟩ run next)
      ⟨depth, .finish (run.andThen rest).outcome, stack, events ++ (run.andThen rest).entries⟩ := by
  cases ended : run.outcome with
  | ok value =>
    have later := ends value stack (events ++ run.entries)
    rw [List.append_assoc] at later
    rw [Journal.andThen_of_ok ended, after, ended]
    exact later
  | error fault =>
    rw [Journal.andThen_of_error ended, after, ended]
    exact .refl

/-- A step that does what has no steps of its own. -/
theorem ends_of_after {α : Type} {task : Task} {run : Run α} {next : α → Task}
    {rest : α → Run Text}
    (step : ∀ stack events, Machine.step engine ⟨depth, task, stack, events⟩ =
      some (after ⟨depth, task, stack, events⟩ run next))
    (ends : ∀ value, Ends engine depth (next value) (rest value)) :
    Ends engine depth task (run.andThen rest) := by
  intro stack events
  exact .head (step stack events) (reaches_of_after run ends task stack events)

/-- A step that makes something wait for an inner task. -/
theorem ends_of_push {α : Type} {task : Task} {run : Run α} {inner : α → Task}
    {first : α → Run Text} (frame : Frame) (rest : Except Fault Text → Run Text)
    (step : ∀ stack events, Machine.step engine ⟨depth, task, stack, events⟩ =
      some (after ⟨depth, task, frame :: stack, events⟩ run inner))
    (ends : ∀ value, Ends engine depth (inner value) (first value))
    (delivered : ∀ outcome stack events, Reaches engine
      ⟨depth, .finish outcome, frame :: stack, events⟩
      ⟨depth, .finish (rest outcome).outcome, stack, events ++ (rest outcome).entries⟩) :
    Ends engine depth task ((run.andThen first).settle rest) := by
  intro stack events
  have below := (reaches_of_after run ends task (frame :: stack) events).trans (delivered _ stack _)
  rw [List.append_assoc] at below
  exact .head (step stack events) below

section Levels

variable {nested : Text → Run Text}
  (inner : ∀ text, Ends engine depth (.expand text) (nested text))

include inner

/-- Scripts. The induction is on the script: whatever answer the engine gives leads to a smaller
one. -/
theorem ends_script (baseline : Text) (script : Script) :
    Ends engine depth (.script baseline script)
      ((engine.perform nested depth script).map (·.getD baseline)) := by
  induction script with
  | answer text =>
    exact ends_of_step [] (fun stack events => by rw [List.append_nil]; rfl)
      (ends_finish engine depth (.ok text))
  | decline =>
    exact ends_of_step [] (fun stack events => by rw [List.append_nil]; rfl)
      (ends_finish engine depth (.ok baseline))
  | fail fault =>
    exact ends_of_step [] (fun stack events => by rw [List.append_nil]; rfl)
      (ends_finish engine depth (.error fault))
  | expand text next inductionHypothesis =>
    have pushed : Ends engine depth (.script baseline (.expand text next)) _ :=
      ends_of_push (.script baseline next)
        (fun outcome => (engine.perform nested depth (next outcome)).map
          fun answer : Option Text => answer.getD baseline)
        (fun stack events => by rw [after_done ()]; rfl) (fun _ => inner text)
        fun outcome stack events => .head rfl (inductionHypothesis outcome stack events)
    exact pushed
  | convert text next inductionHypothesis =>
    exact ends_of_step (engine.convertText text).entries (fun stack events => rfl)
      (inductionHypothesis (engine.convertText text).outcome)
  | report report next inductionHypothesis =>
    exact ends_of_step (engine.handOver report).entries (fun stack events => rfl)
      (inductionHypothesis (engine.handOver report).outcome)
  | askDepth next inductionHypothesis =>
    exact ends_of_step [.told depth] (fun stack events => rfl) (inductionHypothesis depth)
  | askTags next inductionHypothesis =>
    exact ends_of_step [] (fun stack events => by rw [List.append_nil]; rfl)
      (inductionHypothesis engine.tags.features)

theorem ends_call (definition : Definition) (parameter baseline : Text) :
    Ends engine depth (.call definition parameter baseline)
      (engine.replace nested depth definition parameter baseline) := by
  unfold Engine.replace
  cases isHandler : definition.handler with
  | none =>
    refine ends_of_step [] (fun stack events => ?_) (ends_finish engine depth (.ok baseline))
    simp only [List.append_nil, step, callHandler, isHandler]
  | some handler =>
    have script := ends_script inner baseline (handler definition.name parameter baseline)
    rw [Journal.map_eq_andThen] at script
    refine ends_of_step [.called ⟨definition.name, parameter, baseline, depth⟩]
      (fun stack events => ?_) script
    simp only [step, callHandler, isHandler]

theorem ends_ready (definition : Definition) (parameter : Text) :
    Ends engine depth (.ready definition parameter)
      ((engine.baselineWith definition.name parameter).andThen fun baseline =>
        engine.replace nested depth definition parameter baseline) :=
  ends_of_after (fun _ _ => rfl) fun baseline => ends_call inner definition parameter baseline

theorem ends_tag (definition : Definition) (parameter : Text) :
    Ends engine depth (.tag definition parameter)
      (engine.expandTag nested depth definition parameter) := by
  unfold Engine.expandTag
  by_cases isEmpty : parameter.isEmpty
  · rw [if_pos isEmpty]
    refine ends_of_after (fun stack events => ?_) fun baseline =>
      ends_call inner definition parameter baseline
    simp only [step, takeTag, if_pos isEmpty]
  rw [if_neg isEmpty]
  unfold Engine.prepare
  by_cases required : definition.requiresParameter
  · rw [if_pos required]
    by_cases expands : definition.expandsParameter
    · simp only [if_pos expands, Journal.bind_eq_andThen]
      rw [← Journal.settle_ofOutcome_andThen]
      refine ends_of_push (.parameter definition) _ (fun stack events => ?_)
        (fun _ => inner (engine.abbreviations.resolve parameter)) fun outcome stack events => ?_
      · simp only [step, takeTag, if_neg isEmpty, if_pos required, if_pos expands]
      · exact .head rfl (reaches_of_after (.ofOutcome outcome) (ends_ready inner definition)
          (.finish outcome) stack events)
    · simp only [if_neg expands, Journal.bind_eq_andThen, Journal.pure_eq_done,
        Journal.andThen_assoc, Journal.done_andThen]
      refine ends_of_after (fun stack events => ?_) fun _ => ends_ready inner definition _
      simp only [step, takeTag, if_neg isEmpty, if_pos required, if_neg expands]
  · simp only [if_neg required, Journal.bind_eq_andThen, Journal.pure_eq_done,
      Journal.andThen_assoc, Journal.done_andThen]
    refine ends_of_after (fun stack events => ?_) fun _ => ends_ready inner definition _
    simp only [step, takeTag, if_neg isEmpty, if_neg required]

theorem ends_pieces (start : Nat) (written : Text) (pieces : List Piece) :
    Ends engine depth (.pieces start written pieces)
      ((engine.expandPieces nested depth start pieces).map (written ++ ·)) := by
  induction pieces generalizing start written with
  | nil =>
    rw [expandPieces, Journal.map_eq_andThen, Journal.done_andThen, List.append_nil]
    exact ends_of_step [] (fun stack events => by rw [List.append_nil]; rfl)
      (ends_finish engine depth (.ok written))
  | cons piece others inductionHypothesis =>
    have later (part : Text) : Ends engine depth
        (.pieces (start + piece.source.length) (written ++ part) others)
        (((engine.expandPieces nested depth (start + piece.source.length) others).map
          (part ++ ·)).map (written ++ ·)) := by
      rw [Journal.map_map]
      simp only [← List.append_assoc]
      exact inductionHypothesis _ _
    rw [expandPieces, Journal.map_andThen]
    cases piece with
    | segment text => exact ends_of_after (fun _ _ => rfl) later
    | escape =>
      exact ends_of_step [] (fun stack events => by rw [List.append_nil]; rfl)
        (later [Scan.tagChar])
    | tag definition letters argument =>
      rw [← Journal.settle_ofOutcome_andThen, expandPiece, Journal.bind_eq_andThen]
      simp only [Journal.bind_eq_andThen]
      rw [← Journal.andThen_assoc]
      refine ends_of_push (.pieces _ written others) _ (fun _ _ => rfl)
        (fun _ => ends_tag inner definition argument.parameter) fun outcome stack events => ?_
      exact .head rfl (reaches_of_after (.ofOutcome outcome) later (.finish outcome) stack events)

end Levels

/-- From any depth, above any stack and after any events, a text that is to be expanded is expanded
in finitely many steps as its expansion says, and depth and stack are as before. -/
theorem ends_expand (engine : Engine) (depth : Nat) (text : Text) :
    Ends engine depth (.expand text) (engine.expandAt depth text) := by
  -- The induction is on the levels that are left: the texts inside need not be shorter.
  induction depth using engine.expandAt_induction generalizing text with
  | limit depth reached =>
    rw [expandAt_of_le engine reached]
    rw [← Journal.andThen_done ((engine.handOver engine.nestingTooDeep).andThen _)]
    refine ends_of_after (fun stack events => ?_) fun result =>
      ends_finish engine depth (.ok result)
    simp only [step, enter, if_pos reached, Journal.bind_eq_andThen]
  | deeper depth below inductionHypothesis =>
    intro stack events
    have entered : step engine ⟨depth, .expand text, stack, events⟩ =
        some ⟨depth + 1, .pieces 0 [] (Scan.pieces engine.tags text), .restore depth :: stack,
          events ++ [.entered]⟩ := by
      simp only [step, enter, if_neg (Nat.not_le.mpr below)]
    have inside := ends_pieces inductionHypothesis 0 [] (Scan.pieces engine.tags text)
      (.restore depth :: stack) (events ++ [.entered])
    simp only [List.nil_append, Journal.map_id] at inside
    rw [expandAt_of_lt engine below]
    refine .head entered (inside.trans (.single ?_))
    simp only [step, deliver, Journal.outcome_enclose, Journal.entries_enclose, List.append_assoc,
      List.nil_append, List.cons_append]

/-! ### The depth at any time -/

/-- The depth, and every depth that waits to be put back, lies between two bounds. -/
structure Within (least greatest : Nat) (machine : Machine) : Prop where
  least_le : least ≤ machine.depth
  le_greatest : machine.depth ≤ greatest
  restore : ∀ saved, .restore saved ∈ machine.stack → least ≤ saved ∧ saved ≤ greatest

variable {least greatest : Nat} {machine : Machine}

theorem Within.of_eq {other : Machine} (within : Within least greatest machine)
    (sameDepth : other.depth = machine.depth) (sameStack : other.stack = machine.stack) :
    Within least greatest other := by
  refine ⟨?_, ?_, ?_⟩
  · rw [sameDepth]
    exact within.least_le
  · rw [sameDepth]
    exact within.le_greatest
  · rw [sameStack]
    exact within.restore

theorem Within.push {other : Machine} (within : Within least greatest machine) {frame : Frame}
    (sameDepth : other.depth = machine.depth) (pushed : other.stack = frame :: machine.stack)
    (isOther : ∀ saved, frame ≠ .restore saved) : Within least greatest other := by
  refine ⟨?_, ?_, fun saved member => ?_⟩
  · rw [sameDepth]
    exact within.least_le
  · rw [sameDepth]
    exact within.le_greatest
  · rw [pushed] at member
    rcases List.mem_cons.mp member with same | below
    · exact absurd same.symm (isOther saved)
    · exact within.restore saved below

theorem within_enter (within : Within least engine.maxDepth machine) (text : Text) :
    Within least engine.maxDepth (machine.enter engine text) := by
  unfold enter
  split
  · exact within.of_eq rfl rfl
  · rename_i below
    refine ⟨Nat.le_succ_of_le within.least_le, Nat.not_le.mp below, fun saved member => ?_⟩
    rcases List.mem_cons.mp member with same | waiting
    · cases same
      exact ⟨within.least_le, within.le_greatest⟩
    · exact within.restore saved waiting

theorem within_takePiece (within : Within least greatest machine) (start : Nat) (written : Text)
    (others : List Piece) (piece : Piece) :
    Within least greatest (machine.takePiece engine start written others piece) := by
  cases piece with
  | segment text => exact within.of_eq rfl rfl
  | escape => exact within.of_eq rfl rfl
  | tag definition letters argument => exact within.push rfl rfl fun _ => Frame.noConfusion

theorem within_takeTag (within : Within least greatest machine) (definition : Definition)
    (parameter : Text) :
    Within least greatest (machine.takeTag engine definition parameter) := by
  unfold takeTag
  split
  · exact within.of_eq rfl rfl
  split
  · dsimp only
    split
    · exact within.push rfl rfl fun _ => Frame.noConfusion
    · exact within.of_eq rfl rfl
  · exact within.of_eq rfl rfl

theorem within_callHandler (within : Within least greatest machine) (definition : Definition)
    (parameter baseline : Text) :
    Within least greatest (machine.callHandler definition parameter baseline) := by
  unfold callHandler
  split
  · exact within.of_eq rfl rfl
  · exact within.of_eq rfl rfl

theorem within_follow (within : Within least greatest machine) (baseline : Text)
    (script : Script) : Within least greatest (machine.follow engine baseline script) := by
  cases script with
  | expand text next => exact within.push rfl rfl fun _ => Frame.noConfusion
  | _ => exact within.of_eq rfl rfl

theorem within_deliver {frame : Frame} {stack : List Frame}
    (within : Within least greatest machine) (waits : machine.stack = frame :: stack)
    (outcome : Except Fault Text) :
    Within least greatest ({ machine with stack }.deliver outcome frame) := by
  have below : ∀ saved, .restore saved ∈ stack → least ≤ saved ∧ saved ≤ greatest := by
    intro saved member
    refine within.restore saved ?_
    rw [waits]
    exact List.mem_cons_of_mem _ member
  cases frame with
  | restore depth =>
    have saved : least ≤ depth ∧ depth ≤ greatest := by
      refine within.restore depth ?_
      rw [waits]
      exact List.mem_cons_self
    exact ⟨saved.1, saved.2, below⟩
  | _ => exact ⟨within.least_le, within.le_greatest, below⟩

/-- A step keeps the depth within the limit, because an expansion is entered only below it. -/
theorem within_step {next : Machine} (within : Within least engine.maxDepth machine)
    (step : machine.step engine = some next) : Within least engine.maxDepth next := by
  unfold Machine.step at step
  split at step
  · cases step
    exact within_enter within _
  · cases step
    exact within.of_eq rfl rfl
  · cases step
    exact within_takePiece within _ _ _ _
  · cases step
    exact within_takeTag within _ _
  · cases step
    exact within.of_eq rfl rfl
  · cases step
    exact within_callHandler within _ _ _
  · cases step
    exact within_follow within _ _
  · split at step
    · cases step
    · rename_i waits
      cases step
      exact within_deliver within waits _

/-- At no time is the depth less than at the start, or greater than the limit. -/
theorem within_of_reaches {text : Text} (start : depth ≤ engine.maxDepth)
    (reaches : Reaches engine ⟨depth, .expand text, [], []⟩ machine) :
    Within depth engine.maxDepth machine := by
  induction reaches with
  | refl => exact ⟨Nat.le_refl depth, start, fun _ member => by cases member⟩
  | tail earlier step inductionHypothesis => exact within_step inductionHypothesis step

end Machine

end TagExpansion.Engine
