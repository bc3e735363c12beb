import TagExpansion.Command.Line
import TagExpansion.Proofs.Success

/-
This file follows a call for the command that expands until its result is made.

A call falls into two parts. In the first one the result is made, and it ends with the result, the
place where it is to go, and the diagnostics. Everything that can stop it is in this part: arguments
that cannot be read, settings, and the text itself. Once these are there, an engine can be made and
the text is expanded. The first part prints nothing on the standard output, unless it is help, and
changes no file. In the second part the result is delivered.
-/

namespace TagExpansion.Command

/-! ### Making the result -/

/-- A result that is on its way. -/
structure Parcel where
  document : Text
  /-- Where it goes; a dash stands for the standard output. -/
  target : Text
  /-- Whether diagnostics decide the status. -/
  strict : Bool
  diagnostics : List Diagnostic

/-- The status of a call that has come to its end. -/
def Parcel.status (parcel : Parcel) : Status :=
  if parcel.strict && Diagnostic.anySerious parcel.diagnostics then .warnings else .success

/-- Makes the result. -/
def pack (environment : Environment) (settings : ExpandSettings) : Course Parcel := do
  let config ← resolveConfig environment settings
  Journal.writeAll ((Ledger.additionLog config.diagnostics).flatMap environment.logEffects)
  let engine ← makeEngine environment config
  let text ← readSource environment settings.source
  let (document, found) ← expandText environment config engine text
  return ⟨document, settings.target, settings.strict, config.diagnostics ++ found⟩

/-- The diagnostics that a verbosity lets through. -/
def shownAt (verbosity : Int) (diagnostics : List Diagnostic) : List Diagnostic :=
  diagnostics.filter fun diagnostic => diagnostic.verbosity ≤ verbosity

/-- What is printed behind the result. -/
def Environment.report (environment : Environment) (diagnostics : List Diagnostic) : List Effect :=
  (shownAt environment.verbosity diagnostics).map
      (diagnosticEffect environment.toolkit environment.toSurroundings environment.color) ++
    environment.logEffects (summaryEntry diagnostics)

/-- Delivers the result and shows the diagnostics. -/
def deliver (environment : Environment) (parcel : Parcel) : Course Status :=
  (writeTarget environment parcel.target parcel.document).andThen fun _ =>
    ⟨environment.report parcel.diagnostics, .ok parcel.status⟩

theorem showDiagnostics_andThen (environment : Environment) (diagnostics : List Diagnostic)
    (status : Status) :
    ((showDiagnostics environment diagnostics).andThen fun _ =>
        (environment.log (summaryEntry diagnostics)).andThen fun _ => .done status) =
      ⟨environment.report diagnostics, .ok status⟩ := by
  simp [showDiagnostics, Environment.log, Environment.report, Journal.writeAll, Journal.done,
    Journal.andThen, shownAt]

theorem runExpand_eq (environment : Environment) (settings : ExpandSettings) :
    runExpand environment settings = (pack environment settings).andThen (deliver environment) := by
  simp only [runExpand, pack, deliver, Parcel.status, Journal.bind_eq_andThen,
    Journal.andThen_assoc, Journal.pure_eq_done, Journal.done_andThen, showDiagnostics_andThen]

/-- Reads the arguments of the command and makes the result. -/
def prepack (environment : Environment) (path : Text) (arguments : List Text) : Course Parcel :=
  (environment.read expandInterface path arguments).andThen fun answers =>
    pack environment (.ofAnswers answers)

theorem expand_eq (environment : Environment) (path : Text) (arguments : List Text) :
    expand environment path arguments =
      (prepack environment path arguments).andThen (deliver environment) := by
  rw [prepack, Journal.andThen_assoc, expand, Journal.bind_eq_andThen]
  exact congrArg _ (funext fun answers => runExpand_eq environment _)

/-! ### What is done and what can stop a call before the result is there -/

/-- Something that is printed on the standard error output. -/
def Effect.IsNote : Effect → Prop
  | .result _ => False
  | .note _ => True
  | .stored _ _ => False

theorem isNote_noteOf (toolkit : Toolkit) (surroundings : Surroundings) (color : Option Bool)
    (text : Text) : (noteOf toolkit surroundings color text).IsNote := trivial

/-- A reason to stop that is about neither the arguments nor the setting of the log, and has not the
number of warnings. -/
def Stop.IsOrdinary : Stop → Prop
  | .misuse _ => False
  | .error status _ => status.code ≠ 2
  | .exit => True
  | .crash (.setting _) => False
  | .crash _ => True

theorem Stop.IsOrdinary.code_ne {stop : Stop} (ordinary : stop.IsOrdinary) (misuseStatus : Nat) :
    (stop.status misuseStatus).code ≠ 2 := by
  cases stop with
  | misuse complaint => exact ordinary.elim
  | error status message => exact ordinary
  | exit => exact nofun
  | crash cause => exact nofun

theorem Stop.IsOrdinary.ne_setting {stop : Stop} (ordinary : stop.IsOrdinary)
    (error : Log.LevelError) : stop ≠ .crash (.setting error) := by
  rintro rfl
  exact ordinary

/-- A part of a call that does nothing but print on the standard error output, and that stops a call
for ordinary reasons only. -/
structure Reserved {α : Type} (course : Course α) : Prop where
  notes : ∀ effect ∈ course.entries, effect.IsNote
  stops : ∀ stop, course.outcome = .error stop → stop.IsOrdinary

namespace Reserved

variable {α β : Type}

theorem andThen {first : Course α} {next : α → Course β} (before : Reserved first)
    (after : ∀ value, Reserved (next value)) : Reserved (first.andThen next) := by
  cases ended : first.outcome with
  | ok value =>
    rw [Journal.andThen_of_ok ended]
    exact ⟨List.forall_mem_append.mpr ⟨before.notes, (after value).notes⟩, (after value).stops⟩
  | error stop =>
    rw [Journal.andThen_of_error ended]
    refine ⟨before.notes, ?_⟩
    rintro _ ⟨⟩
    exact before.stops stop ended

theorem of_ok {entries : List Effect} (notes : ∀ effect ∈ entries, effect.IsNote) (value : α) :
    Reserved (⟨entries, .ok value⟩ : Course α) :=
  ⟨notes, nofun⟩

theorem done (value : α) : Reserved (.done value : Course α) := of_ok (List.forall_mem_nil _) value

theorem of_error {entries : List Effect} (notes : ∀ effect ∈ entries, effect.IsNote) {stop : Stop}
    (ordinary : stop.IsOrdinary) : Reserved (⟨entries, .error stop⟩ : Course α) := by
  refine ⟨notes, ?_⟩
  rintro _ ⟨⟩
  exact ordinary

theorem fail {stop : Stop} (ordinary : stop.IsOrdinary) : Reserved (.fail stop : Course α) :=
  of_error (List.forall_mem_nil _) ordinary

theorem failWith (toolkit : Toolkit) (surroundings : Surroundings) (color : Option Bool)
    {status : Status} (other : status.code ≠ 2) (message : Text) :
    Reserved (Command.failWith toolkit surroundings color status message : Course α) :=
  of_error (List.forall_mem_singleton.mpr (isNote_noteOf _ _ _ _)) other

end Reserved

section Environment

variable (environment : Environment)

theorem isNote_of_mem_logEffects {entry : Log.Entry} :
    ∀ effect ∈ environment.logEffects entry, effect.IsNote := by
  intro effect member
  unfold Environment.logEffects at member
  split at member
  · cases member
  · split at member
    · rw [List.mem_singleton.mp member]
      trivial
    · cases member

theorem isNote_of_mem_flatMap {ε : Type} {entries : List ε} {shown : ε → List Effect}
    (notes : ∀ entry, ∀ effect ∈ shown entry, effect.IsNote) :
    ∀ effect ∈ entries.flatMap shown, effect.IsNote := by
  intro effect member
  obtain ⟨entry, -, inside⟩ := List.mem_flatMap.mp member
  exact notes entry effect inside

theorem isNote_of_mem_report (diagnostics : List Diagnostic) :
    ∀ effect ∈ environment.report diagnostics, effect.IsNote := by
  refine List.forall_mem_append.mpr ⟨fun effect member => ?_, isNote_of_mem_logEffects environment⟩
  obtain ⟨diagnostic, -, rfl⟩ := List.mem_map.mp member
  trivial

theorem reserved_fail {α : Type} {status : Status} (other : status.code ≠ 2) (message : Text) :
    Reserved (environment.fail status message : Course α) :=
  .failWith _ _ _ other message

theorem reserved_settingsFiles (given : List Path) :
    Reserved (settingsFiles environment given) := by
  unfold settingsFiles
  dsimp only
  split
  · exact (Reserved.of_ok (isNote_of_mem_logEffects environment) ()).andThen fun _ => .done _
  · exact .done _

theorem reserved_configure {α : Type} (loading : Journal Log.Entry Config.Failure α) :
    Reserved (environment.configure loading) := by
  refine ⟨isNote_of_mem_flatMap fun _ => isNote_of_mem_logEffects environment, fun stop stops => ?_⟩
  obtain ⟨failure, -, rfl⟩ := Journal.outcome_mapFailure_eq_error_iff.mp stops
  trivial

theorem reserved_resolveConfig (settings : ExpandSettings) :
    Reserved (resolveConfig environment settings) := by
  rw [resolveConfig_eq]
  refine (reserved_settingsFiles environment _).andThen fun paths => ?_
  refine (reserved_configure environment _).andThen fun layer => ?_
  split
  · exact .done _
  · exact reserved_fail environment (by decide) _

theorem reserved_makeEngine (config : Config) : Reserved (makeEngine environment config) := by
  have registered : ∀ effect ∈ (Tag.registerBuiltins config.format).entries.flatMap
      environment.logEffects, effect.IsNote :=
    isNote_of_mem_flatMap fun _ => isNote_of_mem_logEffects environment
  unfold makeEngine
  dsimp only
  split
  · exact .of_ok registered _
  · exact .of_error registered trivial

theorem reserved_readSource (source : Text) : Reserved (readSource environment source) := by
  unfold readSource
  split
  · split
    · exact .done _
    · exact .fail trivial
  · split
    · exact .done _
    · split <;> exact reserved_fail environment (by decide) _
    · exact reserved_fail environment (by decide) _
    · exact .fail trivial

theorem reserved_expandText (config : Config) (engine : Engine) (text : Text) :
    Reserved (expandText environment config engine text) := by
  have shown : ∀ effect ∈ (engine.expand text).logNotices.flatMap environment.noticeEffects,
      effect.IsNote := by
    refine isNote_of_mem_flatMap fun notice => ?_
    cases notice with
    | recorded diagnostic => exact List.forall_mem_nil _
    | forwarded diagnostic => exact isNote_of_mem_logEffects environment
    | logged entry => exact isNote_of_mem_logEffects environment
  unfold expandText
  dsimp only
  split
  · exact .of_ok shown _
  · exact .of_error shown trivial

/-- The result is made without a word on the standard output. -/
theorem reserved_pack (settings : ExpandSettings) : Reserved (pack environment settings) := by
  refine (reserved_resolveConfig environment settings).andThen fun config => ?_
  refine (Reserved.of_ok (isNote_of_mem_flatMap fun _ => isNote_of_mem_logEffects environment)
    ()).andThen fun _ => ?_
  refine (reserved_makeEngine environment config).andThen fun engine => ?_
  refine (reserved_readSource environment settings.source).andThen fun text => ?_
  exact (reserved_expandText environment config engine text).andThen fun _ => .done _

end Environment

/-! ### Calls for the command -/

theorem Reading.outcome_course_eq_ok_iff {α : Type} {toolkit : Toolkit}
    {surroundings : Surroundings} {color : Option Bool} {page : Text} {reading : Reading α}
    {value : α} :
    (reading.course toolkit surroundings color page).outcome = .ok value ↔
      reading = .settled value := by
  cases reading <;> simp [course, Journal.done, Journal.fail]

section Calls

variable (toolkit : Toolkit) (call : Call)

/-- Where the options of the program can be read, the command that expands follows them. -/
def Call.ForExpand : Prop :=
  ∀ answers chosen, call.reading toolkit = .settled (answers, chosen) →
    ∃ arguments, chosen = some (.expand, arguments)

/-- The options of the program make settings, and the command is given some arguments. -/
def Call.Asks (settings : ProgramSettings) (arguments : List Text) : Prop :=
  ∃ answers, call.reading toolkit = .settled (answers, some (.expand, arguments)) ∧
    .ofAnswers answers = settings

variable {toolkit call} in
theorem Call.forExpand_of_reading {answers : programInterface.Answers} {arguments : List Text}
    (read : call.reading toolkit = .settled (answers, some (.expand, arguments))) :
    call.ForExpand toolkit := by
  intro others chosen other
  cases read.symm.trans other
  exact ⟨arguments, rfl⟩

/-- What the toolkit makes of the arguments of the command. -/
def Call.readExpand (arguments : List Text) : Reading expandInterface.Answers :=
  toolkit.readCommand expandInterface Subcommand.expand.path call.files arguments

/-- What the options of the program make of a call for the command. -/
inductive Beginning : Course Status → Prop where
  | misused {complaint : Text} (refused : call.reading toolkit = .misuse complaint) :
      Beginning ⟨[noteOf toolkit call.toSurroundings none complaint], .error (.misuse complaint)⟩
  | help (asked : call.reading toolkit = .help) :
      Beginning
        ⟨[resultOf toolkit call.toSurroundings none (programHelp toolkit)], .error .exit⟩
  | stopped {entries : List Effect} {stop : Stop} (notes : ∀ effect ∈ entries, effect.IsNote)
      (other : (stop.status toolkit.misuseStatus).code ≠ 2) : Beginning ⟨entries, .error stop⟩
  | begun {settings : ProgramSettings} {arguments : List Text} {manner : Manner}
      (asks : call.Asks toolkit settings arguments)
      (prepared : prepare toolkit call settings = .done manner) :
      Beginning (expand (call.environment toolkit manner) Subcommand.expand.path arguments)

end Calls

variable {toolkit : Toolkit} {call : Call}

/-- Before a command begins, there is either nothing to tell or a reason to stop. -/
theorem prepare_eq_done_or (settings : ProgramSettings) :
    (∃ manner, prepare toolkit call settings = .done manner) ∨
      ∃ entries stop, prepare toolkit call settings = ⟨entries, .error stop⟩ ∧
        (∀ effect ∈ entries, effect.IsNote) ∧ (stop.status toolkit.misuseStatus).code ≠ 2 := by
  have conflict : Status.usageError.code ≠ 2 := by decide
  unfold prepare
  split
  · exact .inr ⟨_, _, rfl, List.forall_mem_singleton.mpr (isNote_noteOf _ _ _ _), conflict⟩
  · split
    · exact .inr ⟨_, _, rfl, List.forall_mem_nil _, nofun⟩
    · exact .inl ⟨_, rfl⟩

/-- The arguments are read by the toolkit, and the result is made with its answers. -/
theorem prepack_eq (toolkit : Toolkit) (call : Call) (manner : Manner) (arguments : List Text) :
    prepack (call.environment toolkit manner) Subcommand.expand.path arguments =
      ((call.readExpand toolkit arguments).course toolkit call.toSurroundings manner.color
        (toolkit.help expandInterface Subcommand.expand.path)).andThen fun answers =>
          pack (call.environment toolkit manner) (.ofAnswers answers) := rfl

theorem program_of_asks {settings : ProgramSettings} {arguments : List Text}
    (asks : call.Asks toolkit settings arguments) :
    program toolkit call = (prepare toolkit call settings).andThen fun manner =>
      expand (call.environment toolkit manner) Subcommand.expand.path arguments := by
  obtain ⟨answers, read, rfl⟩ := asks
  rw [program, read]
  rfl

theorem beginning_program (forExpand : call.ForExpand toolkit) :
    Beginning toolkit call (program toolkit call) := by
  cases read : call.reading toolkit with
  | settled both =>
    obtain ⟨answers, chosen⟩ := both
    obtain ⟨arguments, rfl⟩ := forExpand _ _ read
    have asks : call.Asks toolkit (.ofAnswers answers) arguments := ⟨answers, read, rfl⟩
    rw [program_of_asks asks]
    obtain ⟨manner, prepared⟩ | ⟨entries, stop, stopped, notes, other⟩ :=
      prepare_eq_done_or (.ofAnswers answers)
    · rw [prepared]
      exact .begun asks prepared
    · rw [stopped]
      exact .stopped notes other
  | help =>
    rw [program, read]
    exact .help read
  | misuse complaint =>
    rw [program, read]
    exact .misused read
  | broken breakdown =>
    rw [program, read]
    exact .stopped (List.forall_mem_nil _) nofun

/-! ### Drafts -/

/-- All that a call needs before it can make its result: every step up to there has gone well. -/
structure Draft (toolkit : Toolkit) (call : Call) where
  programSettings : ProgramSettings
  manner : Manner
  arguments : List Text
  answers : expandInterface.Answers
  config : Config
  text : Text
  asks : call.Asks toolkit programSettings arguments
  prepared : prepare toolkit call programSettings = .done manner
  read : call.readExpand toolkit arguments = .settled answers
  configured : (resolveConfig (call.environment toolkit manner) (.ofAnswers answers)).outcome =
    .ok config
  supplied : (readSource (call.environment toolkit manner)
    (ExpandSettings.ofAnswers answers).source).outcome = .ok text

namespace Draft

variable (draft : Draft toolkit call)

/-- The environment of the command. -/
def environment : Environment := call.environment toolkit draft.manner

/-- The settings of the command. -/
def settings : ExpandSettings := .ofAnswers draft.answers

/-- The result of a draft: the text expanded by the engine of the configuration, and finished in its
format. -/
inductive Makes : Parcel → Prop where
  | intro {engine : Engine} {result : Text} (made : draft.config.engine? .collect = .ok engine)
      (expanded : (engine.expand draft.text).outcome = .ok result) :
      Makes {
        document := draft.config.format.finish result
        target := draft.settings.target
        strict := draft.settings.strict
        diagnostics := draft.config.diagnostics ++ (engine.expand draft.text).diagnostics }

end Draft

theorem outcome_makeEngine_eq_ok_iff {environment : Environment} {config : Config}
    {engine : Engine} :
    (makeEngine environment config).outcome = .ok engine ↔
      config.engine? .collect = .ok engine := by
  unfold makeEngine
  cases config.engine? .collect <;> simp

theorem outcome_expandText_eq_ok_iff {environment : Environment} {config : Config}
    {engine : Engine} {text document : Text} {found : List Diagnostic} :
    (expandText environment config engine text).outcome = .ok (document, found) ↔
      ∃ result, (engine.expand text).outcome = .ok result ∧
        config.format.finish result = document ∧ (engine.expand text).diagnostics = found := by
  unfold expandText
  dsimp only
  cases (engine.expand text).outcome <;> simp

theorem outcome_pack_eq_ok_iff {environment : Environment} {settings : ExpandSettings}
    {parcel : Parcel} :
    (pack environment settings).outcome = .ok parcel ↔
      ∃ config engine text result,
        (resolveConfig environment settings).outcome = .ok config ∧
        config.engine? .collect = .ok engine ∧
        (readSource environment settings.source).outcome = .ok text ∧
        (engine.expand text).outcome = .ok result ∧
        parcel = ⟨config.format.finish result, settings.target, settings.strict,
          config.diagnostics ++ (engine.expand text).diagnostics⟩ := by
  simp only [pack, Journal.bind_eq_andThen, Journal.outcome_andThen_eq_ok_iff,
    outcome_makeEngine_eq_ok_iff]
  constructor
  · rintro ⟨config, resolved, _, -, engine, made, text, supplied, ⟨document, found⟩, expanded, same⟩
    obtain ⟨result, ended, rfl, rfl⟩ := outcome_expandText_eq_ok_iff.mp expanded
    cases same
    exact ⟨config, engine, text, result, resolved, made, supplied, ended, rfl⟩
  · rintro ⟨config, engine, text, result, resolved, made, supplied, ended, rfl⟩
    exact ⟨config, resolved, (), rfl, engine, made, text, supplied, (_, _),
      outcome_expandText_eq_ok_iff.mpr ⟨result, ended, rfl, rfl⟩, rfl⟩

/-- A limit that is among the answers is one that engines accept: it lies in the range that was
declared. -/
theorem proper_of_ofAnswers {answers : expandInterface.Answers} {limit : Limit}
    (given : (ExpandSettings.ofAnswers answers).limit = some limit) : limit.Proper := by
  obtain ⟨⟨number, inside⟩, -, rfl⟩ := Option.map_eq_some_iff.mp given
  exact ⟨number, rfl, inside⟩

namespace Draft

/-- What is made in the course of a call is the result of its draft. -/
theorem outcome_pack_eq_ok_iff_makes (draft : Draft toolkit call) {parcel : Parcel} :
    (pack draft.environment draft.settings).outcome = .ok parcel ↔ draft.Makes parcel := by
  rw [outcome_pack_eq_ok_iff]
  constructor
  · rintro ⟨config, engine, text, result, resolved, made, supplied, ended, rfl⟩
    cases resolved.symm.trans draft.configured
    cases supplied.symm.trans draft.supplied
    exact .intro made ended
  · rintro ⟨made, ended⟩
    exact ⟨_, _, _, _, draft.configured, made, draft.supplied, ended, rfl⟩

/-- A draft has a result: an engine is made of its configuration, and the text is expanded. -/
theorem exists_makes (draft : Draft toolkit call) : ∃ parcel, draft.Makes parcel := by
  have proper := proper_of_resolveConfig (fun _ => proper_of_ofAnswers) draft.configured
  obtain ⟨engine, made, succeeds⟩ := Config.exists_engine?_of_proper proper
  obtain ⟨result, ended⟩ := succeeds draft.text
  exact ⟨_, .intro made ended⟩

/-- Where a result is made, there is a draft for it. -/
theorem exists_of_prepack {programSettings : ProgramSettings} {manner : Manner}
    {arguments : List Text} (asks : call.Asks toolkit programSettings arguments)
    (prepared : prepare toolkit call programSettings = .done manner) {parcel : Parcel}
    (packed : (prepack (call.environment toolkit manner) Subcommand.expand.path arguments).outcome =
      .ok parcel) : ∃ draft : Draft toolkit call, draft.Makes parcel := by
  obtain ⟨answers, answered, made⟩ := Journal.outcome_andThen_eq_ok_iff.mp packed
  have read : call.readExpand toolkit arguments = .settled answers :=
    Reading.outcome_course_eq_ok_iff.mp answered
  obtain ⟨config, engine, text, result, configured, -, supplied, -⟩ :=
    outcome_pack_eq_ok_iff.mp made
  let draft : Draft toolkit call :=
    ⟨programSettings, manner, arguments, answers, config, text, asks, prepared, read, configured,
      supplied⟩
  exact ⟨draft, draft.outcome_pack_eq_ok_iff_makes.mp made⟩

/-- A call with a draft makes the result with notes only, and delivers it. -/
theorem exists_program_eq (draft : Draft toolkit call) {parcel : Parcel}
    (makes : draft.Makes parcel) :
    ∃ notes : List Effect, (∀ effect ∈ notes, effect.IsNote) ∧
      program toolkit call =
        (Journal.writeAll notes).andThen fun _ => deliver draft.environment parcel := by
  have packed := draft.outcome_pack_eq_ok_iff_makes.mpr makes
  refine ⟨(pack draft.environment draft.settings).entries,
    (reserved_pack draft.environment draft.settings).notes, ?_⟩
  rw [program_of_asks draft.asks, draft.prepared, Journal.done_andThen]
  show expand draft.environment _ draft.arguments = _
  have read : draft.environment.read expandInterface Subcommand.expand.path draft.arguments =
      .done draft.answers :=
    congrArg (Reading.course _ _ _ _) draft.read
  rw [expand_eq, prepack, read, Journal.done_andThen]
  show (pack draft.environment draft.settings).andThen (deliver draft.environment) = _
  rw [Journal.andThen_of_ok packed]
  rfl

end Draft

end TagExpansion.Command
