import TagExpansion.Proofs.Indifference
import TagExpansion.Proofs.Precedence
import TagExpansion.Proofs.Rendering

/-
This file proves that what is wrong with a text does not depend on the output format.

The builtin tags of two formats have the same names and take the same parameters, and their handlers
differ in the marks that they put around output. The block is the only one of them that looks at its
parameter, and the parameter of a block is not expanded. So a text is expanded side by side in all
formats.

The status of a strict call of the program follows from the diagnostics. The format enters a call
when the engine is made and when the result is finished, and neither of them can fail in one format
and not in another.
-/

namespace TagExpansion

open Tag (Definition Registry Registration)

/-! ### The builtin tags of two formats -/

namespace Tag

/-- Handlers that answer at once make what they like of output. -/
theorem akin_answering (name : Text) (requiresParameter recursive : Bool)
    (answer answer' : Text → Text → Text → Text) :
    Definition.Akin
      ⟨name, requiresParameter, recursive,
        some fun name parameter baseline => .answer (answer name parameter baseline)⟩
      ⟨name, requiresParameter, recursive,
        some fun name parameter baseline => .answer (answer' name parameter baseline)⟩ where
  name := rfl
  requiresParameter := rfl
  recursive := rfl
  handlers := .some fun _ _ _ _ _ => .answer _ _

/-- Delimiters are looked for in the parameter, which is as it was written. -/
theorem akin_block (name : Text) (marks marks' : Text × Text) :
    Definition.Akin ⟨name, true, false, some (block marks)⟩
      ⟨name, true, false, some (block marks')⟩ where
  name := rfl
  requiresParameter := rfl
  recursive := rfl
  handlers := by
    refine .some fun parameter parameter' baseline baseline' verbatim => ?_
    obtain rfl := verbatim rfl
    unfold block
    split
    · refine .convert fun outcome other concur => ?_
      cases concur with
      | ok related => exact .answer _ _
      | error fault => exact .fail fault
    · refine .report fun outcome => ?_
      cases outcome with
      | ok told => exact .decline
      | error fault => exact .fail fault

variable (format format' : Format)

theorem akin_builtins :
    List.Forall₂ (fun registration registration' : Registration =>
      registration.definition.Akin registration'.definition)
      (builtins format) (builtins format') := by
  refine .cons ?bold <| .cons ?italic <| .cons ?code <| .cons ?longcode <| .cons ?html <|
    .cons ?br <| .cons ?nil <| .cons ?true <| .cons ?false .nil
  case longcode => exact akin_block _ _ _
  all_goals exact akin_answering _ _ _ _ _

theorem entries_builtin : (Registry.builtin format).tags.entries =
    (builtins format).map fun registration =>
      (registration.definition.name, registration.definition) := by
  cases format <;> rfl

theorem akin_findIn {registrations registrations' : List Registration}
    (akin : List.Forall₂ (fun registration registration' : Registration =>
      registration.definition.Akin registration'.definition) registrations registrations')
    (key : Text) :
    Option.Rel Definition.Akin
      (OrderedMap.findIn key (registrations.map fun registration =>
        (registration.definition.name, registration.definition)))
      (OrderedMap.findIn key (registrations'.map fun registration =>
        (registration.definition.name, registration.definition))) := by
  induction akin with
  | nil => exact .none
  | cons first others inductionHypothesis =>
    rw [List.map_cons, List.map_cons, OrderedMap.findIn, OrderedMap.findIn, ← first.name]
    split
    · exact .some first
    · exact inductionHypothesis

theorem akin_builtin : (Registry.builtin format).Akin (Registry.builtin format') := by
  intro name
  rw [Registry.lookup, Registry.lookup, OrderedMap.find?, OrderedMap.find?, entries_builtin,
    entries_builtin]
  exact akin_findIn (akin_builtins format format') _

end Tag

theorem Engine.Builtin.akin {engine other : Engine} {format format' : Format}
    (builtin : engine.Builtin format) (builtin' : other.Builtin format')
    (sink : engine.sink = other.sink) (abbreviations : engine.abbreviations = other.abbreviations)
    (limit : engine.limit = other.limit) : engine.Akin other where
  tags := by
    rw [builtin.tags, builtin'.tags]
    exact Tag.akin_builtin format format'
  convert text := by
    rw [builtin.convert, builtin'.convert]
    exact .ok trivial
  setParagraphs text text' := by
    rw [builtin.setParagraphs, builtin'.setParagraphs]
    exact .ok trivial
  sink := sink
  abbreviations := abbreviations
  limit := limit

/-! ### A call of the program in two formats -/

/-- Two configurations that may have different formats. -/
structure Config.Reformats (config other : Config) : Prop where
  limit : config.limit = other.limit
  abbreviations : config.abbreviations = other.abbreviations
  diagnostics : config.diagnostics = other.diagnostics

/-- The engine of a configuration is one for the builtin tags of its format. -/
theorem Config.builtin_of_engine? {config : Config} {sink : Sink} {engine : Engine}
    (made : config.engine? sink = .ok engine) :
    engine.Builtin config.format ∧ engine.sink = sink ∧
      engine.abbreviations = config.abbreviations ∧ engine.limit = config.limit := by
  unfold Config.engine? Engine.withLimit? at made
  by_cases valid : config.limit.Valid
  · rw [dif_pos valid, Except.ok.injEq] at made
    subst made
    exact ⟨⟨rfl, rfl, rfl⟩, rfl, rfl, rfl⟩
  · rw [dif_neg valid] at made
    exact nomatch made

theorem Config.engine?_eq_error_iff {config : Config} {sink : Sink} {limit : Limit} :
    config.engine? sink = .error limit ↔ ¬config.limit.Valid ∧ config.limit = limit := by
  unfold Config.engine? Engine.withLimit?
  by_cases valid : config.limit.Valid
  · rw [dif_pos valid]
    exact iff_of_false nofun fun ⟨invalid, _⟩ => invalid valid
  · rw [dif_neg valid, Except.error.injEq, and_iff_right valid]

theorem Config.exists_engine?_iff {config : Config} {sink : Sink} :
    (∃ engine, config.engine? sink = .ok engine) ↔ config.limit.Valid := by
  cases made : config.engine? sink with
  | ok engine =>
    refine iff_of_true ⟨engine, rfl⟩ (Classical.byContradiction fun invalid => ?_)
    rw [engine?_eq_error_iff.mpr ⟨invalid, rfl⟩] at made
    exact nomatch made
  | error limit => exact iff_of_false nofun (engine?_eq_error_iff.mp made).1

theorem Config.Reformats.engine? {config other : Config} (reformats : config.Reformats other)
    (sink : Sink) : Concur Engine.Akin (config.engine? sink) (other.engine? sink) := by
  cases made : config.engine? sink with
  | ok engine =>
    cases made' : other.engine? sink with
    | ok engine' =>
      obtain ⟨builtin, sameSink, abbreviations, limit⟩ := builtin_of_engine? made
      obtain ⟨builtin', sameSink', abbreviations', limit'⟩ := builtin_of_engine? made'
      refine .ok (builtin.akin builtin' (sameSink.trans sameSink'.symm) ?_ ?_)
      · rw [abbreviations, abbreviations', reformats.abbreviations]
      · rw [limit, limit', reformats.limit]
    | error refused =>
      rw [engine?_eq_error_iff, ← reformats.limit, ← engine?_eq_error_iff, made] at made'
      exact nomatch made'
  | error refused =>
    rw [engine?_eq_error_iff, reformats.limit, ← engine?_eq_error_iff] at made
    rw [made]
    exact .error refused

namespace Command

variable (environment : Environment)

/-- The settings of a call that asks for a format. -/
def ExpandSettings.inFormat (settings : ExpandSettings) (format : Format) : ExpandSettings :=
  { settings with format := some format }

theorem concur_layered (sources : Config.Sources) (paths : List Path) (settings : ExpandSettings)
    (format format' : Format) :
    Concur (fun layer layer' => layer.freeze.Reformats layer'.freeze)
      (layered sources paths (settings.inFormat format)).outcome
      (layered sources paths (settings.inFormat format')).outcome := by
  refine Concur.andThen (.of_eq rfl) fun merged _ same => ?_
  subst same
  refine Concur.andThen (.of_eq rfl) fun layer _ same => ?_
  subst same
  exact .ok ⟨rfl, rfl, rfl⟩

theorem concur_resolveConfig (settings : ExpandSettings) (format format' : Format) :
    Concur Config.Reformats (resolveConfig environment (settings.inFormat format)).outcome
      (resolveConfig environment (settings.inFormat format')).outcome := by
  rw [resolveConfig_eq, resolveConfig_eq]
  refine Concur.andThen (.of_eq rfl) fun paths _ same => ?_
  subst same
  refine Concur.andThen ((concur_layered _ paths settings format format').mapError _)
    fun layer layer' reformats => ?_
  rw [Config.errors, Config.errors, reformats.diagnostics]
  split
  · exact .ok reformats
  · exact .error _

theorem concur_makeEngine {config config' : Config} (reformats : config.Reformats config') :
    Concur Engine.Akin (makeEngine environment config).outcome
      (makeEngine environment config').outcome := by
  have engines := reformats.engine? Sink.collect
  unfold makeEngine
  generalize config.engine? Sink.collect = made at engines ⊢
  generalize config'.engine? Sink.collect = made' at engines ⊢
  cases engines with
  | ok akin => exact .ok akin
  | error limit => exact .error _

/-- The results are different texts, and they come with the same diagnostics. -/
theorem concur_expandText {engine engine' : Engine} (akin : engine.Akin engine')
    (config config' : Config) (text : Text) :
    Concur (fun result result' => result.2 = result'.2)
      (expandText environment config engine text).outcome
      (expandText environment config' engine' text).outcome := by
  have parallel := akin.expand text
  have outcomes := parallel.outcomes
  unfold expandText
  dsimp only
  rw [parallel.diagnostics]
  generalize (engine.expand text).outcome = ended at outcomes ⊢
  generalize (engine'.expand text).outcome = ended' at outcomes ⊢
  cases outcomes with
  | ok related => exact .ok rfl
  | error fault => exact .error _

/-- Whether bytes can be written to a place, and what is said if not, is a matter of the place. -/
theorem outcome_writePlace (target : Text) (place : List Text) (bytes bytes' : List UInt8) :
    (writePlace environment target place bytes).outcome =
      (writePlace environment target place bytes').outcome := by
  unfold writePlace
  cases environment.fate place <;> rfl

/-- Whether a text can be written depends on where it goes. -/
theorem outcome_writeTarget (target text text' : Text) :
    (writeTarget environment target text).outcome =
      (writeTarget environment target text').outcome := by
  unfold writeTarget
  split
  · rfl
  · cases environment.files.destination (.ofText target) with
    | ok place => exact outcome_writePlace environment target place _ _
    | error failure => cases failure <;> rfl

/-- A call ends with the same status, or stops for the same reason. -/
theorem concur_runExpand (settings : ExpandSettings) (format format' : Format) :
    Concur Eq (runExpand environment (settings.inFormat format)).outcome
      (runExpand environment (settings.inFormat format')).outcome := by
  refine (concur_resolveConfig environment settings format format').andThen
    fun config config' reformats => ?_
  -- What is printed may differ from here on, but printing cannot fail.
  refine Concur.andThen (.of_eq rfl) fun _ _ _ => ?_
  refine (concur_makeEngine environment reformats).andThen fun engine engine' akin => ?_
  refine Concur.andThen (.of_eq rfl) fun text _ same => ?_
  subst same
  refine (concur_expandText environment akin config config' text).andThen
    fun result result' found => ?_
  refine Concur.andThen (.of_eq (outcome_writeTarget environment settings.target _ _)) fun _ _ _ => ?_
  refine Concur.andThen (.of_eq rfl) fun _ _ _ => ?_
  refine Concur.andThen (.of_eq rfl) fun _ _ _ => ?_
  refine .ok ?_
  rw [reformats.diagnostics, found]
  rfl

end Command

/-! ### The same in all formats -/

/-- A text is worth the same reports and the same diagnostics in all formats, and fails in all of
them if it fails in one. So the status of a call is the same as well, be it strict or not. -/
theorem diagnostics_eq_of_formats (format format' : Format) :
    (∀ engine other : Engine, engine.Builtin format → other.Builtin format' →
      engine.sink = other.sink → engine.abbreviations = other.abbreviations →
      engine.limit = other.limit → ∀ text,
        (engine.expand text).reports = (other.expand text).reports ∧
        (engine.expand text).diagnostics = (other.expand text).diagnostics ∧
        ∀ fault, (engine.expand text).outcome = .error fault ↔
          (other.expand text).outcome = .error fault) ∧
    ∀ (environment : Command.Environment) (settings : Command.ExpandSettings),
      (Command.runExpand environment (settings.inFormat format)).outcome =
        (Command.runExpand environment (settings.inFormat format')).outcome := by
  refine ⟨fun engine other builtin builtin' sink abbreviations limit text => ?_, ?_⟩
  · have parallel := (builtin.akin builtin' sink abbreviations limit).expand text
    exact ⟨parallel.reports, parallel.diagnostics, parallel.outcomes.error_iff⟩
  · intro environment settings
    exact (Command.concur_runExpand environment settings format format').eq

/-- A block without delimiters in an abbreviation, which is bold, and a parenthesis that is not
closed are found in HTML as well as in plain text. -/
theorem diagnostics_eq_of_two_defects :
    let engineFor (format : Format) : Engine := {
      tags := .builtin format
      convert := .always format.convert
      setParagraphs := .always format.setParagraphs
      sink := .collect
      abbreviations := .ofList [("x".toList, "@longcode(<)".toList)] }
    let text := "@bold(x)@code(".toList
    ((engineFor .html).expand text).reports.map Report.kind = [.warning, .unmatchedParenthesis] ∧
      ((engineFor .html).expand text).diagnostics =
        ((engineFor .plain).expand text).diagnostics := by
  intro engineFor text
  have plain : ((engineFor .plain).expand text).reports.map Report.kind =
      [.warning, .unmatchedParenthesis] := by decide +kernel
  obtain ⟨reports, diagnostics, -⟩ := (diagnostics_eq_of_formats .html .plain).1 (engineFor .html)
    (engineFor .plain) ⟨rfl, rfl, rfl⟩ ⟨rfl, rfl, rfl⟩ rfl rfl rfl text
  exact ⟨reports ▸ plain, diagnostics⟩

end TagExpansion
