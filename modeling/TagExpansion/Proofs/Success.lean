import TagExpansion.Proofs.Defects
import TagExpansion.Proofs.Workbench

/-
This file proves that nothing goes wrong between a configuration and the result.

A configuration that the program makes has its limit from a settings file, from an option or by
default, and all three are checked. So an engine accepts it. The handlers of the builtin tags do not
give up on their own account, the adapters of a format never do, and every report that is made on
the way fits its template, so that the sink takes it up. Every text is therefore expanded.
-/

namespace TagExpansion

open Tag (Definition)
open Scan (Argument Piece)

/-- A journal ends with a value. -/
def Journal.Succeeds {ε σ α : Type} (journal : Journal ε σ α) : Prop :=
  ∃ value, journal.outcome = .ok value

theorem Journal.Succeeds.andThen {ε σ α β : Type} {first : Journal ε σ α}
    {next : α → Journal ε σ β} (before : first.Succeeds) (after : ∀ value, (next value).Succeeds) :
    (first.andThen next).Succeeds := by
  obtain ⟨value, ended⟩ := before
  obtain ⟨result, later⟩ := after value
  exact ⟨result, outcome_andThen_eq_ok_iff.mpr ⟨value, ended, later⟩⟩

theorem Journal.Succeeds.map {ε σ α β : Type} {journal : Journal ε σ α} (change : α → β)
    (succeeds : journal.Succeeds) : (journal.map change).Succeeds := by
  rw [map_eq_andThen]
  exact succeeds.andThen fun value => ⟨change value, rfl⟩

/-! ### The builtin tags -/

namespace Engine

variable {engine : Engine} {format : Format} {nested : Text → Run Text} {depth : Nat}

theorem succeeds_handOver (collects : engine.sink = .collect) {report : Report}
    {diagnostic : Diagnostic} (diagnosed : report.diagnose = .done diagnostic) :
    (engine.handOver report).Succeeds := by
  refine ⟨(), ?_⟩
  show (engine.sink report).outcome = .ok ()
  rw [collects]
  exact Sink.outcome_collect diagnosed

theorem succeeds_handOver_defect (collects : engine.sink = .collect) (defect : Defect) :
    (engine.handOver (defect.report engine)).Succeeds :=
  succeeds_handOver collects (defect.diagnose_report engine)

theorem succeeds_handOver_missingDelimiter (collects : engine.sink = .collect) (name : Text) :
    (engine.handOver (Tag.missingDelimiter name)).Succeeds := by
  have split : "Tag \"%s\" expects its text enclosed in a repeated delimiter character".toList =
      "Tag \"".toList ++
        '%' :: 's' :: "\" expects its text enclosed in a repeated delimiter character".toList := by
    decide +kernel
  exact succeeds_handOver collects
    (Defect.diagnose_of_name split (by decide +kernel) (by decide +kernel) name)

namespace Builtin

variable (builtin : engine.Builtin format) (collects : engine.sink = .collect)

include builtin

theorem succeeds_convertSegment (text : Text) : (engine.convertSegment text).Succeeds := by
  rw [builtin.convertSegment]
  exact ⟨_, rfl⟩

include collects

theorem succeeds_replace {definition : Definition} (isBuiltin : Tag.IsBuiltin format definition)
    (parameter baseline : Text) :
    (engine.replace nested depth definition parameter baseline).Succeeds := by
  cases isBuiltin with
  | enclosing => exact ⟨_, rfl⟩
  | standingFor => exact ⟨_, rfl⟩
  | passing => exact ⟨_, rfl⟩
  | block =>
    refine Journal.Succeeds.andThen ⟨(), rfl⟩ fun _ => .andThen ?_ fun _ => ⟨_, rfl⟩
    unfold Tag.block
    cases Tag.delimited? parameter with
    | some body =>
      simp only [perform, builtin.convertText]
      exact ⟨_, rfl⟩
    | none =>
      obtain ⟨value, handed⟩ := succeeds_handOver_missingDelimiter collects Tag.blockName
      simp only [perform, Journal.settle, handed]
      exact ⟨_, rfl⟩

omit builtin in
theorem succeeds_prepare (inner : ∀ text, (nested text).Succeeds) (definition : Definition)
    (parameter : Text) : (engine.prepare nested definition parameter).Succeeds := by
  unfold prepare
  split
  · refine Journal.Succeeds.andThen ⟨(), rfl⟩ fun _ => ?_
    split
    · exact inner _
    · exact ⟨_, rfl⟩
  · exact (succeeds_handOver_defect collects (.unexpectedParameters definition.name)).andThen
      fun _ => ⟨_, rfl⟩

theorem succeeds_expandTag (inner : ∀ text, (nested text).Succeeds) {definition : Definition}
    (isBuiltin : Tag.IsBuiltin format definition) (parameter : Text) :
    (engine.expandTag nested depth definition parameter).Succeeds := by
  by_cases present : parameter = []
  · rw [present, builtin.expandTag_nil]
    exact Journal.Succeeds.andThen ⟨(), rfl⟩ fun _ =>
      builtin.succeeds_replace collects isBuiltin _ _
  · rw [builtin.expandTag_of_ne_nil _ _ _ present]
    refine (succeeds_prepare collects inner definition parameter).andThen fun prepared => ?_
    exact Journal.Succeeds.andThen ⟨(), rfl⟩ fun _ =>
      builtin.succeeds_replace collects isBuiltin _ _

theorem succeeds_expandPiece (inner : ∀ text, (nested text).Succeeds) (start : Nat) {text : Text}
    {piece : Piece} (member : piece ∈ Scan.pieces engine.tags text) :
    (engine.expandPiece nested depth start piece).Succeeds := by
  cases piece with
  | escape => exact ⟨_, rfl⟩
  | segment segment =>
    have reported : (engine.reportSegment segment).Succeeds := by
      unfold reportSegment
      split
      · rename_i name _
        exact succeeds_handOver_defect collects (.unknownTag name)
      · exact ⟨(), rfl⟩
    exact reported.andThen fun _ => builtin.succeeds_convertSegment segment
  | tag definition letters argument =>
    have reported : (engine.reportArgument letters argument).Succeeds := by
      cases argument with
      | unclosed rest =>
        exact succeeds_handOver_defect collects (.unmatchedParenthesis (Text.lower letters))
      | _ => exact ⟨(), rfl⟩
    have isBuiltin := builtin.isBuiltin (knows_of_mem_pieces member)
    exact reported.andThen fun _ => Journal.Succeeds.andThen ⟨(), rfl⟩ fun _ =>
      builtin.succeeds_expandTag collects inner isBuiltin _

theorem succeeds_expandPieces (inner : ∀ text, (nested text).Succeeds) (start : Nat) {text : Text}
    {pieces : List Piece} (included : pieces ⊆ Scan.pieces engine.tags text) :
    (engine.expandPieces nested depth start pieces).Succeeds := by
  induction pieces generalizing start with
  | nil => exact ⟨_, rfl⟩
  | cons piece others inductionHypothesis =>
    rw [List.cons_subset] at included
    exact (builtin.succeeds_expandPiece collects inner start included.1).andThen fun first =>
      (inductionHypothesis _ included.2).map _

/-- With the builtin tags and a sink that takes up diagnostics every text is expanded. -/
theorem succeeds_expandAt (depth : Nat) (text : Text) :
    (engine.expandAt depth text).Succeeds := by
  induction depth using engine.expandAt_induction generalizing text with
  | limit depth reached =>
    rw [expandAt_of_le engine reached]
    exact (succeeds_handOver_defect collects .nestingTooDeep).andThen fun _ =>
      builtin.succeeds_convertSegment text
  | deeper depth below inductionHypothesis =>
    rw [expandAt_of_lt engine below]
    exact builtin.succeeds_expandPieces collects inductionHypothesis 0 (List.Subset.refl _)

end Builtin

end Engine

/-! ### The limit of a configuration -/

namespace Config.Layer.Limits

variable {property : Limit → Prop} {layer after : Layer} {sources : Sources} {tree : FileTree}

theorem load (proper : ∀ limit : Limit, limit.Proper → property limit) {path : Path}
    (loaded : (Layer.load sources path).outcome = .ok layer) : layer.Limits property := by
  simp only [Layer.load, Journal.bind_eq_andThen, Journal.outcome_andThen_eq_ok_iff] at loaded
  obtain ⟨_, -, ⟨table, errors⟩, -, made, reads, same⟩ := loaded
  have limits : made.Limits property := .ofTable proper reads
  cases same
  exact limits

theorem loadOver (proper : ∀ limit : Limit, limit.Proper → property limit)
    (limits : layer.Limits property) {paths : List Path}
    (loaded : (Layer.loadOver sources layer paths).outcome = .ok after) : after.Limits property := by
  induction paths generalizing layer with
  | nil =>
    cases loaded
    exact limits
  | cons path others inductionHypothesis =>
    rw [Layer.loadOver, Journal.bind_eq_andThen, Journal.outcome_andThen_eq_ok_iff] at loaded
    obtain ⟨upper, first, rest⟩ := loaded
    exact inductionHypothesis (limits.merge (.load proper first)) rest

theorem addFiles (limits : layer.Limits property) {paths : List Path}
    (added : (Layer.addFiles tree layer paths).outcome = .ok after) : after.Limits property := by
  induction paths generalizing layer with
  | nil =>
    cases added
    exact limits
  | cons path others inductionHypothesis =>
    rw [Layer.addFiles, Journal.bind_eq_andThen, Journal.outcome_andThen_eq_ok_iff] at added
    obtain ⟨between, first, rest⟩ := added
    exact inductionHypothesis (limits.addFile first) rest

end Config.Layer.Limits

namespace Command

variable {environment : Environment} {settings : ExpandSettings}

theorem outcome_resolveConfig_eq_ok_iff {config : Config} :
    (resolveConfig environment settings).outcome = .ok config ↔
      ∃ layer, (layered environment.sources (chosenFiles environment.files settings.configFiles)
        settings).outcome = .ok layer ∧ layer.freeze.errors.isEmpty ∧ layer.freeze = config := by
  rw [resolveConfig_eq,
    Journal.andThen_of_ok (outcome_settingsFiles environment settings.configFiles)]
  simp only [Journal.outcome_andThen_eq_ok_iff, outcome_configure_eq_ok_iff]
  refine exists_congr fun layer => and_congr_right fun _ => ?_
  split
  · rename_i empty
    simp [Journal.done, empty]
  · rename_i found
    simp [Environment.fail, failWith, found]

/-- A limit that options and settings files give is one that engines accept. -/
theorem proper_of_resolveConfig (given : ∀ limit, settings.limit = some limit → limit.Proper)
    {config : Config} (resolved : (resolveConfig environment settings).outcome = .ok config) :
    config.limit.Proper := by
  obtain ⟨layer, made, -, rfl⟩ := outcome_resolveConfig_eq_ok_iff.mp resolved
  simp only [layered, Journal.bind_eq_andThen, Journal.outcome_andThen_eq_ok_iff] at made
  obtain ⟨merged, merges, augmented, adds, overridden⟩ := made
  have nothing : Config.Layer.Limits Limit.Proper {} := fun limit sets => nomatch sets
  have limits : merged.Limits Limit.Proper := nothing.loadOver (fun _ => id) merges
  exact ((limits.addFiles adds).override given overridden).freeze fun _ => id

end Command

/-- An engine with a sink that takes up diagnostics is made of a configuration with a limit that was
checked, and it expands every text. -/
theorem Config.exists_engine?_of_proper {config : Config} (proper : config.limit.Proper) :
    ∃ engine, config.engine? .collect = .ok engine ∧ ∀ text, (engine.expand text).Succeeds := by
  obtain ⟨engine, made⟩ := exists_engine?_iff.mpr proper.valid
  obtain ⟨builtin, collects, -⟩ := builtin_of_engine? made
  exact ⟨engine, made, fun text => builtin.succeeds_expandAt collects 0 text⟩

end TagExpansion
