import TagExpansion.Proofs.Formats

/-
This file follows the limit of nesting through all that can be done with layers and configurations.

Layers are made from nothing or of tables of settings, they are merged and altered, frozen into
configurations and thawed again, in any order. A limit that comes from a table is a number that
engines accept, and so is the default. Merging, freezing and thawing pass limits on. The one place
where a limit gets in unchecked are the overrides: they may give a number out of range or a truth
value, and it arrives in the configuration as it is. An engine is then refused.

So a configuration has a limit that engines accept, or one that an override gave. The argument does
not depend on which limits are meant. Any property that all proper limits have, and all limits that
overrides give, is a property of all limits that are in use.
-/

namespace TagExpansion

/-- A number in the range that engines accept. -/
def Limit.Proper (limit : Limit) : Prop :=
  ∃ value : Int, limit = .number value ∧ 1 ≤ value ∧ value ≤ Limit.greatest

theorem Limit.Proper.valid {limit : Limit} (proper : limit.Proper) : limit.Valid := by
  obtain ⟨value, rfl, range⟩ := proper
  exact range

namespace Config

/-! ### Layers and configurations in use -/

/-- Layers and configurations that are in use. -/
structure Workbench where
  layers : List Layer := []
  configs : List Config := []

/-- What can be done with them. Layers and configurations are named by their places. -/
inductive Workbench.Operation where
  /-- A layer that sets nothing comes behind the others. -/
  | create
  /-- The layer of a table comes behind the others. -/
  | read (tree : FileTree) (table : Table) (source : Option Path)
  | merge (lower upper : Nat)
  | setFormat (target : Nat) (name : Text)
  | addFile (target : Nat) (tree : FileTree) (path : Path)
  | override (target : Nat) (overrides : Layer.Overrides)
  | freeze (source : Nat)
  | thaw (source : Nat)

/-- The limit that an operation brings in unchecked. -/
def Workbench.Operation.given? : Operation → Option Limit
  | .override _ overrides => overrides.limit
  | _ => none

namespace Workbench

/-- Puts a layer behind the others. -/
def add (bench : Workbench) (layer : Layer) : Workbench :=
  { bench with layers := bench.layers ++ [layer] }

/-- Alters one of the layers. If this fails, the layer is left as it is. -/
def alter (bench : Workbench) (target : Nat) (change : Layer → Journal Log.Entry Failure Layer) :
    Workbench :=
  match bench.layers[target]? with
  | none => bench
  | some layer =>
    match (change layer).outcome with
    | .ok after => { bench with layers := bench.layers.set target after }
    | .error _ => bench

/-- The workbench behind an operation. A place where nothing stands is left alone. -/
def step (bench : Workbench) : Operation → Workbench
  | .create => bench.add {}
  | .read tree table source =>
    match (Layer.ofTable tree table source).outcome with
    | .ok layer => bench.add layer
    | .error _ => bench
  | .merge lower upper =>
    match bench.layers[lower]?, bench.layers[upper]? with
    | some below, some above => bench.add (below.merge above)
    | _, _ => bench
  | .setFormat target name => bench.alter target fun layer => layer.setFormat name
  | .addFile target tree path => bench.alter target fun layer => layer.addFile tree path
  | .override target overrides => bench.alter target fun layer => layer.override overrides
  | .freeze source =>
    match bench.layers[source]? with
    | none => bench
    | some layer => { bench with configs := bench.configs ++ [layer.freeze] }
  | .thaw source =>
    match bench.configs[source]? with
    | none => bench
    | some config => bench.add config.thaw

/-- The workbench behind several operations, when there was nothing on it. -/
def run (operations : List Operation) : Workbench := operations.foldl step {}

end Workbench

/-! ### The limits of layers -/

/-- If a layer sets a limit, it has a property. -/
def Layer.Limits (property : Limit → Prop) (layer : Layer) : Prop :=
  ∀ limit, layer.limit = some limit → property limit

namespace Layer.Limits

variable {property : Limit → Prop} {layer after : Layer}

theorem ofTable (proper : ∀ limit : Limit, limit.Proper → property limit) {tree : FileTree}
    {table : Table} {source : Option Path}
    (made : (Layer.ofTable tree table source).outcome = .ok layer) : layer.Limits property := by
  intro limit sets
  obtain ⟨valid, value, rfl, -⟩ := ((reflects_of_ofTable made).limit limit).mp sets
  exact proper _ ⟨value, rfl, valid⟩

theorem orElse {upper lower : Option Limit} (above : ∀ limit, upper = some limit → property limit)
    (below : ∀ limit, lower = some limit → property limit) (limit : Limit)
    (found : (upper.orElse fun _ => lower) = some limit) : property limit := by
  rw [Option.orElse_eq_or, Option.or_eq_some_iff] at found
  obtain found | ⟨-, found⟩ := found
  · exact above limit found
  · exact below limit found

theorem merge {lower upper : Layer} (below : lower.Limits property)
    (above : upper.Limits property) : (lower.merge upper).Limits property :=
  orElse above below

theorem setFormat (limits : layer.Limits property) {name : Text}
    (set : (layer.setFormat name).outcome = .ok after) : after.Limits property := by
  obtain ⟨-, rfl⟩ := outcome_complain_eq_ok_iff.mp set
  exact limits

theorem addFile (limits : layer.Limits property) {tree : FileTree} {path : Path}
    (added : (layer.addFile tree path).outcome = .ok after) : after.Limits property := by
  obtain ⟨_, -, rfl⟩ | ⟨_, -, rfl⟩ := outcome_addFile_eq_ok_iff.mp added
  · exact limits
  · exact limits

theorem override (limits : layer.Limits property) {overrides : Overrides}
    (given : ∀ limit, overrides.limit = some limit → property limit)
    (overridden : (layer.override overrides).outcome = .ok after) : after.Limits property := by
  have kept : Layer.Limits property
      { layer with limit := overrides.limit.orElse fun _ => layer.limit } := orElse given limits
  unfold Layer.override at overridden
  split at overridden
  · cases overridden
    exact kept
  · cases overridden
    exact kept
  · exact kept.setFormat overridden

theorem freeze (proper : ∀ limit : Limit, limit.Proper → property limit)
    (limits : layer.Limits property) : property layer.freeze.limit := by
  show property (layer.limit.getD .default)
  cases sets : layer.limit with
  | none => exact proper _ ⟨64, rfl, by decide⟩
  | some limit => exact limits limit sets

end Layer.Limits

/-! ### The limits on a workbench -/

namespace Workbench

/-- All limits on a workbench have a property. -/
structure Limits (property : Limit → Prop) (bench : Workbench) : Prop where
  layers : ∀ layer ∈ bench.layers, layer.Limits property
  configs : ∀ config ∈ bench.configs, property config.limit

namespace Limits

variable {property : Limit → Prop} {bench : Workbench}

theorem add (limits : bench.Limits property) {layer : Layer} (new : layer.Limits property) :
    (bench.add layer).Limits property where
  layers := List.forall_mem_append.mpr ⟨limits.layers, List.forall_mem_singleton.mpr new⟩
  configs := limits.configs

theorem alter (limits : bench.Limits property) (target : Nat)
    {change : Layer → Journal Log.Entry Failure Layer}
    (kept : ∀ layer after, layer.Limits property → (change layer).outcome = .ok after →
      after.Limits property) : (bench.alter target change).Limits property := by
  unfold Workbench.alter
  split
  · exact limits
  · rename_i layer found
    split
    · rename_i after changed
      refine ⟨fun other member => ?_, limits.configs⟩
      obtain old | rfl := List.mem_or_eq_of_mem_set member
      · exact limits.layers other old
      · exact kept layer other (limits.layers layer (List.mem_of_getElem? found)) changed
    · exact limits

/-- What one operation keeps. -/
theorem step (proper : ∀ limit : Limit, limit.Proper → property limit)
    (limits : bench.Limits property) (operation : Operation)
    (given : ∀ limit, operation.given? = some limit → property limit) :
    (bench.step operation).Limits property := by
  cases operation with
  | create => exact limits.add fun limit sets => nomatch sets
  | read tree table source =>
    rw [Workbench.step]
    split
    · rename_i made
      exact limits.add (.ofTable proper made)
    · exact limits
  | merge lower upper =>
    rw [Workbench.step]
    split
    · rename_i below above
      exact limits.add ((limits.layers _ (List.mem_of_getElem? below)).merge
        (limits.layers _ (List.mem_of_getElem? above)))
    · exact limits
  | setFormat target name => exact limits.alter target fun _ _ before => before.setFormat
  | addFile target tree path => exact limits.alter target fun _ _ before => before.addFile
  | override target overrides =>
    exact limits.alter target fun _ _ before => before.override given
  | freeze source =>
    rw [Workbench.step]
    split
    · exact limits
    · rename_i layer found
      have frozen := (limits.layers layer (List.mem_of_getElem? found)).freeze proper
      exact ⟨limits.layers, List.forall_mem_append.mpr
        ⟨limits.configs, List.forall_mem_singleton.mpr frozen⟩⟩
  | thaw source =>
    rw [Workbench.step]
    split
    · exact limits
    · rename_i config found
      refine limits.add fun limit sets => ?_
      cases sets
      exact limits.configs config (List.mem_of_getElem? found)

/-- What any number of operations keep. -/
theorem foldl (proper : ∀ limit : Limit, limit.Proper → property limit)
    (limits : bench.Limits property) (operations : List Operation)
    (given : ∀ operation ∈ operations, ∀ limit, operation.given? = some limit → property limit) :
    (operations.foldl Workbench.step bench).Limits property := by
  induction operations generalizing bench with
  | nil => exact limits
  | cons operation others inductionHypothesis =>
    rw [List.forall_mem_cons] at given
    exact inductionHypothesis (limits.step proper operation given.1) given.2

end Limits

theorem limits_run {property : Limit → Prop}
    (proper : ∀ limit : Limit, limit.Proper → property limit) (operations : List Operation)
    (given : ∀ operation ∈ operations, ∀ limit, operation.given? = some limit → property limit) :
    (run operations).Limits property :=
  Limits.foldl proper ⟨List.forall_mem_nil _, List.forall_mem_nil _⟩ operations given

/-! ### Configurations and their engines -/

/-- Whatever was done, the limit of a configuration is a number in the range that engines accept, and
an engine can be made of it, or an override gave the limit. In any case an engine is refused only if
the limit is out of range. -/
theorem limit_of_run (operations : List Operation) (config : Config)
    (made : config ∈ (run operations).configs) :
    ((config.limit.Proper ∧ ∀ sink, ∃ engine, config.engine? sink = .ok engine) ∨
      ∃ operation ∈ operations, operation.given? = some config.limit) ∧
    ∀ sink, (∃ engine, config.engine? sink = .ok engine) ↔ config.limit.Valid := by
  have limits : (run operations).Limits fun limit =>
      limit.Proper ∨ ∃ operation ∈ operations, operation.given? = some limit := by
    refine limits_run (fun limit proper => .inl proper) operations ?_
    intro operation member limit gives
    exact .inr ⟨operation, member, gives⟩
  refine ⟨?_, fun sink => exists_engine?_iff⟩
  obtain proper | given := limits.configs config made
  · exact .inl ⟨proper, fun sink => exists_engine?_iff.mpr proper.valid⟩
  · exact .inr given

/-- A limit out of range does no harm if the limit of a table is laid over it. -/
theorem limit_of_run_of_merged :
    let operations : List Operation := [
      .create, .override 0 { limit := some (.number 0) },
      .read { nodes := .empty }
        [("engine".toList, .table [("max_depth".toList, .number 12)])] none,
      .merge 0 1, .freeze 2]
    ∃ config ∈ (run operations).configs, config.limit = .number 12 ∧
      ∃ engine, config.engine? .discard = .ok engine := by
  intro operations
  have made : (run operations).configs = [{ limit := .number 12 }] := rfl
  have member : { limit := .number 12 } ∈ (run operations).configs := by
    rw [made]
    exact List.mem_singleton_self _
  have accepted := (limit_of_run operations _ member).2 .discard
  exact ⟨_, member, rfl, accepted.mpr (by decide)⟩

/-- An override is taken as it is. So a configuration can have a limit of which no engine is made. -/
theorem limit_of_run_of_overridden :
    let operations : List Operation :=
      [.create, .override 0 { limit := some (.number 0) }, .freeze 0]
    ∃ config ∈ (run operations).configs, ¬config.limit.Proper ∧
      ∀ sink, config.engine? sink = .error (.number 0) := by
  intro operations
  have made : (run operations).configs = [{ limit := .number 0 }] := rfl
  refine ⟨{ limit := .number 0 }, ?_, fun proper => ?_, fun sink => ?_⟩
  · rw [made]
    exact List.mem_singleton_self _
  · exact absurd proper.valid (by decide)
  · exact engine?_eq_error_iff.mpr ⟨by decide, rfl⟩

end Workbench

end Config

end TagExpansion
