import TagExpansion.Proofs.Precedence

/-
This file proves that layers form a monoid: the layer that sets nothing changes nothing that it is
merged with, and of three layers it does not matter which two are merged first.

A limit or a format is the one of the last layer that sets it, files and diagnostics stand behind
one another, and the abbreviations are maps that remember their order, for which the laws are known.

Settings files are loaded by laying each over what the ones before have made. So they can be loaded
in two rows, and the layers of the rows be merged.
-/

namespace TagExpansion

/-! ### Layers -/

namespace Config.Layer

theorem empty_merge (layer : Layer) : merge {} layer = layer := by
  obtain ⟨limit, format, ⟨table⟩, files, diagnostics⟩ := layer
  have abbreviations : OrderedMap.merge {} table = table := OrderedMap.empty_merge table
  cases limit <;> cases format <;> simp [merge, Abbreviations.merge, abbreviations]

theorem merge_empty (layer : Layer) : layer.merge {} = layer := by
  obtain ⟨limit, format, ⟨table⟩, files, diagnostics⟩ := layer
  have abbreviations : table.merge {} = table := OrderedMap.merge_empty table
  simp [merge, Abbreviations.merge, abbreviations]

theorem merge_assoc (lower middle upper : Layer) :
    (lower.merge middle).merge upper = lower.merge (middle.merge upper) := by
  simp only [merge, Abbreviations.merge, OrderedMap.merge_assoc, Option.orElse_eq_or,
    Option.or_assoc, List.append_assoc]

/-! ### Loading in two rows -/

variable {sources : Sources}

/-- Files that are loaded over a layer make a layer of their own that is merged with it. -/
theorem loadOver_eq_map_loadMerged (layer : Layer) (paths : List Path) :
    loadOver sources layer paths = (loadMerged sources paths).map layer.merge := by
  induction paths generalizing layer with
  | nil =>
    show Journal.done layer = Journal.done (layer.merge {})
    rw [merge_empty]
  | cons path others inductionHypothesis =>
    rw [loadMerged, loadOver, loadOver, Journal.bind_eq_andThen, Journal.bind_eq_andThen,
      Journal.map_andThen]
    refine congrArg (Journal.andThen _) (funext fun loaded => ?_)
    have together : (layer.merge loaded).merge = fun rest => layer.merge (loaded.merge rest) :=
      funext (merge_assoc layer loaded)
    rw [inductionHypothesis, inductionHypothesis, Journal.map_map, empty_merge, together]

/-- The layer of a single file needs no merging. -/
theorem loadMerged_singleton (path : Path) : loadMerged sources [path] = load sources path := by
  simp only [loadMerged, loadOver, empty_merge]
  exact Journal.andThen_done _

theorem loadOver_append (layer : Layer) (paths others : List Path) :
    loadOver sources layer (paths ++ others) =
      (loadOver sources layer paths).andThen fun lower => loadOver sources lower others := by
  induction paths generalizing layer with
  | nil => rfl
  | cons path rest inductionHypothesis =>
    simp only [List.cons_append, loadOver, Journal.bind_eq_andThen, Journal.andThen_assoc,
      inductionHypothesis]

/-- To load files in one row is to load them in two rows and to merge the layers, the log
included. -/
theorem loadMerged_append (paths others : List Path) :
    loadMerged sources (paths ++ others) =
      (loadMerged sources paths).andThen fun lower => (loadMerged sources others).map lower.merge := by
  rw [loadMerged, loadOver_append]
  simp only [loadOver_eq_map_loadMerged _ others]
  rfl

/-- Layers with merging are a monoid, and to load files in one row is to merge the layers of any two
rows that it is made of. -/
theorem merge_laws :
    (∀ layer : Layer, merge {} layer = layer ∧ layer.merge {} = layer) ∧
    (∀ lower middle upper : Layer,
      (lower.merge middle).merge upper = lower.merge (middle.merge upper)) ∧
    ∀ (sources : Sources) (paths others : List Path),
      (∀ path ∈ paths ++ others, ∃ layer, (load sources path).outcome = .ok layer) →
        ∃ lower upper, (loadMerged sources paths).outcome = .ok lower ∧
          (loadMerged sources others).outcome = .ok upper ∧
          (loadMerged sources (paths ++ others)).outcome = .ok (lower.merge upper) := by
  refine ⟨fun layer => ⟨empty_merge layer, merge_empty layer⟩, merge_assoc, ?_⟩
  intro sources paths others loaded
  rw [List.forall_mem_append] at loaded
  obtain ⟨lower, first, -⟩ := exists_combines_of_loadMerged loaded.1
  obtain ⟨upper, second, -⟩ := exists_combines_of_loadMerged loaded.2
  refine ⟨lower, upper, first, second, ?_⟩
  rw [loadMerged_append, Journal.andThen_of_ok first]
  simp only [Journal.map, second, Except.map]

/-- Two files in two rows. The first sets a format and an abbreviation, the second changes the text
of the abbreviation and is worth a warning. -/
theorem merge_laws_two_files :
    let lower : Layer := {
      format := some .html
      abbreviations := .ofList [("x".toList, "1".toList)]
      files := [.ofText "/a.toml".toList] }
    let upper : Layer := {
      abbreviations := .ofList [("x".toList, "2".toList)]
      files := [.ofText "/b.toml".toList]
      diagnostics := [{
        kind := .warning
        message := "Unknown output format 'pdf' (expected one of: plain, html); ignored".toList }] }
    (loadMerged Command.layeredSources [.ofText "a.toml".toList]).outcome = .ok lower ∧
      (loadMerged Command.layeredSources [.ofText "b.toml".toList]).outcome = .ok upper ∧
      (loadMerged Command.layeredSources
        [.ofText "a.toml".toList, .ofText "b.toml".toList]).outcome = .ok (lower.merge upper) := by
  obtain ⟨lower, upper, first, second, both⟩ :=
    merge_laws.2.2 Command.layeredSources [.ofText "a.toml".toList] [.ofText "b.toml".toList]
      (List.forall_mem_cons.mpr ⟨⟨_, Command.outcome_load_first⟩,
        List.forall_mem_singleton.mpr ⟨_, Command.outcome_load_second⟩⟩)
  have isFirst : lower = Command.firstLayer := by
    rw [loadMerged_singleton, Command.outcome_load_first] at first
    exact (Except.ok.inj first).symm
  have isSecond : upper = Command.secondLayer := by
    rw [loadMerged_singleton, Command.outcome_load_second] at second
    exact (Except.ok.inj second).symm
  subst isFirst isSecond
  exact ⟨first, second, both⟩

end Config.Layer

end TagExpansion
