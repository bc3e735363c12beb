import TagExpansion.Command.Expand
import TagExpansion.Proofs.Loading

/-
This file tells which of several sources of settings wins.

An option wins over all files, and of the files the last one that says something counts, where a
file whose setting makes no sense says nothing. What no source says gets its default. Abbreviations
follow the same rule name by name: the files of abbreviations that options give come first, then the
settings files, and inside of one settings file its own list comes before the file that it names.

The program does not ask the sources in that order. It lays the layers of the files over one another
as it loads them, lays further abbreviations over what came out, applies the options last and then
fills in the defaults. One lemma for each of these steps says what it does to the sources that count.
-/

namespace TagExpansion

/-- The value that counts for a setting that may be given, that sources may set otherwise and that
has a default. -/
inductive Prevails {ι α : Type} (given : Option α) (gives : ι → α → Prop) (sources : List ι)
    (default : α) : α → Prop where
  | given {value : α} (isGiven : given = some value) : Prevails given gives sources default value
  | source {value : α} (notGiven : given = none) (last : Last gives sources value) :
      Prevails given gives sources default value
  | default (notGiven : given = none) (silent : Silent gives sources) :
      Prevails given gives sources default default

section Options

variable {ι α : Type} {gives : ι → α → Prop} {sources : List ι}

/-- What the sources say, under what is given and over a default, is the value that counts. -/
theorem getD_eq_iff_prevails {given found : Option α} {default value : α}
    (finds : ∀ value, found = some value ↔ Last gives sources value) :
    (given.orElse fun _ => found).getD default = value ↔
      Prevails given gives sources default value := by
  constructor
  · rintro rfl
    cases given with
    | some value => exact .given rfl
    | none =>
      cases found with
      | some value => exact .source rfl ((finds value).mp rfl)
      | none =>
        refine .default rfl (silent_iff_forall_not_last.mpr fun value last => ?_)
        exact nomatch (finds value).mpr last
  · intro prevails
    cases prevails with
    | given isGiven => rw [isGiven, Option.orElse_some, Option.getD_some]
    | source notGiven last =>
      rw [notGiven, Option.orElse_none, (finds value).mpr last, Option.getD_some]
    | default notGiven silent =>
      have none : found = none := by
        rw [Option.eq_none_iff_forall_ne_some]
        exact fun value isFound => silent_iff_forall_not_last.mp silent value ((finds value).mp isFound)
      rw [notGiven, none, Option.orElse_none, Option.getD_none]

/-- What later sources find is laid over what earlier ones find. -/
theorem orElse_eq_some_iff_last {upper lower : Option α} {first second : List ι}
    (later : ∀ value, upper = some value ↔ Last gives second value)
    (earlier : ∀ value, lower = some value ↔ Last gives first value) (value : α) :
    (upper.orElse fun _ => lower) = some value ↔ Last gives (first ++ second) value := by
  rw [Option.orElse_eq_or, Option.or_eq_some_iff, last_append, silent_iff_forall_not_last,
    Option.eq_none_iff_forall_ne_some, later, earlier]
  simp only [ne_eq, later]

end Options

/-! ### Abbreviations laid over others -/

theorem Abbreviations.find?_merge (lower upper : Abbreviations) (name : Text) :
    (lower.merge upper).find? name = (upper.find? name).orElse fun _ => lower.find? name := by
  rw [Option.orElse_eq_or]
  exact OrderedMap.find?_merge lower.table upper.table name

theorem Abbreviations.find?_ofList_toList (abbreviations : Abbreviations) (name : Text) :
    (ofList abbreviations.toList).find? name = abbreviations.find? name := by
  apply Option.ext
  intro text
  rw [find?, ofList, OrderedMap.ofList, OrderedMap.find?_insertAll_eq_some_iff, toList,
    OrderedMap.last_entries_iff, OrderedMap.silent_entries_iff]
  simp [find?, OrderedMap.empty, OrderedMap.find?, OrderedMap.findIn]

namespace Config

/-! ### What the files say -/

section Files

variable (sources : Sources)

/-- A settings file says something: it holds a table that means this. -/
def Says (path : Path) (meaning : Table → Prop) : Prop :=
  ∃ table, Holds sources path table ∧ meaning table

/-- A settings file sets the limit. -/
def FileSetsLimit (path : Path) (limit : Limit) : Prop := Says sources path (·.SetsLimit limit)

/-- A settings file sets the format. -/
def FileSetsFormat (path : Path) (format : Format) : Prop := Says sources path (·.SetsFormat format)

/-- A settings file defines an abbreviation, by itself or by the file that it names. -/
def SettingsDefine (name : Text) (path : Path) (text : Text) : Prop :=
  Says sources path (·.Defines sources.toFileTree (sources.directoryPath.resolve path).parent name text)

/-- An error is told when a settings file is loaded. -/
def TellsError (path : Path) : Prop :=
  ∃ layer, (Layer.load sources path).outcome = .ok layer ∧
    ∃ diagnostic ∈ layer.diagnostics, diagnostic.severity = .error

/-- A layer says what settings files say together, later files winning. -/
structure Combines (paths : List Path) (layer : Layer) : Prop where
  limit : ∀ limit, layer.limit = some limit ↔ Last (FileSetsLimit sources) paths limit
  format : ∀ format, layer.format = some format ↔ Last (FileSetsFormat sources) paths format
  abbreviations : ∀ name text,
    layer.abbreviations.find? name = some text ↔ Last (SettingsDefine sources name) paths text
  errors : (∃ diagnostic ∈ layer.diagnostics, diagnostic.severity = .error) ↔
    ∃ path ∈ paths, TellsError sources path

end Files

variable {sources : Sources} {path : Path} {layer : Layer}

/-! ### Laying settings files over one another -/

theorem combines_nil : Combines sources [] {} where
  limit _ := iff_of_false nofun not_last_nil
  format _ := iff_of_false nofun not_last_nil
  abbreviations _ _ := iff_of_false nofun not_last_nil
  errors := by simp

/-- To lay a layer over another is to put its files behind those of the other. -/
theorem Combines.merge {first second : List Path} {lower upper : Layer}
    (below : Combines sources first lower) (above : Combines sources second upper) :
    Combines sources (first ++ second) (lower.merge upper) where
  limit := orElse_eq_some_iff_last above.limit below.limit
  format := orElse_eq_some_iff_last above.format below.format
  abbreviations name text := by
    rw [Layer.merge, Abbreviations.find?_merge]
    exact orElse_eq_some_iff_last (above.abbreviations name) (below.abbreviations name) text
  errors := by
    simp only [Layer.merge, List.mem_append, or_and_right, exists_or, below.errors, above.errors]

theorem says_iff_of_holds {table : Table} (holds : Holds sources path table)
    {meaning : Table → Prop} : Says sources path meaning ↔ meaning table := by
  constructor
  · rintro ⟨other, alsoHolds, means⟩
    exact holds.unique alsoHolds ▸ means
  · exact fun means => ⟨table, holds, means⟩

theorem not_says_of_useless {message : Text} (useless : Useless sources path message)
    {meaning : Table → Prop} : ¬Says sources path meaning :=
  fun ⟨_, holds, _⟩ => useless.not_holds holds

/-- A file that holds a table is worth no error. -/
theorem not_tellsError_of_holds {table : Table} (holds : Holds sources path table) :
    ¬TellsError sources path := by
  rintro ⟨layer, loaded, diagnostic, member, severe⟩
  have warned := (reflects_of_load holds loaded).warnings diagnostic member
  rw [Diagnostic.severity, warned] at severe
  exact nomatch severe

theorem tellsError_iff_of_load (loaded : (Layer.load sources path).outcome = .ok layer) :
    TellsError sources path ↔ ∃ diagnostic ∈ layer.diagnostics, diagnostic.severity = .error := by
  simp [TellsError, loaded]

/-- The layer of one file says what the file says. -/
theorem combines_of_load (loaded : (Layer.load sources path).outcome = .ok layer) :
    Combines sources [path] layer := by
  have errors : (∃ diagnostic ∈ layer.diagnostics, diagnostic.severity = .error) ↔
      ∃ other ∈ [path], TellsError sources other := by
    simp only [List.mem_singleton, exists_eq_left, tellsError_iff_of_load loaded]
  obtain ⟨message, useless⟩ | ⟨table, holds⟩ := useless_or_holds_of_load loaded
  · have same := (outcome_load_of_useless useless).symm.trans loaded
    rw [Except.ok.injEq] at same
    refine ⟨fun limit => ?_, fun format => ?_, fun name text => ?_, errors⟩
    all_goals
      rw [last_singleton, ← same]
      exact iff_of_false nofun (not_says_of_useless useless)
  · have reflects := reflects_of_load holds loaded
    refine ⟨fun limit => ?_, fun format => ?_, fun name text => ?_, errors⟩
    · rw [last_singleton, FileSetsLimit, says_iff_of_holds holds, reflects.limit]
    · rw [last_singleton, FileSetsFormat, says_iff_of_holds holds, reflects.format]
    · rw [last_singleton, SettingsDefine, says_iff_of_holds holds, reflects.abbreviations]

/-- Settings files that are loaded one after the other say together what they say. -/
theorem exists_combines_of_loadOver {before paths : List Path} (known : Combines sources before layer)
    (loaded : ∀ path ∈ paths, ∃ layer, (Layer.load sources path).outcome = .ok layer) :
    ∃ after, (Layer.loadOver sources layer paths).outcome = .ok after ∧
      Combines sources (before ++ paths) after := by
  -- The files that are done already are carried along, since the layer is an accumulator.
  induction paths generalizing before layer with
  | nil => exact ⟨layer, rfl, by rwa [List.append_nil]⟩
  | cons path others inductionHypothesis =>
    rw [List.forall_mem_cons] at loaded
    obtain ⟨⟨upper, first⟩, rest⟩ := loaded
    obtain ⟨after, done, combined⟩ :=
      inductionHypothesis (known.merge (combines_of_load first)) rest
    rw [List.append_assoc, List.singleton_append] at combined
    refine ⟨after, ?_, combined⟩
    simp only [Layer.loadOver, Journal.bind_eq_andThen]
    exact Journal.outcome_andThen_eq_ok_iff.mpr ⟨upper, first, done⟩

theorem exists_combines_of_loadMerged {paths : List Path}
    (loaded : ∀ path ∈ paths, ∃ layer, (Layer.load sources path).outcome = .ok layer) :
    ∃ after, (Layer.loadMerged sources paths).outcome = .ok after ∧ Combines sources paths after :=
  exists_combines_of_loadOver combines_nil loaded

/-! ### Further files of abbreviations -/

/-- What files of abbreviations do to a layer. -/
structure Augments (tree : FileTree) (files : List Path) (layer after : Layer) : Prop where
  limit : after.limit = layer.limit
  format : after.format = layer.format
  diagnostics : after.diagnostics = layer.diagnostics
  abbreviations : ∀ name text, after.abbreviations.find? name = some text ↔
    Last (FileDefines tree name) files text ∨
      Silent (FileDefines tree name) files ∧ layer.abbreviations.find? name = some text

theorem exists_augments_of_addFiles {tree : FileTree} {files : List Path}
    (readable : ∀ path ∈ files, ∃ text, tree.readText path = .ok text) :
    ∃ after, (Layer.addFiles tree layer files).outcome = .ok after ∧
      Augments tree files layer after := by
  induction files generalizing layer with
  | nil => exact ⟨layer, rfl, rfl, rfl, rfl, by simp [not_last_nil, silent_nil]⟩
  | cons path others inductionHypothesis =>
    rw [List.forall_mem_cons] at readable
    obtain ⟨⟨content, read⟩, rest⟩ := readable
    have added : (Layer.addFile tree layer path).outcome =
        .ok (layer.addAbbreviations (Abbreviations.parse content).toList) :=
      Layer.outcome_addFile_eq_ok_iff.mpr (.inl ⟨content, read, rfl⟩)
    obtain ⟨after, done, augments⟩ :=
      @inductionHypothesis (layer.addAbbreviations (Abbreviations.parse content).toList) rest
    refine ⟨after, ?_, augments.limit, augments.format, augments.diagnostics, fun name text => ?_⟩
    · simp only [Layer.addFiles, Journal.bind_eq_andThen]
      exact Journal.outcome_andThen_eq_ok_iff.mpr ⟨_, added, done⟩
    · rw [augments.abbreviations, find?_addAbbreviations_toList, last_cons, silent_cons]
      simp only [fileDefines_of_readText read, Option.eq_none_iff_forall_ne_some, ne_eq]
      grind

/-! ### Options and defaults -/

theorem outcome_override (limit : Option Limit) (format : Option Format) :
    (layer.override { limit, format := format.map .format }).outcome = .ok { layer with
      limit := limit.orElse fun _ => layer.limit
      format := format.orElse fun _ => layer.format } := by
  cases format <;> rfl

theorem isEmpty_errors_iff {config : Config} :
    config.errors.isEmpty = true ↔
      ∀ diagnostic ∈ config.diagnostics, diagnostic.severity ≠ .error := by
  simp [errors, List.filter_eq_nil_iff]

/-- A configuration is what files and options make of it together. -/
structure Follows (sources : Sources) (paths files : List Path) (limit : Option Limit)
    (format : Option Format) (config : Config) : Prop where
  limit : ∀ value,
    config.limit = value ↔ Prevails limit (FileSetsLimit sources) paths .default value
  format : ∀ value,
    config.format = value ↔ Prevails format (FileSetsFormat sources) paths .plain value
  abbreviations : ∀ name text, config.abbreviations.find? name = some text ↔
    Last (FileDefines sources.toFileTree name) files text ∨
      Silent (FileDefines sources.toFileTree name) files ∧ Last (SettingsDefine sources name) paths text

end Config

namespace Command

/-- The settings files that count: those that are given, else the default one if it is there. -/
def chosenFiles (tree : FileTree) : List Path → List Path
  | [] =>
    let default := tree.directoryPath.append (.ofText Config.defaultFileName)
    if tree.isFile default then [default] else []
  | given => given

theorem outcome_settingsFiles (environment : Environment) (given : List Path) :
    (settingsFiles environment given).outcome = .ok (chosenFiles environment.files given) := by
  cases given with
  | nil =>
    simp only [settingsFiles, chosenFiles, List.isEmpty_nil, Bool.true_and]
    generalize environment.files.directoryPath.append (.ofText Config.defaultFileName) = default
    split <;> rfl
  | cons path others => simp [settingsFiles, chosenFiles, Journal.done]

theorem outcome_configure_eq_ok_iff {α : Type} {environment : Environment}
    {loading : Journal Log.Entry Config.Failure α} {value : α} :
    (environment.configure loading).outcome = .ok value ↔ loading.outcome = .ok value :=
  Journal.outcome_mapFailure_eq_ok_iff

/-- The layer that settings files, files of abbreviations and options make together. -/
def layered (sources : Config.Sources) (paths : List Path) (settings : ExpandSettings) :
    Journal Log.Entry Config.Failure Config.Layer := do
  let layer ← Config.Layer.loadMerged sources paths
  let layer ← Config.Layer.addFiles sources.toFileTree layer settings.abbreviationFiles
  layer.override { limit := settings.limit, format := settings.format.map .format }

theorem resolveConfig_eq (environment : Environment) (settings : ExpandSettings) :
    resolveConfig environment settings =
      (settingsFiles environment settings.configFiles).andThen fun paths =>
        (environment.configure (layered environment.sources paths settings)).andThen fun layer =>
          if layer.freeze.errors.isEmpty then .done layer.freeze
          else environment.fail .configError (Text.join "; ".toList layer.freeze.errors) := rfl

theorem exists_follows_of_layered {sources : Config.Sources} {paths : List Path}
    {settings : ExpandSettings}
    (loaded : ∀ path ∈ paths, ∃ layer, (Config.Layer.load sources path).outcome = .ok layer)
    (readable : ∀ path ∈ settings.abbreviationFiles, ∃ text, sources.readText path = .ok text) :
    ∃ layer, (layered sources paths settings).outcome = .ok layer ∧
      Config.Follows sources paths settings.abbreviationFiles settings.limit settings.format
        layer.freeze ∧
      ((∃ diagnostic ∈ layer.freeze.diagnostics, diagnostic.severity = .error) ↔
        ∃ path ∈ paths, Config.TellsError sources path) := by
  obtain ⟨merged, merges, combines⟩ := Config.exists_combines_of_loadMerged loaded
  obtain ⟨augmented, adds, augments⟩ := Config.exists_augments_of_addFiles readable
  refine ⟨_, Journal.outcome_andThen_eq_ok_iff.mpr ⟨merged, merges,
    Journal.outcome_andThen_eq_ok_iff.mpr ⟨augmented, adds, Config.outcome_override _ _⟩⟩, ?_, ?_⟩
  · refine ⟨fun value => ?_, fun value => ?_, fun name text => ?_⟩
    · simp only [Config.Layer.freeze, augments.limit]
      exact getD_eq_iff_prevails combines.limit
    · simp only [Config.Layer.freeze, augments.format]
      exact getD_eq_iff_prevails combines.format
    · rw [Config.Layer.freeze, Abbreviations.find?_ofList_toList, augments.abbreviations,
        combines.abbreviations]
  · simp only [Config.Layer.freeze, augments.diagnostics, combines.errors]

theorem outcome_resolveConfig {environment : Environment} {settings : ExpandSettings}
    {layer : Config.Layer}
    (made : (layered environment.sources (chosenFiles environment.files settings.configFiles)
      settings).outcome = .ok layer) :
    (resolveConfig environment settings).outcome =
      if layer.freeze.errors.isEmpty then .ok layer.freeze
      else .error (.error .configError (Text.join "; ".toList layer.freeze.errors)) := by
  rw [resolveConfig_eq,
    Journal.andThen_of_ok (outcome_settingsFiles environment settings.configFiles),
    Journal.andThen_of_ok (outcome_configure_eq_ok_iff.mpr made)]
  split <;> rfl

/-! ### Two settings files and a file of abbreviations -/

/-- Settings of a format and of an abbreviation. -/
def shapedText (format text : String) : Text :=
  ("[engine]\nformat = \"" ++ format ++ "\"\n[abbreviations]\nx = \"" ++ text ++ "\"").toList

/-- The table of such settings. -/
def shapedTable (format text : String) : Config.Table := [
  ("engine".toList, .table [("format".toList, .text format.toList)]),
  ("abbreviations".toList, .table [("x".toList, .text text.toList)])]

/-- A working directory with two settings files, the second with a format that makes no sense. -/
def layeredSources : Config.Sources := Config.sourcesOf [
  ("a.toml", Text.encode (shapedText "HTML" "1")),
  ("b.toml", Text.encode (shapedText "pdf" "2")),
  ("short", Text.encode "[y] 3".toList)]

/-- The environment of a command that works there. -/
def layeredEnvironment : Environment where
  files := layeredSources.toFileTree
  toolkit := Tools.standard
  threshold := none
  verbosity := 0
  color := none

theorem holds_first :
    Config.Holds layeredSources (.ofText "a.toml".toList) (shapedTable "HTML" "1") :=
  ⟨shapedText "HTML" "1", _, by cbv, by cbv, (if_neg (by decide)).symm⟩

theorem holds_second :
    Config.Holds layeredSources (.ofText "b.toml".toList) (shapedTable "pdf" "2") :=
  ⟨shapedText "pdf" "2", _, by cbv, by cbv, (if_neg (by decide)).symm⟩

theorem readText_short :
    layeredSources.readText (.ofText "short".toList) = .ok "[y] 3".toList := by
  cbv

/-- The layer of the first settings file. -/
def firstLayer : Config.Layer where
  format := some .html
  abbreviations := .ofList [("x".toList, "1".toList)]
  files := [.ofText "/a.toml".toList]

/-- The layer of the second settings file. -/
def secondLayer : Config.Layer where
  abbreviations := .ofList [("x".toList, "2".toList)]
  files := [.ofText "/b.toml".toList]
  diagnostics := [{
    kind := .warning
    message := "Unknown output format 'pdf' (expected one of: plain, html); ignored".toList }]

theorem outcome_load_first :
    (Config.Layer.load layeredSources (.ofText "a.toml".toList)).outcome = .ok firstLayer :=
  (Config.outcome_load_eq_ok_iff_of_holds holds_first).mpr rfl

theorem outcome_load_second :
    (Config.Layer.load layeredSources (.ofText "b.toml".toList)).outcome = .ok secondLayer :=
  (Config.outcome_load_eq_ok_iff_of_holds holds_second).mpr rfl

/-! ### The whole story -/

/-- Where the settings files can be loaded and the files of abbreviations can be read, the
configuration is what the rules of precedence make of them, and the only way for it to be refused is
that an error was told. It does not matter how documents are read. -/
theorem resolveConfig_of_loaded (environment : Environment) (settings : ExpandSettings)
    (loaded : ∀ path ∈ chosenFiles environment.files settings.configFiles,
      ∃ layer, (Config.Layer.load environment.sources path).outcome = .ok layer)
    (readable : ∀ path ∈ settings.abbreviationFiles,
      ∃ text, environment.files.readText path = .ok text) :
    ((∃ message,
        (resolveConfig environment settings).outcome = .error (.error .configError message)) ↔
      ∃ path ∈ chosenFiles environment.files settings.configFiles,
        Config.TellsError environment.sources path) ∧
    ((∀ path ∈ chosenFiles environment.files settings.configFiles,
        ¬Config.TellsError environment.sources path) →
      ∃ config, (resolveConfig environment settings).outcome = .ok config ∧
        Config.Follows environment.sources (chosenFiles environment.files settings.configFiles)
          settings.abbreviationFiles settings.limit settings.format config) := by
  obtain ⟨layer, made, follows, errors⟩ := exists_follows_of_layered loaded readable
  rw [outcome_resolveConfig made, ← errors]
  by_cases clean : layer.freeze.errors.isEmpty = true
  · have noError := Config.isEmpty_errors_iff.mp clean
    rw [if_pos clean]
    refine ⟨iff_of_false nofun ?_, fun _ => ⟨_, rfl, follows⟩⟩
    rintro ⟨diagnostic, member, severe⟩
    exact noError diagnostic member severe
  · rw [if_neg clean]
    have anyError : ∃ diagnostic ∈ layer.freeze.diagnostics, diagnostic.severity = .error := by
      rw [Config.isEmpty_errors_iff] at clean
      simpa using clean
    refine ⟨iff_of_true ⟨_, rfl⟩ anyError, fun noError => ?_⟩
    obtain ⟨path, member, tells⟩ := errors.mp anyError
    exact absurd tells (noError path member)

/-- The limit is given, the format is that of the first settings file since that of the second makes
no sense, and the abbreviations are those of the second one and of the file behind it. -/
theorem resolveConfig_of_two_files :
    ∃ config, (resolveConfig layeredEnvironment {
        configFiles := [.ofText "a.toml".toList, .ofText "b.toml".toList]
        abbreviationFiles := [.ofText "short".toList]
        limit := some (.number 7) }).outcome = .ok config ∧
      config.limit = .number 7 ∧ config.format = .html ∧
      config.abbreviations.find? "x".toList = some "2".toList ∧
      config.abbreviations.find? "y".toList = some "3".toList := by
  obtain ⟨config, resolved, follows⟩ := (resolveConfig_of_loaded layeredEnvironment
    { configFiles := [.ofText "a.toml".toList, .ofText "b.toml".toList]
      abbreviationFiles := [.ofText "short".toList]
      limit := some (.number 7) }
    (List.forall_mem_cons.mpr
      ⟨⟨_, outcome_load_first⟩, List.forall_mem_singleton.mpr ⟨_, outcome_load_second⟩⟩)
    (List.forall_mem_singleton.mpr ⟨_, readText_short⟩)).2
    (List.forall_mem_cons.mpr ⟨Config.not_tellsError_of_holds holds_first,
      List.forall_mem_singleton.mpr (Config.not_tellsError_of_holds holds_second)⟩)
  refine ⟨config, resolved, (follows.limit _).mpr (.given rfl), ?_, ?_, ?_⟩
  · have silent : Silent (Config.FileSetsFormat layeredSources) [.ofText "b.toml".toList] := by
      refine silent_cons.mpr ⟨fun format sets => ?_, silent_nil⟩
      obtain ⟨name, ⟨inner, ⟨⟩, ⟨⟩⟩, same⟩ := (Config.says_iff_of_holds holds_second).mp sets
      cases format <;> exact absurd same (by decide)
    exact (follows.format _).mpr (.source rfl (last_cons.mpr (.inr
      ⟨silent, (Config.says_iff_of_holds holds_first).mpr ⟨_, ⟨_, rfl, rfl⟩, by decide⟩⟩)))
  · refine (follows.abbreviations _ _).mpr (.inr ⟨?_, ?_⟩)
    · have none : (Abbreviations.parse "[y] 3".toList).find? "x".toList = none := by decide
      refine silent_cons.mpr ⟨fun text defines => ?_, silent_nil⟩
      have defined := (Config.fileDefines_of_readText readText_short).mp defines
      rw [none] at defined
      exact nomatch defined
    · exact last_cons.mpr (.inl (last_singleton.mpr ((Config.says_iff_of_holds holds_second).mpr
        (.inl ⟨_, rfl, last_singleton.mpr rfl⟩))))
  · refine (follows.abbreviations _ _).mpr (.inl (last_singleton.mpr ?_))
    exact (Config.fileDefines_of_readText readText_short).mpr (by decide)

end Command

end TagExpansion
