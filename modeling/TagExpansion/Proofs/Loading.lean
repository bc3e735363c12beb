import Mathlib
import TagExpansion.Proofs.Settings
import TagExpansion.Tools.Standard

/-
This file tells when a settings file makes a layer.

A file that cannot be opened, or that is a malformed document, is an error to be told, and the
loading goes on without it. The same is meant for every other way in which a file can be of no use,
but some of these are not foreseen: bytes that are no text, a document at which the reading breaks
down otherwise, a path with a null character, a number that no warning can show, and the first and
the third of these in the file of abbreviations that the settings name. Each of them ends the
loading. So a layer is made exactly if none of them comes up, and then it says what the file says.
How documents are read has no part in this.
-/

namespace TagExpansion.Config

/-! ### What can become of a file -/

/-- A file holds a table of settings. -/
def Holds (sources : Sources) (path : Path) (table : Table) : Prop :=
  ∃ text whole, sources.readText path = .ok text ∧ sources.parse text = .ok whole ∧
    table = ownPart path whole

/-- A file is of no use, and a message says why. -/
inductive Useless (sources : Sources) (path : Path) : Text → Prop where
  | unopened {error : AccessError} (read : sources.readText path = .error (.access error)) :
      Useless sources path
        ("Error loading TOML from ".toList ++ path.toText ++ ": ".toList ++ error.message)
  | malformed {text words : Text} (read : sources.readText path = .ok text)
      (noTable : sources.parse text = .error (.malformed words)) :
      Useless sources path
        ("Error decoding TOML from ".toList ++ path.toText ++ ": ".toList ++ words)

/-- A path can be asked for, and what stands there, if anything, is the encoding of a text. -/
def Decodable (tree : FileTree) (path : Path) : Prop :=
  '\x00' ∉ path.toText ∧
    ∀ bytes, tree.readBytes path = .ok bytes → ∃ text, Text.decode bytes = .ok text

/-- The file of abbreviations that a settings file names. -/
def namedFile (tree : FileTree) (path : Path) (name : Text) : Path :=
  (tree.directoryPath.resolve path).parent.append (.ofText name)

/-- Nothing is wrong with a settings file but what the loading foresees. -/
structure Foreseen (sources : Sources) (path : Path) : Prop where
  decodable : Decodable sources.toFileTree path
  /-- The reading of the document gives a table, or finds it malformed. -/
  consistent : ∀ text breakdown, sources.readText path = .ok text →
    sources.parse text ≠ .error (.broken breakdown)
  /-- The values that warnings show can be shown. -/
  writable : ∀ table value, Holds sources path table → table.Rejects value →
    value.isWritable = true
  abbreviations : ∀ table name, Holds sources path table → table.NamesFile name →
    Decodable sources.toFileTree (namedFile sources.toFileTree path name)

theorem readBytes_eq_null_iff {tree : FileTree} {path : Path} :
    tree.readBytes path = .error .nullInPath ↔ '\x00' ∈ path.toText := by
  unfold FileTree.readBytes
  rw [← List.contains_iff_mem]
  split
  · rename_i null
    exact iff_of_true rfl null
  · rename_i noNull
    refine iff_of_false ?_ noNull
    split
    · nofun
    · split <;> nofun

theorem not_readBytes_eq_undecodable {tree : FileTree} {path : Path} {error : Text.Utf8Error} :
    tree.readBytes path ≠ .error (.undecodable error) := by
  unfold FileTree.readBytes
  split
  · nofun
  · split
    · nofun
    · split <;> nofun

/-- A file is not decodable exactly if reading its text fails on the path or on the bytes. -/
theorem decodable_iff {tree : FileTree} {path : Path} :
    Decodable tree path ↔ (∃ text, tree.readText path = .ok text) ∨
      ∃ error, tree.readText path = .error (.access error) := by
  rw [Decodable, ← readBytes_eq_null_iff, FileTree.readText]
  cases read : tree.readBytes path with
  | ok bytes =>
    cases decoded : Text.decode bytes <;> simp [bind, Except.bind, decoded, pure, Except.pure, throw,
      throwThe, MonadExceptOf.throw]
  | error error =>
    cases error with
    | access error => simp [bind, Except.bind]
    | undecodable error => exact absurd read not_readBytes_eq_undecodable
    | nullInPath => simp [bind, Except.bind]

variable {sources : Sources} {path : Path} {table : Table} {layer : Layer}

theorem Holds.unique {other : Table} (one : Holds sources path table) (another : Holds sources path other) :
    table = other := by
  obtain ⟨text, whole, read, parsed, rfl⟩ := one
  obtain ⟨_, _, readAgain, parsedAgain, rfl⟩ := another
  rw [read, Except.ok.injEq] at readAgain
  rw [← readAgain, parsed, Except.ok.injEq] at parsedAgain
  rw [parsedAgain]

theorem Useless.not_holds {message : Text} (useless : Useless sources path message) :
    ¬Holds sources path table := by
  rintro ⟨text, whole, readAgain, parsed, -⟩
  cases useless with
  | unopened read => simp [read] at readAgain
  | malformed read noTable =>
    rw [read, Except.ok.injEq] at readAgain
    simp [← readAgain, noTable] at parsed

/-! ### Loading -/

theorem outcome_tellError (message : Text) :
    (tellError true message).outcome = .ok ([], [{ kind := .error, message }]) := rfl

/-- A file that is of no use counts as empty, and the error is told. -/
theorem outcome_loadTable_of_useless {message : Text} (useless : Useless sources path message) :
    (loadTable sources true path).outcome = .ok ([], [{ kind := .error, message }]) := by
  unfold loadTable
  cases useless with
  | unopened read =>
    simp only [read]
    exact outcome_tellError _
  | malformed read noTable =>
    simp only [read, noTable]
    exact outcome_tellError _

theorem outcome_loadTable_of_holds (holds : Holds sources path table) :
    (loadTable sources true path).outcome = .ok (table, []) := by
  obtain ⟨text, whole, read, parsed, rfl⟩ := holds
  unfold loadTable
  simp only [read, parsed]
  rfl

/-- Reading a settings file comes to an end for files that are of no use and for those that hold a
table, and for no others. -/
theorem useless_or_holds_of_loadTable {result : Table × List Diagnostic}
    (loaded : (loadTable sources true path).outcome = .ok result) :
    (∃ message, Useless sources path message) ∨ ∃ table, Holds sources path table := by
  unfold loadTable at loaded
  cases read : sources.readText path with
  | ok text =>
    simp only [read] at loaded
    cases parsed : sources.parse text with
    | ok whole => exact .inr ⟨_, text, whole, read, parsed, rfl⟩
    | error error =>
      cases error with
      | malformed words => exact .inl ⟨_, .malformed read parsed⟩
      | broken breakdown =>
        simp only [parsed] at loaded
        cases loaded
  | error error =>
    cases error with
    | access error => exact .inl ⟨_, .unopened read⟩
    | undecodable error =>
      simp only [read] at loaded
      cases loaded
    | nullInPath =>
      simp only [read] at loaded
      cases loaded

theorem outcome_load_eq_ok_iff :
    (Layer.load sources path).outcome = .ok layer ↔
      ∃ table errors made, (loadTable sources true path).outcome = .ok (table, errors) ∧
        (Layer.ofTable sources.toFileTree table (some (sources.directoryPath.resolve path))).outcome = .ok made ∧
        layer = { made with diagnostics := made.diagnostics ++ errors } := by
  simp only [Layer.load, Journal.bind_eq_andThen, Journal.outcome_andThen_eq_ok_iff, Prod.exists]
  constructor
  · rintro ⟨_, -, table, errors, loaded, made, built, ⟨⟩⟩
    exact ⟨table, errors, made, loaded, built, rfl⟩
  · rintro ⟨table, errors, made, loaded, built, rfl⟩
    exact ⟨(), rfl, table, errors, loaded, made, built, rfl⟩

/-- The layer of a file that is of no use sets nothing, and one error is told. -/
theorem outcome_load_of_useless {message : Text} (useless : Useless sources path message) :
    (Layer.load sources path).outcome = .ok
      { files := [sources.directoryPath.resolve path],
        diagnostics := [{ kind := .error, message }] } :=
  outcome_load_eq_ok_iff.mpr ⟨[], _, _, outcome_loadTable_of_useless useless, rfl, rfl⟩

/-- The layer of a file that holds a table is the layer of the table. -/
theorem outcome_load_eq_ok_iff_of_holds (holds : Holds sources path table) :
    (Layer.load sources path).outcome = .ok layer ↔
      (Layer.ofTable sources.toFileTree table (some (sources.directoryPath.resolve path))).outcome = .ok layer := by
  rw [outcome_load_eq_ok_iff, outcome_loadTable_of_holds holds]
  constructor
  · rintro ⟨_, _, made, ⟨⟩, built, rfl⟩
    rwa [List.append_nil]
  · intro built
    exact ⟨table, [], layer, rfl, built, by rw [List.append_nil]⟩

theorem useless_or_holds_of_load (loaded : (Layer.load sources path).outcome = .ok layer) :
    (∃ message, Useless sources path message) ∨ ∃ table, Holds sources path table := by
  obtain ⟨table, errors, _, read, -⟩ := outcome_load_eq_ok_iff.mp loaded
  exact useless_or_holds_of_loadTable read

theorem reflects_of_load (holds : Holds sources path table)
    (loaded : (Layer.load sources path).outcome = .ok layer) :
    Reflects sources.toFileTree (sources.directoryPath.resolve path).parent table layer :=
  reflects_of_ofTable ((outcome_load_eq_ok_iff_of_holds holds).mp loaded)

/-! ### When a layer is made -/

theorem exists_outcome_addFile_iff {tree : FileTree} :
    (∃ after, (Layer.addFile tree layer path).outcome = .ok after) ↔ Decodable tree path := by
  simp only [Layer.outcome_addFile_eq_ok_iff, decodable_iff]
  constructor
  · rintro ⟨_, ⟨text, read, -⟩ | ⟨error, read, -⟩⟩
    · exact .inl ⟨text, read⟩
    · exact .inr ⟨error, read⟩
  · rintro (⟨text, read⟩ | ⟨error, read⟩)
    · exact ⟨_, .inl ⟨text, read, rfl⟩⟩
    · exact ⟨_, .inr ⟨error, read, rfl⟩⟩

theorem exists_outcome_addNamedFile_iff {tree : FileTree} {directory : Path} :
    (∃ after, (Layer.addNamedFile tree directory layer table.fileName?).outcome = .ok after) ↔
      ∀ name, table.NamesFile name → Decodable tree (directory.append (.ofText name)) := by
  simp only [Layer.outcome_addNamedFile_eq_ok_iff]
  constructor
  · rintro ⟨after, ⟨unnamed, -⟩ | ⟨name, named, added⟩⟩ other otherNamed
    · exact absurd otherNamed (unnamed other)
    · rw [otherNamed.unique named]
      exact exists_outcome_addFile_iff.mp ⟨after, added⟩
  · intro decodable
    by_cases anyNamed : ∃ name, table.NamesFile name
    · obtain ⟨name, named⟩ := anyNamed
      obtain ⟨after, added⟩ := exists_outcome_addFile_iff.mpr (decodable name named)
      exact ⟨after, .inr ⟨name, named, added⟩⟩
    · exact ⟨layer, .inl ⟨not_exists.mp anyNamed, rfl⟩⟩

theorem exists_outcome_ofTable_iff {tree : FileTree} {source : Path} :
    (∃ layer, (Layer.ofTable tree table (some source)).outcome = .ok layer) ↔
      (∀ value, table.Rejects value → value.isWritable = true) ∧
      ∀ name, table.NamesFile name → Decodable tree (source.parent.append (.ofText name)) := by
  simp only [outcome_ofTable_eq_ok_iff]
  rw [← exists_outcome_addNamedFile_iff]
  constructor
  · rintro ⟨_, writable, between, added, -⟩
    exact ⟨writable, between, added⟩
  · rintro ⟨writable, between, added⟩
    exact ⟨_, writable, between, added, rfl⟩

theorem useless_or_holds_of_foreseen (foreseen : Foreseen sources path) :
    (∃ message, Useless sources path message) ∨ ∃ table, Holds sources path table := by
  obtain ⟨text, read⟩ | ⟨error, read⟩ := decodable_iff.mp foreseen.decodable
  · cases parsed : sources.parse text with
    | ok whole => exact .inr ⟨_, text, whole, read, parsed, rfl⟩
    | error error =>
      cases error with
      | malformed words => exact .inl ⟨_, .malformed read parsed⟩
      | broken breakdown => exact absurd parsed (foreseen.consistent text breakdown read)
  · exact .inl ⟨_, .unopened read⟩

theorem Useless.foreseen {message : Text} (useless : Useless sources path message) :
    Foreseen sources path where
  decodable := decodable_iff.mpr <| by
    cases useless with
    | unopened read => exact .inr ⟨_, read⟩
    | malformed read _ => exact .inl ⟨_, read⟩
  consistent text breakdown readAgain breaks := by
    cases useless with
    | unopened read => simp [read] at readAgain
    | malformed read noTable =>
      rw [read, Except.ok.injEq] at readAgain
      simp [← readAgain, noTable] at breaks
  writable _ _ holds := absurd holds useless.not_holds
  abbreviations _ _ holds := absurd holds useless.not_holds

theorem foreseen_iff_of_holds (holds : Holds sources path table) :
    Foreseen sources path ↔ (∀ value, table.Rejects value → value.isWritable = true) ∧
      ∀ name, table.NamesFile name →
        Decodable sources.toFileTree (namedFile sources.toFileTree path name) := by
  constructor
  · intro foreseen
    exact ⟨fun value => foreseen.writable table value holds,
      fun name => foreseen.abbreviations table name holds⟩
  · rintro ⟨writable, decodable⟩
    refine ⟨?_, ?_, ?_, ?_⟩
    · obtain ⟨text, _, read, -⟩ := holds
      exact decodable_iff.mpr (.inl ⟨text, read⟩)
    · obtain ⟨text, whole, read, parsed, -⟩ := holds
      intro other breakdown readAgain
      rw [read, Except.ok.injEq] at readAgain
      simp [← readAgain, parsed]
    · intro other value alsoHolds
      exact alsoHolds.unique holds ▸ writable value
    · intro other name alsoHolds
      exact alsoHolds.unique holds ▸ decodable name

theorem exists_outcome_load_iff :
    (∃ layer, (Layer.load sources path).outcome = .ok layer) ↔ Foreseen sources path := by
  have ofHolds {table : Table} (holds : Holds sources path table) :
      (∃ layer, (Layer.load sources path).outcome = .ok layer) ↔ Foreseen sources path := by
    rw [foreseen_iff_of_holds holds]
    simp only [outcome_load_eq_ok_iff_of_holds holds]
    exact exists_outcome_ofTable_iff
  constructor
  · rintro ⟨layer, loaded⟩
    obtain ⟨message, useless⟩ | ⟨table, holds⟩ := useless_or_holds_of_load loaded
    · exact useless.foreseen
    · exact (ofHolds holds).mp ⟨layer, loaded⟩
  · intro foreseen
    obtain ⟨message, useless⟩ | ⟨table, holds⟩ := useless_or_holds_of_foreseen foreseen
    · exact ⟨_, outcome_load_of_useless useless⟩
    · exact (ofHolds holds).mpr foreseen

/-- What a layer has whose file of abbreviations could not be opened. -/
theorem outcome_load_of_unopened {name : Text} {error : AccessError} (foreseen : Foreseen sources path)
    (holds : Holds sources path table) (named : table.NamesFile name)
    (read : sources.readText (namedFile sources.toFileTree path name) = .error (.access error)) :
    (Layer.load sources path).outcome = .ok
      { table.bare (some (sources.directoryPath.resolve path)) with
        abbreviations := .ofList table.listed
        diagnostics := (settingComplaints table ++
          Layer.unopened (namedFile sources.toFileTree path name) error ::
            listingComplaints table).map
            Complaint.diagnostic } := by
  rw [outcome_load_eq_ok_iff_of_holds holds, outcome_ofTable_eq_ok_iff]
  refine ⟨fun value => foreseen.writable table value holds, _,
    Layer.outcome_addNamedFile_eq_ok_iff.mpr (.inr ⟨name, named,
      Layer.outcome_addFile_eq_ok_iff.mpr (.inr ⟨error, read, rfl⟩)⟩), ?_⟩
  simp [Layer.addAbbreviations, Table.bare, namedFile, Abbreviations.ofList, OrderedMap.ofList]
  rfl

/-! ### A file of abbreviations that is missing -/

/-- A working directory with some files, whose documents are read as TOML. -/
def sourcesOf (files : List (String × List UInt8)) : Sources where
  toFileTree :=
    files.foldl (fun tree file => tree.place [file.1.toList] (.file file.2)) { nodes := .empty }
  parse := Tools.standard.parse

/-- Settings that list an abbreviation and name a file of others, which is not there. -/
def forgetfulText : Text :=
  "[files]\nabbreviations = \"gone\"\n[abbreviations]\nx = \"y\"".toList

/-- The working directory with these settings. -/
def forgetfulSources : Sources := sourcesOf [("x.toml", Text.encode forgetfulText)]

/-- The table of these settings. -/
def forgetfulTable : Table := [
  ("files".toList, .table [("abbreviations".toList, .text "gone".toList)]),
  ("abbreviations".toList, .table [("x".toList, .text "y".toList)])]

theorem holds_forgetfulTable : Holds forgetfulSources (.ofText "x.toml".toList) forgetfulTable :=
  ⟨forgetfulText, forgetfulTable, by cbv, by cbv, (if_neg (by decide)).symm⟩

theorem namesFile_forgetfulTable : forgetfulTable.NamesFile "gone".toList :=
  ⟨⟨_, rfl, rfl⟩, by decide⟩

theorem readText_forgetfulSources :
    forgetfulSources.readText
      (namedFile forgetfulSources.toFileTree (.ofText "x.toml".toList) "gone".toList) =
      .error (.access ⟨.notFound, .ofText "/gone".toList⟩) := by
  cbv

theorem foreseen_forgetfulSources : Foreseen forgetfulSources (.ofText "x.toml".toList) := by
  rw [foreseen_iff_of_holds holds_forgetfulTable]
  constructor
  · have none : settingComplaints forgetfulTable ++ listingComplaints forgetfulTable = [] := by
      decide
    rw [← tellable_complaints_iff, none]
    exact tellable_nil
  · intro name named
    rw [named.unique namesFile_forgetfulTable]
    exact decodable_iff.mpr (.inr ⟨_, readText_forgetfulSources⟩)

/-! ### The whole story -/

/-- A settings file makes a layer exactly if nothing is wrong with it but what is foreseen. A file
that is of no use sets nothing then, and one error is told. A file of abbreviations that cannot be
opened adds no abbreviations to those that the table lists, and one warning is told. All that holds
for every way to read documents. -/
theorem Layer.load_ok_iff_foreseen (sources : Sources) (path : Path) :
    ((∃ layer, (Layer.load sources path).outcome = .ok layer) ↔ Foreseen sources path) ∧
    (∀ message, Useless sources path message → (Layer.load sources path).outcome = .ok
      { files := [sources.directoryPath.resolve path],
        diagnostics := [{ kind := .error, message }] }) ∧
    ∀ table name error, Foreseen sources path → Holds sources path table → table.NamesFile name →
      sources.readText (namedFile sources.toFileTree path name) = .error (.access error) →
        (Layer.load sources path).outcome = .ok
          { table.bare (some (sources.directoryPath.resolve path)) with
            abbreviations := .ofList table.listed
            diagnostics := (settingComplaints table ++
              Layer.unopened (namedFile sources.toFileTree path name) error ::
                listingComplaints table).map Complaint.diagnostic } :=
  ⟨exists_outcome_load_iff, fun _ => outcome_load_of_useless,
    fun _ _ _ => outcome_load_of_unopened⟩

theorem Layer.load_ok_of_missing_file :
    ∃ layer, (Layer.load forgetfulSources (.ofText "x.toml".toList)).outcome = .ok layer ∧
      layer.abbreviations.toList = [("x".toList, "y".toList)] ∧
      layer.diagnostics = [{
        kind := .warning
        message := ("Cannot read abbreviations file /gone: " ++
          "[Errno 2] No such file or directory: '/gone'").toList }] :=
  ⟨_, (load_ok_iff_foreseen forgetfulSources (.ofText "x.toml".toList)).2.2 forgetfulTable
      "gone".toList _ foreseen_forgetfulSources holds_forgetfulTable namesFile_forgetfulTable
      readText_forgetfulSources,
    by decide, by decide⟩

/-- A byte that starts no character is not foreseen: it ends the loading. -/
theorem Layer.load_eq_error_of_stray_byte :
    (Layer.load (sourcesOf [("x.toml", [0x61, 0x3d, 0x22, 0xff, 0x22, 0x0a])])
      (.ofText "x.toml".toList)).outcome =
      .error (.undecodable ⟨3, [0xff], .invalidStart⟩) := by
  cbv

end TagExpansion.Config
