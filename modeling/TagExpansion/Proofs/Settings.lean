import TagExpansion.Config.Layer
import TagExpansion.Proofs.OrderedMap

/-
This file says what a table of settings means, and proves that the layer made of it means the same.

A table sets the limit, the format and the file of abbreviations by entries of certain names, and it
lists abbreviations of its own. An entry that is not what it must be counts as missing, and a warning
shows what stands there instead. There is one thing that a warning cannot show, a number with too
many digits, and this is the only thing in a table that keeps it from being made into a layer. What
else can go wrong lies in the file of abbreviations.
-/

namespace TagExpansion

namespace Config

/-! ### What a table says -/

/-- A value stands under a key of the table under a heading. -/
def Table.Entry (table : Table) (heading key : String) (value : Value) : Prop :=
  ∃ inner : Table, table.get? heading.toList = some (.table inner) ∧
    inner.get? key.toList = some value

/-- The limit of a table: a number in the range that engines accept. -/
def Table.SetsLimit (table : Table) (limit : Limit) : Prop :=
  limit.Valid ∧ ∃ value, limit = .number value ∧ table.Entry "engine" "max_depth" (.number value)

/-- The format of a table, which is named in any letter case. -/
def Table.SetsFormat (table : Table) (format : Format) : Prop :=
  ∃ name, table.Entry "engine" "format" (.text name) ∧ Text.lower name = format.name

/-- The file of abbreviations of a table. An empty name stands for none. -/
def Table.NamesFile (table : Table) (name : Text) : Prop :=
  table.Entry "files" "abbreviations" (.text name) ∧ name ≠ []

/-- A table lists an abbreviation, if a text stands under its name. -/
def Table.Lists (table : Table) (name text : Text) : Prop :=
  ∃ inner : Table, table.get? "abbreviations".toList = some (.table inner) ∧
    Last (fun entry expansion => entry = (name, .text expansion)) inner text

/-- A file of abbreviations defines one. -/
def FileDefines (tree : FileTree) (name : Text) (path : Path) (text : Text) : Prop :=
  ∃ content, tree.readText path = .ok content ∧ (Abbreviations.parse content).find? name = some text

/-- What a table defines, seen from a directory: what it lists wins over what the file defines that
it names. -/
def Table.Defines (table : Table) (tree : FileTree) (directory : Path) (name text : Text) : Prop :=
  table.Lists name text ∨ (∀ other, ¬table.Lists name other) ∧
    ∃ file, table.NamesFile file ∧ FileDefines tree name (directory.append (.ofText file)) text

/-- The values of a table that a warning shows, since they are not what they must be. -/
inductive Table.Rejects (table : Table) : Value → Prop where
  | limit {value : Value} (entry : table.Entry "engine" "max_depth" value)
      (invalid : ∀ number, value = .number number → ¬(Limit.number number).Valid) :
      table.Rejects value
  | format {value : Value} (entry : table.Entry "engine" "format" value)
      (noText : ∀ text, value ≠ .text text) : table.Rejects value
  | file {value : Value} (entry : table.Entry "files" "abbreviations" value)
      (noText : ∀ text, value ≠ .text text) : table.Rejects value
  | abbreviation {inner : Table} {name : Text} {value : Value}
      (isTable : table.get? "abbreviations".toList = some (.table inner))
      (member : (name, value) ∈ inner) (noText : ∀ text, value ≠ .text text) : table.Rejects value

/-! ### Reading single settings -/

/-- All complaints can be told. -/
def Tellable (complaints : List Complaint) : Prop :=
  ∀ complaint ∈ complaints, complaint.tellable = true

@[simp] theorem tellable_nil : Tellable [] := List.forall_mem_nil _

@[simp] theorem tellable_singleton {complaint : Complaint} :
    Tellable [complaint] ↔ complaint.tellable = true := List.forall_mem_singleton

theorem tellable_append {first second : List Complaint} :
    Tellable (first ++ second) ↔ Tellable first ∧ Tellable second := List.forall_mem_append

@[simp] theorem tellable_complaintAbout {subject requirement : Text} {value : Value} :
    (complaintAbout subject requirement value).tellable = value.isWritable := rfl

section Readers

variable (table : Table)

theorem get?_tableAt {heading key : String} {value : Value} :
    (tableAt table heading.toList).value.get? key.toList = some value ↔
      table.Entry heading key value := by
  unfold tableAt Table.Entry
  cases table.get? heading.toList with
  | none => simp [Table.get?, OrderedMap.findIn]
  | some found => cases found <;> simp [Table.get?, OrderedMap.findIn]

theorem mem_tableAt {heading : Text} {entry : Text × Value} :
    entry ∈ (tableAt table heading).value ↔
      ∃ inner : Table, table.get? heading = some (.table inner) ∧ entry ∈ inner := by
  unfold tableAt
  cases table.get? heading with
  | none => simp
  | some found => cases found <;> simp

theorem last_tableAt {α : Type} {gives : Text × Value → α → Prop} {heading : Text} {value : α} :
    Last gives (tableAt table heading).value value ↔
      ∃ inner : Table, table.get? heading = some (.table inner) ∧ Last gives inner value := by
  unfold tableAt
  cases table.get? heading with
  | none => simp [not_last_nil]
  | some found => cases found <;> simp [not_last_nil]

theorem tellable_tableAt (heading : Text) : Tellable (tableAt table heading).complaints := by
  unfold tableAt
  split <;> simp

/-- The one reading that needs two looks: a number may still be out of range. -/
theorem limitAt_of_number {key : Text} {value : Int} (found : table.get? key = some (.number value)) :
    if (Limit.number value).Valid then limitAt table key = ⟨some (.number value), []⟩
    else ∃ complaint, limitAt table key = ⟨none, [complaint]⟩ ∧
      complaint.tellable = (Value.number value).isWritable := by
  rw [limitAt, found]
  split
  · rename_i valid
    exact if_pos valid
  · rename_i invalid
    refine ⟨_, if_neg invalid, ?_⟩
    exact tellable_complaintAbout

theorem value_limitAt_eq_some_iff {key : Text} {limit : Limit} :
    (limitAt table key).value = some limit ↔
      limit.Valid ∧ ∃ value, limit = .number value ∧ table.get? key = some (.number value) := by
  cases found : table.get? key with
  | none => simp [limitAt, found]
  | some value =>
    cases value with
    | number value =>
      have read := limitAt_of_number table found
      split at read
      · rename_i valid
        rw [read]
        constructor
        · rintro ⟨⟩
          exact ⟨valid, value, rfl, rfl⟩
        · rintro ⟨-, _, rfl, ⟨⟩⟩
          rfl
      · rename_i invalid
        obtain ⟨complaint, same, -⟩ := read
        rw [same]
        refine iff_of_false nofun ?_
        rintro ⟨valid, _, rfl, ⟨⟩⟩
        exact invalid valid
    | _ => simp [limitAt, found]

theorem tellable_limitAt {key : Text} :
    Tellable (limitAt table key).complaints ↔ ∀ value, table.get? key = some value →
      (∀ number, value = .number number → ¬(Limit.number number).Valid) →
        value.isWritable = true := by
  cases found : table.get? key with
  | none => simp [limitAt, found]
  | some value =>
    cases value with
    | number value =>
      have read := limitAt_of_number table found
      split at read
      · rename_i valid
        simp [read, valid]
      · rename_i invalid
        obtain ⟨complaint, same, tellable⟩ := read
        simp [same, tellable, invalid]
    | _ => simp [limitAt, found]

theorem value_textAt_eq_some_iff {key text : Text} :
    (textAt table key).value = some text ↔ table.get? key = some (.text text) := by
  unfold textAt
  cases table.get? key with
  | none => simp
  | some found => cases found <;> simp

theorem tellable_textAt {key : Text} :
    Tellable (textAt table key).complaints ↔ ∀ value, table.get? key = some value →
      (∀ text, value ≠ .text text) → value.isWritable = true := by
  unfold textAt
  cases table.get? key with
  | none => simp
  | some found => cases found <;> simp

theorem ofAnyCase?_eq_some_iff {name : Text} {format : Format} :
    Format.ofAnyCase? name = some format ↔ Text.lower name = format.name := by
  unfold Format.ofAnyCase? Format.ofName?
  constructor
  · intro found
    simpa [eq_comm] using List.find?_some found
  · intro same
    rw [same]
    cases format <;> decide

theorem value_formatNamed (name : Text) : (formatNamed name).value = Format.ofAnyCase? name := by
  unfold formatNamed
  cases Format.ofAnyCase? name <;> rfl

theorem tellable_formatNamed (name : Text) : Tellable (formatNamed name).complaints := by
  unfold formatNamed
  cases Format.ofAnyCase? name <;> simp

theorem value_formatAt_eq_some_iff {key : Text} {format : Format} :
    (formatAt table key).value = some format ↔
      ∃ name, table.get? key = some (.text name) ∧ Text.lower name = format.name := by
  simp only [← value_textAt_eq_some_iff, ← ofAnyCase?_eq_some_iff]
  cases named : (textAt table key).value with
  | none => simp [formatAt, named]
  | some name => simp [formatAt, named, value_formatNamed]

theorem tellable_formatAt {key : Text} :
    Tellable (formatAt table key).complaints ↔ Tellable (textAt table key).complaints := by
  cases named : (textAt table key).value with
  | none => simp only [formatAt, named]
  | some name =>
    simp only [formatAt, named]
    refine iff_of_true (tellable_formatNamed name) ((tellable_textAt table).mpr ?_)
    intro value found noText
    rw [(value_textAt_eq_some_iff table).mp named, Option.some.injEq] at found
    exact absurd found.symm (noText name)

theorem tellable_abbreviationComplaint? {name : Text} {value : Value} :
    (∀ complaint, abbreviationComplaint? (name, value) = some complaint →
      complaint.tellable = true) ↔ ((∀ text, value ≠ .text text) → value.isWritable = true) := by
  cases value <;> simp [abbreviationComplaint?]

theorem tellable_abbreviationsIn :
    Tellable (abbreviationsIn table).complaints ↔ ∀ name value, (name, value) ∈ table →
      (∀ text, value ≠ .text text) → value.isWritable = true := by
  simp only [Tellable, abbreviationsIn, List.mem_filterMap]
  constructor
  · intro tellable name value member
    exact tellable_abbreviationComplaint?.mp fun complaint made =>
      tellable complaint ⟨_, member, made⟩
  · rintro writable complaint ⟨⟨name, value⟩, member, made⟩
    exact tellable_abbreviationComplaint?.mpr (writable name value member) complaint made

end Readers

/-! ### The parts of a layer -/

/-- The complaints about all settings of a table but its abbreviations. -/
def settingComplaints (table : Table) : List Complaint :=
  let engine := tableAt table "engine".toList
  let files := tableAt table "files".toList
  engine.complaints ++ (limitAt engine.value "max_depth".toList).complaints ++
    (formatAt engine.value "format".toList).complaints ++ files.complaints ++
    (textAt files.value "abbreviations".toList).complaints

/-- The complaints about the abbreviations of a table. -/
def listingComplaints (table : Table) : List Complaint :=
  let abbreviations := tableAt table "abbreviations".toList
  abbreviations.complaints ++ (abbreviationsIn abbreviations.value).complaints

/-- The abbreviations that a table lists, in its order. -/
def Table.listed (table : Table) : List (Text × Text) :=
  (tableAt table "abbreviations".toList).value.filterMap abbreviationOf?

/-- The name of the file of abbreviations. -/
def Table.fileName? (table : Table) : Option Text :=
  (textAt (tableAt table "files".toList).value "abbreviations".toList).value

/-- The layer of a table before any abbreviations and complaints. -/
def Table.bare (table : Table) (source : Option Path) : Layer :=
  let engine := (tableAt table "engine".toList).value
  { limit := (limitAt engine "max_depth".toList).value
    format := (formatAt engine "format".toList).value
    files := source.toList }

theorem namesFile_iff {table : Table} {name : Text} :
    table.NamesFile name ↔ table.fileName? = some name ∧ name ≠ [] := by
  rw [Table.NamesFile, Table.fileName?, value_textAt_eq_some_iff, get?_tableAt]

theorem Table.NamesFile.unique {table : Table} {first second : Text}
    (one : table.NamesFile first) (other : table.NamesFile second) : first = second :=
  Option.some.inj ((namesFile_iff.mp one).1.symm.trans (namesFile_iff.mp other).1)

theorem ofTable_eq (tree : FileTree) (table : Table) (source : Option Path) :
    Layer.ofTable tree table source =
      ((table.bare source).complain (settingComplaints table)).andThen fun layer =>
        (Layer.addNamedFile tree ((source.map Path.parent).getD tree.directoryPath) layer
          table.fileName?).andThen fun layer =>
            (layer.addAbbreviations table.listed).complain (listingComplaints table) := rfl

theorem tellable_complaints_iff (table : Table) :
    Tellable (settingComplaints table ++ listingComplaints table) ↔
      ∀ value, table.Rejects value → value.isWritable = true := by
  simp only [settingComplaints, listingComplaints, tellable_append, tellable_tableAt,
    tellable_limitAt, tellable_formatAt, tellable_textAt, tellable_abbreviationsIn, get?_tableAt,
    mem_tableAt, true_and, and_true]
  constructor
  · rintro ⟨⟨⟨limit, format⟩, file⟩, listing⟩ value rejected
    cases rejected with
    | limit entry invalid => exact limit value entry invalid
    | format entry noText => exact format value entry noText
    | file entry noText => exact file value entry noText
    | abbreviation isTable member noText => exact listing _ value ⟨_, isTable, member⟩ noText
  · intro writable
    refine ⟨⟨⟨?_, ?_⟩, ?_⟩, ?_⟩
    · exact fun value entry invalid => writable value (.limit entry invalid)
    · exact fun value entry noText => writable value (.format entry noText)
    · exact fun value entry noText => writable value (.file entry noText)
    · rintro name value ⟨inner, isTable, member⟩ noText
      exact writable value (.abbreviation isTable member noText)

/-! ### Complaints and files -/

namespace Layer

variable {tree : FileTree} {layer after : Layer}

theorem outcome_complain_eq_ok_iff {complaints : List Complaint} :
    (layer.complain complaints).outcome = .ok after ↔ Tellable complaints ∧
      after = { layer with
        diagnostics := layer.diagnostics ++ complaints.map Complaint.diagnostic } := by
  unfold complain Tellable
  simp only [← List.all_eq_true]
  split
  · rename_i tellable
    simp [tellable, eq_comm]
  · rename_i untellable
    simp [untellable]

/-- The complaint about a file of abbreviations that cannot be opened. -/
def unopened (path : Path) (error : AccessError) : Complaint :=
  { message := "Cannot read abbreviations file ".toList ++ path.toText ++ ": ".toList ++
      error.message }

theorem outcome_loadAbbreviations (tree : FileTree) (path : Path) :
    (loadAbbreviations tree path).outcome = (tree.readText path).map Abbreviations.parse := by
  unfold loadAbbreviations
  cases tree.readText path <;> rfl

theorem outcome_addFile_of_access {path : Path} {error : AccessError}
    (read : tree.readText path = .error (.access error)) :
    (addFile tree layer path).outcome = (layer.complain [unopened path error]).outcome := by
  have loaded : (loadAbbreviations tree path).outcome = .error (.access error) := by
    rw [outcome_loadAbbreviations, read]
    rfl
  unfold addFile unopened
  simp only [loaded]
  rfl

theorem outcome_addFile_eq_ok_iff {path : Path} :
    (addFile tree layer path).outcome = .ok after ↔
      (∃ text, tree.readText path = .ok text ∧
        after = layer.addAbbreviations (Abbreviations.parse text).toList) ∨
      ∃ error, tree.readText path = .error (.access error) ∧
        after = { layer with
          diagnostics := layer.diagnostics ++ [(unopened path error).diagnostic] } := by
  have loaded := outcome_loadAbbreviations tree path
  cases read : tree.readText path with
  | ok text =>
    rw [read] at loaded
    simp [addFile, loaded, Except.map, eq_comm]
  | error error =>
    rw [read] at loaded
    cases error with
    | access error =>
      rw [outcome_addFile_of_access read, outcome_complain_eq_ok_iff]
      constructor
      · rintro ⟨-, rfl⟩
        exact .inr ⟨error, rfl, rfl⟩
      · rintro (⟨_, ⟨⟩, -⟩ | ⟨_, ⟨⟩, rfl⟩)
        exact ⟨tellable_singleton.mpr rfl, rfl⟩
    | undecodable error => simp [addFile, loaded, Except.map]
    | nullInPath => simp [addFile, loaded, Except.map]

theorem outcome_addNamedFile_eq_ok_iff {directory : Path} {table : Table} :
    (addNamedFile tree directory layer table.fileName?).outcome = .ok after ↔
      (∀ name, ¬table.NamesFile name) ∧ after = layer ∨
      ∃ name, table.NamesFile name ∧
        (addFile tree layer (directory.append (.ofText name))).outcome = .ok after := by
  simp only [namesFile_iff]
  cases table.fileName? with
  | none => simp [addNamedFile, Journal.done, eq_comm]
  | some name =>
    cases name with
    | nil => simp [addNamedFile, Journal.done, eq_comm]
    | cons c rest =>
      constructor
      · intro added
        exact .inr ⟨_, ⟨rfl, List.cons_ne_nil c rest⟩, added⟩
      · rintro (⟨none, -⟩ | ⟨_, ⟨⟨⟩, -⟩, added⟩)
        · exact absurd ⟨rfl, List.cons_ne_nil c rest⟩ (none _)
        · exact added

end Layer

/-! ### The layer of a table -/

/-- A layer means what a table means whose file of abbreviations is seen from a directory. -/
structure Reflects (tree : FileTree) (directory : Path) (table : Table) (layer : Layer) : Prop where
  limit : ∀ limit, layer.limit = some limit ↔ table.SetsLimit limit
  format : ∀ format, layer.format = some format ↔ table.SetsFormat format
  abbreviations : ∀ name text,
    layer.abbreviations.find? name = some text ↔ table.Defines tree directory name text
  /-- What is wrong with a table is not worth more than a warning. -/
  warnings : ∀ diagnostic ∈ layer.diagnostics, diagnostic.kind = .warning

variable {tree : FileTree} {table : Table} {source : Option Path} {layer : Layer}

/-- The way from a table to its layer. -/
theorem outcome_ofTable_eq_ok_iff :
    (Layer.ofTable tree table source).outcome = .ok layer ↔
      (∀ value, table.Rejects value → value.isWritable = true) ∧
      ∃ between, (Layer.addNamedFile tree ((source.map Path.parent).getD tree.directoryPath)
          { table.bare source with
            diagnostics := (settingComplaints table).map Complaint.diagnostic }
          table.fileName?).outcome = .ok between ∧
        layer = { between.addAbbreviations table.listed with
          diagnostics := between.diagnostics ++
            (listingComplaints table).map Complaint.diagnostic } := by
  rw [ofTable_eq, ← tellable_complaints_iff, tellable_append]
  simp only [Journal.outcome_andThen_eq_ok_iff, Layer.outcome_complain_eq_ok_iff]
  constructor
  · rintro ⟨_, ⟨first, rfl⟩, between, added, second, rfl⟩
    exact ⟨⟨first, second⟩, between, added, rfl⟩
  · rintro ⟨⟨first, second⟩, between, added, rfl⟩
    exact ⟨_, ⟨first, rfl⟩, between, added, second, rfl⟩

/-- What a table lists is what its entries give that are texts. -/
theorem lists_iff {name text : Text} :
    table.Lists name text ↔ Last (OrderedMap.Gives name) table.listed text := by
  have same : (fun entry expansion => ∃ picked, abbreviationOf? entry = some picked ∧
      OrderedMap.Gives name picked expansion) =
        fun entry expansion => entry = (name, Value.text expansion) := by
    funext ⟨other, value⟩ expansion
    cases value <;> simp [abbreviationOf?, OrderedMap.Gives]
  rw [Table.listed, last_filterMap, same, last_tableAt, Table.Lists]

/-- Abbreviations that are laid over those of a layer win. -/
theorem find?_addAbbreviations_eq_some_iff {entries : List (Text × Text)} {name text : Text} :
    (layer.addAbbreviations entries).abbreviations.find? name = some text ↔
      Last (OrderedMap.Gives name) entries text ∨
        Silent (OrderedMap.Gives name) entries ∧ layer.abbreviations.find? name = some text :=
  OrderedMap.find?_insertAll_eq_some_iff

theorem find?_addAbbreviations_toList {abbreviations : Abbreviations} {name text : Text} :
    (layer.addAbbreviations abbreviations.toList).abbreviations.find? name = some text ↔
      abbreviations.find? name = some text ∨
        abbreviations.find? name = none ∧ layer.abbreviations.find? name = some text := by
  rw [find?_addAbbreviations_eq_some_iff, Abbreviations.toList, OrderedMap.last_entries_iff,
    OrderedMap.silent_entries_iff]
  rfl

theorem fileDefines_of_readText {path : Path} {content name text : Text}
    (read : tree.readText path = .ok content) :
    FileDefines tree name path text ↔ (Abbreviations.parse content).find? name = some text := by
  simp [FileDefines, read]

theorem not_fileDefines_of_access {path : Path} {error : AccessError} {name text : Text}
    (read : tree.readText path = .error (.access error)) : ¬FileDefines tree name path text := by
  simp [FileDefines, read]

/-- What the file of abbreviations that a table names does to a layer that has none yet. -/
structure Extends (tree : FileTree) (directory : Path) (table : Table) (layer after : Layer) :
    Prop where
  limit : after.limit = layer.limit
  format : after.format = layer.format
  files : after.files = layer.files
  abbreviations : ∀ name text, after.abbreviations.find? name = some text ↔
    ∃ file, table.NamesFile file ∧ FileDefines tree name (directory.append (.ofText file)) text
  diagnostics : ∃ more : List Complaint,
    after.diagnostics = layer.diagnostics ++ more.map Complaint.diagnostic

theorem extends_of_addNamedFile {directory : Path} {after : Layer}
    (fresh : layer.abbreviations = {})
    (added : (Layer.addNamedFile tree directory layer table.fileName?).outcome = .ok after) :
    Extends tree directory table layer after := by
  have none : ∀ name, layer.abbreviations.find? name = none := fun name => by rw [fresh]; rfl
  rw [Layer.outcome_addNamedFile_eq_ok_iff] at added
  obtain ⟨unnamed, rfl⟩ | ⟨file, named, added⟩ := added
  · refine ⟨rfl, rfl, rfl, fun name text => ?_, [], (List.append_nil _).symm⟩
    rw [none]
    exact iff_of_false nofun fun ⟨file, named, _⟩ => unnamed file named
  · have only : ∀ name text, (∃ other, table.NamesFile other ∧
        FileDefines tree name (directory.append (.ofText other)) text) ↔
          FileDefines tree name (directory.append (.ofText file)) text := by
      intro name text
      constructor
      · rintro ⟨other, alsoNamed, defines⟩
        exact alsoNamed.unique named ▸ defines
      · exact fun defines => ⟨file, named, defines⟩
    obtain ⟨content, read, rfl⟩ | ⟨error, read, rfl⟩ := Layer.outcome_addFile_eq_ok_iff.mp added
    · refine ⟨rfl, rfl, rfl, fun name text => ?_, [], (List.append_nil _).symm⟩
      rw [only, fileDefines_of_readText read, find?_addAbbreviations_toList, none]
      simp
    · refine ⟨rfl, rfl, rfl, fun name text => ?_, [_], rfl⟩
      rw [only]
      exact iff_of_false (by rw [none]; nofun) (not_fileDefines_of_access read)

/-- The layer that is made of a table means what the table means. -/
theorem reflects_of_ofTable (made : (Layer.ofTable tree table source).outcome = .ok layer) :
    Reflects tree ((source.map Path.parent).getD tree.directoryPath) table layer := by
  obtain ⟨-, between, added, rfl⟩ := outcome_ofTable_eq_ok_iff.mp made
  have extended := extends_of_addNamedFile rfl added
  refine ⟨fun limit => ?_, fun format => ?_, fun name text => ?_, ?_⟩
  · change between.limit = some limit ↔ _
    rw [extended.limit, Table.SetsLimit]
    simp only [Table.bare, value_limitAt_eq_some_iff, get?_tableAt]
  · change between.format = some format ↔ _
    rw [extended.format, Table.SetsFormat]
    simp only [Table.bare, value_formatAt_eq_some_iff, get?_tableAt]
  · change (between.addAbbreviations table.listed).abbreviations.find? name = some text ↔ _
    rw [find?_addAbbreviations_eq_some_iff, silent_iff_forall_not_last, extended.abbreviations]
    simp only [← lists_iff, Table.Defines]
  · obtain ⟨more, diagnostics⟩ := extended.diagnostics
    intro diagnostic member
    rw [diagnostics, ← List.map_append, ← List.map_append] at member
    obtain ⟨complaint, -, rfl⟩ := List.mem_map.mp member
    rfl

end Config

end TagExpansion
