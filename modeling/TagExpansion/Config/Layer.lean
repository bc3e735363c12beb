import TagExpansion.Config.Source
import TagExpansion.Engine.Limit
import TagExpansion.Markup.Format

/-
This file has the layers of a configuration.

A layer sets some things and leaves others open. A layer laid over another wins where
it sets something; abbreviations add up, and of two with the same name the upper one
counts. A setting that makes no sense is left open, and a warning says so. When all
layers are merged, what is still open gets its default.
-/

namespace TagExpansion.Config

/-- What one source of settings says. -/
structure Layer where
  limit : Option Limit := none
  format : Option Format := none
  abbreviations : Abbreviations := {}
  /-- The settings files that the layer was made of. -/
  files : List Path := []
  diagnostics : List Diagnostic := []
  deriving Repr

/-! ### Reading settings -/

/-- What is wrong with a setting. It cannot be told when it shows a number that is too long. -/
structure Complaint where
  message : Text
  tellable : Bool := true
  deriving DecidableEq, Repr

/-- A setting that was read, and what is wrong with it. -/
structure Checked (α : Type) where
  value : α
  complaints : List Complaint := []
  deriving Repr

/-- The complaint about a value that is not what it must be. -/
def complaintAbout (subject : Text) (requirement : Text) (value : Value) : Complaint where
  message := subject ++ " must be ".toList ++ requirement ++ ", got ".toList ++
    value.written ++ "; ignored".toList
  tellable := value.isWritable

/-- The table under a key. -/
def tableAt (table : Table) (key : Text) : Checked Table :=
  match table.get? key with
  | none => ⟨[], []⟩
  | some (.table inner) => ⟨inner, []⟩
  | some other => ⟨[], [{ message := '[' :: key ++ "] must be a table, got ".toList ++
      other.kindName ++ "; ignored".toList }]⟩

/-- The limit of nesting under a key: a number in the range that engines accept. -/
def limitAt (table : Table) (key : Text) : Checked (Option Limit) :=
  match table.get? key with
  | none => ⟨none, []⟩
  | some (.number value) =>
    if 1 ≤ value ∧ value ≤ Limit.greatest then ⟨some (.number value), []⟩
    else ⟨none, [complaintAbout ('\'' :: key ++ ['\''])
      ("between 1 and ".toList ++ Text.ofNat Limit.greatest) (.number value)]⟩
  | some other => ⟨none, [complaintAbout ('\'' :: key ++ ['\'']) "an integer".toList other]⟩

/-- The text under a key. -/
def textAt (table : Table) (key : Text) : Checked (Option Text) :=
  match table.get? key with
  | none => ⟨none, []⟩
  | some (.text value) => ⟨some value, []⟩
  | some other => ⟨none, [complaintAbout ('\'' :: key ++ ['\'']) "a string".toList other]⟩

/-- The format with a name in any letter case. -/
def formatNamed (name : Text) : Checked (Option Format) :=
  match Format.ofAnyCase? name with
  | some format => ⟨some format, []⟩
  | none => ⟨none, [{ message := "Unknown output format ".toList ++ Text.quoted name ++
      " (expected one of: ".toList ++ Format.choices ++ "); ignored".toList }]⟩

/-- The format that a table names under a key. -/
def formatAt (table : Table) (key : Text) : Checked (Option Format) :=
  let name := textAt table key
  match name.value with
  | none => ⟨none, name.complaints⟩
  | some name => formatNamed name

/-- What an entry of a table of abbreviations defines. -/
def abbreviationOf? : Text × Value → Option (Text × Text)
  | (name, .text text) => some (name, text)
  | _ => none

/-- The complaint about an entry of a table of abbreviations. -/
def abbreviationComplaint? : Text × Value → Option Complaint
  | (_, .text _) => none
  | (name, other) =>
    some (complaintAbout ("Abbreviation '".toList ++ name ++ ['\'']) "a string".toList other)

/-- The abbreviations of a table. -/
def abbreviationsIn (table : Table) : Checked (List (Text × Text)) :=
  ⟨table.filterMap abbreviationOf?, table.filterMap abbreviationComplaint?⟩

/-- The diagnostic of a complaint. -/
def Complaint.diagnostic (complaint : Complaint) : Diagnostic :=
  { kind := .warning, message := complaint.message }

/-- What the log gets for a complaint: the complaint, and that it is taken up. -/
def Complaint.log (complaint : Complaint) : List Log.Entry :=
  [⟨Log.warning, complaint.message⟩, complaint.diagnostic.additionEntry]

namespace Layer

/-- Takes up complaints, up to the first one that cannot be told. -/
def complain (layer : Layer) (complaints : List Complaint) : Journal Log.Entry Failure Layer :=
  ⟨(complaints.takeWhile Complaint.tellable).flatMap Complaint.log,
    if complaints.all Complaint.tellable then
      .ok { layer with diagnostics := layer.diagnostics ++ complaints.map Complaint.diagnostic }
    else .error .numeralTooLong⟩

/-- Sets the format by its name. -/
def setFormat (layer : Layer) (name : Text) : Journal Log.Entry Failure Layer :=
  let checked := formatNamed name
  { layer with format := checked.value.orElse fun _ => layer.format }.complain checked.complaints

/-- Lays abbreviations over those of the layer. -/
def addAbbreviations (layer : Layer) (entries : List (Text × Text)) : Layer :=
  { layer with abbreviations := ⟨layer.abbreviations.table.insertAll entries⟩ }

/-- Lays the abbreviations of a file over those of the layer; a file that cannot be opened is
worth a complaint. -/
def addFile (tree : FileTree) (layer : Layer) (path : Path) : Journal Log.Entry Failure Layer :=
  let loaded := loadAbbreviations tree path
  match loaded.outcome with
  | .ok abbreviations => ⟨loaded.entries, .ok (layer.addAbbreviations abbreviations.toList)⟩
  | .error (.access error) => do
    Journal.mk loaded.entries (.ok ())
    layer.complain [{ message := "Cannot read abbreviations file ".toList ++ path.toText ++
      ": ".toList ++ error.message }]
  | .error (.undecodable error) => ⟨loaded.entries, .error (.undecodable error)⟩
  | .error .nullInPath => ⟨loaded.entries, .error .nullInPath⟩

/-- Lays the abbreviations of the file that a table of settings names over those of the layer.
The name is seen from the given directory, and an empty name stands for no file. -/
def addNamedFile (tree : FileTree) (directory : Path) (layer : Layer) (name : Option Text) :
    Journal Log.Entry Failure Layer :=
  match name with
  | none => .done layer
  | some [] => .done layer
  | some name => addFile tree layer (directory.append (.ofText name))

/-- The layer that a table of settings makes. The table was read from `source`, if from a
file. -/
def ofTable (tree : FileTree) (table : Table) (source : Option Path) :
    Journal Log.Entry Failure Layer := do
  let engine := tableAt table "engine".toList
  let limit := limitAt engine.value "max_depth".toList
  let format := formatAt engine.value "format".toList
  let files := tableAt table "files".toList
  let file := textAt files.value "abbreviations".toList
  let abbreviations := tableAt table "abbreviations".toList
  let entries := abbreviationsIn abbreviations.value
  let directory := (source.map Path.parent).getD tree.directoryPath
  let layer : Layer := { limit := limit.value, format := format.value, files := source.toList }
  let layer ← layer.complain (engine.complaints ++ limit.complaints ++ format.complaints ++
    files.complaints ++ file.complaints)
  let layer ← addNamedFile tree directory layer file.value
  (layer.addAbbreviations entries.value).complain (abbreviations.complaints ++ entries.complaints)

/-- The layer that a settings file makes. A file that cannot be read makes a layer that sets
nothing, and the error is told behind all warnings. -/
def load (sources : Sources) (path : Path) : Journal Log.Entry Failure Layer := do
  Journal.write ⟨Log.debug, "Loading config from ".toList ++ path.toText⟩
  let (table, errors) ← loadTable sources true path
  let layer ← ofTable sources.toFileTree table (some (sources.directoryPath.resolve path))
  ⟨errors.map Diagnostic.additionEntry,
    .ok { layer with diagnostics := layer.diagnostics ++ errors }⟩

/-! ### Merging -/

/-- One layer laid over another. -/
def merge (lower upper : Layer) : Layer where
  limit := upper.limit.orElse fun _ => lower.limit
  format := upper.format.orElse fun _ => lower.format
  abbreviations := lower.abbreviations.merge upper.abbreviations
  files := lower.files ++ upper.files
  diagnostics := lower.diagnostics ++ upper.diagnostics

/-- Lays settings files over a layer one after the other. -/
def loadOver (sources : Sources) (layer : Layer) : List Path → Journal Log.Entry Failure Layer
  | [] => .done layer
  | path :: others => do
    let loaded ← load sources path
    loadOver sources (layer.merge loaded) others

/-- The layer that settings files make together, later files winning. -/
def loadMerged (sources : Sources) (paths : List Path) : Journal Log.Entry Failure Layer :=
  loadOver sources {} paths

/-- Lays the abbreviations of files over those of a layer one after the other. -/
def addFiles (tree : FileTree) (layer : Layer) : List Path → Journal Log.Entry Failure Layer
  | [] => .done layer
  | path :: others => do
    let layer ← addFile tree layer path
    addFiles tree layer others

/-! ### Overrides -/

/-- A format as an override gives it: as such, or by its name. -/
inductive FormatChoice where
  | format (format : Format)
  | named (name : Text)
  deriving DecidableEq, Repr

/-- Settings that win over those of the files. They are taken as they are. -/
structure Overrides where
  limit : Option Limit := none
  format : Option FormatChoice := none
  deriving Repr

/-- The overrides that a table of values gives: numbers and truth values set the limit, texts
name the format, and all else is passed over. -/
def Overrides.ofTable (table : Table) : Overrides where
  limit := match table.get? "max_depth".toList with
    | some (.number value) => some (.number value)
    | some (.flag value) => some (.flag value)
    | _ => none
  format := match table.get? "output_format".toList with
    | some (.text name) => some (.named name)
    | _ => none

/-- Applies overrides to a layer. -/
def override (layer : Layer) (overrides : Overrides) : Journal Log.Entry Failure Layer :=
  let layer := { layer with limit := overrides.limit.orElse fun _ => layer.limit }
  match overrides.format with
  | none => .done layer
  | some (.format format) => .done { layer with format := some format }
  | some (.named name) => layer.setFormat name

end Layer

end TagExpansion.Config
