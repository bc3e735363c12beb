import TagExpansion.Abbreviation
import TagExpansion.Diagnostic
import TagExpansion.Files.Tree

/-
This file reads the files that a configuration is made of.

How a document becomes a table is left open here: the sources of a configuration are
files together with a way to read documents. A settings file that cannot be opened, or
that is a malformed document, counts as empty, and that is an error to be told. Some
things are not told but end the loading: bytes that are no text, a document at which the
reading breaks down in another way, a path with a null character, and a value that has a
number too long to be told.
-/

namespace TagExpansion.Config

/-- The entries of a table of settings. -/
abbrev Table := List (Text × Value)

/-- Why a document gives no table. -/
inductive DocumentError where
  /-- The document is malformed; the words tell where and how. -/
  | malformed (words : Text)
  /-- The reading failed in another way. -/
  | broken (breakdown : Breakdown)
  deriving DecidableEq, Repr

/-- What a configuration is read from: files, and a way to read documents. -/
structure Sources extends FileTree where
  parse : Text → Except DocumentError Table

/-- What ends the loading of a configuration. -/
inductive Failure where
  | undecodable (error : Text.Utf8Error)
  | broken (breakdown : Breakdown)
  | nullInPath
  | numeralTooLong
  deriving DecidableEq, Repr

/-- A failure in words. -/
def Failure.message : Failure → Text
  | .undecodable error => error.message
  | .broken breakdown => breakdown.message
  | .nullInPath => nullInPathMessage
  | .numeralTooLong => Text.numeralTooLong

/-- The value of a key; a key without a value counts as missing. -/
def Table.get? (table : Table) (key : Text) : Option Value :=
  match OrderedMap.findIn key table with
  | some .none => none
  | found => found

/-- The name of the file in which other tools keep their settings as well. -/
def sharedFileName : Text := "pyproject.toml".toList

/-- The name of the settings file that is looked for when none is given. -/
def defaultFileName : Text := "tagmark.toml".toList

/-- The table under a key, if it is one. -/
def Table.subtable (table : Table) (key : String) : Table :=
  match table.get? key.toList with
  | some (.table inner) => inner
  | _ => []

/-- The part of a settings file that is for this program: in a shared file it is a table of its
own, else it is the whole. -/
def ownPart (path : Path) (table : Table) : Table :=
  if path.name = sharedFileName then (table.subtable "tool").subtable "tagmark" else table

/-- Logs an error, and takes it up as a diagnostic if one is asked for. -/
def tellError (record : Bool) (message : Text) :
    Journal Log.Entry Failure (Table × List Diagnostic) :=
  let diagnostic : Diagnostic := { kind := .error, message }
  if record then
    ⟨[⟨Log.error, message⟩, diagnostic.additionEntry], .ok ([], [diagnostic])⟩
  else ⟨[⟨Log.error, message⟩], .ok ([], [])⟩

/-- Reads a settings file. The flag tells whether errors are taken up as diagnostics. -/
def loadTable (sources : Sources) (record : Bool) (path : Path) :
    Journal Log.Entry Failure (Table × List Diagnostic) :=
  match sources.readText path with
  | .error (.access error) =>
    tellError record ("Error loading TOML from ".toList ++ path.toText ++ ": ".toList ++ error.message)
  | .error (.undecodable error) => .fail (.undecodable error)
  | .error .nullInPath => .fail .nullInPath
  | .ok text => match sources.parse text with
    | .error (.malformed words) =>
      tellError record ("Error decoding TOML from ".toList ++ path.toText ++ ": ".toList ++ words)
    | .error (.broken breakdown) => .fail (.broken breakdown)
    | .ok table => .done (ownPart path table, [])

/-- Reads a file of abbreviations. -/
def loadAbbreviations (tree : FileTree) (path : Path) :
    Journal Log.Entry ReadError Abbreviations := do
  Journal.write ⟨Log.debug, "Loading abbreviations from ".toList ++ path.toText⟩
  let text ← Journal.ofOutcome (tree.readText path)
  let abbreviations := Abbreviations.parse text
  ⟨Abbreviations.parseLog text ++
    [⟨Log.debug, "Loaded ".toList ++ Text.ofNat abbreviations.table.size ++
      " abbreviation(s) from ".toList ++ path.toText⟩], .ok abbreviations⟩

end TagExpansion.Config
