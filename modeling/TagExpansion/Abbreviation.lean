import TagExpansion.Journal
import TagExpansion.Log
import TagExpansion.OrderedMap
import TagExpansion.Text.Quoted

/-
This file has abbreviations.

An abbreviation stands for a text. It is recognised only as a whole parameter and
with the same letter case. A file of abbreviations has one of them per line, the
name in brackets and the text behind it; lines that do not start with a bracket are
passed over, and a line with a bracket that defines nothing is worth a warning.
-/

namespace TagExpansion

/-- The abbreviations in force, in the order in which they were defined. -/
structure Abbreviations where
  table : OrderedMap Text Text := {}
  deriving Repr

namespace Abbreviations

/-- No abbreviations. -/
def empty : Abbreviations := {}

/-- The abbreviations of a list; a name that comes again takes the later text. -/
def ofList (entries : List (Text × Text)) : Abbreviations := ⟨.ofList entries⟩

/-- The abbreviations and their texts in order. -/
def toList (abbreviations : Abbreviations) : List (Text × Text) := abbreviations.table.entries

/-- The text of an abbreviation. -/
def find? (abbreviations : Abbreviations) (name : Text) : Option Text :=
  abbreviations.table.find? name

/-- The text of an abbreviation; a text that is none stands for itself. -/
def resolve (abbreviations : Abbreviations) (text : Text) : Text :=
  (abbreviations.find? text).getD text

/-- The entry that the log gets when an abbreviation is resolved. -/
def resolutionEntry (text expansion : Text) : Log.Entry :=
  ⟨Log.trace, "Unabbreviated ".toList ++ Text.quoted text ++ " -> ".toList ++ Text.quoted expansion⟩

/-- What the log gets when a text is looked up. -/
def resolutionLog (abbreviations : Abbreviations) (text : Text) : List Log.Entry :=
  match abbreviations.find? text with
  | none => []
  | some expansion => [resolutionEntry text expansion]

/-- One set of abbreviations laid over another. -/
def merge (lower upper : Abbreviations) : Abbreviations := ⟨lower.table.merge upper.table⟩

/-- A set of abbreviations as messages show it. -/
def written (abbreviations : Abbreviations) : Text :=
  let entries := abbreviations.toList.map fun (name, text) =>
    Text.quoted name ++ ": ".toList ++ Text.quoted text
  "AbbreviationTable(\x7b".toList ++ Text.join ", ".toList entries ++ "\x7d)".toList

/-! ### Files of abbreviations -/

/-- What a line of a file of abbreviations says. -/
inductive LineReading where
  | nothing
  | unclosed
  | unnamed
  | entry (name text : Text)
  deriving DecidableEq, Repr

/-- Reads a line. Blanks around the line, the name and the text do not count, and the first
closing bracket ends the name. -/
def readLine (line : Text) : LineReading :=
  match Text.strip line with
  | '[' :: rest =>
    match rest.dropWhile (· != ']') with
    | [] => .unclosed
    | _ :: text =>
      let name := Text.strip (rest.takeWhile (· != ']'))
      if name.isEmpty then .unnamed else .entry name (Text.strip text)
  | _ => .nothing

/-- What a line defines. -/
def LineReading.definition? : LineReading → Option (Text × Text)
  | .entry name text => some (name, text)
  | _ => none

/-- The warning about a line, if it deserves one. -/
def LineReading.warning? (reading : LineReading) (number : Nat) (line : Text) : Option Log.Entry :=
  let about (problem : String) : Log.Entry :=
    ⟨Log.warning, "Abbreviation line ".toList ++ Text.ofNat number ++ problem.toList ++
      Text.quoted line⟩
  match reading with
  | .unclosed => some (about " has no closing ']': ")
  | .unnamed => some (about " has an empty name: ")
  | _ => none

/-- The abbreviations that a text defines. -/
def parse (text : Text) : Abbreviations :=
  ofList ((Text.lines text).filterMap fun line => (readLine line).definition?)

/-- The warnings about the lines of a text, which are numbered from one. -/
def parseLog (text : Text) : List Log.Entry :=
  ((Text.lines text).zipIdx 1).filterMap fun (line, number) =>
    (readLine line).warning? number line

end Abbreviations

end TagExpansion
