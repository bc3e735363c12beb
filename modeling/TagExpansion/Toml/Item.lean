import TagExpansion.Value

/-
This file has the parts of a TOML document while it is being read.

A table may be written at several places of a document, and every place makes one part
of it. The entries of a table are kept as they were written, so that a name that stands
among them more than once has its table in several parts. A part remembers how it came
about, since that decides what may still be added: one that was only passed through on
the way to another may be opened by a header of its own later, one that was opened may
not be opened again, and one that came about by a key with dots belongs to the entries
alone.

Where a part was checked when it was added, it also keeps what it and the parts before it
had at that time. The next part is checked against that, and not against what was put
into the parts since.
-/

namespace TagExpansion.Toml

/-- How a part of a table came about. -/
inductive Origin where
  /-- By a header of its own. -/
  | header
  /-- On the way to the table of another header. -/
  | passage
  /-- By a key with dots. -/
  | dotted
  deriving DecidableEq, Repr

/-- What stands under a name. -/
inductive Item where
  | value (value : Value)
  /-- A part of a table, with the entries that it and the parts before it had together when it
  was checked. -/
  | table (origin : Origin) (entries : List (Text × Item)) (known : Option (List (Text × Item)))
  /-- An array of tables; the last element is the one that is open. -/
  | tables (elements : List (List (Text × Item)))

/-- The entries of a table, in the order in which they were written. -/
abbrev Entries := List (Text × Item)

/-- Why two things cannot stand in one table. -/
inductive Clash where
  /-- The name is taken. -/
  | repeated (name : Text)
  /-- A header opens a table that keys with dots have made. -/
  | redefined
  deriving DecidableEq, Repr

/-- Whether an item is part of a table. -/
def Item.isTable : Item → Bool
  | .table .. => true
  | _ => false

/-- The entries of a part of a table; anything else has none. -/
def Item.entries : Item → Entries
  | .table _ entries _ => entries
  | _ => []

namespace Entries

/-- What stands under a name, part by part. -/
def parts (entries : Entries) (name : Text) : List Item :=
  entries.filterMap fun entry => if entry.1 = name then some entry.2 else none

/-- The part that was written last under a name. -/
def lastPart? (entries : Entries) (name : Text) : Option Item :=
  match entries with
  | [] => none
  | entry :: others =>
    match lastPart? others name with
    | some item => some item
    | none => if entry.1 = name then some entry.2 else none

/-- Puts an item in the place of the last part of a name. -/
def replaceLast (entries : Entries) (name : Text) (item : Item) : Entries :=
  match entries with
  | [] => []
  | entry :: others =>
    if entry.1 = name && (parts others name).isEmpty then (name, item) :: others
    else entry :: replaceLast others name item

/-- Puts an item in the place of all parts of a name. It takes the place of the first, or the
last place of all where the first came about by a key with dots. -/
def replaceAll (entries : Entries) (name : Text) (item : Item) : Entries :=
  match entries with
  | [] => []
  | entry :: others =>
    if entry.1 = name then
      let others := others.filter fun other => other.1 ≠ name
      match entry.2 with
      | .table .dotted .. => others ++ [(name, item)]
      | _ => (name, item) :: others
    else entry :: replaceAll others name item

/-- The name of the part of a table that was written last. -/
def lastTable? (entries : Entries) : Option Text :=
  ((entries.filter fun entry => entry.2.isTable).getLast?).map Prod.fst

/-- The names of a table, each once, in the order in which they first stand there. -/
def names (entries : Entries) : List Text :=
  entries.foldl (fun known entry => if known.contains entry.1 then known else known ++ [entry.1]) []

/-- The entries whose names stand among others. -/
def namedIn (entries others : Entries) : Entries :=
  entries.filter fun entry => others.any fun other => other.1 = entry.1

/-- Whether no name stands among the entries twice: sorted, equal names would be neighbors. -/
def areDistinct (entries : Entries) : Bool :=
  let sorted := (entries.map Prod.fst).mergeSort fun first second =>
    !second.lex first fun c d => decide (c.toNat < d.toNat)
  (sorted.zip (sorted.drop 1)).all fun pair => pair.1 ≠ pair.2

end Entries

/-- The entries that lead over names to an item; every name but the last stands for a table of
the given origin. -/
def nest (origin : Origin) (names : List Text) (item : Item) : Entries :=
  match names with
  | [] => []
  | [name] => [(name, item)]
  | name :: others => [(name, .table origin (nest origin others item) none)]

end TagExpansion.Toml
