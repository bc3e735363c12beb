import TagExpansion.Toml.Item

/-
This file tells what may be added to a table of a TOML document.

A new name is always welcome. Under a name that is there, a value never is. A table
that was only passed through takes in what else is written for it: in place, when
nothing but arrays of tables was written since, and as a further part of it otherwise.
A table that was opened takes in what headers of its own write below it. What goes on
below an array of tables means the last element.

How much is asked of a further part depends on where it is added. A table that is still
open takes it in as it is, since all is checked once the table is closed. Elsewhere the
part has to fit to what the parts before it are known to have, and all of them have to
go together on every level. What was put into a part in place, after it had become one
of several, is not known to the others. If it does not go together with them, this shows
only when they are laid together in the end.

There is one exception. In a further element of an array of tables at the top of the
document, the way to an element of an array may lead over the name of that array once
more. What such a header writes is then an element of an array under this name too, if
the name is taken.
-/

namespace TagExpansion.Toml

/-- How much is asked of a further part of a table. -/
inductive Scrutiny where
  /-- Nothing yet. -/
  | deferred
  /-- To fit to the parts before it. -/
  | fitting
  /-- To fit to the parts before it, and that all of them go together. -/
  | complete
  deriving DecidableEq, Repr

mutual
/-- Tells whether entries fit to those that a table has. A name whose table is in several parts
already takes nothing in. -/
def fits (entries : Entries) : List (Text × Item) → Except Clash Unit
  | [] => .ok ()
  | (name, item) :: others => do
    match Entries.parts entries name with
    | [] => fits entries others
    | [old] => do
      fitsItem name old item
      fits entries others
    | _ => throw (.repeated name)

/-- Tells whether an item fits to the one that stands under its name. -/
def fitsItem (name : Text) (old : Item) : Item → Except Clash Unit
  | .value _ => .error (.repeated name)
  | .tables _ => match old with
    | .tables _ => .ok ()
    | _ => .error (.repeated name)
  | .table origin added _ => match old, origin with
    | .table .header entries _, .passage => fits entries added
    | .table .header .., .header => .error (.repeated name)
    | .table .header .., .dotted => .error .redefined
    | .table .dotted .., .header => .error .redefined
    | .table _ entries _, _ => fits entries added
    | .tables elements, .passage => fits (elements.getLast?.getD []) added
    | .tables _, .header => .error (.repeated name)
    | .tables _, .dotted => .error .redefined
    | .value _, _ => .error (.repeated name)
end

/-- Adds a table under a name that stands for an array where it is taken. The table becomes the
last element, behind the elements that are there or the last part of a table that is. -/
def addElement (entries : Entries) (entry : Text × Item) : Except Clash Entries :=
  match Entries.lastPart? entries entry.1 with
  | none => .ok (entries ++ [entry])
  | some (.tables elements) =>
    .ok (Entries.replaceLast entries entry.1 (.tables (elements ++ [entry.2.entries])))
  | some (.table _ last _) =>
    .ok (Entries.replaceAll entries entry.1 (.tables [last, entry.2.entries]))
  | some (.value _) => .error (.repeated entry.1)

/-- Lays an entry over others. A table may get a further part, and an array of tables further
elements. -/
def layOver (entries : Entries) (entry : Text × Item) : Except Clash Entries :=
  match Entries.lastPart? entries entry.1, entry.2 with
  | none, _ => .ok (entries ++ [entry])
  | some (.table ..), _ => .ok (entries ++ [entry])
  | some (.tables elements), .tables more =>
    .ok (Entries.replaceLast entries entry.1 (.tables (elements ++ more)))
  | some _, _ => .error (.repeated entry.1)

mutual
/-- Adds an entry to a table. Where its parts were checked before, only what bears a name of the
new entries is checked again. -/
def join : Nat → Scrutiny → Entries → Text × Item → Except Clash Entries
  | 0, _, entries, entry => .ok (entries ++ [entry])
  | levels + 1, scrutiny, entries, (name, item) =>
    match Entries.lastPart? entries name, item with
    | none, _ => .ok (entries ++ [(name, item)])
    | some (.tables elements), .tables more =>
      .ok (Entries.replaceLast entries name (.tables (elements ++ more)))
    | some (.tables _), .table .header .. => .error (.repeated name)
    | some (.tables elements), .table _ added _ => do
      let element ← addAll levels .complete (elements.getLast?.getD []) added
      return Entries.replaceLast entries name (.tables (elements.dropLast ++ [element]))
    | some (.table .header ..), .table .header .. => .error (.repeated name)
    | some (.table .header ..), .table .dotted .. => .error .redefined
    | some (.table .dotted ..), .table .header .. => .error .redefined
    | some (.table old inner known), .table origin added _ => do
      let parts := Entries.parts entries name
      if old = .passage ∧ origin = .passage ∧ Entries.lastTable? entries = some name then
        let known ← if scrutiny = .complete ∧ 1 < parts.length then
            (knownOf levels parts).map some
          else .ok known
        let inner ← addAll levels .complete inner added
        return Entries.replaceLast entries name (.table .passage inner known)
      else
        if scrutiny ≠ .deferred ∧ (old = .header ∨ origin = .header) then
          fitsParts levels parts added
        if scrutiny ≠ .complete then return entries ++ [(name, .table origin added none)]
        let whole ← added.foldlM (join levels .fitting) (← knownOf levels parts)
        settle levels (if known.isSome then Entries.namedIn whole added else whole)
        return entries ++ [(name, .table origin added (some whole))]
    | some _, _ => .error (.repeated name)

/-- The entries that the parts of a table are known to have together. -/
def knownOf : Nat → List Item → Except Clash Entries
  | 0, _ => .ok []
  | levels + 1, parts => match parts.getLast? with
    | some (.table _ _ (some known)) => .ok known
    | _ => (parts.flatMap Item.entries).foldlM (join levels .fitting) []

/-- Tells whether entries fit to those that the parts of a table are known to have. What the parts
have in several pieces is left to the check of the whole. -/
def fitsParts : Nat → List Item → List (Text × Item) → Except Clash Unit
  | 0, _, _ => .ok ()
  | levels + 1, parts, added => match parts with
    | [part] => fits part.entries added
    | several => do
      let known ← knownOf levels several
      fits known (added.filter fun entry => (Entries.parts known entry.1).length ≤ 1)

/-- Tells whether all tables among some entries that are in several parts go together, on every
level. Where no name stands in two parts of a table, they do. -/
def settle : Nat → Entries → Except Clash Unit
  | 0, _ => .ok ()
  | levels + 1, entries => (Entries.names entries).forM fun name =>
    match Entries.parts entries name with
    | first :: second :: others => do
      let all := (first :: second :: others).flatMap Item.entries
      if Entries.areDistinct all then return ()
      let whole ← all.foldlM (join levels .fitting) []
      settle levels whole
    | _ => .ok ()

/-- Adds entries to a table one after the other, and tells each time whether the parts of the name
can still be laid together. Only what bears a name of the new entries can have come to clash. -/
def addAll : Nat → Scrutiny → Entries → List (Text × Item) → Except Clash Entries
  | 0, _, entries, _ => .ok entries
  | levels + 1, scrutiny, entries, added => added.foldlM (fun entries entry => do
    let entries ← join levels scrutiny entries entry
    match Entries.parts entries entry.1 with
    | first :: second :: others => do
      let all := (first :: second :: others).flatMap Item.entries
      let laid ← (Entries.namedIn all entry.2.entries).foldlM layOver []
      settle levels laid
      return entries
    | _ => return entries) entries
end

/-- The entries of the parts of a table, laid together. -/
def together (levels : Nat) (parts : List Item) : Except Clash Entries := do
  let whole ← (parts.flatMap Item.entries).foldlM layOver []
  settle levels whole
  return whole

/-- The value of an item, given how the entries of a table get theirs. -/
def Item.valueWith (inner : Entries → Except Clash (List (Text × Value))) :
    Item → Except Clash Value
  | .value content => .ok content
  | .table _ entries _ => (inner entries).map .table
  | .tables elements => (elements.mapM fun entries => (inner entries).map Value.table).map .list

/-- The values of a table that is at most so many levels deep. -/
def Entries.values : Nat → Entries → Except Clash (List (Text × Value))
  | 0, _ => .ok []
  | levels + 1, entries => (Entries.names entries).mapM fun name =>
    match Entries.parts entries name with
    | [item] => do
      let content ← item.valueWith (Entries.values levels)
      return (name, content)
    | several => do
      let whole ← together levels several
      let inner ← Entries.values levels whole
      return (name, .table inner)

end TagExpansion.Toml
