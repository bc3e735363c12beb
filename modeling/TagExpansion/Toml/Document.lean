import TagExpansion.Toml.Syntax

/-
This file reads TOML documents.

A document is a sequence of entries and of headers. A header opens a table, or a
further element of an array of tables, and the entries behind it go there. A table is
closed by the first header that does not lie below it, and only then it is added to the
table around it, or to the document.

What does not go together inside of a table, or between a table and one below it, is
a clash. At the top of the document it makes the document malformed, and so does a table
that does not fit to what the document holds already.
-/

namespace TagExpansion.Toml

/-- A table that is open. -/
structure OpenTable where
  /-- The names of its header. -/
  header : List Text
  /-- The names of its header behind those of the table around it. -/
  path : List Text
  /-- Whether it is an element of an array of tables. -/
  element : Bool
  /-- The elements before it that were written in one go with it. -/
  earlier : List Entries := []
  /-- Whether what it adds to the table around it counts as an element of an array. -/
  recurring : Bool := false
  entries : Entries := []

namespace OpenTable

/-- Adds entries to a table. -/
def add (table : OpenTable) (scrutiny : Scrutiny) (added : Entries) : Except Error OpenTable := do
  let entries ← (addAll levels scrutiny table.entries added).mapError Error.clash
  return { table with entries }

/-- What a table adds to the table around it once it is closed. -/
def closed (table : OpenTable) : Entries :=
  nest .passage table.path
    (if table.element then .tables (table.earlier ++ [table.entries])
    else .table .header table.entries none)

/-- Adds what a closed table adds to the table around it. -/
def takeIn (table inner : OpenTable) : Except Error OpenTable :=
  if inner.recurring then do
    let entries ← (inner.closed.foldlM addElement table.entries).mapError Error.clash
    return { table with entries }
  else table.add .deferred inner.closed

/-- Whether a header lies below a table. -/
def isAbove (table : OpenTable) (header : List Text) : Bool :=
  table.header.length < header.length && table.header.isPrefixOf header

/-- Whether a header opens the next element of the array that a table is an element of. -/
def isFollowedBy (table : OpenTable) (header : List Text) (element : Bool) : Bool :=
  table.element && element && table.path.length = 1 && table.header = header

/-- The next element of the array that a table is an element of. -/
def next (table : OpenTable) : OpenTable :=
  { table with earlier := table.earlier ++ [table.entries], entries := [] }

end OpenTable

/-- A document that is being read. -/
structure Draft where
  entries : Entries := []
  /-- The tables that are open, each of which lies below the next. -/
  tables : List OpenTable := []

namespace Draft

/-- Adds entries to the top of a document. -/
def addToTop (entries added : Entries) : Except Error Entries :=
  match added.foldlM (join levels .complete) entries with
  | .ok entries => .ok entries
  | .error _ => .error .malformed

/-- Closes the open tables that a header does not lie below, from the inside; without a header
all of them. What the table that was closed last adds goes to the next one. -/
def closeFor (header : Option (List Text × Bool)) (entries : Entries) :
    Option OpenTable → List OpenTable → Except Error Draft
  | inner, [] => do
    let entries ← addToTop entries ((inner.map OpenTable.closed).getD [])
    return ⟨entries, []⟩
  | inner, table :: around => do
    let table ← match inner with
      | none => .ok table
      | some inner => table.takeIn inner
    if header.any fun (names, _) => table.isAbove names then return ⟨entries, table :: around⟩
    (settle levels table.entries).mapError Error.clash
    if header.any fun (names, element) => table.isFollowedBy names element then
      return ⟨entries, table.next :: around⟩
    closeFor header entries (some table) around

/-- Takes in an entry. -/
def addEntry (draft : Draft) (names : List Text) (content : Value) : Except Error Draft :=
  let added := nest .dotted names (.value content)
  match draft.tables with
  | [] => do
    let entries ← addToTop draft.entries added
    return { draft with entries }
  | table :: around => do
    let table ← table.add .complete added
    return { draft with tables := table :: around }

/-- Whether the way to an element of an array, seen from the open tables, leads on over the name
of an array at the top of the document of which a further element is open. -/
def recurs (tables : List OpenTable) (path : List Text) : Bool :=
  match tables.getLast?, path with
  | some outermost, name :: _ :: _ => !outermost.earlier.isEmpty && outermost.header = [name]
  | _, _ => false

/-- Opens the table of a header, for which the tables that it does not lie below are closed. -/
def openTable (draft : Draft) (names : List Text) (element : Bool) : Draft :=
  match draft.tables with
  | [] => { draft with tables := [{ header := names, path := names, element }] }
  | table :: around =>
    if table.header = names then draft
    else
      let path := names.drop table.header.length
      let recurring := element && recurs (table :: around) path
      { draft with tables := { header := names, path, element, recurring } :: table :: around }

end Draft

/-- The brackets that close a header, and the rest of its line. -/
def headerEnd (element : Bool) (text : Text) : Except Error Text :=
  match element, text with
  | false, ']' :: rest => skipTrail rest
  | true, ']' :: ']' :: rest => skipTrail rest
  | _, _ => .error .malformed

/-- Reads the rest of a document. -/
def readFrom : Nat → Draft → Text → Except Error Draft
  | 0, _, _ => .error .malformed
  | fuel + 1, draft, text =>
    match text.dropWhile fun c => isSpace c || c == '\r' with
    | [] => .ok draft
    | '\n' :: rest => readFrom fuel draft rest
    | '#' :: rest => do
      let rest ← skipTrail ('#' :: rest)
      readFrom fuel draft rest
    | '[' :: rest => do
      let (element, start) := match rest with
        | '[' :: start => (true, start)
        | start => (false, start)
      let (names, rest) ← key start
      let draft ← Draft.closeFor (some (names, element)) draft.entries none draft.tables
      let rest ← headerEnd element rest
      readFrom fuel (draft.openTable names element) rest
    | start => do
      let (names, rest) ← entryKey start
      let (content, rest) ← value rest
      let rest ← skipTrail rest
      let draft ← draft.addEntry names content
      readFrom fuel draft rest

/-- Reads a document. -/
def parse (text : Text) : Except Error (List (Text × Value)) := do
  let draft ← readFrom (text.length + 1) {} text
  let draft ← Draft.closeFor none draft.entries none draft.tables
  (Entries.values levels draft.entries).mapError Error.clash

end TagExpansion.Toml
