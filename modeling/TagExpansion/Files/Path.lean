import TagExpansion.Text.Quoted

/-
This file has paths.

A path is a root, which is empty for a relative path, and a list of names. Empty
names and single dots drop out when a path is read; double dots stay, since what
they lead to depends on the files.
-/

namespace TagExpansion

/-- A path to a file. -/
structure Path where
  /-- Empty for a relative path, else one or two slashes. -/
  root : Text := []
  names : List Text := []
  deriving DecidableEq, Repr

namespace Path

/-- The parts of a text between slashes. -/
def splitSlashes : Text → List Text
  | [] => [[]]
  | c :: rest => if c = '/' then [] :: splitSlashes rest else Text.pushFirst c (splitSlashes rest)

/-- The root of a written path: exactly two slashes at the front are kept. -/
def rootOf : Text → Text
  | '/' :: '/' :: '/' :: _ => ['/']
  | '/' :: '/' :: _ => ['/', '/']
  | '/' :: _ => ['/']
  | _ => []

/-- Reads a path. -/
def ofText (text : Text) : Path :=
  ⟨rootOf text, (splitSlashes text).filter fun name => !(name.isEmpty || name = ['.'])⟩

/-- Whether a path starts at the root of the file system. -/
def isAbsolute (path : Path) : Bool := !path.root.isEmpty

/-- A path as it is written; the path without names is the directory one is in. -/
def toText (path : Path) : Text :=
  if path.root.isEmpty && path.names.isEmpty then ['.']
  else path.root ++ Text.join ['/'] path.names

/-- The last name of a path. -/
def name (path : Path) : Text := path.names.getLast?.getD []

/-- The path without its last name. -/
def parent (path : Path) : Path := { path with names := path.names.dropLast }

/-- A path that starts from another one. -/
def append (base path : Path) : Path :=
  if path.isAbsolute then path else { base with names := base.names ++ path.names }

/-- Follows double dots by taking the name before them away. -/
def foldParents (names : List Text) : List Text :=
  names.foldl (fun done name => if name = ['.', '.'] then done.dropLast else done ++ [name]) []

/-- The absolute path without double dots, seen from a directory. It starts with one slash. -/
def resolve (directory path : Path) : Path :=
  ⟨['/'], foldParents (directory.append path).names⟩

end Path

end TagExpansion
