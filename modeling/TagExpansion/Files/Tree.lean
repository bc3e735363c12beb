import TagExpansion.Files.Path
import TagExpansion.OrderedMap
import TagExpansion.Text.Blank
import TagExpansion.Text.Utf8

/-
This file has the files that a program can see, as a value.

A tree says for every place whether it holds a file or a directory, and in which
directory the program works. Reading and writing are functions of the tree. What goes
wrong on the way to a place, or with what stands there, is told by its cause and by the
path that was asked for.
-/

namespace TagExpansion

/-- What stands at a place of the file system. -/
inductive Node where
  | file (bytes : List UInt8)
  | directory
  /-- A file that the program cannot open, and what the system says about it. -/
  | barred (words : Text)
  deriving DecidableEq, Repr

/-- Why a place cannot be read or written. -/
inductive AccessCause where
  | notFound
  | notDirectory
  | isDirectory
  | nameTooLong
  | barred (words : Text)
  deriving DecidableEq, Repr

/-- An access that failed. -/
structure AccessError where
  cause : AccessCause
  path : Path
  deriving DecidableEq, Repr

/-- The number and the words of a cause. -/
def AccessCause.message : AccessCause → Text
  | .notFound => "[Errno 2] No such file or directory".toList
  | .notDirectory => "[Errno 20] Not a directory".toList
  | .isDirectory => "[Errno 21] Is a directory".toList
  | .nameTooLong => "[Errno 36] File name too long".toList
  | .barred words => words

/-- A failed access in words. -/
def AccessError.message (error : AccessError) : Text :=
  error.cause.message ++ ": ".toList ++ Text.quoted error.path.toText

/-- Why a text cannot be read from a file. -/
inductive ReadError where
  | access (error : AccessError)
  | undecodable (error : Text.Utf8Error)
  /-- The path holds a character that no path can hold. -/
  | nullInPath
  deriving DecidableEq, Repr

/-- The words for a path that holds a null character. -/
def nullInPathMessage : Text := "embedded null byte".toList

/-- The files that a program can see. -/
structure FileTree where
  /-- The directory in which the program works, from the root of the file system on. -/
  directory : List Text := []
  /-- What stands where; places are given by their names from the root on. -/
  nodes : OrderedMap (List Text) Node := .empty
  deriving Repr

namespace FileTree

/-- The working directory as a path. -/
def directoryPath (tree : FileTree) : Path := ⟨['/'], tree.directory⟩

/-- What stands at a place. The working directory and the directories around it are there. -/
def node? (tree : FileTree) (place : List Text) : Option Node :=
  if place.isPrefixOf tree.directory then some .directory else tree.nodes.find? place

/-- The greatest number of bytes of a name. -/
def maxNameBytes : Nat := 255

/-- The greatest number of bytes of a path. -/
def maxPathBytes : Nat := 4095

/-- Follows names from a place: every name but the last must lead to a directory. -/
def walk (tree : FileTree) (place : List Text) : List Text → Except AccessCause (List Text)
  | [] => .ok place
  | name :: others =>
    match tree.node? place with
    | none => .error .notFound
    | some (.file _) => .error .notDirectory
    | some (.barred _) => .error .notDirectory
    | some .directory =>
      if name = ['.', '.'] then tree.walk place.dropLast others
      else if name = ['.'] then tree.walk place others
      else if maxNameBytes < (Text.encode name).length then .error .nameTooLong
      else tree.walk (place ++ [name]) others

/-- The place that a path starts from. -/
def start (tree : FileTree) (path : Path) : List Text :=
  if path.isAbsolute then [] else tree.directory

/-- The place that a path leads to. -/
def locate (tree : FileTree) (path : Path) : Except AccessCause (List Text) :=
  if maxPathBytes < (Text.encode path.toText).length then .error .nameTooLong
  else tree.walk (tree.start path) path.names

/-- The bytes of a file. -/
def readBytes (tree : FileTree) (path : Path) : Except ReadError (List UInt8) :=
  if path.toText.contains '\x00' then .error .nullInPath
  else match tree.locate path with
    | .error cause => .error (.access ⟨cause, path⟩)
    | .ok place => match tree.node? place with
      | none => .error (.access ⟨.notFound, path⟩)
      | some .directory => .error (.access ⟨.isDirectory, path⟩)
      | some (.barred words) => .error (.access ⟨.barred words, path⟩)
      | some (.file bytes) => .ok bytes

/-- The text of a file, with every line break written as a line feed. -/
def readText (tree : FileTree) (path : Path) : Except ReadError Text := do
  let bytes ← tree.readBytes path
  match Text.decode bytes with
  | .ok text => return Text.unifyLineBreaks text
  | .error error => throw (.undecodable error)

/-- The place at which a file can be written that a path leads to. -/
def destination (tree : FileTree) (path : Path) : Except ReadError (List Text) :=
  if path.toText.contains '\x00' then .error .nullInPath
  else match tree.locate path with
    | .error cause => .error (.access ⟨cause, path⟩)
    | .ok place => match tree.node? place with
      | some .directory => .error (.access ⟨.isDirectory, path⟩)
      | some (.barred words) => .error (.access ⟨.barred words, path⟩)
      | _ => .ok place

/-- Puts bytes into the file at a place. -/
def store (tree : FileTree) (place : List Text) (bytes : List UInt8) : FileTree :=
  { tree with nodes := tree.nodes.insert place (.file bytes) }

/-- Whether a path leads to a file, be it one that can be opened or not. -/
def isFile (tree : FileTree) (path : Path) : Bool :=
  match tree.readBytes path with
  | .ok _ => true
  | .error (.access ⟨.barred _, _⟩) => true
  | .error _ => false

/-- The names of a path as the system follows them: a slash at the end asks for a directory. -/
def systemNames (text : Text) : List Text :=
  let names := (Path.splitSlashes text).filter fun name => !name.isEmpty
  if text.getLast? = some '/' then names ++ [['.']] else names

/-- What a path leads to, if it leads anywhere, when it is followed exactly as it is written. -/
def stat? (tree : FileTree) (text : Text) : Option Node :=
  if text.isEmpty || maxPathBytes < (Text.encode text).length then none
  else match tree.walk (if text.head? = some '/' then [] else tree.directory) (systemNames text) with
    | .error _ => none
    | .ok place => tree.node? place

/-- Puts a node at a place, with the directories around it. -/
def put (tree : FileTree) (place : List Text) (node : Node) : FileTree :=
  let around := (List.range place.length).map fun count => (place.take count, Node.directory)
  let missing := around.filter fun (spot, _) => (tree.node? spot).isNone
  { tree with nodes := (tree.nodes.insertAll missing).insert place node }

/-- Puts a node at a place seen from the working directory. -/
def place (tree : FileTree) (names : List Text) (node : Node) : FileTree :=
  tree.put (tree.directory ++ names) node

end FileTree

end TagExpansion
