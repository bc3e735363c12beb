import TagExpansion.Command.Line
import TagExpansion.Tools.Standard

/-
This file runs the program on a real machine, with the standard toolkit. All decisions
are made elsewhere, on values: here the files that a call may need are read into a tree,
the call is made, and its effects are carried out.
-/

namespace TagExpansion.Main

/-- What stands at a place of the real file system. -/
def readNode (name : String) : IO (Option Node) := do
  try
    let bytes ← IO.FS.readBinFile name
    return some (.file bytes.toList)
  catch _ =>
    try
      let real ← IO.FS.realPath name
      if ← real.isDir then return some .directory
      return if ← real.pathExists then some (.barred "[Errno 13] Permission denied".toList) else none
    catch _ => return none

/-- Reads what stands on the way of a path and at its end. -/
def readPath (tree : FileTree) (path : Path) : IO FileTree := do
  let mut tree := tree
  for count in List.range (path.names.length + 1) do
    let start : Path := { path with names := path.names.take count }
    if let some node ← readNode (String.ofList start.toText) then
      tree := tree.put (tree.directoryPath.resolve start).names node
  return tree

/-- The paths that arguments may name: any argument can be one, or can have one behind an
equals sign or behind a short option. -/
def mentioned (arguments : List Text) : List Path :=
  let texts := arguments.flatMap fun argument =>
    [argument, (Tools.splitValue argument).2.getD [], argument.drop 2]
  (Config.defaultFileName :: texts.filter fun text => !text.isEmpty).map .ofText

/-- The file of abbreviations that a settings file names. -/
def namedFile? (tree : FileTree) (path : Path) : Option Path :=
  match (Config.loadTable ⟨tree, Tools.standard.parse⟩ false path).outcome with
  | .error _ => none
  | .ok (table, _) =>
    let files := (Config.tableAt table "files".toList).value
    (Config.textAt files "abbreviations".toList).value.map fun name =>
      (tree.directoryPath.resolve path).parent.append (.ofText name)

/-- The files that a call may need. -/
def gather (directory : Path) (arguments : List Text) : IO FileTree := do
  let mut tree : FileTree := { directory := directory.names }
  let paths := mentioned arguments
  for path in paths do
    tree ← readPath tree path
  for path in paths.filterMap (namedFile? tree) do
    tree ← readPath tree path
  return tree

/-- Reads a stream to its end. -/
partial def readBytes (stream : IO.FS.Stream) (read : ByteArray) : IO ByteArray := do
  let more ← stream.read 65536
  if more.isEmpty then return read else readBytes stream (read ++ more)

/-- The text on the standard input. -/
def readInput : IO (Except Breakdown Text) := do
  let bytes ← readBytes (← IO.getStdin) .empty
  return (Text.decode bytes.toList).mapError fun error =>
    ⟨"UnicodeDecodeError".toList, error.message⟩

/-- The words for a crash. -/
def crashMessage : Command.Crash → Text
  | .config failure => failure.message
  | .setting error => error.message
  | .limit limit => limit.rejection
  | .fault (.raised reason) => reason
  | .fault (.overflow cause) => cause.message
  | .fault (.exhausted breakdown) => breakdown.message
  | .foreign breakdown => breakdown.message

/-- Carries out an effect of a call. -/
def perform : Command.Effect → IO Unit
  | .result text => IO.print (String.ofList text)
  | .note text => IO.eprint (String.ofList text)
  | .stored place bytes =>
    let path : Path := ⟨['/'], place⟩
    IO.FS.writeBinFile (String.ofList path.toText) ⟨bytes.toArray⟩

end TagExpansion.Main

open TagExpansion in
/-- Makes the call that the arguments ask for. -/
def main (arguments : List String) : IO UInt32 := do
  let words := arguments.map String.toList
  let directory := Path.ofText (← IO.currentDir).toString.toList
  let files ← Main.gather directory words
  let input ← if words.contains "expand".toList then Main.readInput else pure (.ok [])
  let setting ← IO.getEnv "TAGMARK_LOG_LEVEL"
  let outcome := Command.run Tools.standard {
    arguments := words
    input
    files
    outputIsTerminal := ← (← IO.getStdout).isTty
    errorIsTerminal := ← (← IO.getStderr).isTty
    logLevel := setting.map String.toList }
  for effect in outcome.effects do
    Main.perform effect
  if let some crash := outcome.crash then IO.eprintln (String.ofList (Main.crashMessage crash))
  return UInt32.ofNat outcome.status.code
