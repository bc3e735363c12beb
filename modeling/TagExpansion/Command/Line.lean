import TagExpansion.Command.Expand

/-
This file has the command line: the options of the program itself, the commands, and
a call from beginning to end.

A command is looked up before the options of the program take effect, and they take
effect before the arguments of the command are read. So an unknown command is told
before a contradiction among the options, and that before a mistake in the arguments.
-/

namespace TagExpansion.Command

/-- The version of the program. -/
def version : Text := "0.1.0".toList

/-! ### The small commands -/

/-- What the command that lists tags can be given. -/
inductive TagsKey where
  | format
  deriving DecidableEq, Repr

/-- The declaration of the command that lists tags. -/
def tagsInterface : Interface where
  command := some .tags
  Key := TagsKey
  keys := [.format]
  parameter
    | .format => { spellings := ["--format".toList], domain := .format convertFormat }
  distinguish := inferInstance

/-- The declaration of the command that shows the version. -/
def versionInterface : Interface where
  command := some .version
  Key := Empty
  keys := []
  parameter := nofun
  distinguish := inferInstance

/-- The line about a tag, with the names set to the same width. -/
def tagLine (width : Nat) (definition : Tag.Definition) : Text :=
  '@' :: Text.padRight width definition.name ++ "  ".toList ++ definition.options ++ ['\n']

/-- The lines about the builtin tags of a format. -/
def tagLines (format : Format) : List Text :=
  let registry := Tag.Registry.builtin format
  let width := (registry.names.map List.length).foldl max 0
  registry.definitions.map (tagLine width)

section Commands

variable (environment : Environment)

/-- Lists the builtin tags. -/
def tags (path : Text) (arguments : List Text) : Course Status := do
  let answers ← environment.read tagsInterface path arguments
  let format := Option.getD (answers .format) Format.plain
  Journal.writeAll ((Tag.registerBuiltins format).entries.flatMap environment.logEffects)
  Journal.writeAll ((tagLines format).map environment.resultOf)
  return .success

/-- Shows the version. -/
def showVersion (path : Text) (arguments : List Text) : Course Status := do
  let _ ← environment.read versionInterface path arguments
  let heading := if 1 < environment.verbosity then "TagMark version: ".toList else []
  environment.print (heading ++ version ++ ['\n'])
  return .success

/-- Runs a command. -/
def runCommand (command : Subcommand) (path : Text) (arguments : List Text) : Course Status :=
  match command with
  | .expand => expand environment path arguments
  | .tags => tags environment path arguments
  | .version => showVersion environment path arguments

end Commands

/-! ### The program -/

/-- What the program itself can be given. -/
inductive ProgramKey where
  | quiet
  | verbose
  | noColor
  deriving DecidableEq, Repr

/-- How the program is given its options. -/
def programParameter : ProgramKey → Parameter
  | .quiet => { spellings := ["-q".toList, "--quiet".toList], domain := .counter }
  | .verbose => { spellings := ["-v".toList, "--verbose".toList], domain := .counter }
  | .noColor => { spellings := ["--no-color".toList], domain := .flag }

/-- The declaration of the program. -/
def programInterface : Interface where
  command := none
  Key := ProgramKey
  keys := [.quiet, .verbose, .noColor]
  parameter := programParameter
  distinguish := inferInstance

/-- What the options of the program say. -/
structure ProgramSettings where
  verbose : Nat := 0
  quiet : Nat := 0
  noColor : Bool := false
  deriving Repr

/-- The settings that answers make. -/
def ProgramSettings.ofAnswers (answers : programInterface.Answers) : ProgramSettings where
  verbose := answers .verbose
  quiet := answers .quiet
  noColor := answers .noColor

/-- The view that settings ask for, unless they contradict each other. Colors can be ruled out, but
not asked for. -/
def ProgramSettings.view? (settings : ProgramSettings) : Option View :=
  (resolveVerbosity? settings.verbose settings.quiet).map fun verbosity =>
    { verbosity, color := if settings.noColor then some false else none }

/-- A call of the program. -/
structure Call extends Surroundings where
  arguments : List Text
  /-- The setting of the environment that asks for a threshold of the log. -/
  logLevel : Option Text := none

section Program

variable (toolkit : Toolkit) (call : Call)

/-- What the arguments of a call come to: the options of the program, and the command. -/
def Call.reading : Reading (programInterface.Answers × Option (Subcommand × List Text)) :=
  toolkit.readProgram programInterface Subcommand.all call.arguments

/-- The help page of the program. -/
def programHelp : Text := toolkit.help programInterface programName

/-- The manner that the options of the program and the log ask for. -/
def prepare (settings : ProgramSettings) : Course Manner :=
  match settings.view? with
  | none => failWith toolkit call.toSurroundings none .usageError verbosityConflict
  | some view =>
    match Log.readThreshold call.logLevel with
    | .error error => .fail (.crash (.setting error))
    | .ok threshold => .done { view with threshold := some (threshold.getD Log.defaultThreshold) }

/-- The hint for a call without a command. -/
def hint : Text := "Hint: use 'tagmark expand [PATH]' to expand a text.\n".toList

/-- The environment in which a call goes on. -/
def Call.environment (manner : Manner) : Environment :=
  { call.toSurroundings, manner with toolkit }

/-- Goes on when the options of the program have taken effect: with the command that was found, or
with the hint and the help page. -/
def proceed (environment : Environment) : Option (Subcommand × List Text) → Course Status
  | none => do
    environment.print hint
    environment.print ['\n']
    environment.print (programHelp environment.toolkit)
    return .success
  | some (command, arguments) => runCommand environment command command.path arguments

/-- The course of a call of the program. -/
def program : Course Status := do
  let (answers, chosen) ← (call.reading toolkit).course toolkit call.toSurroundings none
    (programHelp toolkit)
  let manner ← prepare toolkit call (.ofAnswers answers)
  proceed (call.environment toolkit manner) chosen

/-- Calls the program. -/
def run : Outcome := (program toolkit call).close toolkit call.toSurroundings

/-- Calls a command on its own, without the program around it: the log is not shown, and the
verbosity is the default one. -/
def runAlone (command : Subcommand) : Outcome :=
  let environment := call.environment toolkit ⟨⟨defaultVerbosity, none⟩, none⟩
  Course.close toolkit call.toSurroundings
    (runCommand environment command programName call.arguments)

end Program

end TagExpansion.Command
