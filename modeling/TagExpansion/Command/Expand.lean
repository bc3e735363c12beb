import TagExpansion.Command.Outcome
import TagExpansion.Command.Verbosity
import TagExpansion.Ledger

/-
This file has the command that expands a text.

First the arguments are read, then the configuration is made, and only then the text is
read. The result is written when all that has gone well, the diagnostics are shown behind
it, and in the strict mode they decide the status.
-/

namespace TagExpansion.Command

/-- How much is shown of what a call has to tell, and how. -/
structure View where
  verbosity : Int
  /-- Whether texts may have codes for a terminal, if that is settled. -/
  color : Option Bool

/-- The manner in which a call goes on. -/
structure Manner extends View where
  /-- The threshold of the log; without one nothing of it is shown. -/
  threshold : Option Log.Level

/-- What a command is given besides its arguments. -/
structure Environment extends Surroundings, Manner where
  toolkit : Toolkit

namespace Environment

variable (environment : Environment)

/-- What a configuration is read from. -/
def sources : Config.Sources := ⟨environment.files, environment.toolkit.parse⟩

/-- What is printed on the standard output for a text. -/
def resultOf (text : Text) : Effect :=
  Command.resultOf environment.toolkit environment.toSurroundings environment.color text

/-- Prints on the standard output. -/
def print (text : Text) : Course Unit := .write (environment.resultOf text)

/-- Stops with an error that is told. -/
def fail {α : Type} (status : Status) (message : Text) : Course α :=
  failWith environment.toolkit environment.toSurroundings environment.color status message

/-- Reads the arguments of a command that is called in the given way. -/
def read (interface : Interface) (path : Text) (arguments : List Text) : Course interface.Answers :=
  (environment.toolkit.readCommand interface path environment.files arguments).course
    environment.toolkit environment.toSurroundings environment.color
    (environment.toolkit.help interface path)

/-- The place that log lines name below the level of facts. -/
def logPlace : Log.Place := ⟨programName, 0, programName⟩

/-- What is printed for an entry of the log. -/
def logEffects (entry : Log.Entry) : List Effect :=
  match environment.threshold with
  | none => []
  | some threshold =>
    if Log.isEnabled threshold entry.level then
      [.note (Log.printed environment.toolkit.paint threshold entry.level logPlace entry.message ++
        ['\n'])]
    else []

/-- What is printed for a notice. -/
def noticeEffects : Notice → List Effect
  | .logged entry => environment.logEffects entry
  | .forwarded diagnostic =>
    environment.logEffects ⟨diagnostic.severity.level, diagnostic.message⟩
  | .recorded _ => []

/-- Prints what goes into the log. -/
def log (entry : Log.Entry) : Course Unit :=
  .writeAll (environment.logEffects entry)

/-- The loading of a configuration as a part of a call. -/
def configure {α : Type} (loading : Journal Log.Entry Config.Failure α) : Course α :=
  (loading.expandEntries environment.logEffects).mapFailure fun failure => .crash (.config failure)

end Environment

/-! ### Options -/

/-- The format with a name in any letter case, or the complaint that there is none. -/
def convertFormat (name : Text) : Except Text Format :=
  match Format.ofAnyCase? name with
  | some format => .ok format
  | none => .error (Format.rejection name)

/-- What the command can be given. -/
inductive ExpandKey where
  | source
  | configFiles
  | abbreviationFiles
  | format
  | maxDepth
  | strict
  | target
  deriving DecidableEq, Repr

/-- What stands for the standard input and for the standard output. -/
def dash : Text := ['-']

/-- How the command is given its options. -/
def expandParameter : ExpandKey → Parameter
  | .source => { domain := .text dash }
  | .configFiles => { spellings := ["--config".toList, "-c".toList], domain := .files }
  | .abbreviationFiles =>
    { spellings := ["--abbreviations".toList, "-a".toList], domain := .files }
  | .format => { spellings := ["--format".toList], domain := .format convertFormat }
  | .maxDepth => { spellings := ["--max-depth".toList], domain := .range 1 Limit.greatest }
  | .strict => { spellings := ["--strict".toList], domain := .flag }
  | .target => { spellings := ["--output".toList, "-o".toList], domain := .text dash }

/-- The declaration of the command. -/
def expandInterface : Interface where
  command := some .expand
  Key := ExpandKey
  keys := [.source, .configFiles, .abbreviationFiles, .format, .maxDepth, .strict, .target]
  parameter := expandParameter
  distinguish := inferInstance

/-- What the arguments of the command say. -/
structure ExpandSettings where
  configFiles : List Path := []
  abbreviationFiles : List Path := []
  format : Option Format := none
  limit : Option Limit := none
  strict : Bool := false
  /-- Where the result goes. -/
  target : Text := dash
  /-- Where the text comes from. -/
  source : Text := dash
  deriving Repr

/-- The settings that answers make. -/
def ExpandSettings.ofAnswers (answers : expandInterface.Answers) : ExpandSettings where
  configFiles := answers .configFiles
  abbreviationFiles := answers .abbreviationFiles
  format := answers .format
  limit := Option.map (fun number => .number number.1) (answers .maxDepth)
  strict := answers .strict
  target := answers .target
  source := answers .source

/-! ### The steps of the command -/

section Steps

variable (environment : Environment)

/-- The settings files to load: those that are given, else the default one if it is there. -/
def settingsFiles (given : List Path) : Course (List Path) :=
  let default := environment.files.directoryPath.append (.ofText Config.defaultFileName)
  if given.isEmpty && environment.files.isFile default then do
    environment.log ⟨Log.info, "Using config file ".toList ++ default.toText⟩
    return [default]
  else .done given

/-- Makes the configuration. An error in a settings file stops the call. -/
def resolveConfig (settings : ExpandSettings) : Course Config := do
  let paths ← settingsFiles environment settings.configFiles
  let layer ← environment.configure (do
    let layer ← Config.Layer.loadMerged environment.sources paths
    let layer ← Config.Layer.addFiles environment.files layer settings.abbreviationFiles
    layer.override { limit := settings.limit, format := settings.format.map .format })
  let config := layer.freeze
  if config.errors.isEmpty then return config
  else environment.fail .configError (Text.join "; ".toList config.errors)

/-- Reads the text to expand. The standard input is taken as it is; in a file, every line break is
written as a line feed. -/
def readSource (source : Text) : Course Text :=
  if source = dash then
    match environment.input with
    | .ok text => .done text
    | .error breakdown => .fail (.crash (.foreign breakdown))
  else match environment.files.readText (.ofText source) with
    | .ok text => .done text
    | .error (.access error) =>
      if error.cause = .notFound then
        environment.fail .fileNotFound ("No such file: ".toList ++ source)
      else environment.fail .accessError
        ("Cannot read ".toList ++ source ++ ": ".toList ++ error.message)
    | .error (.undecodable error) => environment.fail .encodingError
        ("Cannot decode ".toList ++ source ++ " as UTF-8: ".toList ++ error.message)
    | .error .nullInPath => .fail (.crash (.config .nullInPath))

/-- The complaint about a target that cannot be written. -/
def unwritable {α : Type} (target reason : Text) : Course α :=
  environment.fail .accessError ("Cannot write ".toList ++ target ++ ": ".toList ++ reason)

/-- Writes a text to the file at a place, as far as that goes. -/
def writePlace (target : Text) (place : List Text) (bytes : List UInt8) : Course Unit :=
  match environment.fate place with
  | .kept => .write (.stored place bytes)
  | .refused reason => unwritable environment target reason
  | .cut count reason => do
    Journal.write (.stored place (bytes.take count))
    unwritable environment target reason

/-- Writes the result. -/
def writeTarget (target text : Text) : Course Unit :=
  if target = dash then environment.print text
  else match environment.files.destination (.ofText target) with
    | .ok place => writePlace environment target place (Text.encode text)
    | .error (.access error) => unwritable environment target error.message
    | .error _ => .fail (.crash (.config .nullInPath))

/-- Expands a text under a configuration; the diagnostics come with the result. -/
def expandText (config : Config) (engine : Engine) (text : Text) :
    Course (Text × List Diagnostic) :=
  let run := engine.expand text
  let shown := run.logNotices.flatMap environment.noticeEffects
  match run.outcome with
  | .ok result => ⟨shown, .ok (config.format.finish result, run.diagnostics)⟩
  | .error fault => ⟨shown, .error (.crash (.fault fault))⟩

/-- Shows the diagnostics that the verbosity lets through. -/
def showDiagnostics (diagnostics : List Diagnostic) : Course Unit :=
  .writeAll ((diagnostics.filter fun diagnostic => diagnostic.verbosity ≤ environment.verbosity).map
    (diagnosticEffect environment.toolkit environment.toSurroundings environment.color))

/-- The engine of a configuration. -/
def makeEngine (config : Config) : Course Engine :=
  let registered := (Tag.registerBuiltins config.format).entries.flatMap environment.logEffects
  match config.engine? Sink.collect with
  | .ok engine => ⟨registered, .ok engine⟩
  | .error limit => ⟨registered, .error (.crash (.limit limit))⟩

/-- The entry that the log gets about the diagnostics of a call. -/
def summaryEntry (diagnostics : List Diagnostic) : Log.Entry :=
  let counts := (Diagnostic.counts diagnostics).map fun (name, count) =>
    Text.quoted name ++ ": ".toList ++ Text.ofNat count
  ⟨Log.debug, "Expansion diagnostics: \x7b".toList ++ Text.join ", ".toList counts ++ ['\x7d']⟩

/-- Runs the command with its settings. -/
def runExpand (settings : ExpandSettings) : Course Status := do
  let config ← resolveConfig environment settings
  Journal.writeAll ((Ledger.additionLog config.diagnostics).flatMap environment.logEffects)
  let engine ← makeEngine environment config
  let text ← readSource environment settings.source
  let (result, found) ← expandText environment config engine text
  writeTarget environment settings.target result
  let diagnostics := config.diagnostics ++ found
  showDiagnostics environment diagnostics
  environment.log (summaryEntry diagnostics)
  return if settings.strict && Diagnostic.anySerious diagnostics then .warnings else .success

/-- The command: reads its arguments and runs. -/
def expand (path : Text) (arguments : List Text) : Course Status := do
  let answers ← environment.read expandInterface path arguments
  runExpand environment (.ofAnswers answers)

end Steps

end TagExpansion.Command
