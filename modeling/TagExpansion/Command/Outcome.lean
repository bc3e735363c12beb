import TagExpansion.Command.Toolkit
import TagExpansion.Config.Settled

/-
This file has what a call of the program does, and what it leaves behind.

A call has effects, one after the other: it prints, and it writes to files. It ends with a
status. A call that does not come to its end stops for a reason. Most reasons are told,
which is an effect like any other; a few are mistakes in files or settings that the
program does not foresee, and those end it as a crash.
-/

namespace TagExpansion.Command

/-- What becomes of a text that is to be written to a file. -/
inductive Fate where
  | kept
  /-- The file cannot be opened. -/
  | refused (reason : Text)
  /-- The file was opened, and took so many bytes of the text before the writing failed. -/
  | cut (count : Nat) (reason : Text)
  deriving DecidableEq, Repr

/-- What a call finds around it. -/
structure Surroundings where
  files : FileTree := {}
  /-- The text on the standard input, unless it cannot be read. -/
  input : Except Breakdown Text := .ok []
  /-- What becomes of what is written to a place. -/
  fate : List Text → Fate := fun _ => .kept
  outputIsTerminal : Bool := false
  errorIsTerminal : Bool := false

/-- Something that a call does. -/
inductive Effect where
  /-- It prints on the standard output. -/
  | result (text : Text)
  /-- It prints on the standard error output. -/
  | note (text : Text)
  /-- It writes bytes to a file in place of those that it had. -/
  | stored (place : List Text) (bytes : List UInt8)
  deriving DecidableEq, Repr

/-- What the files are after an effect. -/
def Effect.apply (files : FileTree) : Effect → FileTree
  | .result _ => files
  | .note _ => files
  | .stored place bytes => files.store place bytes

/-- The statuses with which the program ends. -/
inductive Status where
  | success
  | failure
  /-- Warnings were reported and are not tolerated. -/
  | warnings
  | usageError
  | encodingError
  | fileNotFound
  | accessError
  | configError
  /-- The arguments do not fit. -/
  | misused (number : Nat)
  deriving DecidableEq, Repr

/-- The number of a status. -/
def Status.code : Status → Nat
  | .success => 0
  | .failure => 1
  | .warnings => 2
  | .usageError => 64
  | .encodingError => 65
  | .fileNotFound => 66
  | .accessError => 74
  | .configError => 78
  | .misused number => number

/-- A mistake that the program does not foresee. -/
inductive Crash where
  | config (failure : Config.Failure)
  | setting (error : Log.LevelError)
  | limit (limit : Limit)
  | fault (fault : Fault)
  /-- Something broke down that the program is built on. -/
  | foreign (breakdown : Breakdown)
  deriving DecidableEq, Repr

/-- Why a call stops. -/
inductive Stop where
  /-- The arguments do not fit. -/
  | misuse (complaint : Text)
  /-- Something else is wrong. -/
  | error (status : Status) (message : Text)
  /-- All is said. -/
  | exit
  | crash (cause : Crash)
  deriving DecidableEq, Repr

/-- A call as it goes on. -/
abbrev Course (α : Type) := Journal Effect Stop α

/-- The status of a call that stops. -/
def Stop.status (misuseStatus : Nat) : Stop → Status
  | .misuse _ => .misused misuseStatus
  | .error status _ => status
  | .exit => .success
  | .crash _ => .failure

/-- The crash of a call that stops. -/
def Stop.crash? : Stop → Option Crash
  | .crash cause => some cause
  | _ => none

/-! ### Printing -/

section Toolkit

variable (toolkit : Toolkit) (surroundings : Surroundings) (color : Option Bool)

/-- What is printed on the standard output for a text. -/
def resultOf (text : Text) : Effect :=
  .result (toolkit.echo color surroundings.outputIsTerminal text)

/-- What is printed on the standard error output for a text. -/
def noteOf (text : Text) : Effect :=
  .note (toolkit.echo color surroundings.errorIsTerminal text)

/-- What is printed for a diagnostic. Where it is not settled whether it is colored, it is on a
terminal. -/
def diagnosticEffect (diagnostic : Diagnostic) : Effect :=
  noteOf toolkit surroundings color
    (diagnostic.render toolkit.paint (color.getD surroundings.errorIsTerminal) ++ ['\n'])

/-- Tells an error and stops. -/
def failWith {α : Type} (status : Status) (message : Text) : Course α :=
  ⟨[noteOf toolkit surroundings color (toolkit.errorLine message)], .error (.error status message)⟩

/-- Goes on with what was read from arguments. Asked for help, it gives the page and stops. -/
def Reading.course {α : Type} (page : Text) : Reading α → Course α
  | .settled value => .done value
  | .help => ⟨[resultOf toolkit surroundings color page], .error .exit⟩
  | .misuse complaint =>
    ⟨[noteOf toolkit surroundings color complaint], .error (.misuse complaint)⟩
  | .broken breakdown => .fail (.crash (.foreign breakdown))

end Toolkit

/-! ### The end of a call -/

/-- What a call leaves behind. -/
structure Outcome where
  effects : List Effect
  status : Status
  crash : Option Crash
  files : FileTree

/-- What a course leaves behind. -/
def Course.close (toolkit : Toolkit) (surroundings : Surroundings) (course : Course Status) :
    Outcome where
  effects := course.entries
  status := match course.outcome with
    | .ok status => status
    | .error stop => stop.status toolkit.misuseStatus
  crash := match course.outcome with
    | .ok _ => none
    | .error stop => stop.crash?
  files := course.entries.foldl Effect.apply surroundings.files

/-- What is printed on the standard output. -/
def Outcome.standardOutput (outcome : Outcome) : Text :=
  outcome.effects.flatMap fun effect => match effect with
    | .result text => text
    | _ => []

/-- What is printed on the standard error output. -/
def Outcome.errorOutput (outcome : Outcome) : Text :=
  outcome.effects.flatMap fun effect => match effect with
    | .note text => text
    | _ => []

end TagExpansion.Command
