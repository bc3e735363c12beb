import TagExpansion.Command.Toolkit
import TagExpansion.Text.Numeral
import TagExpansion.Tools.Arguments
import TagExpansion.Tools.Page

/-
This file reads arguments by the declaration of a command.

The options that occur are found first. Then the values are checked, in the order in which
the options occur, and the first one that does not do is complained about. Options that
may be repeated add up, of all others the last occurrence counts. Arguments that the
command has no use for are complained about last of all.
-/

namespace TagExpansion.Tools

open Command (Domain Interface Reading Subcommand)

/-- What is wrong with arguments. -/
inductive Trouble where
  /-- They do not fit; some complaints come with a reminder of how the command is called. -/
  | complaint (reminds : Bool) (message : Text)
  | broken (breakdown : Breakdown)
  deriving Repr

/-! ### Checking values -/

section Values

variable (spellings : List Text)

/-- The complaint about the value of an option. -/
def invalidValue (problem : Text) : Trouble :=
  .complaint true ("Invalid value for ".toList ++
    Text.join " / ".toList (spellings.map Text.quoted) ++ ": ".toList ++ problem)

/-- A file that an option names must be there and can be opened, and must not be a directory. -/
def checkFile (files : FileTree) (name : Text) : Except Trouble Path :=
  let complain (problem : String) : Except Trouble Path :=
    .error (invalidValue spellings ("File ".toList ++ Text.quoted name ++ problem.toList))
  if name.contains '\x00' then .error (.broken ⟨"ValueError".toList, nullInPathMessage⟩)
  else match files.stat? name with
    | none => complain " does not exist."
    | some .directory => complain " is a directory."
    | some (.barred _) => complain " is not readable."
    | some (.file _) => .ok (.ofText name)

/-- A number must be one, and lie in a range. -/
def checkRange (least greatest : Int) (numeral : Text) :
    Except Trouble { number : Int // least ≤ number ∧ number ≤ greatest } :=
  match Text.readInteger? numeral with
  | none => .error (invalidValue spellings
      (Text.quoted numeral ++ " is not a valid integer range.".toList))
  | some number =>
    if inside : least ≤ number ∧ number ≤ greatest then .ok ⟨number, inside⟩
    else .error (invalidValue spellings (Text.ofInt number ++ " is not in the range ".toList ++
      Text.ofInt least ++ "<=x<=".toList ++ Text.ofInt greatest ++ ['.']))

/-- A format must have a name. -/
def checkFormat (convert : Text → Except Text Format) (name : Text) : Except Trouble Format :=
  (convert name).mapError (invalidValue spellings)

/-- What the values of an option come to that occurs so often. -/
def valueOf (files : FileTree) (count : Nat) (given : List Text) :
    (domain : Domain) → Except Trouble domain.Value
  | .flag => .ok (decide (0 < count))
  | .counter => .ok count
  | .text default => .ok (given.getLast?.getD default)
  | .files => given.mapM (checkFile spellings files)
  | .range least greatest => given.getLast?.mapM (checkRange spellings least greatest)
  | .format convert => given.getLast?.mapM (checkFormat spellings convert)

end Values

/-! ### Reading by a declaration -/

section Interface

variable (interface : Interface)

/-- The arguments of a command that are no options. -/
def positionals : List interface.Key :=
  interface.keys.filter fun key => (interface.parameter key).spellings.isEmpty

/-- Whether an option takes a value. -/
def takesValue : Domain → Bool
  | .flag => false
  | .counter => false
  | _ => true

/-- The options of a command. The one without a key asks for help. -/
def switches : List (Switch (Option interface.Key)) :=
  let keys := interface.keys.filter fun key => !(interface.parameter key).spellings.isEmpty
  keys.map (fun key => {
    option := some key
    spellings := (interface.parameter key).spellings
    takesValue := takesValue (interface.parameter key).domain }) ++
  [{ option := none, spellings := interface.help }]

/-- The complaint about arguments that a command has no use for. -/
def extraArguments (arguments : List Text) : Trouble :=
  let noun := if arguments.length = 1 then "argument" else "arguments"
  .complaint true ("Got unexpected extra ".toList ++ noun.toList ++ " (".toList ++
    Text.join [' '] arguments ++ [')'])

/-- The answers that options which occur make, with the arguments that are left. -/
def settle (files : FileTree) (occurrences : List (Occurrence (Option interface.Key)))
    (left : List Text) : Except Trouble interface.Answers :=
  let _ := interface.distinguish
  let free := positionals interface
  let answer (key : interface.Key) : Except Trouble (interface.parameter key).domain.Value :=
    let parameter := interface.parameter key
    let given :=
      if parameter.spellings.isEmpty then left[free.idxOf key]?.toList
      else values occurrences (some key)
    valueOf parameter.spellings files (count occurrences (some key)) given parameter.domain
  do
    for key in (order occurrences).filterMap id ++ interface.keys do
      let _ ← answer key
    if free.length < left.length then throw (extraArguments (left.drop free.length))
    return fun key => (answer key).toOption.getD (interface.parameter key).domain.unset

variable (path : Text)

/-- The line that tells an error. -/
def errorLine (message : Text) : Text := "Error: ".toList ++ message ++ ['\n']

/-- What becomes of the reading of arguments when something is wrong with them. -/
def Trouble.reading {α : Type} : Trouble → Reading α
  | .complaint reminds message =>
    .misuse ((if reminds then reminder interface path else []) ++ errorLine message)
  | .broken breakdown => .broken breakdown

/-- What is wrong when arguments cannot be read. -/
def ArgumentError.trouble (error : ArgumentError) : Trouble :=
  match error with
  | .noSuchOption _ => .complaint true error.message
  | _ => .complaint false error.message

/-- Finds the options that occur, and goes on unless help is asked for. -/
def readOptions {α : Type} (mixed : Bool) (arguments : List Text)
    (next : List (Occurrence (Option interface.Key)) → List Text → Reading α) : Reading α :=
  let _ := interface.distinguish
  match readArguments (switches interface) mixed arguments with
  | .error error => error.trouble.reading interface path
  | .ok (occurrences, left) => if occurs occurrences none then .help else next occurrences left

/-- Reads the arguments of a command. -/
def readCommand (files : FileTree) (arguments : List Text) : Reading interface.Answers :=
  readOptions interface path true arguments fun occurrences left =>
    match settle interface files occurrences left with
    | .error trouble => trouble.reading interface path
    | .ok answers => .settled answers

/-- Reads the options of the program and finds the command. Arguments that name none may still be
options of the program, which were kept from being read as such. -/
def readProgram (commands : List Subcommand) (arguments : List Text) :
    Reading (interface.Answers × Option (Subcommand × List Text)) :=
  readOptions interface path false arguments fun occurrences left =>
    match settle interface {} occurrences [] with
    | .error trouble => trouble.reading interface path
    | .ok answers =>
      match left with
      | [] => .settled (answers, none)
      | name :: others =>
        match commands.find? fun command => command.name = name with
        | some command => .settled (answers, some (command, others))
        | none => readOptions interface path false left fun _ _ =>
            Trouble.reading interface path (.complaint true
              ("No such command ".toList ++ Text.quoted name ++ ['.']))

end Interface

end TagExpansion.Tools
