import TagExpansion.Text.Quoted

/-
This file reads arguments.

An argument that starts with a dash and is longer than that is an option. A long
option may have its value behind an equals sign, several short ones may share a dash,
and the value of a short one may follow it directly. Two dashes alone end the options.
What an option means is not decided here: reading gives the options that occur, in
order, with their values, and the arguments that are left.
-/

namespace TagExpansion.Tools

/-- An option that a command knows; `ι` tells the options of a command apart. -/
structure Switch (ι : Type) where
  option : ι
  spellings : List Text
  takesValue : Bool := false

/-- An option that occurs, with its value if it takes one. -/
structure Occurrence (ι : Type) where
  option : ι
  value : Option Text := none
  deriving Repr

/-- Why arguments cannot be read. -/
inductive ArgumentError where
  | noSuchOption (spelling : Text)
  | missingValue (spelling : Text)
  | unexpectedValue (spelling : Text)
  deriving DecidableEq, Repr

/-- The error in words. -/
def ArgumentError.message : ArgumentError → Text
  | .noSuchOption spelling => "No such option ".toList ++ Text.quoted spelling ++ ['.']
  | .missingValue spelling =>
    "Option ".toList ++ Text.quoted spelling ++ " requires an argument.".toList
  | .unexpectedValue spelling =>
    "Option ".toList ++ Text.quoted spelling ++ " does not take a value.".toList

variable {ι : Type}

/-- What reading an option gives: the options that occur in an argument, and whether the last
of them still waits for its value, which is then the next argument. -/
structure Found (ι : Type) where
  complete : List (Occurrence ι) := []
  waiting : Option (ι × Text) := none

/-- Reads the letters of short options. -/
def readShort (switches : List (Switch ι)) : Text → Except ArgumentError (Found ι)
  | [] => .ok {}
  | letter :: rest =>
    let spelling := ['-', letter]
    match switches.find? fun switch => switch.spellings.contains spelling with
    | none => .error (.noSuchOption spelling)
    | some switch =>
      if switch.takesValue then
        if rest.isEmpty then .ok { waiting := some (switch.option, spelling) }
        else .ok { complete := [⟨switch.option, some rest⟩] }
      else do
        let found ← readShort switches rest
        return { found with complete := ⟨switch.option, none⟩ :: found.complete }

/-- The spelling of a long option and the value behind its equals sign. -/
def splitValue (argument : Text) : Text × Option Text :=
  match argument.dropWhile (· != '=') with
  | [] => (argument, none)
  | _ :: value => (argument.takeWhile (· != '='), some value)

/-- Reads an argument that is an option. A spelling with more than one letter is tried first, and
one with two dashes can be nothing else. -/
def readOption (switches : List (Switch ι)) (argument : Text) : Except ArgumentError (Found ι) :=
  let (spelling, value) := splitValue argument
  match switches.find? fun switch => 2 < spelling.length && switch.spellings.contains spelling with
  | some switch =>
    match switch.takesValue, value with
    | true, none => .ok { waiting := some (switch.option, spelling) }
    | true, some value => .ok { complete := [⟨switch.option, some value⟩] }
    | false, none => .ok { complete := [⟨switch.option, none⟩] }
    | false, some _ => .error (.unexpectedValue spelling)
  | none =>
    if "--".toList.isPrefixOf argument then .error (.noSuchOption spelling)
    else readShort switches (argument.drop 1)

/-- Whether an argument is an option. -/
def isOption (argument : Text) : Bool := argument.head? = some '-' && 1 < argument.length

/-- Reads arguments. With `mixed`, options may stand behind other arguments; without, the first
argument that is no option ends the reading. -/
def readArguments (switches : List (Switch ι)) (mixed : Bool) :
    List Text → Except ArgumentError (List (Occurrence ι) × List Text)
  | [] => .ok ([], [])
  | argument :: others =>
    if argument = "--".toList then .ok ([], others)
    else if isOption argument then
      match readOption switches argument with
      | .error error => .error error
      | .ok found =>
        match found.waiting, others with
        | none, others => do
          let (occurrences, left) ← readArguments switches mixed others
          return (found.complete ++ occurrences, left)
        | some (_, spelling), [] => .error (.missingValue spelling)
        | some (option, _), value :: others => do
          let (occurrences, left) ← readArguments switches mixed others
          return (found.complete ++ ⟨option, some value⟩ :: occurrences, left)
    else if mixed then do
      let (occurrences, left) ← readArguments switches mixed others
      return (occurrences, argument :: left)
    else .ok ([], argument :: others)

/-! ### Questions about what occurs -/

variable [DecidableEq ι]

/-- Whether an option occurs. -/
def occurs (occurrences : List (Occurrence ι)) (option : ι) : Bool :=
  occurrences.any fun occurrence => occurrence.option = option

/-- How often an option occurs. -/
def count (occurrences : List (Occurrence ι)) (option : ι) : Nat :=
  occurrences.countP fun occurrence => occurrence.option = option

/-- The values of an option, in order. -/
def values (occurrences : List (Occurrence ι)) (option : ι) : List Text :=
  occurrences.filterMap fun occurrence =>
    if occurrence.option = option then occurrence.value else none

/-- The options that occur, in the order in which they first do. -/
def order (occurrences : List (Occurrence ι)) : List ι :=
  (occurrences.map Occurrence.option).eraseDups

end TagExpansion.Tools
