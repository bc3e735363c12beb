import TagExpansion.Double
import TagExpansion.Text.Numeral
import TagExpansion.Text.Quoted

/-
This file has the values that a settings file can hold and that a message can
show, and the two texts of a value: how it stands inside a message, and how it is
written so that its kind can be told from the text.
-/

namespace TagExpansion

/-- How far a local time is ahead of universal time, and the name of that offset. -/
structure Offset where
  minutes : Int
  name : Text
  deriving DecidableEq, Repr

/-- A day of the calendar. -/
structure Day where
  year : Nat
  month : Nat
  day : Nat
  deriving DecidableEq, Repr

/-- A time of day. -/
structure TimeOfDay where
  hour : Nat
  minute : Nat
  second : Nat
  microsecond : Nat
  deriving DecidableEq, Repr

/-- A day, a time of day, or both, with or without an offset. -/
inductive Moment where
  | day (date : Day)
  | time (clock : TimeOfDay)
  | dayTime (date : Day) (clock : TimeOfDay) (offset : Option Offset)
  deriving DecidableEq, Repr

/-- A value of a settings file or of a message. -/
inductive Value where
  | none
  | flag (value : Bool)
  | number (value : Int)
  | real (value : Double)
  | text (value : Text)
  | list (items : List Value)
  | table (entries : List (Text × Value))
  | moment (value : Moment)
  deriving Repr, Inhabited

namespace Moment

/-- Numbers with commas between them. -/
def commaNumbers (numbers : List Nat) : Text := Text.join ", ".toList (numbers.map Text.ofNat)

/-- A duration of whole minutes, in days and in seconds of the last day. -/
def durationText (minutes : Int) : Text :=
  let days := minutes.fdiv 1440
  let seconds := (minutes.fmod 1440).toNat * 60
  let parts :=
    (if days = 0 then [] else ["days=".toList ++ Text.ofInt days]) ++
      (if seconds = 0 then [] else ["seconds=".toList ++ Text.ofNat seconds])
  "datetime.timedelta(".toList ++
    (if parts.isEmpty then ['0'] else Text.join ", ".toList parts) ++ [')']

/-- The parts of a time of day: seconds and fractions only as far as they are needed. -/
def timeParts (clock : TimeOfDay) : List Nat :=
  if clock.microsecond ≠ 0 then [clock.hour, clock.minute, clock.second, clock.microsecond]
  else if clock.second ≠ 0 then [clock.hour, clock.minute, clock.second]
  else [clock.hour, clock.minute]

/-- The text of a moment. -/
def toText : Moment → Text
  | .day date => "datetime.date(".toList ++ commaNumbers [date.year, date.month, date.day] ++ [')']
  | .time clock => "datetime.time(".toList ++ commaNumbers (timeParts clock) ++ [')']
  | .dayTime date clock offset =>
    let zone := match offset with
      | .none => []
      | .some offset => ", tzinfo=datetime.timezone(".toList ++ durationText offset.minutes ++
          ", ".toList ++ Text.quoted offset.name ++ [')']
    "datetime.datetime(".toList ++
      commaNumbers ([date.year, date.month, date.day] ++ timeParts clock) ++ zone ++ [')']

end Moment

namespace Value

/-- The word for the kind of a value. -/
def kindName : Value → Text
  | .none => "NoneType".toList
  | .flag _ => "bool".toList
  | .number _ => "int".toList
  | .real _ => "float".toList
  | .text _ => "str".toList
  | .list _ => "list".toList
  | .table _ => "dict".toList
  | .moment (.day _) => "date".toList
  | .moment (.time _) => "time".toList
  | .moment (.dayTime ..) => "datetime".toList

/-- The text of a truth value. -/
def flagText (value : Bool) : Text := if value then "True".toList else "False".toList

mutual
/-- The written form of a value, with texts quoted as `quote` says. -/
def writtenWith (quote : Text → Text) : Value → Text
  | .none => "None".toList
  | .flag value => flagText value
  | .number value => Text.ofInt value
  | .real value => value.toText
  | .text value => quote value
  | .list items => ['['] ++ Text.join ", ".toList (writtenItems quote items) ++ [']']
  | .table entries => ['\x7b'] ++ Text.join ", ".toList (writtenEntries quote entries) ++ ['\x7d']
  | .moment value => value.toText

/-- The written forms of the items of a list. -/
def writtenItems (quote : Text → Text) : List Value → List Text
  | [] => []
  | item :: others => writtenWith quote item :: writtenItems quote others

/-- The written forms of the entries of a table. -/
def writtenEntries (quote : Text → Text) : List (Text × Value) → List Text
  | [] => []
  | (name, value) :: others =>
    (quote name ++ ": ".toList ++ writtenWith quote value) :: writtenEntries quote others
end

mutual
/-- Whether a value has a written form: its numbers have decimal texts. -/
def isWritable : Value → Bool
  | .number value => Text.hasNumeral value
  | .list items => areWritable items
  | .table entries => entriesAreWritable entries
  | _ => true

/-- Whether the items of a list have written forms. -/
def areWritable : List Value → Bool
  | [] => true
  | item :: others => isWritable item && areWritable others

/-- Whether the entries of a table have written forms. -/
def entriesAreWritable : List (Text × Value) → Bool
  | [] => true
  | (_, value) :: others => isWritable value && entriesAreWritable others
end

/-- The written form of a value: texts stand between quotes. -/
def written (value : Value) : Text := writtenWith Text.quoted value

/-- The written form of a value in ASCII. -/
def writtenAscii (value : Value) : Text := writtenWith Text.quotedAscii value

/-- A value inside a message: a text is shown as it is, any other value as it is written. -/
def shown : Value → Text
  | .text value => value
  | value => value.written

/-- The written form of a sequence of arguments; a single one has a comma behind it. -/
def writtenArguments (arguments : List Value) : Text :=
  match arguments with
  | [only] => ['('] ++ only.written ++ ",)".toList
  | several => ['('] ++ Text.join ", ".toList (writtenItems Text.quoted several) ++ [')']

end Value

end TagExpansion
