import TagExpansion.Journal
import TagExpansion.Text.LetterCase
import TagExpansion.Text.Numeral
import TagExpansion.Text.Quoted

/-
This file has the working log of the program: its levels, its entries, and how
an entry is printed.

A level is an integer, and the named levels are landmarks on that line. The
threshold of a logger lets an entry through when its level is positive and not
below the threshold. A printed entry is colored by its level. Which color that is is
settled here; how a terminal shows it is not.
-/

namespace TagExpansion

/-- The colors that the program uses. -/
inductive Tint where
  | blue
  | yellow
  | green
  | gray
  | red
  | brightRed
  | dimRed
  deriving DecidableEq, Repr

/-- A way to color texts. -/
abbrev Paint := Tint → Text → Text

namespace Log

/-- How important an entry is. -/
abbrev Level := Int

/-- Steps of an expansion. -/
def trace : Level := 5

/-- Details for developers. -/
def debug : Level := 10

/-- Facts a user may want to know. -/
def info : Level := 20

/-- Problems that were passed over. -/
def warning : Level := 30

/-- Problems that were not. -/
def error : Level := 40

/-- The end of the program. -/
def critical : Level := 50

/-- The name of a level; a level that is no landmark is named by its number. -/
def levelName (level : Level) : Text :=
  if level = 0 then "NOTSET".toList
  else if level = trace then "TRACE".toList
  else if level = debug then "DEBUG".toList
  else if level = info then "INFO".toList
  else if level = warning then "WARNING".toList
  else if level = error then "ERROR".toList
  else if level = critical then "CRITICAL".toList
  else "Level ".toList ++ Text.ofInt level

/-- An entry of the log. -/
structure Entry where
  level : Level
  message : Text
  deriving DecidableEq, Repr

/-- Whether a threshold lets a level through. -/
def isEnabled (threshold level : Level) : Bool := 0 < level && threshold ≤ level

/-! ### Printing -/

/-- The color in which an entry of a level is printed. -/
def tintOf (level : Level) : Tint :=
  if critical ≤ level then .brightRed
  else if error ≤ level then .red
  else if warning ≤ level then .yellow
  else if info ≤ level then .green
  else if debug ≤ level then .gray
  else if trace ≤ level then .blue
  else .dimRed

/-- A place in a program. -/
structure Place where
  file : Text
  line : Nat
  function : Text
  deriving DecidableEq, Repr

/-- An entry as one line. Below the level of facts the threshold also asks for the place that
made the entry. -/
def printed (paint : Paint) (threshold level : Level) (place : Place) (message : Text) : Text :=
  let head := '[' :: levelName level ++ "] ".toList
  let origin :=
    if info ≤ threshold then []
    else '[' :: place.file ++ ':' :: Text.ofNat place.line ++ "] [".toList ++ place.function ++
      "] ".toList
  paint (tintOf level) (head ++ origin ++ message)

/-! ### The threshold asked for by the environment -/

/-- The landmarks that a setting may name. -/
def namedLevel? (name : Text) : Option Level :=
  if name = "TRACE".toList then some trace
  else if name = "DEBUG".toList then some debug
  else if name = "INFO".toList then some info
  else if name = "WARNING".toList || name = "WARN".toList then some warning
  else if name = "ERROR".toList then some error
  else if name = "CRITICAL".toList || name = "FATAL".toList then some critical
  else if name = "NOTSET".toList then some 0
  else none

/-- A setting made of digits of which no number can be read. -/
inductive LevelError where
  | notANumeral (setting : Text)
  | tooManyDigits (count : Nat)
  deriving DecidableEq, Repr

/-- The error in words. Of a setting two hundred characters are shown. -/
def LevelError.message : LevelError → Text
  | .notANumeral setting =>
    "invalid literal for int() with base 10: ".toList ++ (Text.quoted setting).take 200
  | .tooManyDigits count =>
    "Exceeds the limit (4300 digits) for integer string conversion: value has ".toList ++
      Text.ofNat count ++ " digits; use sys.set_int_max_str_digits() to increase the limit".toList

/-- Reads the setting of the threshold. An unset or empty setting asks for nothing; digits are
read as a number, where too many at the front are refused before the others are looked at; a name
stands for its level; anything else asks for nothing. -/
def readThreshold (setting : Option Text) : Except LevelError (Option Level) :=
  match setting with
  | none => .ok none
  | some [] => .ok none
  | some setting =>
    let word := Text.upper (Text.strip setting)
    if !word.isEmpty && word.all Text.isDigit then
      let digits := word.takeWhile fun c => (Text.decimalValue? c).isSome
      if Text.maxNumeralDigits < digits.length then .error (.tooManyDigits digits.length)
      else match Text.readNatural? word with
        | some number => .ok (some (number : Int))
        | none => .error (.notANumeral word)
    else .ok (namedLevel? word)

/-- The threshold in force when none is asked for. -/
def defaultThreshold : Level := critical

end Log

end TagExpansion
