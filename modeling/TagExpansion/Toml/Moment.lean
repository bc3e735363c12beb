import TagExpansion.Toml.Number

/-
This file reads the days and times of a TOML document.

A day is written with four digits for the year, and a time with hours and minutes;
seconds and their fraction may follow. A day and a time make a moment, with a `T` or a
blank between them, and an offset may stand behind it.
-/

namespace TagExpansion.Toml

/-- Exactly so many decimal digits at the front. -/
def fixedDigits? (count : Nat) (text : Text) : Option (Nat × Text) := do
  let digits := text.take count
  if digits.length = count && digits.all Char.isDigit then
    return (← digits? 10 digits, text.drop count)
  else none

/-- A year at the front: four digits of any script. -/
def year? (text : Text) : Option (Nat × Text) := do
  let digits := text.take 4
  if digits.length = 4 then return (← digits? 10 digits, text.drop 4) else none

/-- A character at the front. -/
def expect? (c : Char) (text : Text) : Option Text :=
  match text with
  | d :: rest => if c = d then some rest else none
  | [] => none

/-- The number of days of a month. -/
def daysOf (year month : Nat) : Nat :=
  if month = 2 then (if year % 4 = 0 && (year % 100 ≠ 0 || year % 400 = 0) then 29 else 28)
  else if [4, 6, 9, 11].contains month then 30
  else 31

/-- A day of the calendar at the front of a text. -/
def day? (text : Text) : Option (Day × Text) := do
  let (year, rest) ← year? text
  let rest ← expect? '-' rest
  let (month, rest) ← fixedDigits? 2 rest
  let rest ← expect? '-' rest
  let (day, rest) ← fixedDigits? 2 rest
  if 1 ≤ year && 1 ≤ month && month ≤ 12 && 1 ≤ day && day ≤ daysOf year month then
    return (⟨year, month, day⟩, rest)
  else none

/-- The fraction of a second at the front, in millionths; further digits do not count. -/
def fractionOfSecond? (text : Text) : Option (Nat × Text) :=
  match text with
  | '.' :: more => do
    let digits := more.takeWhile Char.isDigit
    if digits.isEmpty then none
    let microsecond ← digits? 10 ((digits ++ List.replicate 6 '0').take 6)
    return (microsecond, more.drop digits.length)
  | rest => some (0, rest)

/-- The seconds at the front, with their fraction. -/
def seconds? (text : Text) : Option ((Nat × Nat) × Text) :=
  match text with
  | ':' :: rest => do
    let (second, rest) ← fixedDigits? 2 rest
    let (microsecond, rest) ← fractionOfSecond? rest
    return ((second, microsecond), rest)
  | rest => some ((0, 0), rest)

/-- A time of day at the front of a text. -/
def time? (text : Text) : Option (TimeOfDay × Text) := do
  let (hour, rest) ← fixedDigits? 2 text
  let rest ← expect? ':' rest
  let (minute, rest) ← fixedDigits? 2 rest
  let ((second, microsecond), rest) ← seconds? rest
  if 24 ≤ hour || 60 ≤ minute || 60 ≤ second then none
  return (⟨hour, minute, second, microsecond⟩, rest)

/-- The offset of a local time: none, that of universal time, or hours and minutes. -/
def offset? (text : Text) : Option (Option Offset) :=
  match text with
  | [] => some none
  | ['Z'] | ['z'] => some (some ⟨0, "UTC".toList⟩)
  | sign :: rest => do
    if sign ≠ '+' && sign ≠ '-' then none
    let (hours, after) ← fixedDigits? 2 rest
    let after ← expect? ':' after
    let (minutes, after) ← fixedDigits? 2 after
    if !after.isEmpty || 24 ≤ hours || 60 ≤ minutes then none
    let size : Int := hours * 60 + minutes
    return some ⟨if sign = '-' then -size else size, text⟩

/-- A day with a time, or a time alone. -/
def dayTime? (text : Text) : Option Moment :=
  match day? text with
  | some (day, separator :: rest) => do
    if separator ≠ 'T' && separator ≠ 't' && separator ≠ ' ' then none
    let (time, rest) ← time? rest
    let offset ← offset? rest
    return .dayTime day time offset
  | some (_, []) => none
  | none => do
    let (time, rest) ← time? text
    if rest.isEmpty then return .time time else none

/-- The characters that end a number or a moment. -/
def endsToken (c : Char) : Bool := " \t\n\r#,]\x7d".toList.contains c

/-- A number or a moment. A day may be followed by a blank and a time on the same line; only where
the time follows directly the digits of the year may be those of any script. -/
def token (text : Text) : Except Error (Value × Text) :=
  let written := text.takeWhile fun c => !endsToken c
  let rest := text.drop written.length
  match day? written with
  | some (day, []) => do
    if !(written.take 4).all Char.isDigit then throw .malformed
    let behind := rest.takeWhile fun c => !("\t\n\r#,]\x7d".toList.contains c)
    let more := Text.stripRight Text.isBlank behind
    if more.isEmpty then .ok (.moment (.day day), rest.drop behind.length)
    else match dayTime? (written ++ more) with
      | some moment => .ok (.moment moment, rest.drop behind.length)
      | none => .error .malformed
  | _ => match dayTime? written with
    | some moment => .ok (.moment moment, rest)
    | none => match number? written with
      | some value => .ok (value, rest)
      | none => .error .malformed

end TagExpansion.Toml
