import TagExpansion.Text.Numeral
import TagExpansion.Toml.Quoted

/-
This file reads the numbers of a TOML document.

A number with a point or an exponent is a fraction, and so are the words for the
infinite and for what is no number. All others are integers, written in base ten or
behind a mark for another base. The digits may be those of any script, and blanks that
do not end a number may follow it.
-/

namespace TagExpansion.Toml

/-- Takes underscores between digits away, and refuses any other. -/
def dropUnderscores (isDigit : Char → Bool) : Option Char → Text → Option Text
  | _, [] => some []
  | before, '_' :: rest =>
    match before, rest with
    | some b, a :: _ => if isDigit b && isDigit a then dropUnderscores isDigit (some '_') rest else none
    | _, _ => none
  | _, c :: rest => (dropUnderscores isDigit (some c) rest).map (c :: ·)

/-- Digits as a number, if there is at least one and all are smaller than the base. -/
def digits? (base : Nat) (text : Text) : Option Nat :=
  if text.isEmpty then none
  else (text.mapM (Text.digitValue? base)).map (Text.numberOfDigits base)

/-- An exponent. -/
def exponent? (text : Text) : Option Int :=
  match text with
  | '-' :: power => (digits? 10 power).map fun n => -(n : Int)
  | '+' :: power => (digits? 10 power).map Int.ofNat
  | power => (digits? 10 power).map Int.ofNat

/-- A decimal fraction with an optional exponent. -/
def fraction? (negative : Bool) (text : Text) : Option Double := do
  let mantissa := text.takeWhile (· != 'e')
  let whole := mantissa.takeWhile (· != '.')
  let part := (mantissa.drop whole.length).drop 1
  let digits ← digits? 10 (whole ++ part)
  let exponent ← match text.drop mantissa.length with
    | [] => some 0
    | _ :: power => exponent? power
  return Double.ofScientific negative digits (exponent - part.length)

/-- The base that a number is written in, by the mark at its front. -/
def baseOf : Text → Nat
  | '0' :: 'x' :: _ => 16
  | '0' :: 'o' :: _ => 8
  | '0' :: 'b' :: _ => 2
  | _ => 10

/-- Whether a number has a zero or a point at its front that may not stand there. -/
def startsBadly : Text → Bool
  | '0' :: next :: _ => next != '.' && next != 'e' && next != 'E'
  | '.' :: _ => true
  | _ => false

/-- A number in base ten behind its sign, whose underscores are taken away. -/
def decimal? (negative : Bool) (text : Text) : Option Value :=
  let body := Text.stripRight Text.isNumeralBlank text
  if text = "inf".toList then some (.real (.infinity negative))
  else if text = "nan".toList then some (.real .notANumber)
  else if text.contains '.' || text.contains 'e' then
    if text.getLast? = some '.' || (text.takeWhile (· != 'e')).getLast? = some '.' then none
    else (fraction? negative body).map .real
  else (Text.readNatural? body).map fun n => .number (if negative then -(n : Int) else n)

/-- A number. -/
def number? (token : Text) : Option Value := do
  let (sign, body) := match token with
    | '-' :: rest => (some true, rest)
    | '+' :: rest => (some false, rest)
    | rest => (none, rest)
  let base := baseOf body
  let isDigit (c : Char) : Bool := match hexValue? c with
    | some value => value < base
    | none => false
  let clean ← dropUnderscores isDigit none body
  if base ≠ 10 then
    if sign.isSome then none
    else (digits? base (Text.stripRight Text.isNumeralBlank (clean.drop 2))).map fun n => .number n
  else if startsBadly body then none
  else decimal? (sign.getD false) (clean.map fun c => if c = 'E' then 'e' else c)

end TagExpansion.Toml
