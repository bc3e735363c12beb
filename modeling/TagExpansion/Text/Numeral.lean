import TagExpansion.Text.Blank

/-
This file reads integers.

A numeral may be written with the decimal digits of any script, with blanks
around it, with a sign, and with single underscores between digits. Superscripts,
circled digits and the like are digits in a wider sense: they look like a number
but no numeral can be made of them. A setting that consists of digits in the
wider sense and is no numeral is therefore an error of its own kind.

A decimal numeral has a greatest length, and so has the decimal text of a number.
-/

namespace TagExpansion.Text

/-- The code points of the digit zero of every script; the other nine digits follow each. -/
def zeroDigits : Array Nat :=
  #[
    0x0030, 0x0660, 0x06f0, 0x07c0, 0x0966, 0x09e6, 0x0a66, 0x0ae6, 0x0b66, 0x0be6, 0x0c66,
    0x0ce6, 0x0d66, 0x0de6, 0x0e50, 0x0ed0, 0x0f20, 0x1040, 0x1090, 0x17e0, 0x1810, 0x1946,
    0x19d0, 0x1a80, 0x1a90, 0x1b50, 0x1bb0, 0x1c40, 0x1c50, 0xa620, 0xa8d0, 0xa900, 0xa9d0,
    0xa9f0, 0xaa50, 0xabf0, 0xff10, 0x104a0, 0x10d30, 0x11066, 0x110f0, 0x11136, 0x111d0,
    0x112f0, 0x11450, 0x114d0, 0x11650, 0x116c0, 0x11730, 0x118e0, 0x11950, 0x11c50, 0x11d50,
    0x11da0, 0x16a60, 0x16ac0, 0x16b50, 0x1d7ce, 0x1d7d8, 0x1d7e2, 0x1d7ec, 0x1d7f6, 0x1e140,
    0x1e2f0, 0x1e950, 0x1fbf0]

/-- The value of a decimal digit of any script. -/
def decimalValue? (c : Char) : Option Nat :=
  (zeroDigits.find? fun first => first ≤ c.toNat && c.toNat ≤ first + 9).map (c.toNat - ·)

/-- The characters that are digits only in the wider sense: superscripts, subscripts, circled
and bracketed digits, and the digits of scripts without a zero. -/
def looseDigits : Array (Nat × Nat) :=
  #[
    (0x00b2, 0x00b3), (0x00b9, 0x00b9), (0x1369, 0x1371), (0x19da, 0x19da), (0x2070, 0x2070),
    (0x2074, 0x2079), (0x2080, 0x2089), (0x2460, 0x2468), (0x2474, 0x247c), (0x2488, 0x2490),
    (0x24ea, 0x24ea), (0x24f5, 0x24fd), (0x24ff, 0x24ff), (0x2776, 0x277e), (0x2780, 0x2788),
    (0x278a, 0x2792), (0x10a40, 0x10a43), (0x10e60, 0x10e68), (0x11052, 0x1105a),
    (0x1f100, 0x1f10a)]

/-- The value of a digit in a base up to sixteen. -/
def digitValue? (base : Nat) (c : Char) : Option Nat := do
  let value ← (decimalValue? c).orElse fun _ =>
    if 'a' ≤ c && c ≤ 'f' then some (c.toNat - 'a'.toNat + 10)
    else if 'A' ≤ c && c ≤ 'F' then some (c.toNat - 'A'.toNat + 10)
    else none
  if value < base then return value else none

/-- Whether a character is a digit in the wider sense. -/
def isDigit (c : Char) : Bool := (decimalValue? c).isSome || inRanges looseDigits c.toNat

/-- The digits of a numeral, with single underscores between them. The flag tells whether an
underscore or the end of the numeral may stand next. -/
def digitsWithUnderscores : Bool → Text → Option (List Nat)
  | afterDigit, [] => if afterDigit then some [] else none
  | true, '_' :: rest => digitsWithUnderscores false rest
  | _, c :: rest => do
    let value ← decimalValue? c
    let others ← digitsWithUnderscores true rest
    return value :: others

/-- The number that a list of digits stands for in a base. -/
def numberOfDigits (base : Nat) (digits : List Nat) : Nat :=
  digits.foldl (fun sum digit => sum * base + digit) 0

/-- The greatest number of digits that a numeral may have. -/
def maxNumeralDigits : Nat := 4300

/-- Whether a number has a decimal text. -/
def hasNumeral (number : Int) : Bool := number.natAbs < Nat.pow 10 maxNumeralDigits

/-- The error about a number that has no decimal text, in words. -/
def numeralTooLong : Text :=
  "Exceeds the limit (".toList ++ ofNat maxNumeralDigits ++
    " digits) for integer string conversion; ".toList ++
    "use sys.set_int_max_str_digits() to increase the limit".toList

/-- Reads the digits of a numeral. -/
def readNatural? (text : Text) : Option Nat := do
  let digits ← digitsWithUnderscores false text
  if digits.length ≤ maxNumeralDigits then return numberOfDigits 10 digits else none

/-- The blanks that may stand around a numeral: all but the four separators of ASCII. -/
def isNumeralBlank (c : Char) : Bool := isBlank c && !(0x1c ≤ c.toNat && c.toNat ≤ 0x1f)

/-- Reads a numeral: blanks, an optional sign, digits, blanks. -/
def readInteger? (text : Text) : Option Int :=
  match stripWith isNumeralBlank text with
  | '-' :: rest => (readNatural? rest).map fun n => -(n : Int)
  | '+' :: rest => (readNatural? rest).map Int.ofNat
  | rest => (readNatural? rest).map Int.ofNat

end TagExpansion.Text
