import TagExpansion.Text.Basic

/-
This file shows binary floating-point numbers in decimal.

A finite number is m · 2^q for an integer m, so its decimal forms are questions
about integers. The general form has the fewest digits that read back as the
same number: for 1, 2, ... 17 digits the two neighbours of the number on that
decimal grid are tried, and the first grid with a neighbour inside the interval
of reals that round to the number wins. A form with a given count of digits
rounds to the nearest, and a tie goes to the even digit.
-/

namespace TagExpansion

/-- A binary floating-point number of 64 bits. -/
structure Double where
  bits : UInt64
  deriving DecidableEq, Repr

namespace Double

/-- What the bits of a number say. -/
inductive Reading where
  /-- The number `mantissa · 2 ^ exponent`, or its negative. -/
  | finite (negative : Bool) (mantissa : Nat) (exponent : Int)
  | infinite (negative : Bool)
  | notANumber
  deriving DecidableEq, Repr

/-- Reads the sign, the exponent and the fraction. -/
def reading (x : Double) : Reading :=
  let negative := x.bits >>> 63 = 1
  let exponent := ((x.bits >>> 52) &&& 0x7ff).toNat
  let fraction := (x.bits &&& 0xfffffffffffff).toNat
  if exponent = 0x7ff then
    if fraction = 0 then .infinite negative else .notANumber
  else if exponent = 0 then .finite negative fraction (-1074)
  else .finite negative (fraction + 0x10000000000000) ((exponent : Int) - 1075)

/-- The number nearest to `mantissa · 10 ^ (-places)`. -/
def ofDecimal (negative : Bool) (mantissa places : Nat) : Double :=
  let magnitude := Float.ofScientific mantissa true places
  ⟨(if negative then -magnitude else magnitude).toBits⟩

/-- The number nearest to `mantissa · 10 ^ exponent`. -/
def ofScientific (negative : Bool) (mantissa : Nat) (exponent : Int) : Double :=
  let magnitude := match exponent with
    | .ofNat n => Float.ofScientific mantissa false n
    | .negSucc n => Float.ofScientific mantissa true (n + 1)
  ⟨(if negative then -magnitude else magnitude).toBits⟩

/-- Infinity, with a sign. -/
def infinity (negative : Bool) : Double :=
  ⟨if negative then 0xfff0000000000000 else 0x7ff0000000000000⟩

/-- The number that is none. -/
def notANumber : Double := ⟨0x7ff8000000000000⟩

/-! ### Decimal digits -/

/-- The quotient of two numbers rounded to the nearest integer, a tie to the even one. -/
def roundDiv (num den : Nat) : Nat :=
  let quotient := num / den
  let twice := 2 * (num % den)
  if twice < den then quotient
  else if den < twice then quotient + 1
  else if quotient % 2 = 0 then quotient
  else quotient + 1

/-- `num / den · 10 ^ places` as a quotient. -/
def scaled (num den : Nat) : Int → Nat × Nat
  | .ofNat n => (num * Nat.pow 10 n, den)
  | .negSucc n => (num, den * Nat.pow 10 (n + 1))

/-- The least `n` from `start` on with `den ≤ num · 10 ^ n`, looked for in so many steps. -/
def leadingZeros (num den : Nat) : Nat → Nat → Nat
  | 0, start => start
  | steps + 1, start =>
    if den ≤ num * Nat.pow 10 start then start else leadingZeros num den steps (start + 1)

/-- The `k` with `10 ^ (k - 1) ≤ num / den < 10 ^ k`, for a positive quotient. -/
def magnitude (num den : Nat) : Int :=
  if den ≤ num then (Text.ofNat (num / den)).length
  else 1 - (leadingZeros num den 400 1 : Int)

/-- The digits of a positive number and the place of its point: the number is
`0.d₁d₂… · 10 ^ point`. -/
structure Digits where
  digits : Text
  point : Int
  deriving DecidableEq, Repr

/-- Takes the zeros off the end of a numeral. -/
def dropZeros (digits : Text) : Text := Text.stripRight (· == '0') digits

/-- Whether a decimal `candidate · 10 ^ (-places)` rounds to `mantissa · 2 ^ exponent`. Numbers
are compared in quarters of the last binary place, since below a power of two the next number
is only half as far away. -/
def roundsTo (mantissa : Nat) (exponent : Int) (candidate : Nat) (places : Int) : Bool :=
  let below := if mantissa = 0x10000000000000 && exponent > -1074 then 1 else 2
  let (num, den) := match exponent with
    | .ofNat n => (Nat.pow 2 n, 1)
    | .negSucc n => (1, Nat.pow 2 (n + 1))
  let (unitNum, unitDen) := scaled num den places
  let value := 4 * candidate * unitDen
  let low := (4 * mantissa - below) * unitNum
  let high := (4 * mantissa + 2) * unitNum
  if mantissa % 2 = 0 then low ≤ value && value ≤ high else low < value && value < high

/-- The fewest digits that read back, looked for from `count` digits on. -/
def shortestFrom (mantissa : Nat) (exponent : Int) (num den : Nat) (point : Int) :
    Nat → Nat → Nat × Int
  | 0, count =>
    let places := (count : Int) - point
    let (n, d) := scaled num den places
    (roundDiv n d, places)
  | steps + 1, count =>
    let places := (count : Int) - point
    let (n, d) := scaled num den places
    let near := roundDiv n d
    let far := if near = n / d then near + 1 else n / d
    if roundsTo mantissa exponent near places then (near, places)
    else if roundsTo mantissa exponent far places then (far, places)
    else shortestFrom mantissa exponent num den point steps (count + 1)

/-- A finite number as a quotient of natural numbers. -/
def quotient (mantissa : Nat) : Int → Nat × Nat
  | .ofNat n => (mantissa * Nat.pow 2 n, 1)
  | .negSucc n => (mantissa, Nat.pow 2 (n + 1))

/-- The shortest digits of `mantissa · 2 ^ exponent`. -/
def shortest (mantissa : Nat) (exponent : Int) : Digits :=
  if mantissa = 0 then ⟨['0'], 1⟩
  else
    let (num, den) := quotient mantissa exponent
    let (candidate, places) :=
      shortestFrom mantissa exponent num den (magnitude num den) 16 1
    let digits := Text.ofNat candidate
    ⟨dropZeros digits, (digits.length : Int) - places⟩

/-! ### Notations -/

/-- The exponent of a scientific notation: a sign and at least two digits. -/
def exponentText (exponent : Int) : Text :=
  (if exponent < 0 then '-' else '+') :: Text.padLeft '0' 2 (Text.ofNat exponent.natAbs)

/-- Digits with the point at its place, at least one digit on both sides of it. -/
def positional (number : Digits) : Text :=
  let count := number.digits.length
  match number.point with
  | .negSucc n => "0.".toList ++ List.replicate (n + 1) '0' ++ number.digits
  | .ofNat 0 => "0.".toList ++ number.digits
  | .ofNat point =>
    if count ≤ point then number.digits ++ List.replicate (point - count) '0' ++ ".0".toList
    else number.digits.take point ++ '.' :: number.digits.drop point

/-- Digits with the point behind the first one, and an exponent. -/
def scientific (number : Digits) : Text :=
  let mantissa := match number.digits with
    | first :: second :: others => first :: '.' :: second :: others
    | few => few
  mantissa ++ 'e' :: exponentText (number.point - 1)

/-- The general notation: positional from `0.0001` up to sixteen digits before the point,
scientific outside. -/
def general (number : Digits) : Text :=
  if -4 < number.point && number.point ≤ 16 then positional number else scientific number

/-- A sign in front of a text that is negative. -/
def signed (negative : Bool) (text : Text) : Text := if negative then '-' :: text else text

/-- The text of a number. -/
def toText (x : Double) : Text :=
  match x.reading with
  | .finite negative mantissa exponent => signed negative (general (shortest mantissa exponent))
  | .infinite negative => signed negative "inf".toList
  | .notANumber => "nan".toList

/-- The integer part of a finite number. -/
def truncate? (x : Double) : Option Int :=
  match x.reading with
  | .finite negative mantissa exponent =>
    let (num, den) := quotient mantissa exponent
    some (if negative then -((num / den : Nat) : Int) else (num / den : Nat))
  | _ => none

/-- A positive quotient with so many digits behind the point. -/
def fixedText (num den places : Nat) (pointAlways : Bool) : Text :=
  let digits := Text.padLeft '0' (places + 1) (Text.ofNat (roundDiv (num * Nat.pow 10 places) den))
  let whole := digits.take (digits.length - places)
  if places = 0 then whole ++ (if pointAlways then ['.'] else [])
  else whole ++ '.' :: digits.drop (digits.length - places)

/-- The digits of a positive quotient rounded to `count` digits, and its exponent. -/
def roundedDigits (num den count : Nat) : Text × Int :=
  if num = 0 then (List.replicate count '0', 0)
  else
    let point := magnitude num den
    let (n, d) := scaled num den ((count : Int) - point)
    let digits := Text.ofNat (roundDiv n d)
    if count < digits.length then (digits.take count, point) else (digits, point - 1)

/-- A positive quotient in scientific notation with so many digits behind the point. -/
def scientificText (num den places : Nat) (pointAlways : Bool) : Text :=
  let (digits, exponent) := roundedDigits num den (places + 1)
  let point := if places = 0 && !pointAlways then [] else ['.']
  digits.take 1 ++ point ++ digits.drop 1 ++ 'e' :: exponentText exponent

/-- A positive quotient with so many significant digits, in the shorter of the two notations;
zeros at the end go unless the point is to be kept. -/
def significantText (num den count : Nat) (pointAlways : Bool) : Text :=
  let count := if count = 0 then 1 else count
  let (digits, exponent) := roundedDigits num den count
  let point := if pointAlways then ['.'] else []
  if exponent < -4 || (count : Int) ≤ exponent then
    let shown := if pointAlways then digits else dropZeros digits
    let rest := shown.drop 1
    digits.take 1 ++ (if rest.isEmpty then point else '.' :: rest) ++ 'e' :: exponentText exponent
  else
    let text := fixedText num den ((count : Int) - 1 - exponent).toNat pointAlways
    if pointAlways || !text.contains '.' then text
    else Text.stripRight (· == '.') (dropZeros text)

end Double

end TagExpansion
