import TagExpansion.Value

/-
This file fills message templates.

A template is a text with directives that start at a percent sign; a percent sign
written twice stands for itself. A directive takes an argument and says how it is
shown: flags, a least width, a precision, and a letter for the form. Filling walks
through template and arguments together. It has three ends: the text; a mismatch, when
a directive is malformed, an argument is missing, left over, of the wrong kind or without
a written form; and an overflow, when a number is too large for its purpose. What happens
first on the walk decides, so the parts of a template are kept in their order and judged
one at a time.
-/

namespace TagExpansion

namespace Template

/-- The flags of a directive. -/
structure Flags where
  leftAligned : Bool := false
  plusSign : Bool := false
  blankSign : Bool := false
  alternate : Bool := false
  zeroFilled : Bool := false
  deriving DecidableEq, Repr

/-- A width or a precision: written in the directive, or taken from the arguments. -/
inductive Extent where
  | fixed (size : Nat)
  | argument
  deriving DecidableEq, Repr

/-- A directive as it is written. -/
structure Directive where
  /-- Whether the directive names its argument, which a sequence of arguments cannot serve. -/
  named : Bool := false
  flags : Flags := {}
  width : Option Extent := none
  precision : Option Extent := none
  /-- The letter for the form; a template that ends too early has none. -/
  form : Option Char := none
  deriving DecidableEq, Repr

/-- A part of a template. -/
inductive Part where
  | literal (c : Char)
  | directive (directive : Directive)
  deriving DecidableEq, Repr

/-! ### Reading a template -/

/-- How far the reading of a directive has come. -/
inductive Stage where
  | start
  | flags
  | width
  | afterWidth
  | precisionStart
  | precision
  | afterPrecision
  | afterLength
  deriving DecidableEq, Repr

/-- Sets the flag that a character stands for. -/
def Flags.set? (flags : Flags) : Char → Option Flags
  | '-' => some { flags with leftAligned := true }
  | '+' => some { flags with plusSign := true }
  | ' ' => some { flags with blankSign := true }
  | '#' => some { flags with alternate := true }
  | '0' => some { flags with zeroFilled := true }
  | _ => none

/-- One more digit of a width or a precision. -/
def Extent.extend (extent : Option Extent) (c : Char) : Option Extent :=
  let digit := c.toNat - '0'.toNat
  match extent with
  | some (.fixed size) => some (.fixed (size * 10 + digit))
  | _ => some (.fixed digit)

/-- The end of a directive: a letter for the size of the argument is passed over, any other
character is the form. -/
def finish (stage : Stage) (draft : Directive) (c : Char) : (Stage × Directive) ⊕ Directive :=
  if (c == 'h' || c == 'l' || c == 'L') && stage ≠ .afterLength then .inl (.afterLength, draft)
  else .inr { draft with form := some c }

/-- What a character does from the width on. -/
def advanceWidth (stage : Stage) (draft : Directive) (c : Char) :
    (Stage × Directive) ⊕ Directive :=
  if c == '*' && stage == .flags then .inl (.afterWidth, { draft with width := some .argument })
  else if c.isDigit && (stage == .flags || stage == .width) then
    .inl (.width, { draft with width := Extent.extend draft.width c })
  else if c == '.' && (stage == .flags || stage == .width || stage == .afterWidth) then
    .inl (.precisionStart, { draft with precision := some (.fixed 0) })
  else if c == '*' && stage == .precisionStart then
    .inl (.afterPrecision, { draft with precision := some .argument })
  else if c.isDigit && (stage == .precisionStart || stage == .precision) then
    .inl (.precision, { draft with precision := Extent.extend draft.precision c })
  else finish stage draft c

/-- What a character does inside a directive: the reading goes on, or the directive is
complete. -/
def advance (stage : Stage) (draft : Directive) (c : Char) : (Stage × Directive) ⊕ Directive :=
  match stage with
  | .start =>
    if c == '(' then .inr { draft with named := true }
    else match draft.flags.set? c with
      | some flags => .inl (.flags, { draft with flags })
      | none => advanceWidth .flags draft c
  | .flags =>
    match draft.flags.set? c with
    | some flags => .inl (.flags, { draft with flags })
    | none => advanceWidth .flags draft c
  | stage => advanceWidth stage draft c

/-- The parts of a template; `pending` is the directive that is being read. -/
def partsFrom (pending : Option (Stage × Directive)) : Text → List Part
  | [] => match pending with
    | none => []
    | some (_, draft) => [.directive draft]
  | c :: rest => match pending with
    | none => if c == '%' then partsFrom (some (.start, {})) rest else .literal c :: partsFrom none rest
    | some (stage, draft) =>
      if c == '%' && stage == .start then .literal c :: partsFrom none rest
      else match advance stage draft c with
        | .inl next => partsFrom (some next) rest
        | .inr complete => .directive complete :: partsFrom none rest

/-- The parts of a template. -/
def parts (template : Text) : List Part := partsFrom none template

/-! ### Filling a directive -/

/-- What a number is too large for. -/
inductive Overflow where
  | character
  | width
  | precision
  | digits
  | infinite
  | fraction
  | numeral
  deriving DecidableEq, Repr

/-- The overflow in words. -/
def Overflow.message : Overflow → Text
  | .character => "%c arg not in range(0x110000)".toList
  | .width => "Python int too large to convert to C ssize_t".toList
  | .precision => "Python int too large to convert to C int".toList
  | .digits => "precision too large".toList
  | .infinite => "cannot convert float infinity to integer".toList
  | .fraction => "int too large to convert to float".toList
  | .numeral => Text.numeralTooLong

/-- Why a template cannot be filled. -/
inductive Failure where
  | mismatch
  | overflow (cause : Overflow)
  deriving DecidableEq, Repr

/-- The greatest width. -/
def maxWidth : Int := 0x7fffffffffffffff

/-- The greatest precision. -/
def maxPrecision : Int := 0x7fffffff

/-- The greatest precision of an integer: a sign and a base mark must have room besides. -/
def maxDigits : Nat := 0x7ffffffc

/-- The next argument. -/
def next : List Value → Except Failure (Value × List Value)
  | [] => .error .mismatch
  | argument :: others => .ok (argument, others)

/-- An integer argument; a truth value counts as one or zero. -/
def integer? : Value → Option Int
  | .number value => some value
  | .flag value => some (if value then 1 else 0)
  | _ => none

/-- Takes an extent from the arguments; `cause` is the overflow of one that is too large for
the bound. -/
def takeExtent (bound : Int) (cause : Overflow) (arguments : List Value) :
    Except Failure (Int × List Value) := do
  let (argument, others) ← next arguments
  match integer? argument with
  | none => .error .mismatch
  | some size =>
    if size < -bound - 1 || bound < size then .error (.overflow cause) else .ok (size, others)

/-- The extent of a directive, if it has one. -/
def resolveExtent (bound : Int) (cause : Overflow) (extent : Option Extent)
    (arguments : List Value) : Except Failure (Option Int × List Value) :=
  match extent with
  | none => .ok (none, arguments)
  | some (.fixed size) => if bound < size then .error .mismatch else .ok (some size, arguments)
  | some .argument => do
    let (size, others) ← takeExtent bound cause arguments
    return (some size, others)

/-- A directive whose width and precision are known. -/
structure Layout where
  flags : Flags
  width : Nat
  precision : Option Nat
  deriving DecidableEq, Repr

/-- Sets a text between blanks up to the width. -/
def Layout.pad (layout : Layout) (text : Text) : Text :=
  if layout.flags.leftAligned then Text.padRight layout.width text
  else Text.padLeft ' ' layout.width text

/-- Lays out a text: the precision cuts it. -/
def Layout.text (layout : Layout) (text : Text) : Text :=
  layout.pad (match layout.precision with | none => text | some size => text.take size)

/-- The sign in front of a number. -/
def Layout.sign (layout : Layout) (negative : Bool) : Text :=
  if negative then ['-'] else if layout.flags.plusSign then ['+']
  else if layout.flags.blankSign then [' '] else []

/-- Lays out a number from its sign, its base mark and its digits. Zeros that fill the width
stand between the mark and the digits. -/
def Layout.number (layout : Layout) (sign mark digits : Text) : Text :=
  if layout.flags.leftAligned then Text.padRight layout.width (sign ++ mark ++ digits)
  else if layout.flags.zeroFilled then
    sign ++ mark ++ Text.padLeft '0' (layout.width - sign.length - mark.length) digits
  else Text.padLeft ' ' layout.width (sign ++ mark ++ digits)

/-- An integer in a base. -/
def Layout.integer (layout : Layout) (form : Char) (value : Int) : Text :=
  let base := if form == 'o' then 8 else if form == 'x' || form == 'X' then 16 else 10
  let digits := Nat.toDigits base value.natAbs
  let digits := if form == 'X' then digits.map Char.toUpper else digits
  let digits := match layout.precision with
    | none => digits
    | some size => Text.padLeft '0' size digits
  let mark := if layout.flags.alternate && base ≠ 10 then ['0', form] else []
  layout.number (layout.sign (value < 0)) mark digits

/-- A number with a fraction in one of the fixed, scientific and significant notations. -/
def Layout.real (layout : Layout) (form : Char) (value : Double) : Text :=
  let shown := match value.reading with
    | .finite negative mantissa exponent =>
      let (num, den) := Double.quotient mantissa exponent
      let places := layout.precision.getD 6
      let keep := layout.flags.alternate
      let text := match form.toLower with
        | 'f' => Double.fixedText num den places keep
        | 'e' => Double.scientificText num den places keep
        | _ => Double.significantText num den places keep
      (negative, text)
    | .infinite negative => (negative, "inf".toList)
    | .notANumber => (false, "nan".toList)
  let text := if form.isUpper then shown.2.map Char.toUpper else shown.2
  layout.number (layout.sign shown.1) [] text

/-- The integer that an argument stands for in a decimal form: a fraction is dropped. -/
def wholeNumber : Value → Except Failure Int
  | .real value => match value.reading with
    | .infinite _ => .error (.overflow .infinite)
    | _ => match value.truncate? with
      | some whole => .ok whole
      | none => .error .mismatch
  | value => match integer? value with
    | some whole => .ok whole
    | none => .error .mismatch

/-- The integer that an argument stands for where no fraction is allowed. -/
def exactInteger (value : Value) : Except Failure Int :=
  match integer? value with
  | some whole => .ok whole
  | none => .error .mismatch

/-- The character that an argument stands for: a text of one character, or a code point. -/
def character : Value → Except Failure Text
  | .text [c] => .ok [c]
  | value => do
    let code ← exactInteger value
    if code < 0 || 0x110000 ≤ code then .error (.overflow .character)
    else .ok [Char.ofNat code.toNat]

/-- The finite number with a fraction that is nearest to an integer. -/
def nearest (whole : Int) : Except Failure Double :=
  let number := Double.ofDecimal (whole < 0) whole.natAbs 0
  match number.reading with
  | .infinite _ => .error (.overflow .fraction)
  | _ => .ok number

/-- The number that an argument stands for in a form with a fraction. -/
def realNumber : Value → Except Failure Double
  | .real value => .ok value
  | value => exactInteger value >>= nearest

/-- Shows an argument as a text, which it must have. -/
def showText (layout : Layout) (text : Value → Text) (argument : Value) : Except Failure Text :=
  if argument.isWritable then .ok (layout.text (text argument)) else .error .mismatch

/-- Shows an integer in a form. In a decimal form it must have a numeral. -/
def showInteger (layout : Layout) (form : Char) (decimal : Bool) (value : Int) :
    Except Failure Text :=
  if maxDigits < layout.precision.getD 0 then .error (.overflow .digits)
  else if decimal && !Text.hasNumeral value then .error .mismatch
  else .ok (layout.integer form value)

/-- Shows an argument in a form. -/
def showArgument (layout : Layout) (form : Char) (argument : Value) : Except Failure Text :=
  if form == 's' then showText layout Value.shown argument
  else if form == 'r' then showText layout Value.written argument
  else if form == 'a' then showText layout Value.writtenAscii argument
  else if form == 'c' then layout.pad <$> character argument
  else if form == 'd' || form == 'i' || form == 'u' then
    wholeNumber argument >>= showInteger layout form true
  else if form == 'o' || form == 'x' || form == 'X' then
    exactInteger argument >>= showInteger layout form false
  else if ['e', 'E', 'f', 'F', 'g', 'G'].contains form then
    layout.real form <$> realNumber argument
  else .error .mismatch

/-- The layout of a directive whose width and precision are given. A negative width sets the text to
the left; the least of all has no opposite and counts as none. -/
def Flags.layout (flags : Flags) (width precision : Option Int) : Layout :=
  let size := width.getD 0
  { flags := { flags with leftAligned := flags.leftAligned || size < 0 }
    width := if size < -maxWidth then 0 else size.natAbs
    precision := precision.map Int.toNat }

/-- Shows the next argument in the form of a directive whose width and precision are given. -/
def Directive.showNext (directive : Directive) (width precision : Option Int)
    (arguments : List Value) : Except Failure (Text × List Value) :=
  match directive.form with
  | none => .error .mismatch
  | some form => do
    let (argument, others) ← next arguments
    let text ← showArgument (directive.flags.layout width precision) form argument
    return (text, others)

/-- Fills one directive and gives the arguments that are left. -/
def Directive.fill (directive : Directive) (arguments : List Value) :
    Except Failure (Text × List Value) := do
  if directive.named then throw .mismatch
  let (width, arguments) ← resolveExtent maxWidth .width directive.width arguments
  let (precision, arguments) ←
    resolveExtent maxPrecision .precision directive.precision arguments
  directive.showNext width precision arguments

/-! ### Filling a template -/

/-- Fills the parts of a template one after the other; in the end no argument may be left. -/
def fillParts : List Part → List Value → Except Failure Text
  | [], [] => .ok []
  | [], _ :: _ => .error .mismatch
  | .literal c :: rest, arguments => (c :: ·) <$> fillParts rest arguments
  | .directive directive :: rest, arguments => do
    let (text, others) ← directive.fill arguments
    let filled ← fillParts rest others
    return text ++ filled

/-- Fills a template with arguments. -/
def fill (template : Text) (arguments : List Value) : Except Failure Text :=
  fillParts (parts template) arguments

end Template

end TagExpansion
