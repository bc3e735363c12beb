import TagExpansion.Toml.Item

/-
This file reads the strings of a TOML document, and passes over blanks and comments.

Every reader takes the text that is left and gives what it has read together with
what is left then.
-/

namespace TagExpansion.Toml

/-- Why a text is no TOML document. -/
inductive Error where
  /-- The text does not follow the grammar. -/
  | malformed
  /-- Two things cannot stand in one table. -/
  | clash (clash : Clash)
  deriving DecidableEq, Repr

/-- The blanks inside a line. -/
def isSpace (c : Char) : Bool := c == ' ' || c == '\t'

/-- Passes over the blanks inside a line. -/
def skipSpaces (text : Text) : Text := text.dropWhile isSpace

/-- The control characters that can stand neither in a comment nor in a string. -/
def isControl (c : Char) : Bool := (c.toNat ≤ 0x1f && c ≠ '\t') || c.toNat = 0x7f

/-- Passes over blanks and a comment up to the end of the line. -/
def skipTrail (text : Text) : Except Error Text :=
  match text.dropWhile fun c => isSpace c || c == '\r' with
  | [] => .ok []
  | '\n' :: rest => .ok rest
  | '#' :: rest =>
    if (rest.takeWhile (· != '\n')).any isControl then .error .malformed
    else .ok ((rest.dropWhile (· != '\n')).drop 1)
  | _ => .error .malformed

/-- Passes over blanks, line breaks and comments. -/
def skipBlanks : Nat → Text → Except Error Text
  | 0, _ => .error .malformed
  | fuel + 1, text =>
    match text.dropWhile fun c => isSpace c || c == '\n' || c == '\r' with
    | '#' :: rest =>
      if (rest.takeWhile (· != '\n')).any isControl then .error .malformed
      else skipBlanks fuel (rest.dropWhile (· != '\n'))
    | rest => .ok rest

/-- The value of a hexadecimal digit. -/
def hexValue? (c : Char) : Option Nat :=
  if c.isDigit then some (c.toNat - '0'.toNat)
  else if 'a' ≤ c && c ≤ 'f' then some (c.toNat - 'a'.toNat + 10)
  else if 'A' ≤ c && c ≤ 'F' then some (c.toNat - 'A'.toNat + 10)
  else none

/-- A character given by so many hexadecimal digits. -/
def codePoint (count : Nat) (text : Text) : Except Error (Char × Text) :=
  match (text.take count).mapM hexValue? with
  | none => .error .malformed
  | some digits =>
    let code := digits.foldl (fun sum digit => sum * 16 + digit) 0
    if digits.length = count && code.isValidChar then .ok (Char.ofNat code, text.drop count)
    else .error .malformed

/-- What follows a backslash in a basic string. -/
def escaped (text : Text) : Except Error (Char × Text) :=
  match text with
  | 'b' :: rest => .ok ('\x08', rest)
  | 't' :: rest => .ok ('\t', rest)
  | 'n' :: rest => .ok ('\n', rest)
  | 'f' :: rest => .ok ('\x0c', rest)
  | 'r' :: rest => .ok ('\r', rest)
  | 'e' :: rest => .ok ('\x1b', rest)
  | '"' :: rest => .ok ('"', rest)
  | '\\' :: rest => .ok ('\\', rest)
  | 'x' :: rest => codePoint 2 rest
  | 'u' :: rest => codePoint 4 rest
  | 'U' :: rest => codePoint 8 rest
  | _ => .error .malformed

/-- The rest of a string on one line. Escapes count in a string between double quotes. -/
def lineString (quote : Char) : Nat → Text → Except Error (Text × Text)
  | 0, _ => .error .malformed
  | _, [] => .error .malformed
  | fuel + 1, c :: rest =>
    if isControl c then .error .malformed
    else if c = quote then .ok ([], rest)
    else if c = '\\' && quote = '"' then do
      let (first, rest) ← escaped rest
      let (others, rest) ← lineString quote fuel rest
      return (first :: others, rest)
    else do
      let (others, rest) ← lineString quote fuel rest
      return (c :: others, rest)

/-- The rest of a string on several lines. Up to two quotes may stand before the closing three,
and a backslash at the end of a line takes away the blanks and line breaks that follow. -/
def blockString (quote : Char) : Nat → Text → Except Error (Text × Text)
  | 0, _ => .error .malformed
  | _, [] => .error .malformed
  | fuel + 1, c :: rest =>
    let quotes := (c :: rest).takeWhile (· == quote)
    if 3 ≤ quotes.length then
      let kept := min (quotes.length - 3) 2
      .ok (List.replicate kept quote, (c :: rest).drop (kept + 3))
    else if isControl c && c ≠ '\n' && c ≠ '\r' then .error .malformed
    else if c = '\\' && quote = '"' then
      let blanks := rest.takeWhile fun d => isSpace d || d == '\n' || d == '\r'
      if !blanks.isEmpty then
        if blanks.contains '\n' then blockString quote fuel (rest.drop blanks.length)
        else .error .malformed
      else do
        let (first, rest) ← escaped rest
        let (others, rest) ← blockString quote fuel rest
        return (first :: others, rest)
    else do
      let (others, rest) ← blockString quote fuel rest
      return (c :: others, rest)

/-- A string that starts with the given quote, which is already read. The flag tells whether it
may go over several lines. -/
def string (quote : Char) (severalLines : Bool) (text : Text) : Except Error (Text × Text) :=
  match text with
  | c :: d :: rest =>
    if c = quote && d = quote then
      if severalLines then
        blockString quote (rest.length + 1) (match rest with | '\n' :: after => after | _ => rest)
      else .error .malformed
    else lineString quote (text.length + 1) text
  | _ => lineString quote (text.length + 1) text

end TagExpansion.Toml
