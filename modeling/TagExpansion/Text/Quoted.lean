import TagExpansion.Text.Printable

/-
This file writes a text between quotes, the way messages show a value.

The quotes are single ones, unless the text has a single quote and no double
one. Inside, the backslash and the quote itself are escaped, tab, line feed and
carriage return have escapes of their own, and a character that would not be
visible is written by its code point in two, four or eight hexadecimal digits.
-/

namespace TagExpansion.Text

/-- A number in lowercase hexadecimal, filled with zeros up to `width` digits. -/
def hexadecimal (width n : Nat) : Text := padLeft '0' width (Nat.toDigits 16 n)

/-- A character written by its code point. -/
def escapeCode (c : Char) : Text :=
  let code := c.toNat
  if code ≤ 0xff then '\\' :: 'x' :: hexadecimal 2 code
  else if code ≤ 0xffff then '\\' :: 'u' :: hexadecimal 4 code
  else '\\' :: 'U' :: hexadecimal 8 code

/-- One character of a quoted text; `shown` tells which characters stand for themselves. -/
def quoteChar (shown : Char → Bool) (quote c : Char) : Text :=
  if c == quote || c == '\\' then ['\\', c]
  else if c == '\t' then ['\\', 't']
  else if c == '\n' then ['\\', 'n']
  else if c == '\r' then ['\\', 'r']
  else if shown c then [c]
  else escapeCode c

/-- The quote that encloses a text. -/
def quoteMark (text : Text) : Char := if text.contains '\'' && !text.contains '"' then '"' else '\''

/-- A text between quotes, with the characters that are not `shown` written by code point. -/
def quotedWith (shown : Char → Bool) (text : Text) : Text :=
  let quote := quoteMark text
  quote :: text.flatMap (quoteChar shown quote) ++ [quote]

/-- A text between quotes. -/
def quoted (text : Text) : Text := quotedWith isPrintable text

/-- Whether a character is a visible ASCII character or the space. -/
def isPlainAscii (c : Char) : Bool := 32 ≤ c.toNat && c.toNat < 0x7f

/-- A text between quotes, with every character outside ASCII written by code point. -/
def quotedAscii (text : Text) : Text := quotedWith isPlainAscii text

end TagExpansion.Text
