import TagExpansion.Text.Basic

/-
This file says which characters are blank and which end a line.

Both classes are wider than their ASCII part. A parameter that is read from the
rest of a line loses every blank at its ends, the no-break space and the
ideographic space included, while the lines of an abbreviation file end at
every line boundary of Unicode, also at a form feed or at a group separator.
-/

namespace TagExpansion.Text

/-- The characters that count as white space: the ASCII controls from tab to carriage return,
the four separators from `U+001C` on, and the space characters of Unicode. -/
def isBlank (c : Char) : Bool :=
  let code := c.toNat
  (9 ≤ code && code ≤ 13) || (28 ≤ code && code ≤ 32) || code == 0x85 || code == 0xa0 ||
    code == 0x1680 || (0x2000 ≤ code && code ≤ 0x200a) || code == 0x2028 || code == 0x2029 ||
    code == 0x202f || code == 0x205f || code == 0x3000

/-- Takes the blanks off both ends of a text. -/
def strip (text : Text) : Text := stripWith isBlank text

/-- The characters that end a line of an abbreviation file. -/
def isLineBoundary (c : Char) : Bool :=
  let code := c.toNat
  (10 ≤ code && code ≤ 13) || (28 ≤ code && code ≤ 30) || code == 0x85 || code == 0x2028 ||
    code == 0x2029

/-- The two characters that end a parameter read from the rest of a line. -/
def isLineBreak (c : Char) : Bool := c == '\r' || c == '\n'

/-- Splits a text at its line boundaries. A carriage return with a line feed behind it is one
boundary, and a boundary at the very end opens no further line. -/
def lines : Text → List Text
  | [] => []
  | '\r' :: '\n' :: rest => [] :: lines rest
  | c :: rest => if isLineBoundary c then [] :: lines rest else pushFirst c (lines rest)

/-- Writes every line break as a single line feed, as reading a file in text mode does. -/
def unifyLineBreaks : Text → Text
  | [] => []
  | '\r' :: '\n' :: rest => '\n' :: unifyLineBreaks rest
  | '\r' :: rest => '\n' :: unifyLineBreaks rest
  | c :: rest => c :: unifyLineBreaks rest

end TagExpansion.Text
