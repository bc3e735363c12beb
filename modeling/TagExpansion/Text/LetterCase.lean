import TagExpansion.Text.Basic

/-
This file compares texts without regard to letter case, as far as an ASCII text
is on one side of the comparison.

Tag names, format names and level names are ASCII, so of the case mappings of
Unicode only those matter whose result lies in ASCII. Going down there is one
beside the letters A to Z: the Kelvin sign, whose lowercase form is `k`. Going
up there are ten, among them the dotless i and the ligatures. Every other
character outside ASCII keeps at least one character outside ASCII when its case
changes, hence never takes part in a match, and is left alone here.
-/

namespace TagExpansion.Text

/-- The lowercase form of a character, where that form is one ASCII character. -/
def lowerChar (c : Char) : Char := if c.toNat = 0x212a then 'k' else c.toLower

/-- The lowercase form of a text, for comparison with an ASCII text. -/
def lower (text : Text) : Text := text.map lowerChar

/-- The uppercase form of a character, where that form is made of ASCII characters. -/
def upperChar (c : Char) : Text :=
  match c.toNat with
  | 0x00df => ['S', 'S']
  | 0x0131 => ['I']
  | 0x017f => ['S']
  | 0xfb00 => ['F', 'F']
  | 0xfb01 => ['F', 'I']
  | 0xfb02 => ['F', 'L']
  | 0xfb03 => ['F', 'F', 'I']
  | 0xfb04 => ['F', 'F', 'L']
  | 0xfb05 => ['S', 'T']
  | 0xfb06 => ['S', 'T']
  | _ => [c.toUpper]

/-- The uppercase form of a text, for comparison with an ASCII text. -/
def upper (text : Text) : Text := text.flatMap upperChar

end TagExpansion.Text
