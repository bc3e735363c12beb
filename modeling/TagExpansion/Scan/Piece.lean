import TagExpansion.Scan.Parenthesis
import TagExpansion.Tag.Registry
import TagExpansion.Text.Blank

/-
This file splits a text into pieces.

A piece is a tag with its argument, a doubled tag character, which stands for a
single one, or a segment of ordinary text. The pieces of a text, written one after
the other, are the text; a segment reaches up to the next tag character, so it has
one at most at its front.

Nothing is expanded here. How a text falls into pieces depends on which names are
registered and on which of them take a parameter, and on nothing else.
-/

namespace TagExpansion.Scan

open Tag (Definition Registry)

/-- The character that starts a tag. -/
def tagChar : Char := '@'

/-- How the argument of a tag is written. -/
inductive Argument where
  /-- Nothing belongs to the tag but its name. -/
  | absent
  /-- The text between a pair of parentheses. -/
  | enclosed (inside : Text)
  /-- An opening parenthesis that is never closed, and all that follows it. -/
  | unclosed (rest : Text)
  /-- The rest of the line. -/
  | line (rest : Text)
  deriving DecidableEq, Repr

namespace Argument

/-- The text that an argument was read from. -/
def source : Argument → Text
  | .absent => []
  | .enclosed inside => '(' :: inside ++ [')']
  | .unclosed rest => '(' :: rest
  | .line rest => rest

/-- The parameter that an argument gives. What follows an unclosed parenthesis is lost, and
the rest of a line loses the blanks at its ends. -/
def parameter : Argument → Text
  | .absent => []
  | .enclosed inside => inside
  | .unclosed _ => []
  | .line rest => Text.strip rest

end Argument

/-- A piece of a text. -/
inductive Piece where
  /-- A tag, with its name as it is written. -/
  | tag (definition : Definition) (letters : Text) (argument : Argument)
  /-- The tag character written twice. -/
  | escape
  /-- Ordinary text. -/
  | segment (text : Text)

namespace Piece

/-- The text that a piece was read from. -/
def source : Piece → Text
  | .tag _ letters argument => tagChar :: letters ++ argument.source
  | .escape => [tagChar, tagChar]
  | .segment text => text

end Piece

/-- The name in a segment that looks like a tag: the letters behind a tag character at its
front. -/
def unknownName? : Text → Option Text
  | [] => none
  | c :: rest =>
    let letters := rest.takeWhile Char.isAlpha
    if c = tagChar && !letters.isEmpty then some (Text.lower letters) else none

/-! ### Reading one piece -/

/-- Reads the argument of a tag from what follows its name. -/
def readArgument (definition : Definition) (rest : Text) : Argument × Text :=
  match rest with
  | '(' :: after =>
    match splitClosing 0 after with
    | some (inside, behind) => (.enclosed inside, behind)
    | none => (.unclosed after, [])
  | rest =>
    if definition.requiresParameter then
      (.line (rest.takeWhile fun c => !Text.isLineBreak c),
        rest.dropWhile fun c => !Text.isLineBreak c)
    else (.absent, rest)

/-- Reads a segment that starts with the given character. -/
def readSegment (c : Char) (rest : Text) : Piece × Text :=
  (.segment (c :: rest.takeWhile (· != tagChar)), rest.dropWhile (· != tagChar))

/-- The definition that a text refers to behind a tag character. -/
def namedTag? (tags : Registry) (rest : Text) : Option Definition :=
  let letters := rest.takeWhile Char.isAlpha
  if letters.isEmpty then none else tags.lookup letters

/-- Reads the first piece of a text that starts with the given character. -/
def readPiece (tags : Registry) (c : Char) (rest : Text) : Piece × Text :=
  if c = tagChar then
    match namedTag? tags rest with
    | some definition =>
      let (argument, after) := readArgument definition (rest.dropWhile Char.isAlpha)
      (.tag definition (rest.takeWhile Char.isAlpha) argument, after)
    | none =>
      match rest with
      | [] => readSegment c rest
      | d :: after => if d = tagChar then (.escape, after) else readSegment c rest
  else readSegment c rest

/-- The source of an argument and what follows it are what it was read from. -/
theorem source_readArgument (definition : Definition) (rest : Text) :
    (readArgument definition rest).1.source ++ (readArgument definition rest).2 = rest := by
  unfold readArgument
  split
  · split
    · rename_i found
      simp [Argument.source, eq_of_splitClosing found]
    · simp [Argument.source]
  · split
    · simp [Argument.source, List.takeWhile_append_dropWhile]
    · simp [Argument.source]

/-- The source of a piece and what follows it are what it was read from. -/
theorem source_readPiece (tags : Registry) (c : Char) (rest : Text) :
    (readPiece tags c rest).1.source ++ (readPiece tags c rest).2 = c :: rest := by
  unfold readPiece
  split
  · rename_i isTag
    split
    · simp [Piece.source, isTag, source_readArgument, List.takeWhile_append_dropWhile]
    · split
      · simp [readSegment, Piece.source]
      · split <;> simp_all [readSegment, Piece.source, List.takeWhile_append_dropWhile]
  · simp [readSegment, Piece.source, List.takeWhile_append_dropWhile]

/-- No piece is empty. -/
theorem source_readPiece_ne_nil (tags : Registry) (c : Char) (rest : Text) :
    (readPiece tags c rest).1.source ≠ [] := by
  unfold readPiece readSegment
  split
  · split
    · simp [Piece.source]
    · split
      · simp [Piece.source]
      · split <;> simp [Piece.source]
  · simp [Piece.source]

/-- What follows a piece is shorter than the text. -/
theorem length_readPiece_lt (tags : Registry) (c : Char) (rest : Text) :
    (readPiece tags c rest).2.length < (c :: rest).length := by
  have whole := congrArg List.length (source_readPiece tags c rest)
  have positive := List.length_pos_iff.2 (source_readPiece_ne_nil tags c rest)
  simp only [List.length_append] at whole
  omega

/-! ### Reading all pieces -/

/-- The pieces of a text. -/
def pieces (tags : Registry) : Text → List Piece
  | [] => []
  | c :: rest => (readPiece tags c rest).1 :: pieces tags (readPiece tags c rest).2
termination_by text => text.length
decreasing_by exact length_readPiece_lt tags c rest

/-- The pieces of a text, one after the other, are the text. -/
theorem flatMap_source_pieces (tags : Registry) (text : Text) :
    (pieces tags text).flatMap Piece.source = text := by
  fun_induction pieces tags text with
  | case1 => rfl
  | case2 c rest ih => rw [List.flatMap_cons, ih, source_readPiece]

/-! ### Positions -/

/-- The position behind the name of a tag whose tag character is at `start`. -/
def nameEnd (text : Text) (start : Nat) : Nat :=
  start + 1 + ((text.drop (start + 1)).takeWhile Char.isAlpha).length

/-- The position behind the parenthesis that closes the one at `start`. -/
def closingEnd? (text : Text) (start : Nat) : Option Nat :=
  (splitClosing 0 (text.drop (start + 1))).map fun (inside, _) => start + 1 + inside.length + 1

/-- The position of the first line break from `start` on, or of the end of the text. -/
def lineEnd (text : Text) (start : Nat) : Nat :=
  start + ((text.drop start).takeWhile fun c => !Text.isLineBreak c).length

/-- The position of the first tag character behind `start`, or of the end of the text. -/
def nextTagChar (text : Text) (start : Nat) : Nat :=
  let behind := text.drop (start + 1)
  if behind.contains tagChar then start + 1 + (behind.takeWhile (· != tagChar)).length
  else text.length

/-- Whether the tag character stands twice at a position. -/
def isEscapeAt (text : Text) (start : Nat) : Bool :=
  (text.drop start).take 2 == [tagChar, tagChar]

end TagExpansion.Scan
