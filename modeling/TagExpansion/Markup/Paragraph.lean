import TagExpansion.Text.Blank

/-
This file splits a text into paragraphs.

A blank line is any number of spaces and tabs, an optional carriage return, and
a line feed; the end of a line that holds text counts too, with the blanks in
front of it. Two or more of them in a row separate paragraphs, and a separator is
taken as long as it can be. The paragraphs are what remains, and an output format
differs from another only by what it writes between them.
-/

namespace TagExpansion.Markup

/-- The blanks that may stand in front of the end of a line. -/
def isIndent (c : Char) : Bool := c == ' ' || c == '\t'

/-- What follows a blank line at the front of a text, if there is one. -/
def afterBlankLine? (text : Text) : Option Text :=
  match text.dropWhile isIndent with
  | '\n' :: rest => some rest
  | '\r' :: '\n' :: rest => some rest
  | _ => none

/-- What follows a blank line is shorter than the text. -/
theorem length_of_afterBlankLine? {text rest : Text} (found : afterBlankLine? text = some rest) :
    rest.length < text.length := by
  have shorter : (text.dropWhile isIndent).length ≤ text.length :=
    (List.dropWhile_sublist isIndent).length_le
  unfold afterBlankLine? at found
  split at found
  · rename_i unindented
    rw [unindented] at shorter
    cases found
    exact shorter
  · rename_i unindented
    rw [unindented] at shorter
    cases found
    exact Nat.lt_of_succ_lt shorter
  · cases found

/-- What follows all blank lines at the front of a text. -/
def afterBlankLines (text : Text) : Text :=
  match _found : afterBlankLine? text with
  | some rest => afterBlankLines rest
  | none => text
termination_by text.length
decreasing_by exact length_of_afterBlankLine? _found

/-- What follows the blank lines at the front of a text is no longer than the text. -/
theorem length_afterBlankLines_le (text : Text) : (afterBlankLines text).length ≤ text.length := by
  fun_induction afterBlankLines text with
  | case1 text rest found ih =>
    have := length_of_afterBlankLine? found
    omega
  | case2 text found => exact Nat.le_refl _

/-- What follows a separator at the front of a text, if there is one. -/
def afterSeparator? (text : Text) : Option Text := do
  let first ← afterBlankLine? text
  let second ← afterBlankLine? first
  return afterBlankLines second

/-- What follows a separator is shorter than the text. -/
theorem length_of_afterSeparator? {text rest : Text} (found : afterSeparator? text = some rest) :
    rest.length < text.length := by
  simp only [afterSeparator?, Option.bind_eq_bind, Option.bind_eq_some_iff] at found
  obtain ⟨first, foundFirst, second, foundSecond, same⟩ := found
  have := length_of_afterBlankLine? foundFirst
  have := length_of_afterBlankLine? foundSecond
  have := length_afterBlankLines_le second
  cases same
  omega

/-- The paragraphs of a text: what stands before, between and behind its separators. -/
def paragraphs (text : Text) : List Text :=
  match text with
  | [] => [[]]
  | c :: rest =>
    match _found : afterSeparator? (c :: rest) with
    | some after => [] :: paragraphs after
    | none => Text.pushFirst c (paragraphs rest)
termination_by text.length
decreasing_by
  · exact length_of_afterSeparator? _found
  · simp

/-- Writes `between` for every separator of a text. -/
def joinParagraphs (between text : Text) : Text := Text.join between (paragraphs text)

/-- Leaves one empty line between paragraphs. -/
def plainParagraphs (text : Text) : Text := joinParagraphs "\n\n".toList text

/-- Ends a paragraph of HTML and begins another at every separator. The whole text is expected
to be enclosed in a paragraph in the end. -/
def htmlParagraphs (text : Text) : Text := joinParagraphs "</p>\n<p>".toList text

/-! ### Empty paragraphs of HTML -/

/-- What follows a paragraph of HTML without content at the front of a text, if there is one.
A line feed behind it belongs to it. -/
def afterEmptyParagraph? (text : Text) : Option Text := do
  let content ← Text.after? "<p>".toList text
  let after ← Text.after? "</p>".toList (content.dropWhile Text.isBlank)
  match after with
  | '\n' :: rest => return rest
  | rest => return rest

/-- What follows an empty paragraph is shorter than the text. -/
theorem length_of_afterEmptyParagraph? {text rest : Text}
    (found : afterEmptyParagraph? text = some rest) : rest.length < text.length := by
  simp only [afterEmptyParagraph?, Option.bind_eq_bind, Option.bind_eq_some_iff] at found
  obtain ⟨content, foundContent, after, foundAfter, same⟩ := found
  have opening := congrArg List.length (Text.eq_append_of_after? foundContent)
  have closing := congrArg List.length (Text.eq_append_of_after? foundAfter)
  have shorter : (content.dropWhile Text.isBlank).length ≤ content.length :=
    (List.dropWhile_sublist Text.isBlank).length_le
  have three : "<p>".toList.length = 3 := rfl
  rw [List.length_append] at opening closing
  split at same
  · cases same
    rw [List.length_cons] at closing
    omega
  · cases same
    omega

/-- Takes the empty paragraphs out of a text. -/
def dropEmptyParagraphs (text : Text) : Text :=
  match text with
  | [] => []
  | c :: rest =>
    match _found : afterEmptyParagraph? (c :: rest) with
    | some after => dropEmptyParagraphs after
    | none => c :: dropEmptyParagraphs rest
termination_by text.length
decreasing_by
  · exact length_of_afterEmptyParagraph? _found
  · simp

end TagExpansion.Markup
