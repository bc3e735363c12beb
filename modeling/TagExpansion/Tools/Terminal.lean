import TagExpansion.Log

/-
This file has the codes that control a terminal.

A code is an escape character, a bracket, parameters, and a last character that says
what to do. Codes are put around a text to color it, and they are taken out of a text
that is not going to a terminal.

A text that is colored may have codes of its own. One that ends the color is followed
by one that starts it again, and what stands between two codes that reset everything is
left without a color. No line ends with a color on.
-/

namespace TagExpansion.Terminal

/-- The code with the given number. -/
def code (number : String) : Text := '\x1b' :: '[' :: number.toList ++ ['m']

/-- A way to show a text: the code that starts it and the code that ends it. -/
structure Style where
  opening : Text
  closing : Text
  deriving DecidableEq, Repr

namespace Style

/-- A color, by its number. -/
def color (number : String) : Style := ⟨code number, code "39"⟩

/-- Less light. -/
def dim : Style := ⟨code "2", code "22"⟩

end Style

/-! ### Coloring -/

/-- Puts a text behind every place at which a mark stands. -/
def putBehind (mark addition text : Text) : Text :=
  match text with
  | [] => []
  | c :: rest =>
    if mark.isPrefixOf (c :: rest) then
      mark ++ addition ++ putBehind mark addition (rest.drop (mark.length - 1))
    else c :: putBehind mark addition rest
termination_by text.length
decreasing_by
  · rw [List.length_drop, List.length_cons]
    omega
  · simp

/-- The code that resets everything. -/
def reset : Text := code "0"

/-- Splits a line before its first code that resets everything, if there is one. -/
def splitReset? : Text → Option (Text × Text)
  | [] => none
  | c :: rest =>
    match Text.after? reset (c :: rest) with
    | some after => some ([], after)
    | none =>
      if c = '\n' then none
      else (splitReset? rest).map fun (before, after) => (c :: before, after)

/-- What follows the code is shorter than the text. -/
theorem length_of_after?_reset {text rest : Text} (found : Text.after? reset text = some rest) :
    rest.length < text.length := by
  rw [Text.eq_append_of_after? found, List.length_append]
  show rest.length < 4 + rest.length
  omega

/-- What follows the first code that resets everything is shorter than the text. -/
theorem length_of_splitReset? {text before after : Text}
    (found : splitReset? text = some (before, after)) : after.length < text.length := by
  induction text generalizing before after with
  | nil => cases found
  | cons c rest ih =>
    unfold splitReset? at found
    split at found
    · rename_i behind next
      cases found
      exact length_of_after?_reset next
    · split at found
      · cases found
      · obtain ⟨⟨inner, behind⟩, split, same⟩ := Option.map_eq_some_iff.1 found
        cases same
        have shorter := ih split
        rw [List.length_cons]
        omega

/-- Leaves what stands between two codes of a line that reset everything without the styles of
the text around it. -/
def setApart (opening closing text : Text) : Text :=
  match text with
  | [] => []
  | c :: rest =>
    match _start : Text.after? reset (c :: rest) with
    | none => c :: setApart opening closing rest
    | some after => match _stop : splitReset? after with
      | none => c :: setApart opening closing rest
      | some (inner, behind) =>
        closing ++ reset ++ inner ++ reset ++ opening ++ setApart opening closing behind
termination_by text.length
decreasing_by
  · simp
  · simp
  · exact Nat.lt_trans (length_of_splitReset? _stop) (length_of_after?_reset _start)

/-- Takes styles off before every line break and puts them on again behind it. -/
def aroundLineBreaks (opening closing : Text) : Text → Text
  | [] => []
  | '\r' :: '\n' :: rest => closing ++ '\r' :: '\n' :: opening ++ aroundLineBreaks opening closing rest
  | '\n' :: rest => closing ++ '\n' :: opening ++ aroundLineBreaks opening closing rest
  | c :: rest => c :: aroundLineBreaks opening closing rest

/-- Shows a text in styles. -/
def paint (styles : List Style) (text : Text) : Text :=
  let opening := styles.flatMap Style.opening
  let closing := styles.flatMap Style.closing
  let resumed := styles.foldl (fun done style => putBehind style.closing style.opening done) text
  opening ++ aroundLineBreaks opening closing (setApart opening closing resumed) ++ closing

/-- The styles that make a color. -/
def stylesOf : Tint → List Style
  | .blue => [.color "34"]
  | .yellow => [.color "33"]
  | .green => [.color "32"]
  | .gray => [.color "90"]
  | .red => [.color "31"]
  | .brightRed => [.color "91"]
  | .dimRed => [.dim, .color "31"]

/-! ### Taking codes out -/

/-- The characters that stand first between the bracket and the last character of a code. -/
def isParameter (c : Char) : Bool := '0' ≤ c && c ≤ '?'

/-- The characters that may follow the parameters of a code. -/
def isIntermediate (c : Char) : Bool := ' ' ≤ c && c ≤ '/'

/-- The characters that end a code. -/
def isFinal (c : Char) : Bool := '@' ≤ c && c ≤ '~'

/-- A code: an escape character, a bracket, parameters, what may follow them, and a last character
that ends it. -/
inductive IsCode : Text → Prop where
  | intro {parameters intermediates : Text} {last : Char}
      (areParameters : ∀ c ∈ parameters, isParameter c)
      (areIntermediates : ∀ c ∈ intermediates, isIntermediate c) (ends : isFinal last) :
      IsCode ('\x1b' :: '[' :: (parameters ++ (intermediates ++ [last])))

/-- What follows a code at the front of a text, if there is one. -/
def afterCode? (text : Text) : Option Text :=
  match text with
  | '\x1b' :: '[' :: rest =>
    match (rest.dropWhile isParameter).dropWhile isIntermediate with
    | last :: after => if isFinal last then some after else none
    | [] => none
  | _ => none

/-- What follows a code is shorter than the text. -/
theorem length_of_afterCode? {text rest : Text} (found : afterCode? text = some rest) :
    rest.length < text.length := by
  unfold afterCode? at found
  split at found
  · rename_i behind
    have shorter : ((behind.dropWhile isParameter).dropWhile isIntermediate).length ≤
        behind.length :=
      Nat.le_trans (List.dropWhile_sublist isIntermediate).length_le
        (List.dropWhile_sublist isParameter).length_le
    split at found
    · rename_i last after ending
      rw [ending, List.length_cons] at shorter
      split at found
      · cases found
        rw [List.length_cons, List.length_cons]
        omega
      · cases found
    · cases found
  · cases found

/-- Takes the codes out of a text. -/
def dropCodes (text : Text) : Text :=
  match text with
  | [] => []
  | c :: rest =>
    match _found : afterCode? (c :: rest) with
    | some after => dropCodes after
    | none => c :: dropCodes rest
termination_by text.length
decreasing_by
  · exact length_of_afterCode? _found
  · simp

end TagExpansion.Terminal
