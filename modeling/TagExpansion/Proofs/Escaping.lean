import TagExpansion.Proofs.Paragraph
import TagExpansion.Tag.Builtin

/-
This file says which texts are fit for HTML.

Such a text is put together from characters that have no meaning in HTML, from entities and
from fixed marks. It can be read from left to right in one way only, because none of the longer
parts begins like another. So where the front of a text is fit for HTML, the whole is exactly if
the rest is, and a text that goes wrong somewhere cannot be mended by what follows it.

Escaped texts are fit for HTML, also after their paragraphs have been set: an entity has no part
in a blank line, so the paragraphs of an escaped text are the escaped paragraphs of the text.
-/

namespace TagExpansion.Markup

/-! ### Escaped texts -/

/-- Whether a character has a meaning in HTML. -/
def isSpecial (c : Char) : Bool := c == '&' || c == '<' || c == '>' || c == '"'

/-- What the characters with a meaning in HTML are written as. -/
def entities : List Text :=
  ["&amp;".toList, "&lt;".toList, "&gt;".toList, "&quot;".toList]

theorem escapeChar_of_not_special {c : Char} (plain : isSpecial c = false) :
    escapeChar c = [c] := by
  simp only [isSpecial, Bool.or_eq_false_iff, beq_eq_false_iff_ne] at plain
  unfold escapeChar
  split
  · exact absurd rfl plain.1.1.1
  · exact absurd rfl plain.1.1.2
  · exact absurd rfl plain.1.2
  · exact absurd rfl plain.2
  · rfl

theorem escapeChar_mem_entities {c : Char} (special : isSpecial c = true) :
    escapeChar c ∈ entities := by
  simp only [isSpecial, Bool.or_eq_true, beq_iff_eq] at special
  rcases special with ((rfl | rfl) | rfl) | rfl
  · decide
  · decide
  · decide
  · decide

theorem isSpecial_of_isBlank {c : Char} (blank : Text.isBlank c = true) : isSpecial c = false := by
  cases special : isSpecial c with
  | false => rfl
  | true =>
    simp only [isSpecial, Bool.or_eq_true, beq_iff_eq] at special
    rcases special with ((rfl | rfl) | rfl) | rfl <;> cases blank

theorem head?_of_mem_entities {entity : Text} (member : entity ∈ entities) :
    entity.head? = some '&' := by
  revert entity
  decide

/-- An escaped text starts with a character that has no meaning in HTML where the text does. -/
theorem escape_eq_cons_iff {c : Char} (plain : isSpecial c = false) {text rest : Text} :
    escape text = c :: rest ↔ ∃ behind, text = c :: behind ∧ rest = escape behind := by
  cases text with
  | nil => simp
  | cons d behind =>
    rw [escape_cons]
    cases special : isSpecial d with
    | false =>
      rw [escapeChar_of_not_special special]
      simp only [List.cons_append, List.nil_append, List.cons.injEq]
      constructor
      · rintro ⟨rfl, rfl⟩
        exact ⟨behind, ⟨rfl, rfl⟩, rfl⟩
      · rintro ⟨_, ⟨rfl, rfl⟩, rfl⟩
        exact ⟨rfl, rfl⟩
    | true =>
      have starts := head?_of_mem_entities (escapeChar_mem_entities special)
      constructor
      · intro same
        have head := congrArg List.head? same
        rw [List.head?_append, starts] at head
        cases head
        cases plain
      · rintro ⟨_, same, -⟩
        cases same
        rw [special] at plain
        cases plain

/-! ### Paragraphs of an escaped text -/

theorem dropWhile_isIndent_escape (text : Text) :
    (escape text).dropWhile isIndent = escape (text.dropWhile isIndent) := by
  induction text with
  | nil => rfl
  | cons c rest inductionHypothesis =>
    cases indent : isIndent c with
    | true =>
      have plain : isSpecial c = false := by
        simp only [isIndent, Bool.or_eq_true, beq_iff_eq] at indent
        rcases indent with rfl | rfl
        · rfl
        · rfl
      rw [escape_cons, escapeChar_of_not_special plain, List.singleton_append,
        List.dropWhile_cons_of_pos indent, List.dropWhile_cons_of_pos indent, inductionHypothesis]
    | false =>
      rw [List.dropWhile_cons_of_neg (by rw [indent]; exact Bool.false_ne_true), escape_cons]
      cases special : isSpecial c with
      | false =>
        rw [escapeChar_of_not_special special, List.singleton_append,
          List.dropWhile_cons_of_neg (by rw [indent]; exact Bool.false_ne_true)]
      | true =>
        have starts := head?_of_mem_entities (escapeChar_mem_entities special)
        obtain ⟨letters, isEntity⟩ := List.head?_eq_some_iff.mp starts
        rw [isEntity, List.cons_append, List.dropWhile_cons_of_neg (by decide)]

theorem afterBlankLine?_escape (text : Text) :
    afterBlankLine? (escape text) = (afterBlankLine? text).map escape := by
  have feed : isSpecial '\n' = false := rfl
  have carriage : isSpecial '\r' = false := rfl
  refine Option.ext fun rest => ?_
  rw [afterBlankLine?_eq_some_iff, dropWhile_isIndent_escape, escape_eq_cons_iff feed,
    escape_eq_cons_iff carriage, Option.map_eq_some_iff]
  constructor
  · rintro (⟨behind, found, rfl⟩ | ⟨behind, found, escaped⟩)
    · exact ⟨behind, afterBlankLine?_eq_some_iff.mpr (.inl found), rfl⟩
    · obtain ⟨after, rfl, rfl⟩ := (escape_eq_cons_iff feed).mp escaped.symm
      exact ⟨after, afterBlankLine?_eq_some_iff.mpr (.inr found), rfl⟩
  · rintro ⟨after, found, rfl⟩
    rcases afterBlankLine?_eq_some_iff.mp found with isFeed | isCarriage
    · exact .inl ⟨after, isFeed, rfl⟩
    · exact .inr ⟨'\n' :: after, isCarriage, rfl⟩

theorem afterBlankLines_escape (text : Text) :
    afterBlankLines (escape text) = escape (afterBlankLines text) := by
  fun_induction afterBlankLines text with
  | case1 text rest found inductionHypothesis =>
    rw [afterBlankLines_of_eq_some (by rw [afterBlankLine?_escape, found]; rfl),
      inductionHypothesis]
  | case2 text missing =>
    rw [afterBlankLines_of_eq_none (by rw [afterBlankLine?_escape, missing]; rfl)]

theorem afterSeparator?_escape (text : Text) :
    afterSeparator? (escape text) = (afterSeparator? text).map escape := by
  unfold afterSeparator?
  rw [afterBlankLine?_escape]
  cases afterBlankLine? text with
  | none => rfl
  | some first =>
    simp only [Option.map_some, Option.bind_eq_bind, Option.bind_some]
    rw [afterBlankLine?_escape]
    cases afterBlankLine? first with
    | none => rfl
    | some second =>
      simp only [Option.map_some, Option.bind_some]
      rw [afterBlankLines_escape]
      rfl

theorem solid_of_mem_entities {entity : Text} (member : entity ∈ entities) :
    ∀ c ∈ entity, Text.isBlank c = false := by
  have all : ∀ entity ∈ entities, (entity.all fun c => !Text.isBlank c) = true := by decide
  intro c isChar
  have solid := List.all_eq_true.mp (all entity member) c isChar
  rw [Bool.not_eq_eq_eq_not, Bool.not_true] at solid
  exact solid

/-- The paragraphs of an escaped text are the escaped paragraphs of the text. -/
theorem paragraphs_escape (text : Text) :
    paragraphs (escape text) = (paragraphs text).map escape := by
  fun_induction paragraphs text with
  | case1 =>
    rw [escape_nil, paragraphs]
    rfl
  | case2 c rest after found inductionHypothesis =>
    have separated : afterSeparator? (escape (c :: rest)) = some (escape after) := by
      rw [afterSeparator?_escape, found]
      rfl
    cases escaped : escape (c :: rest) with
    | nil =>
      rw [escaped] at separated
      cases separated
    | cons d behind =>
      rw [escaped] at separated
      rw [paragraphs_of_eq_some separated, inductionHypothesis]
      rfl
  | case3 c rest missing inductionHypothesis =>
    obtain ⟨first, others, split⟩ := exists_paragraphs_eq_cons rest
    rw [split, List.map_cons] at inductionHypothesis
    rw [split, escape_cons]
    cases special : isSpecial c with
    | true =>
      rw [paragraphs_append_of_solid (solid_of_mem_entities (escapeChar_mem_entities special))
        inductionHypothesis]
      rfl
    | false =>
      have unseparated : afterSeparator? (c :: escape rest) = none := by
        have same := afterSeparator?_escape (c :: rest)
        rw [missing, escape_cons, escapeChar_of_not_special special] at same
        exact same
      rw [escapeChar_of_not_special special, List.singleton_append,
        paragraphs_of_eq_none unseparated, inductionHypothesis]
      show [c :: escape first] ++ others.map escape = [escapeChar c ++ escape first] ++ _
      rw [escapeChar_of_not_special special]
      rfl

/-! ### Texts that are fit for HTML -/

/-- A character of a text that is put together of two stands in the second or in the first. -/
theorem exists_of_append_eq_append_cons {first second front back : Text} {c : Char}
    (same : first ++ second = front ++ c :: back) :
    (∃ more, front = first ++ more ∧ second = more ++ c :: back) ∨
      ∃ right, first = front ++ c :: right ∧ back = right ++ second := by
  rcases List.append_eq_append_iff.mp same with inSecond | ⟨more, whole, ends⟩
  · exact .inl inSecond
  · cases more with
    | nil => exact .inl ⟨[], by rw [whole, List.append_nil, List.append_nil], ends.symm⟩
    | cons d right =>
      cases ends
      exact .inr ⟨right, whole, rfl⟩

/-- What ends a paragraph and begins the next one. -/
def paragraphBreak : Text := "</p>\n<p>".toList

/-- The marks that the builtin tags and the paragraphs of HTML write. -/
def marks : List Text :=
  let markup := Tag.Markup.of .html
  [markup.bold.1, markup.bold.2, markup.italic.1, markup.italic.2, markup.code.1, markup.code.2,
    markup.longcode.1, markup.longcode.2, markup.lineBreak, paragraphBreak]

/-- The parts of a text that are longer than a character. -/
def units : List Text := entities ++ marks

/-- A text made of characters without a meaning in HTML, of entities and of marks. -/
inductive Escaped : Text → Prop where
  | nil : Escaped []
  | plain {c : Char} {rest : Text} (isPlain : isSpecial c = false) (escaped : Escaped rest) :
      Escaped (c :: rest)
  | unit {unit rest : Text} (member : unit ∈ units) (escaped : Escaped rest) :
      Escaped (unit ++ rest)

/-- A unit starts with a character that has a meaning in HTML. -/
theorem exists_eq_cons_of_mem_units {unit : Text} (member : unit ∈ units) :
    ∃ c rest, unit = c :: rest ∧ isSpecial c = true := by
  have all : ∀ unit ∈ units, unit.head?.any isSpecial = true := by decide
  obtain ⟨c, starts, special⟩ := (Option.any_eq_true _ _).mp (all unit member)
  obtain ⟨rest, split⟩ := List.head?_eq_some_iff.mp starts
  exact ⟨c, rest, split, special⟩

theorem closing_not_mem_of_mem_units {unit : Text} (member : unit ∈ units) : ')' ∉ unit := by
  revert unit
  decide

/-- No unit begins like another one. -/
theorem eq_of_isPrefix_of_mem_units {first second : Text} (isFirst : first ∈ units)
    (isSecond : second ∈ units) (begins : first <+: second) : first = second := by
  have all : ∀ first ∈ units, ∀ second ∈ units, first <+: second → first = second := by decide
  exact all first isFirst second isSecond begins

namespace Escaped

theorem append {first second : Text} (front : Escaped first) (back : Escaped second) :
    Escaped (first ++ second) := by
  induction front with
  | nil => exact back
  | plain isPlain _ inductionHypothesis => exact .plain isPlain inductionHypothesis
  | unit member _ inductionHypothesis =>
    rw [List.append_assoc]
    exact .unit member inductionHypothesis

theorem of_mem_marks {mark : Text} (member : mark ∈ marks) : Escaped mark := by
  rw [← List.append_nil mark]
  exact .unit (List.mem_append_right _ member) .nil

theorem escape (text : Text) : Escaped (escape text) := by
  induction text with
  | nil => exact .nil
  | cons c rest inductionHypothesis =>
    rw [escape_cons]
    cases special : isSpecial c with
    | true =>
      exact .unit (List.mem_append_left _ (escapeChar_mem_entities special)) inductionHypothesis
    | false =>
      rw [escapeChar_of_not_special special]
      exact .plain special inductionHypothesis

theorem join {between : Text} {parts : List Text} (isBetween : Escaped between)
    (escaped : ∀ part ∈ parts, Escaped part) : Escaped (Text.join between parts) := by
  refine Text.join_induction .nil escaped fun part member rest later => ?_
  exact (escaped part member).append (isBetween.append later)

/-- Escaped texts are fit for HTML also when their paragraphs are set. -/
theorem htmlParagraphs_escape (text : Text) : Escaped (htmlParagraphs (Markup.escape text)) := by
  rw [htmlParagraphs, joinParagraphs, paragraphs_escape]
  refine join (of_mem_marks (by decide)) fun part member => ?_
  obtain ⟨paragraph, -, rfl⟩ := List.mem_map.mp member
  exact .escape paragraph

/-! ### Reading from left to right -/

/-- A plain character at the front has no part in what follows. -/
theorem of_cons {c : Char} {rest : Text} (isPlain : isSpecial c = false)
    (escaped : Escaped (c :: rest)) : Escaped rest := by
  generalize whole : c :: rest = text at escaped
  cases escaped with
  | nil => cases whole
  | plain _ escaped =>
    cases whole
    exact escaped
  | unit member _ =>
    obtain ⟨d, letters, rfl, special⟩ := exists_eq_cons_of_mem_units member
    cases whole
    rw [special] at isPlain
    cases isPlain

/-- A unit at the front has no part in what follows. -/
theorem of_unit_append {unit rest : Text} (isUnit : unit ∈ units)
    (escaped : Escaped (unit ++ rest)) : Escaped rest := by
  obtain ⟨c, letters, split, special⟩ := exists_eq_cons_of_mem_units isUnit
  generalize whole : unit ++ rest = text at escaped
  cases escaped with
  | nil =>
    rw [split] at whole
    cases whole
  | plain isPlain _ =>
    rw [split] at whole
    cases whole
    rw [special] at isPlain
    cases isPlain
  | @unit other behind isOther escaped =>
    have same : unit = other := by
      rcases List.append_eq_append_iff.mp whole with ⟨more, longer, -⟩ | ⟨more, longer, -⟩
      · exact eq_of_isPrefix_of_mem_units isUnit isOther ⟨more, longer.symm⟩
      · exact (eq_of_isPrefix_of_mem_units isOther isUnit ⟨more, longer.symm⟩).symm
    rw [same] at whole
    rw [List.append_cancel_left whole]
    exact escaped

/-- Where the front of a text is fit for HTML, the rest is if the whole is. -/
theorem of_append {first second : Text} (front : Escaped first)
    (both : Escaped (first ++ second)) : Escaped second := by
  induction front with
  | nil => exact both
  | plain isPlain _ inductionHypothesis => exact inductionHypothesis (of_cons isPlain both)
  | unit member _ inductionHypothesis =>
    rw [List.append_assoc] at both
    exact inductionHypothesis (of_unit_append member both)

/-- A closing parenthesis is no part of anything longer, so what stands before it is fit for HTML
by itself. -/
theorem of_append_closing {front behind : Text} (escaped : Escaped (front ++ ')' :: behind)) :
    Escaped front := by
  generalize whole : front ++ ')' :: behind = text at escaped
  induction escaped generalizing front with
  | nil => simp at whole
  | plain isPlain _ inductionHypothesis =>
    cases front with
    | nil => exact .nil
    | cons d front =>
      cases whole
      exact .plain isPlain (inductionHypothesis rfl)
  | @unit unit rest member _ inductionHypothesis =>
    rcases exists_of_append_eq_append_cons whole.symm with ⟨more, rfl, later⟩ | ⟨more, longer, -⟩
    · exact .unit member (inductionHypothesis later.symm)
    · -- The unit would reach beyond the parenthesis.
      refine absurd ?_ (closing_not_mem_of_mem_units member)
      rw [longer]
      exact List.mem_append_right front List.mem_cons_self

/-- A text that starts with a character that has a meaning in HTML and with no unit is not fit for
HTML. -/
theorem false_of_no_unit {c : Char} {rest : Text} (special : isSpecial c = true)
    (noUnit : ∀ unit ∈ units, ¬unit <+: c :: rest) (escaped : Escaped (c :: rest)) : False := by
  generalize whole : c :: rest = text at escaped
  cases escaped with
  | nil => cases whole
  | plain isPlain _ =>
    cases whole
    rw [special] at isPlain
    cases isPlain
  | unit member _ => exact noUnit _ member ⟨_, whole.symm⟩

end Escaped

/-- A text that nothing can make fit for HTML by following it. -/
def Broken (text : Text) : Prop := ∀ rest, ¬Escaped (text ++ rest)

namespace Broken

theorem not_escaped {text : Text} (broken : Broken text) : ¬Escaped text := by
  intro escaped
  rw [← List.append_nil text] at escaped
  exact broken [] escaped

theorem append {text : Text} (broken : Broken text) (rest : Text) : Broken (text ++ rest) := by
  intro more escaped
  rw [List.append_assoc] at escaped
  exact broken _ escaped

theorem after {text front : Text} (broken : Broken text) (escaped : Escaped front) :
    Broken (front ++ text) := by
  intro more both
  rw [List.append_assoc] at both
  exact broken more (escaped.of_append both)

/-- What is not fit for HTML stays so before a closing parenthesis. -/
theorem of_not_escaped {text : Text} (unfit : ¬Escaped text) : Broken (text ++ [')']) := by
  intro more escaped
  rw [List.append_assoc] at escaped
  exact unfit escaped.of_append_closing

end Broken

end TagExpansion.Markup
