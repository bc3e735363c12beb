import TagExpansion.Proofs.Blocks

/-
This file has the theory of inline elements: how they can stand in a text, and that it can be said
which ones do.

An element is a text between an opening mark and the closing mark that belongs to it. In a woven
text every mark belongs to an element, and two elements are either apart from each other or one is
inside of the other. What else stands in the text is divided into parts, and which parts there can
be differs: in an expanded text the ends and beginnings of blocks come in gaps, in a document each
stands for itself.

No mark and no part of a document is the beginning of another one, so a document can be divided in
one way only. The elements of a woven document, listed in the order in which they end, are therefore
its own and not a matter of how it is read.
-/

namespace TagExpansion.Markup

/-! ### Elements and parts -/

/-- The marks of elements, an opening one with the closing one that belongs to it. -/
def elementMarks : List (Text × Text) :=
  let markup := Tag.Markup.of .html
  [markup.bold, markup.italic, markup.code]

/-- A text between two marks. -/
structure Element where
  marks : Text × Text
  inside : Text
  deriving DecidableEq, Repr

/-- A part of a text that neither is a mark of an element nor begins or ends a block. -/
inductive LoosePart : Text → Prop where
  | plain {c : Char} (isPlain : isSpecial c = false) : LoosePart [c]
  | unit {unit : Text} (member : unit ∈ entities ++ [(Tag.Markup.of .html).lineBreak]) :
      LoosePart unit

/-- What stands between two paragraphs of an expanded text: nothing, or a preformatted block. -/
inductive Middle : Text → Prop where
  | nothing : Middle []
  | block (body : Text) : Middle ((Block.preformatted (Markup.escape body)).written ++ ['\n'])

/-- A part of an expanded text. -/
inductive FlowPart : Text → Prop where
  | loose {part : Text} (isLoose : LoosePart part) : FlowPart part
  | gap {middle : Text} (isMiddle : Middle middle) :
      FlowPart ("</p>\n".toList ++ (middle ++ "<p>".toList))

/-- The tags of the blocks of a document, written out. -/
def documentTags : List Text :=
  ["<p>".toList, "</p>".toList, "<pre class=\"longcode\">".toList, "</pre>".toList]

/-- A part of a document. -/
inductive DocumentPart : Text → Prop where
  | loose {part : Text} (isLoose : LoosePart part) : DocumentPart part
  | tag {tag : Text} (member : tag ∈ documentTags) : DocumentPart tag

/-- A text of parts and elements, with its elements in the order in which they end. -/
inductive Woven (isPart : Text → Prop) : List Element → Text → Prop where
  | nil : Woven isPart [] []
  | part {elements : List Element} {part rest : Text} (isOne : isPart part)
      (behind : Woven isPart elements rest) : Woven isPart elements (part ++ rest)
  | element {inner later : List Element} {marks : Text × Text} {inside rest : Text}
      (member : marks ∈ elementMarks) (within : Woven isPart inner inside)
      (behind : Woven isPart later rest) :
      Woven isPart (inner ++ ⟨marks, inside⟩ :: later) (Tag.enclose marks inside ++ rest)

namespace Woven

variable {isPart : Text → Prop} {elements others : List Element} {text other : Text}

theorem append (front : Woven isPart elements text) (back : Woven isPart others other) :
    Woven isPart (elements ++ others) (text ++ other) := by
  induction front with
  | nil => exact back
  | part isOne _ inductionHypothesis =>
    rw [List.append_assoc]
    exact .part isOne inductionHypothesis
  | element member within _ _ inductionHypothesis =>
    rw [List.append_assoc, List.append_assoc, List.cons_append]
    exact .element member within inductionHypothesis

theorem of_part {part : Text} (isOne : isPart part) : Woven isPart [] part := by
  rw [← List.append_nil part]
  exact .part isOne .nil

theorem enclose {marks : Text × Text} (member : marks ∈ elementMarks)
    (woven : Woven isPart elements text) :
    Woven isPart (elements ++ [⟨marks, text⟩]) (Tag.enclose marks text) := by
  rw [← List.append_nil (Tag.enclose marks text)]
  exact .element member woven .nil

/-- Characters without a meaning are parts wherever they stand. -/
theorem of_plain (loose : ∀ part, LoosePart part → isPart part) {text : Text}
    (plain : ∀ c ∈ text, isSpecial c = false) : Woven isPart [] text := by
  induction text with
  | nil => exact .nil
  | cons c rest inductionHypothesis =>
    rw [List.forall_mem_cons] at plain
    exact .part (loose _ (.plain plain.1)) (inductionHypothesis plain.2)

theorem escape (loose : ∀ part, LoosePart part → isPart part) (text : Text) :
    Woven isPart [] (Markup.escape text) := by
  induction text with
  | nil => exact .nil
  | cons c rest inductionHypothesis =>
    rw [escape_cons]
    refine .part (loose _ ?_) inductionHypothesis
    cases special : isSpecial c with
    | true => exact .unit (List.mem_append_left _ (escapeChar_mem_entities special))
    | false =>
      rw [escapeChar_of_not_special special]
      exact .plain special

/-- What stands in an element is woven as well. -/
theorem inside_of_mem (woven : Woven isPart elements text) :
    ∀ element ∈ elements, ∃ inner, Woven isPart inner element.inside := by
  induction woven with
  | nil => nofun
  | part _ _ inductionHypothesis => exact inductionHypothesis
  | element _ within _ inductionInside inductionBehind =>
    intro element isElement
    rcases List.mem_append.mp isElement with inner | here
    · exact inductionInside element inner
    · rcases List.mem_cons.mp here with rfl | later
      · exact ⟨_, within⟩
      · exact inductionBehind element later

end Woven

/-! ### Expanded texts -/

theorem LoosePart.inlinePart {part : Text} (isLoose : LoosePart part) : InlinePart part := by
  cases isLoose with
  | plain isPlain => exact .plain isPlain
  | unit member =>
    have all : ∀ unit ∈ entities ++ [(Tag.Markup.of .html).lineBreak],
        unit ∈ entities ++ inlineMarks := by decide
    exact .unit (all _ member)

theorem inline_of_mem_elementMarks {marks : Text × Text} (member : marks ∈ elementMarks) :
    Inline marks.1 ∧ Inline marks.2 := by
  have all : ∀ marks ∈ elementMarks, marks.1 ∈ inlineMarks ∧ marks.2 ∈ inlineMarks := by decide
  exact ⟨.of_mark (all marks member).1, .of_mark (all marks member).2⟩

theorem gap_of_middle {middle : Text} (isMiddle : Middle middle) :
    Gap ("</p>\n".toList ++ (middle ++ "<p>".toList)) := by
  cases isMiddle with
  | nothing => exact .paragraphBreak
  | block body =>
    rw [← enclose_longcode]
    exact .block (.escape body)

/-- A woven text with gaps is content with gaps. -/
theorem Woven.flow {elements : List Element} {text : Text} (woven : Woven FlowPart elements text) :
    Flow text := by
  induction woven with
  | nil => exact .last .nil
  | part isOne _ inductionHypothesis =>
    cases isOne with
    | loose isLoose => exact .after (.of_part isLoose.inlinePart) inductionHypothesis
    | gap isMiddle => exact (Flow.of_gap (gap_of_middle isMiddle)).append inductionHypothesis
  | element member _ _ inductionInside inductionBehind =>
    obtain ⟨first, last⟩ := inline_of_mem_elementMarks member
    exact (((Flow.last first).append inductionInside).append (.last last)).append inductionBehind

/-- The paragraphs of an escaped text have no elements. -/
theorem Woven.htmlParagraphs_escape (text : Text) :
    Woven FlowPart [] (htmlParagraphs (Markup.escape text)) := by
  rw [htmlParagraphs, joinParagraphs, paragraphs_escape]
  have escaped : ∀ part ∈ (paragraphs text).map Markup.escape, Woven FlowPart [] part := by
    intro part member
    obtain ⟨paragraph, -, rfl⟩ := List.mem_map.mp member
    exact .escape (fun _ => .loose) paragraph
  refine Text.join_induction .nil escaped fun part member rest later => ?_
  exact (escaped part member).append (.part (.gap .nothing) later)

/-! ### One way of reading a document -/

/-- The units of documents that are more than a plain character. -/
def documentUnits : List Text :=
  entities ++ [(Tag.Markup.of .html).lineBreak] ++ documentTags ++
    elementMarks.map Prod.fst ++ elementMarks.map Prod.snd

theorem opening_mem_documentUnits {marks : Text × Text} (member : marks ∈ elementMarks) :
    marks.1 ∈ documentUnits :=
  List.mem_append_left _ (List.mem_append_right _ (List.mem_map_of_mem member))

theorem closing_mem_documentUnits {marks : Text × Text} (member : marks ∈ elementMarks) :
    marks.2 ∈ documentUnits :=
  List.mem_append_right _ (List.mem_map_of_mem member)

/-- A unit begins with a character that no plain one is. -/
theorem exists_special_of_mem_documentUnits {unit : Text} (member : unit ∈ documentUnits) :
    ∃ c rest, unit = c :: rest ∧ isSpecial c = true := by
  have all : ∀ unit ∈ documentUnits, unit.head?.any isSpecial = true := by decide
  obtain ⟨c, isHead, special⟩ := (Option.any_eq_true _ _).mp (all unit member)
  obtain ⟨rest, rfl⟩ := List.head?_eq_some_iff.mp isHead
  exact ⟨c, rest, rfl, special⟩

/-- Something that has to be read as a whole. -/
inductive Lexeme : Text → Prop where
  | plain {c : Char} (isPlain : isSpecial c = false) : Lexeme [c]
  | unit {unit : Text} (member : unit ∈ documentUnits) : Lexeme unit

namespace Lexeme

theorem ne_nil {lexeme : Text} (isLexeme : Lexeme lexeme) : lexeme ≠ [] := by
  cases isLexeme with
  | plain => exact List.cons_ne_nil _ _
  | unit member =>
    obtain ⟨c, rest, rfl, -⟩ := exists_special_of_mem_documentUnits member
    exact List.cons_ne_nil _ _

theorem eq_of_isPrefix {first second : Text} (isFirst : Lexeme first) (isSecond : Lexeme second)
    (begins : first <+: second) : first = second := by
  cases isFirst with
  | plain isPlain =>
    cases isSecond with
    | plain => rw [(List.cons_prefix_cons.mp begins).1]
    | unit member =>
      obtain ⟨c, rest, rfl, special⟩ := exists_special_of_mem_documentUnits member
      rw [(List.cons_prefix_cons.mp begins).1, special] at isPlain
      cases isPlain
  | unit member =>
    cases isSecond with
    | plain isPlain =>
      obtain ⟨c, rest, rfl, special⟩ := exists_special_of_mem_documentUnits member
      rw [(List.cons_prefix_cons.mp begins).1, isPlain] at special
      cases special
    | unit member' =>
      have all : ∀ first ∈ documentUnits, ∀ second ∈ documentUnits,
          first <+: second → first = second := by decide
      exact all _ member _ member' begins

/-- A text cannot begin with two lexemes. -/
theorem unique {first second behind behind' : Text} (isFirst : Lexeme first)
    (isSecond : Lexeme second) (same : first ++ behind = second ++ behind') : first = second := by
  have front : first <+: second ++ behind' := ⟨behind, same⟩
  rcases List.prefix_or_prefix_of_prefix front (List.prefix_append _ _) with shorter | longer
  · exact isFirst.eq_of_isPrefix isSecond shorter
  · exact (isSecond.eq_of_isPrefix isFirst longer).symm

end Lexeme

theorem lexeme_opening {marks : Text × Text} (member : marks ∈ elementMarks) : Lexeme marks.1 :=
  .unit (opening_mem_documentUnits member)

theorem lexeme_closing {marks : Text × Text} (member : marks ∈ elementMarks) : Lexeme marks.2 :=
  .unit (closing_mem_documentUnits member)

/-- A part is a lexeme and no mark. -/
theorem DocumentPart.lexeme {part : Text} (isPart : DocumentPart part) :
    Lexeme part ∧ ∀ marks ∈ elementMarks, part ≠ marks.1 ∧ part ≠ marks.2 := by
  have finite (member : part ∈ entities ++ [(Tag.Markup.of .html).lineBreak] ++ documentTags) :
      Lexeme part ∧ ∀ marks ∈ elementMarks, part ≠ marks.1 ∧ part ≠ marks.2 := by
    have none : ∀ part ∈ entities ++ [(Tag.Markup.of .html).lineBreak] ++ documentTags,
        ∀ marks ∈ elementMarks, part ≠ marks.1 ∧ part ≠ marks.2 := by decide
    exact ⟨.unit (List.mem_append_left _ (List.mem_append_left _ member)), none part member⟩
  cases isPart with
  | tag member => exact finite (List.mem_append_right _ member)
  | loose isLoose =>
    cases isLoose with
    | unit member => exact finite (List.mem_append_left _ member)
    | plain isPlain =>
      have long : ∀ marks ∈ elementMarks, 1 < marks.1.length ∧ 1 < marks.2.length := by decide
      refine ⟨.plain isPlain, fun marks member => ?_⟩
      obtain ⟨first, last⟩ := long marks member
      constructor
      · rintro same
        rw [← same] at first
        exact absurd first (Nat.lt_irrefl 1)
      · rintro same
        rw [← same] at last
        exact absurd last (Nat.lt_irrefl 1)

/-- What can follow where a text or the inside of an element ends. -/
def Closes (rest : Text) : Prop := rest = [] ∨ ∃ marks ∈ elementMarks, marks.2 <+: rest

theorem closes_of_mem {marks : Text × Text} (member : marks ∈ elementMarks) (rest : Text) :
    Closes (marks.2 ++ rest) := .inr ⟨marks, member, List.prefix_append _ _⟩

/-- Where an element or a part begins, nothing closes. -/
theorem not_closes_append {lexeme : Text} (isLexeme : Lexeme lexeme)
    (noClosing : ∀ marks ∈ elementMarks, lexeme ≠ marks.2) (rest : Text) :
    ¬Closes (lexeme ++ rest) := by
  rintro (empty | ⟨marks, member, behind, same⟩)
  · exact isLexeme.ne_nil (List.append_eq_nil_iff.mp empty).1
  · exact noClosing marks member (isLexeme.unique (lexeme_closing member) same.symm)

theorem not_closes_of_mem {marks : Text × Text} (member : marks ∈ elementMarks) (rest : Text) :
    ¬Closes (marks.1 ++ rest) := by
  have different : ∀ marks ∈ elementMarks, ∀ other ∈ elementMarks, marks.1 ≠ other.2 := by decide
  exact not_closes_append (lexeme_opening member) (different marks member) rest

theorem enclose_append (marks : Text × Text) (inside rest : Text) :
    Tag.enclose marks inside ++ rest = marks.1 ++ (inside ++ (marks.2 ++ rest)) := by
  rw [Tag.enclose, List.append_assoc, List.append_assoc]

/-- Two woven texts at the front of the same text are the same, with the same elements. The
induction is on the first of them, and the second has to begin in the same way: with nothing, a
part, or an opening mark. -/
theorem Woven.unique_front {elements elements' : List Element} {text text' rest rest' : Text}
    (woven : Woven DocumentPart elements text) (woven' : Woven DocumentPart elements' text')
    (closes : Closes rest) (closes' : Closes rest') (same : text ++ rest = text' ++ rest') :
    elements = elements' ∧ text = text' := by
  induction woven generalizing elements' text' rest rest' with
  | nil =>
    rw [List.nil_append] at same
    cases woven' with
    | nil => exact ⟨rfl, rfl⟩
    | part isOne =>
      obtain ⟨isLexeme, noMark⟩ := isOne.lexeme
      rw [same, List.append_assoc] at closes
      exact absurd closes (not_closes_append isLexeme (fun _ member => (noMark _ member).2) _)
    | element member =>
      rw [same, List.append_assoc, enclose_append] at closes
      exact absurd closes (not_closes_of_mem member _)
  | @part _ part behind isOne _ inductionHypothesis =>
    obtain ⟨isLexeme, noMark⟩ := isOne.lexeme
    rw [List.append_assoc] at same
    cases woven' with
    | nil =>
      rw [List.nil_append] at same
      rw [← same] at closes'
      exact absurd closes' (not_closes_append isLexeme (fun _ member => (noMark _ member).2) _)
    | part isOther woven' =>
      rw [List.append_assoc] at same
      obtain rfl := isLexeme.unique isOther.lexeme.1 same
      obtain ⟨rfl, rfl⟩ := inductionHypothesis woven' closes closes' (List.append_cancel_left same)
      exact ⟨rfl, rfl⟩
    | element member =>
      rw [List.append_assoc, enclose_append] at same
      exact absurd (isLexeme.unique (lexeme_opening member) same) (noMark _ member).1
  | @element inner later marks inside behind member _ _ inductionInside inductionBehind =>
    rw [List.append_assoc, enclose_append] at same
    cases woven' with
    | nil =>
      rw [List.nil_append] at same
      rw [← same] at closes'
      exact absurd closes' (not_closes_of_mem member _)
    | part isOther =>
      rw [List.append_assoc] at same
      obtain ⟨isLexeme, noMark⟩ := isOther.lexeme
      exact absurd (isLexeme.unique (lexeme_opening member) same.symm) (noMark _ member).1
    | element member' within' behind' =>
      rw [List.append_assoc, enclose_append] at same
      have sameOpening := (lexeme_opening member).unique (lexeme_opening member') same
      have pairs : ∀ marks ∈ elementMarks, ∀ other ∈ elementMarks,
          marks.1 = other.1 → marks = other := by decide
      obtain rfl := pairs _ member _ member' sameOpening
      have rests := List.append_cancel_left same
      obtain ⟨rfl, rfl⟩ :=
        inductionInside within' (closes_of_mem member _) (closes_of_mem member _) rests
      have ends := List.append_cancel_left (List.append_cancel_left rests)
      obtain ⟨rfl, rfl⟩ := inductionBehind behind' closes closes' ends
      exact ⟨rfl, rfl⟩

/-- The elements of a woven document are determined. -/
theorem Woven.unique {elements elements' : List Element} {text : Text}
    (woven : Woven DocumentPart elements text) (woven' : Woven DocumentPart elements' text) :
    elements = elements' :=
  (woven.unique_front woven' (.inl rfl) (.inl rfl) rfl).1

end TagExpansion.Markup
