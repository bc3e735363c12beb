import TagExpansion.Proofs.Escaping

/-
This file says what becomes of an expanded text when it is finished for HTML.

In an expanded text paragraphs are ended and begun, but the first is not begun and the last not
ended. Between these places stands content that neither begins nor ends a block: plain characters,
entities and the marks of single words. Finishing puts the missing ends on, and then there is a row
of blocks, one behind the other, of which those without content go.

The empty paragraphs are looked for at every character, from left to right. A paragraph can begin
only at a character that content does not have except at the front of a mark, and no mark begins
like a paragraph. So nothing is found inside of content, and what is taken out is a whole block
with the line feed behind it. Nothing that is left comes to stand side by side in a new way.
-/

namespace TagExpansion.Markup

/-! ### Content of a block -/

/-- What begins and ends a block. How the beginning of a preformatted block goes on does not
matter. -/
def blockTags : List Text := ["<p>".toList, "</p>".toList, "<pre".toList, "</pre>".toList]

/-- The marks that stand inside of a block. -/
def inlineMarks : List Text :=
  let markup := Tag.Markup.of .html
  [markup.bold.1, markup.bold.2, markup.italic.1, markup.italic.2, markup.code.1, markup.code.2,
    markup.lineBreak]

/-- A part of the content of a block. -/
inductive InlinePart : Text → Prop where
  | plain {c : Char} (isPlain : isSpecial c = false) : InlinePart [c]
  | unit {unit : Text} (member : unit ∈ entities ++ inlineMarks) : InlinePart unit

/-- A text that can be the content of a block. -/
inductive Inline : Text → Prop where
  | nil : Inline []
  | part {part rest : Text} (isPart : InlinePart part) (inline : Inline rest) :
      Inline (part ++ rest)

namespace Inline

theorem append {first second : Text} (front : Inline first) (back : Inline second) :
    Inline (first ++ second) := by
  induction front with
  | nil => exact back
  | part isPart _ inductionHypothesis =>
    rw [List.append_assoc]
    exact .part isPart inductionHypothesis

theorem of_part {part : Text} (isPart : InlinePart part) : Inline part := by
  rw [← List.append_nil part]
  exact .part isPart .nil

theorem of_mark {mark : Text} (member : mark ∈ inlineMarks) : Inline mark :=
  of_part (.unit (List.mem_append_right _ member))

theorem escape (text : Text) : Inline (Markup.escape text) := by
  induction text with
  | nil => exact .nil
  | cons c rest inductionHypothesis =>
    rw [escape_cons]
    refine .part ?_ inductionHypothesis
    cases special : isSpecial c with
    | true => exact .unit (List.mem_append_left _ (escapeChar_mem_entities special))
    | false =>
      rw [escapeChar_of_not_special special]
      exact .plain special

end Inline

/-! ### Where a tag can stand -/

/-- A text in which a tag neither stands nor begins. -/
def Misses (tag : Text) : Text → Prop
  | [] => True
  | c :: rest => ¬tag <+: c :: rest ∧ ¬c :: rest <+: tag ∧ Misses tag rest

instance decidableMisses (tag : Text) : (text : Text) → Decidable (Misses tag text)
  | [] => .isTrue trivial
  | c :: rest =>
    have := decidableMisses tag rest
    inferInstanceAs (Decidable (¬tag <+: c :: rest ∧ ¬c :: rest <+: tag ∧ Misses tag rest))

namespace Misses

variable {tag : Text}

/-- No tag begins at the front of such a text, whatever follows it. -/
theorem not_isPrefix {text : Text} (misses : Misses tag text) (nonempty : text ≠ [])
    (behind : Text) : ¬tag <+: text ++ behind := by
  obtain ⟨c, rest, rfl⟩ := List.exists_cons_of_ne_nil nonempty
  intro begins
  rcases List.prefix_or_prefix_of_prefix begins (List.prefix_append _ behind) with shorter | longer
  · exact misses.1 shorter
  · exact misses.2.1 longer

/-- A tag behind such a text stands there by itself. -/
theorem infix_of_append {text behind : Text} (misses : Misses tag text)
    (stands : tag <:+: text ++ behind) : tag <:+: behind := by
  induction text with
  | nil => exact stands
  | cons c text inductionHypothesis =>
    rw [List.cons_append, List.infix_cons_iff] at stands
    rcases stands with here | later
    · exact absurd here (misses.not_isPrefix (List.cons_ne_nil _ _) behind)
    · exact inductionHypothesis misses.2.2 later

end Misses

theorem misses_of_inlinePart {tag part : Text} (member : tag ∈ blockTags)
    (isPart : InlinePart part) : Misses tag part := by
  cases isPart with
  | @plain c isPlain =>
    have starts : ∀ tag ∈ blockTags, tag.head? = some '<' := by decide
    obtain ⟨behind, rfl⟩ := List.head?_eq_some_iff.mp (starts tag member)
    have different : '<' ≠ c := by
      rintro rfl
      cases isPlain
    simp [Misses, List.cons_prefix_cons, different, different.symm]
  | unit isUnit =>
    have all : ∀ tag ∈ blockTags, ∀ unit ∈ entities ++ inlineMarks, Misses tag unit := by decide
    exact all tag member part isUnit

/-- No tag of a block stands in content. -/
theorem Inline.not_infix {tag content : Text} (member : tag ∈ blockTags)
    (inline : Inline content) : ¬tag <:+: content := by
  induction inline with
  | nil =>
    have nonempty : ∀ tag ∈ blockTags, tag ≠ [] := by decide
    rw [List.infix_nil]
    exact nonempty tag member
  | part isPart _ inductionHypothesis =>
    exact fun stands =>
      inductionHypothesis ((misses_of_inlinePart member isPart).infix_of_append stands)

/-! ### Taking empty paragraphs out -/

theorem after?_append (start rest : Text) : Text.after? start (start ++ rest) = some rest := by
  induction start with
  | nil => rfl
  | cons c start inductionHypothesis => simp [Text.after?, inductionHypothesis]

theorem dropEmptyParagraphs_of_eq_some {text after : Text}
    (found : afterEmptyParagraph? text = some after) :
    dropEmptyParagraphs text = dropEmptyParagraphs after := by
  cases text with
  | nil => cases found
  | cons c rest =>
    rw [dropEmptyParagraphs]
    split
    · rename_i other
      rw [found] at other
      cases other
      rfl
    · rename_i missing
      rw [found] at missing
      cases missing

theorem dropEmptyParagraphs_of_eq_none {c : Char} {rest : Text}
    (missing : afterEmptyParagraph? (c :: rest) = none) :
    dropEmptyParagraphs (c :: rest) = c :: dropEmptyParagraphs rest := by
  rw [dropEmptyParagraphs]
  split
  · rename_i found
    rw [missing] at found
    cases found
  · rfl

/-- An empty paragraph begins like a paragraph. -/
theorem afterEmptyParagraph?_eq_none {text : Text} (noParagraph : ¬"<p>".toList <+: text) :
    afterEmptyParagraph? text = none := by
  refine Option.eq_none_iff_forall_ne_some.mpr fun after found => noParagraph ?_
  simp only [afterEmptyParagraph?, Option.bind_eq_bind, Option.bind_eq_some_iff] at found
  obtain ⟨content, opened, -⟩ := found
  exact ⟨content, (Text.eq_append_of_after? opened).symm⟩

theorem dropEmptyParagraphs_append {text : Text} (misses : Misses "<p>".toList text)
    (behind : Text) :
    dropEmptyParagraphs (text ++ behind) = text ++ dropEmptyParagraphs behind := by
  induction text with
  | nil => rfl
  | cons c text inductionHypothesis =>
    have noParagraph := misses.not_isPrefix (List.cons_ne_nil c text) behind
    rw [List.cons_append] at noParagraph ⊢
    rw [dropEmptyParagraphs_of_eq_none (afterEmptyParagraph?_eq_none noParagraph),
      inductionHypothesis misses.2.2, List.cons_append]

theorem Inline.dropEmptyParagraphs_append {content : Text} (inline : Inline content)
    (behind : Text) :
    dropEmptyParagraphs (content ++ behind) = content ++ dropEmptyParagraphs behind := by
  induction inline with
  | nil => rfl
  | part isPart _ inductionHypothesis =>
    rw [List.append_assoc, Markup.dropEmptyParagraphs_append
      (misses_of_inlinePart (by decide) isPart), inductionHypothesis, List.append_assoc]

theorem Inline.dropEmptyParagraphs_eq {content : Text} (inline : Inline content) :
    dropEmptyParagraphs content = content := by
  have stays := inline.dropEmptyParagraphs_append []
  rw [List.append_nil, dropEmptyParagraphs, List.append_nil] at stays
  exact stays

/-- Content that is not blank does not end at its blanks, since it goes on with a part that is no
tag of a block. -/
theorem Inline.not_isPrefix_dropWhile {tag content : Text} (member : tag ∈ blockTags)
    (inline : Inline content) (solid : ∃ c ∈ content, Text.isBlank c = false) (behind : Text) :
    ¬tag <+: (content ++ behind).dropWhile Text.isBlank := by
  induction inline with
  | nil => simp at solid
  | @part part rest isPart _ inductionHypothesis =>
    have misses := misses_of_inlinePart member isPart
    rw [List.append_assoc]
    cases isPart with
    | @plain c isPlain =>
      cases blank : Text.isBlank c with
      | true =>
        rw [List.singleton_append, List.dropWhile_cons_of_pos blank]
        refine inductionHypothesis ?_
        obtain ⟨d, isChar, isSolid⟩ := solid
        rcases List.mem_append.mp isChar with here | later
        · rw [List.mem_singleton.mp here, blank] at isSolid
          cases isSolid
        · exact ⟨d, later, isSolid⟩
      | false =>
        rw [List.singleton_append, List.dropWhile_cons_of_neg (by simp [blank])]
        exact misses.not_isPrefix (List.cons_ne_nil c []) _
    | unit isUnit =>
      have starts : ∀ unit ∈ entities ++ inlineMarks,
          unit.head?.any (fun c => !Text.isBlank c) = true := by decide
      obtain ⟨c, isHead, isSolid⟩ := (Option.any_eq_true _ _).mp (starts part isUnit)
      obtain ⟨letters, rfl⟩ := List.head?_eq_some_iff.mp isHead
      rw [List.cons_append, List.dropWhile_cons_of_neg (by simpa using isSolid)]
      exact misses.not_isPrefix (List.cons_ne_nil c letters) _

/-! ### Blocks -/

/-- A block of a document, with what stands in it. -/
inductive Block where
  | paragraph (content : Text)
  | preformatted (content : Text)
  deriving DecidableEq, Repr

namespace Block

def content : Block → Text
  | .paragraph content => content
  | .preformatted content => content

/-- A block with its tags. -/
def written : Block → Text
  | .paragraph content => "<p>".toList ++ content ++ "</p>".toList
  | .preformatted content => "<pre class=\"longcode\">".toList ++ content ++ "</pre>".toList

theorem written_paragraph (content : Text) :
    (Block.paragraph content).written = "<p>".toList ++ content ++ "</p>".toList := rfl

theorem written_preformatted (content : Text) :
    (Block.preformatted content).written =
      "<pre class=\"longcode\">".toList ++ content ++ "</pre>".toList := rfl

/-- A block has no tag of a block inside, and a paragraph is not blank. -/
structure Proper (block : Block) : Prop where
  bare : ∀ tag ∈ blockTags, ¬tag <:+: block.content
  solid : ∀ content, block = .paragraph content → ∃ c ∈ content, Text.isBlank c = false

end Block

/-- Blocks one behind the other, each with at most one line feed behind it. -/
inductive Document : List Block → Text → Prop where
  | nil : Document [] []
  | cons {block : Block} {blocks : List Block} {feed rest : Text}
      (atMostOne : feed = [] ∨ feed = ['\n']) (others : Document blocks rest) :
      Document (block :: blocks) (block.written ++ feed ++ rest)

/-- A text is a document of proper blocks. -/
def IsDocument (text : Text) : Prop :=
  ∃ blocks, Document blocks text ∧ ∀ block ∈ blocks, block.Proper

namespace IsDocument

theorem nil : IsDocument [] := ⟨[], .nil, by simp⟩

theorem cons {block : Block} {feed rest : Text} (proper : block.Proper)
    (atMostOne : feed = [] ∨ feed = ['\n']) (others : IsDocument rest) :
    IsDocument (block.written ++ feed ++ rest) := by
  obtain ⟨blocks, document, allProper⟩ := others
  refine ⟨block :: blocks, .cons atMostOne document, fun other member => ?_⟩
  rcases List.mem_cons.mp member with rfl | later
  · exact proper
  · exact allProper other later

end IsDocument

theorem written_paragraph_append (content behind : Text) :
    (Block.paragraph content).written ++ behind =
      "<p>".toList ++ (content ++ ("</p>".toList ++ behind)) := by
  rw [Block.written_paragraph, List.append_assoc, List.append_assoc]

/-- The beginning of a paragraph stays if it is not ended behind blanks. -/
theorem dropEmptyParagraphs_opening {rest : Text}
    (goesOn : ¬"</p>".toList <+: rest.dropWhile Text.isBlank) :
    dropEmptyParagraphs ("<p>".toList ++ rest) = "<p>".toList ++ dropEmptyParagraphs rest := by
  have stays : afterEmptyParagraph? ("<p>".toList ++ rest) = none := by
    refine Option.eq_none_iff_forall_ne_some.mpr fun after found => goesOn ?_
    simp only [afterEmptyParagraph?, after?_append, Option.bind_eq_bind, Option.bind_some,
      Option.bind_eq_some_iff] at found
    obtain ⟨behind, closed, -⟩ := found
    exact ⟨behind, (Text.eq_append_of_after? closed).symm⟩
  have front : "<p>".toList = '<' :: "p>".toList := rfl
  have second : Misses "<p>".toList "p>".toList := by decide
  rw [front, List.cons_append] at stays ⊢
  rw [dropEmptyParagraphs_of_eq_none stays, dropEmptyParagraphs_append second, List.cons_append]

/-- A paragraph that is not blank stays. -/
theorem dropEmptyParagraphs_paragraph {content : Text} (inline : Inline content)
    (solid : ∃ c ∈ content, Text.isBlank c = false) (behind : Text) :
    dropEmptyParagraphs ((Block.paragraph content).written ++ behind) =
      (Block.paragraph content).written ++ dropEmptyParagraphs behind := by
  have isClosing : "</p>".toList ∈ blockTags := by decide
  have last : Misses "<p>".toList "</p>".toList := by decide
  rw [written_paragraph_append, written_paragraph_append,
    dropEmptyParagraphs_opening (inline.not_isPrefix_dropWhile isClosing solid _),
    inline.dropEmptyParagraphs_append, dropEmptyParagraphs_append last]

/-- A paragraph that is blank goes, with the line feed behind it. -/
theorem dropEmptyParagraphs_blank {content feed behind : Text}
    (blank : ∀ c ∈ content, Text.isBlank c = true)
    (feeds : feed = ['\n'] ∨ feed = [] ∧ behind = []) :
    dropEmptyParagraphs ((Block.paragraph content).written ++ feed ++ behind) =
      dropEmptyParagraphs behind := by
  refine dropEmptyParagraphs_of_eq_some ?_
  have ends : ("</p>".toList ++ (feed ++ behind)).dropWhile Text.isBlank =
      "</p>".toList ++ (feed ++ behind) := List.dropWhile_cons_of_neg (by decide)
  rw [List.append_assoc, written_paragraph_append]
  simp only [afterEmptyParagraph?, after?_append, Option.bind_eq_bind, Option.bind_some,
    List.dropWhile_append_of_pos blank, ends]
  rcases feeds with rfl | ⟨rfl, rfl⟩
  · rfl
  · rfl

/-! ### Expanded texts -/

/-- What stands between the contents of two paragraphs: the end of one and the beginning of the
other, and a preformatted block between them or none. -/
inductive Gap : Text → Prop where
  | paragraphBreak : Gap paragraphBreak
  | block {body : Text} (inline : Inline body) :
      Gap (Tag.enclose (Tag.Markup.of .html).longcode body)

/-- A block that a tag sets, between the end of a paragraph and the beginning of another. -/
theorem enclose_longcode (body : Text) :
    Tag.enclose (Tag.Markup.of .html).longcode body = "</p>\n".toList ++
      ((Block.preformatted body).written ++ ['\n'] ++ "<p>".toList) := by
  have opening : (Tag.Markup.of .html).longcode.1 =
      "</p>\n".toList ++ "<pre class=\"longcode\">".toList := rfl
  have closing : (Tag.Markup.of .html).longcode.2 = "</pre>".toList ++ ['\n'] ++ "<p>".toList := rfl
  simp only [Tag.enclose, opening, closing, Block.written_preformatted, List.append_assoc]

/-- The contents of paragraphs with gaps between them. -/
inductive Flow : Text → Prop where
  | last {content : Text} (inline : Inline content) : Flow content
  | next {content gap rest : Text} (inline : Inline content) (isGap : Gap gap) (flow : Flow rest) :
      Flow (content ++ gap ++ rest)

namespace Flow

theorem after {content text : Text} (inline : Inline content) (flow : Flow text) :
    Flow (content ++ text) := by
  cases flow with
  | last behind => exact .last (inline.append behind)
  | next behind isGap flow =>
    rw [← List.append_assoc, ← List.append_assoc]
    exact .next (inline.append behind) isGap flow

theorem append {first second : Text} (front : Flow first) (back : Flow second) :
    Flow (first ++ second) := by
  induction front with
  | last inline => exact after inline back
  | next inline isGap _ inductionHypothesis =>
    rw [List.append_assoc]
    exact .next inline isGap inductionHypothesis

theorem of_gap {gap : Text} (isGap : Gap gap) : Flow gap := by
  rw [← List.append_nil gap]
  exact .next .nil isGap (.last .nil)

theorem join {parts : List Text} (inline : ∀ part ∈ parts, Inline part) :
    Flow (Text.join paragraphBreak parts) := by
  refine Text.join_induction (.last .nil) (fun part member => .last (inline part member)) ?_
  intro part member rest later
  rw [← List.append_assoc]
  exact .next (inline part member) .paragraphBreak later

theorem htmlParagraphs_escape (text : Text) : Flow (htmlParagraphs (Markup.escape text)) := by
  rw [htmlParagraphs, joinParagraphs, paragraphs_escape]
  refine join fun part member => ?_
  obtain ⟨paragraph, -, rfl⟩ := List.mem_map.mp member
  exact .escape paragraph

end Flow

/-- A paragraph in front of a document. -/
theorem isDocument_paragraph {content feed behind : Text} (inline : Inline content)
    (feeds : feed = ['\n'] ∨ feed = [] ∧ behind = [])
    (others : IsDocument (dropEmptyParagraphs behind)) :
    IsDocument (dropEmptyParagraphs ((Block.paragraph content).written ++ feed ++ behind)) := by
  by_cases solid : ∃ c ∈ content, Text.isBlank c = false
  · have bare : ∀ tag ∈ blockTags, ¬tag <:+: content := fun tag member => inline.not_infix member
    have proper : (Block.paragraph content).Proper := by
      refine ⟨bare, fun other same => ?_⟩
      cases same
      exact solid
    have atMostOne : feed = [] ∨ feed = ['\n'] := feeds.symm.imp And.left id
    have passes : Misses "<p>".toList feed := by
      rcases atMostOne with rfl | rfl
      · trivial
      · decide
    rw [List.append_assoc, dropEmptyParagraphs_paragraph inline solid,
      dropEmptyParagraphs_append passes, ← List.append_assoc]
    exact .cons proper atMostOne others
  · have blank : ∀ c ∈ content, Text.isBlank c = true := by simpa using solid
    rw [dropEmptyParagraphs_blank blank feeds]
    exact others

theorem isDocument_preformatted {body behind : Text} (inline : Inline body)
    (others : IsDocument (dropEmptyParagraphs behind)) :
    IsDocument (dropEmptyParagraphs ((Block.preformatted body).written ++ ['\n'] ++ behind)) := by
  have proper : (Block.preformatted body).Proper :=
    ⟨fun tag member => inline.not_infix member, fun _ same => by cases same⟩
  have opening : Misses "<p>".toList "<pre class=\"longcode\">".toList := by decide
  have closing : Misses "<p>".toList "</pre>".toList := by decide
  have passes : dropEmptyParagraphs ((Block.preformatted body).written ++ ['\n'] ++ behind) =
      (Block.preformatted body).written ++ ['\n'] ++ dropEmptyParagraphs behind := by
    simp only [Block.written_preformatted, List.append_assoc]
    rw [dropEmptyParagraphs_append opening, inline.dropEmptyParagraphs_append,
      dropEmptyParagraphs_append closing, dropEmptyParagraphs_append (by decide)]
  rw [passes]
  exact .cons proper (.inr rfl) others

/-- A finished text is a document. The induction is on the gaps: what stands before a gap becomes a
paragraph or goes, and what stands behind it is finished in the same way. -/
theorem Flow.isDocument_finish {text : Text} (flow : Flow text) :
    IsDocument (Format.html.finish text) := by
  have finish (text : Text) : Format.html.finish text =
      dropEmptyParagraphs ("<p>".toList ++ text ++ "</p>".toList) := rfl
  rw [finish]
  induction flow with
  | @last content inline =>
    have written : (Block.paragraph content).written ++ [] ++ [] =
        "<p>".toList ++ content ++ "</p>".toList := by
      rw [List.append_nil, List.append_nil, Block.written_paragraph]
    rw [← written]
    refine isDocument_paragraph inline (.inr ⟨rfl, rfl⟩) ?_
    rw [dropEmptyParagraphs]
    exact .nil
  | @next content gap rest inline isGap _ inductionHypothesis =>
    cases isGap with
    | paragraphBreak =>
      have written : "<p>".toList ++ (content ++ paragraphBreak ++ rest) ++ "</p>".toList =
          (Block.paragraph content).written ++ ['\n'] ++
            ("<p>".toList ++ rest ++ "</p>".toList) := by
        have split : paragraphBreak = "</p>".toList ++ ['\n'] ++ "<p>".toList := rfl
        simp only [split, Block.written_paragraph, List.append_assoc]
      rw [written]
      exact isDocument_paragraph inline (.inl rfl) inductionHypothesis
    | @block body isBody =>
      have written : "<p>".toList ++ (content ++ Tag.enclose (Tag.Markup.of .html).longcode body ++
          rest) ++ "</p>".toList = (Block.paragraph content).written ++ ['\n'] ++
            ((Block.preformatted body).written ++ ['\n'] ++
              ("<p>".toList ++ rest ++ "</p>".toList)) := by
        have split : "</p>\n".toList = "</p>".toList ++ ['\n'] := rfl
        simp only [enclose_longcode, split, Block.written_paragraph, List.append_assoc]
      rw [written]
      exact isDocument_paragraph inline (.inl rfl)
        (isDocument_preformatted isBody inductionHypothesis)

end TagExpansion.Markup
