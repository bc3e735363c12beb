import TagExpansion.Proofs.Elements
import TagExpansion.Proofs.HtmlDocument

/-
This file proves how the inline elements of a finished HTML document stand to each other and to the
paragraphs.

A tag that encloses its parameter puts its marks around what the parameter has been expanded to. The
opening mark and the closing one thus come in pairs, and whatever is between them is whole. So the
elements are properly nested, and there is one for each call of a tag that writes one.

Paragraphs do not heed this. A parameter is expanded like any text, and where it has an empty line
or a block, the paragraph ends and another begins in the midst of the element. Such an element is
opened in one paragraph and closed in another, and all others are closed in the paragraph that they
are opened in. The empty paragraphs that are taken out in the end do not change this: a paragraph
with a mark in it is not empty, so what is taken out lies on the same side of every mark, and the
first paragraph that ends in an element is not an empty one.
-/

namespace TagExpansion.Markup

/-! ### Woven texts without their empty paragraphs -/

/-- An element without the empty paragraphs inside. -/
def Element.thinned (element : Element) : Element :=
  ⟨element.marks, dropEmptyParagraphs element.inside⟩

/-- A text at the front of which no paragraph ends behind blanks. -/
def GoesOn (text : Text) : Prop := ¬"</p>".toList <+: text.dropWhile Text.isBlank

theorem goesOn_nil : GoesOn [] := by
  rw [GoesOn, List.dropWhile_nil, List.prefix_nil]
  exact List.cons_ne_nil _ _

theorem goesOn_blank_append {blanks text : Text} (blank : ∀ c ∈ blanks, Text.isBlank c = true)
    (goesOn : GoesOn text) : GoesOn (blanks ++ text) := by
  rw [GoesOn, List.dropWhile_append_of_pos blank]
  exact goesOn

theorem Inline.goesOn {content : Text} (inline : Inline content)
    (solid : ∃ c ∈ content, Text.isBlank c = false) (behind : Text) : GoesOn (content ++ behind) :=
  inline.not_isPrefix_dropWhile (by decide) solid behind

theorem inline_of_blank {blanks : Text} (blank : ∀ c ∈ blanks, Text.isBlank c = true) :
    Inline blanks := by
  induction blanks with
  | nil => exact .nil
  | cons c rest inductionHypothesis =>
    rw [List.forall_mem_cons] at blank
    exact .part (.plain (isSpecial_of_isBlank blank.1)) (inductionHypothesis blank.2)

theorem exists_solid_of_mem_documentUnits {unit : Text} (member : unit ∈ documentUnits) :
    ∃ c ∈ unit, Text.isBlank c = false := by
  obtain ⟨c, rest, rfl, special⟩ := exists_special_of_mem_documentUnits member
  refine ⟨c, List.mem_cons_self, Bool.eq_false_iff.mpr fun blank => ?_⟩
  rw [isSpecial_of_isBlank blank] at special
  cases special

/-- A text becomes a woven one when its empty paragraphs are taken out. What is made of it is the
same whatever follows it, as long as that does not end the paragraph. -/
structure Thins (elements : List Element) (text : Text) : Prop where
  opened : ∃ thin, Woven DocumentPart elements thin ∧ ∀ behind, GoesOn behind →
    dropEmptyParagraphs (text ++ behind) = thin ++ dropEmptyParagraphs behind
  closed : Woven DocumentPart elements (dropEmptyParagraphs (text ++ "</p>".toList))

namespace Thins

variable {elements : List Element} {text front blanks : Text}

theorem nil : Thins [] [] where
  opened := ⟨[], .nil, fun _ _ => rfl⟩
  closed := by
    have ending : Misses "<p>".toList "</p>".toList := by decide
    rw [List.nil_append, ← List.append_nil "</p>".toList, dropEmptyParagraphs_append ending,
      dropEmptyParagraphs]
    exact .of_part (.tag (by decide))

/-- What begins a text may stay where nothing is taken out of it. -/
theorem after (thins : Thins elements text) (parts : Woven DocumentPart [] front)
    (passes : ∀ behind, dropEmptyParagraphs (front ++ (text ++ behind)) =
      front ++ dropEmptyParagraphs (text ++ behind)) : Thins elements (front ++ text) where
  opened := by
    obtain ⟨thin, woven, thinned⟩ := thins.opened
    refine ⟨front ++ thin, parts.append woven, fun behind goesOn => ?_⟩
    rw [List.append_assoc, passes, thinned behind goesOn, List.append_assoc]
  closed := by
    rw [List.append_assoc, passes]
    exact parts.append thins.closed

/-- Texts that become the same are both woven in the end. -/
theorem congr (thins : Thins elements text)
    (same : ∀ behind,
      dropEmptyParagraphs (front ++ behind) = dropEmptyParagraphs (text ++ behind)) :
    Thins elements front where
  opened := by
    obtain ⟨thin, woven, thinned⟩ := thins.opened
    exact ⟨thin, woven, fun behind goesOn => (same behind).trans (thinned behind goesOn)⟩
  closed := by
    rw [same]
    exact thins.closed

theorem of_blanks (blank : ∀ c ∈ blanks, Text.isBlank c = true) :
    Thins [] ("<p>".toList ++ (blanks ++ [])) where
  opened := by
    refine ⟨"<p>".toList ++ blanks, .part (.tag (by decide)) ?_, fun behind goesOn => ?_⟩
    · exact .of_plain (fun _ => .loose) fun c member => isSpecial_of_isBlank (blank c member)
    · rw [List.append_nil, List.append_assoc,
        dropEmptyParagraphs_opening (goesOn_blank_append blank goesOn),
        (inline_of_blank blank).dropEmptyParagraphs_append, List.append_assoc]
  closed := by
    have goes := dropEmptyParagraphs_blank blank (.inr ⟨rfl, rfl⟩)
    rw [Block.written_paragraph, List.append_nil, List.append_nil] at goes
    rw [List.append_nil, goes, dropEmptyParagraphs]
    exact .nil

/-- A paragraph that begins with something else than blanks stays. -/
theorem opening (thins : Thins elements text) (blank : ∀ c ∈ blanks, Text.isBlank c = true)
    (goesOn : ∀ behind, GoesOn (text ++ behind)) :
    Thins elements ("<p>".toList ++ (blanks ++ text)) := by
  have parts : Woven DocumentPart [] ("<p>".toList ++ blanks) := by
    refine .part (.tag (by decide)) (.of_plain (fun _ => .loose) fun c member => ?_)
    exact isSpecial_of_isBlank (blank c member)
  rw [← List.append_assoc]
  refine thins.after parts fun behind => ?_
  rw [List.append_assoc,
    dropEmptyParagraphs_opening (goesOn_blank_append blank (goesOn behind)),
    (inline_of_blank blank).dropEmptyParagraphs_append, List.append_assoc]

/-- What stands between two paragraphs stays in front of the second one. -/
theorem gap {middle : Text} (isMiddle : Middle middle)
    (thins : Thins elements ("<p>".toList ++ text)) :
    Thins elements (middle ++ ("<p>".toList ++ text)) := by
  cases isMiddle with
  | nothing => exact thins
  | block body =>
    have parts : Woven DocumentPart []
        ((Block.preformatted (Markup.escape body)).written ++ ['\n']) := by
      rw [Block.written_preformatted, List.append_assoc, List.append_assoc]
      refine .part (.tag (by decide)) ?_
      exact (Woven.escape (fun _ => .loose) body).append
        (.part (.tag (by decide)) (.of_part (.loose (.plain rfl))))
    refine thins.after parts fun behind => ?_
    have beginning : Misses "<p>".toList "<pre class=\"longcode\">".toList := by decide
    have ending : Misses "<p>".toList ("</pre>".toList ++ ['\n']) := by decide
    rw [Block.written_preformatted]
    simp only [List.append_assoc]
    rw [dropEmptyParagraphs_append beginning, (Inline.escape body).dropEmptyParagraphs_append,
      ← List.append_assoc "</pre>".toList, dropEmptyParagraphs_append ending, List.append_assoc]

theorem element {inner later : List Element} {marks : Text × Text} {inside rest : Text}
    (member : marks ∈ elementMarks) (within : Thins inner inside) (behind : Thins later rest) :
    Thins (inner ++ Element.thinned ⟨marks, inside⟩ :: later)
      (Tag.enclose marks inside ++ rest) := by
  obtain ⟨first, last⟩ := inline_of_mem_elementMarks member
  obtain ⟨thin, woven, thinned⟩ := within.opened
  have whole : dropEmptyParagraphs inside = thin := by
    have alone := thinned [] goesOn_nil
    rw [List.append_nil, dropEmptyParagraphs, List.append_nil] at alone
    exact alone
  have solid := exists_solid_of_mem_documentUnits (closing_mem_documentUnits member)
  have passes (behind : Text) : dropEmptyParagraphs (Tag.enclose marks inside ++ behind) =
      Tag.enclose marks thin ++ dropEmptyParagraphs behind := by
    rw [enclose_append, enclose_append, first.dropEmptyParagraphs_append,
      thinned _ (last.goesOn solid behind), last.dropEmptyParagraphs_append]
  rw [Element.thinned, whole]
  constructor
  · obtain ⟨others, wovenBehind, thinnedBehind⟩ := behind.opened
    refine ⟨_, .element member woven wovenBehind, fun more goesOn => ?_⟩
    rw [List.append_assoc, passes, thinnedBehind more goesOn, List.append_assoc]
  · rw [List.append_assoc, passes]
    exact .element member woven behind.closed

end Thins

theorem LoosePart.blank_or_solid {part : Text} (isLoose : LoosePart part) :
    (∃ c, part = [c] ∧ Text.isBlank c = true) ∨ ∃ c ∈ part, Text.isBlank c = false := by
  cases isLoose with
  | @plain c =>
    cases blank : Text.isBlank c with
    | true => exact .inl ⟨c, rfl, blank⟩
    | false => exact .inr ⟨c, List.mem_singleton_self c, blank⟩
  | unit member =>
    refine .inr (exists_solid_of_mem_documentUnits ?_)
    exact List.mem_append_left _ (List.mem_append_left _ (List.mem_append_left _ member))

/-- Woven texts stay woven, on their own as well as in a paragraph that has only blanks so far. The
two are proved together, for what is made of a gap depends on what stands in the paragraph that it
ends, and every gap begins another one. -/
theorem Woven.thins {elements : List Element} {text : Text} (woven : Woven FlowPart elements text) :
    Thins (elements.map Element.thinned) text ∧
      ∀ blanks, (∀ c ∈ blanks, Text.isBlank c = true) →
        Thins (elements.map Element.thinned) ("<p>".toList ++ (blanks ++ text)) := by
  induction woven with
  | nil => exact ⟨.nil, fun _ => .of_blanks⟩
  | @part elements part rest isOne _ inductionHypothesis =>
    obtain ⟨alone, begun⟩ := inductionHypothesis
    cases isOne with
    | loose isLoose =>
      have inline := Inline.of_part isLoose.inlinePart
      have stays : Thins (elements.map Element.thinned) (part ++ rest) :=
        alone.after (.of_part (.loose isLoose)) fun behind => inline.dropEmptyParagraphs_append _
      refine ⟨stays, fun blanks blank => ?_⟩
      rcases isLoose.blank_or_solid with ⟨c, rfl, isBlank⟩ | solid
      · rw [← List.append_assoc blanks]
        exact begun (blanks ++ [c]) (List.forall_mem_append.mpr ⟨blank, by simpa using isBlank⟩)
      · refine stays.opening blank fun behind => ?_
        rw [List.append_assoc]
        exact inline.goesOn solid _
    | @gap middle isMiddle =>
      have next := (begun [] (List.forall_mem_nil _)).gap isMiddle
      have ending : Misses "<p>".toList "</p>\n".toList := by decide
      have split : "</p>\n".toList = "</p>".toList ++ ['\n'] := rfl
      have parts : Woven DocumentPart [] "</p>\n".toList :=
        split ▸ .part (.tag (by decide)) (.of_part (.loose (.plain rfl)))
      simp only [List.append_assoc]
      refine ⟨next.after parts fun behind => dropEmptyParagraphs_append ending _, ?_⟩
      intro blanks blank
      refine next.congr fun behind => ?_
      have goes : dropEmptyParagraphs ((Block.paragraph blanks).written ++ ['\n'] ++
          (middle ++ ("<p>".toList ++ (rest ++ behind)))) =
            dropEmptyParagraphs (middle ++ ("<p>".toList ++ (rest ++ behind))) :=
        dropEmptyParagraphs_blank blank (.inl rfl)
      simp only [Block.written_paragraph, List.append_assoc, List.nil_append, split] at goes ⊢
      exact goes
  | @element inner later marks inside rest member _ _ inductionInside inductionBehind =>
    have stays := Thins.element member inductionInside.1 inductionBehind.1
    rw [List.map_append, List.map_cons]
    refine ⟨stays, fun blanks blank => stays.opening blank fun behind => ?_⟩
    obtain ⟨first, -⟩ := inline_of_mem_elementMarks member
    rw [List.append_assoc, enclose_append]
    exact first.goesOn (exists_solid_of_mem_documentUnits (opening_mem_documentUnits member)) _

/-- A finished document has the elements of the expanded text. -/
theorem Woven.finish {elements : List Element} {text : Text}
    (woven : Woven FlowPart elements text) :
    Woven DocumentPart (elements.map Element.thinned) (Format.html.finish text) :=
  (woven.thins.2 [] (List.forall_mem_nil _)).closed

/-- An element is closed in the block that it is opened in: none ends or begins inside of it. -/
def Element.Kept (element : Element) : Prop := ∀ tag ∈ blockTags, ¬tag <:+: element.inside

instance (element : Element) : Decidable element.Kept :=
  inferInstanceAs (Decidable (∀ tag ∈ blockTags, ¬tag <:+: element.inside))

/-- An element is closed in the paragraph that it is opened in exactly if no paragraph ends in the
expanded text inside of it. -/
theorem Flow.kept_thinned_iff {element : Element} (flow : Flow element.inside) :
    element.thinned.Kept ↔ ¬"</p>".toList <:+: element.inside := by
  obtain ⟨marks, inside⟩ := element
  cases flow with
  | last inline =>
    rw [Element.thinned, Element.Kept, inline.dropEmptyParagraphs_eq]
    exact iff_of_true (fun tag member => inline.not_infix member) (inline.not_infix (by decide))
  | @next content gap rest inline isGap =>
    have ends : ∃ others, gap = "</p>".toList ++ others := by
      cases isGap with
      | paragraphBreak => exact ⟨_, rfl⟩
      | block => exact ⟨_, rfl⟩
    obtain ⟨others, rfl⟩ := ends
    have ending : Misses "<p>".toList "</p>".toList := by decide
    refine iff_of_false (fun kept => kept "</p>".toList (by decide) ?_) (not_not_intro ?_)
    · show "</p>".toList <:+: dropEmptyParagraphs (content ++ ("</p>".toList ++ others) ++ rest)
      rw [List.append_assoc, inline.dropEmptyParagraphs_append, List.append_assoc,
        dropEmptyParagraphs_append ending]
      exact ⟨content, dropEmptyParagraphs (others ++ rest), List.append_assoc _ _ _⟩
    · exact ⟨content, others ++ rest, by simp⟩

end TagExpansion.Markup

/-! ### What calls write -/

namespace TagExpansion

open Markup (Element Woven FlowPart DocumentPart)

/-- The element that a call of a builtin tag writes into an HTML text, if it writes one. -/
def Call.element? (call : Call) : Option Element :=
  let markup := Tag.Markup.of .html
  ((markup.enclosers.lookup call.name).map fun marks => ⟨marks, call.parameter⟩).or
    (if Tag.codeWords.contains call.name then some ⟨markup.code, call.name⟩ else none)

namespace Call

variable {call : Call}

theorem element?_of_mem_enclosers {marks : Text × Text}
    (member : (call.name, marks) ∈ (Tag.Markup.of .html).enclosers) :
    call.element? = some ⟨marks, call.parameter⟩ := by
  have found : ∀ encloser ∈ (Tag.Markup.of .html).enclosers,
      (Tag.Markup.of .html).enclosers.lookup encloser.1 = some encloser.2 := by decide
  simp only [element?, found _ member, Option.map_some, Option.some_or]

theorem element?_of_mem_codeWords (member : call.name ∈ Tag.codeWords) :
    call.element? = some ⟨(Tag.Markup.of .html).code, call.name⟩ := by
  have missing : ∀ word ∈ Tag.codeWords,
      (Tag.Markup.of .html).enclosers.lookup word = none := by decide
  simp only [element?, missing _ member, Option.map_none, Option.none_or,
    if_pos (List.contains_iff_mem.mpr member)]

/-- An element is written around a parameter or around the name of the tag itself. -/
theorem of_element? {element : Element} (writes : call.element? = some element) :
    (call.name ∈ Tag.enclosingNames ∧ element.inside = call.parameter) ∨
      (call.name ∈ Tag.codeWords ∧ element.inside = call.name) := by
  simp only [element?, Option.or_eq_some_iff, Option.map_eq_some_iff] at writes
  rcases writes with ⟨marks, found, rfl⟩ | ⟨-, isOther⟩
  · obtain ⟨front, back, same, -⟩ := List.lookup_eq_some_iff.mp found
    have member : (call.name, marks) ∈ (Tag.Markup.of .html).enclosers := by simp [same]
    exact .inl ⟨Tag.mem_enclosingNames_of_mem_enclosers member, rfl⟩
  · split at isOther
    · rename_i isWord
      cases isOther
      exact .inr ⟨List.contains_iff_mem.mp isWord, rfl⟩
    · cases isOther

/-- The tags that write no element: a line break and a block. -/
theorem element?_eq_none (other : call.name ∈ ["br".toList, Tag.blockName]) :
    call.element? = none := by
  have missing : ∀ name ∈ ["br".toList, Tag.blockName],
      (Tag.Markup.of .html).enclosers.lookup name = none ∧
        Tag.codeWords.contains name = false := by decide
  obtain ⟨noMarks, noWord⟩ := missing _ other
  simp only [element?, noMarks, noWord, Option.map_none, Option.none_or]
  rfl

end Call

namespace Engine

/-- The elements that the calls among some events write. -/
def writtenElements (events : List Event) : List Element :=
  (events.filterMap Event.call?).filterMap Call.element?

theorem writtenElements_append (front back : List Event) :
    writtenElements (front ++ back) = writtenElements front ++ writtenElements back := by
  rw [writtenElements, List.filterMap_append, List.filterMap_append]
  rfl

theorem writtenElements_of_element {call : Call} {element : Element}
    (writes : call.element? = some element) : writtenElements [.called call] = [element] := by
  simp [writtenElements, Event.call?, writes]

theorem writtenElements_of_none {call : Call} (nothing : call.element? = none) :
    writtenElements [.called call] = [] := by
  simp [writtenElements, Event.call?, nothing]

theorem writtenElements_of_aside {events : List Event} (aside : ∀ event ∈ events, Aside event) :
    writtenElements events = [] := by
  have noCalls : events.filterMap Event.call? = [] := by
    refine List.filterMap_eq_nil_iff.mpr fun event member => ?_
    have isAside := aside event member
    cases event with
    | called call => exact isAside.elim
    | _ => rfl
  rw [writtenElements, noCalls, List.filterMap_nil]

/-- Without a warning, which would tell of a declined block, a result is woven of what the calls
write. -/
def Weaves (events : List Event) (result : Text) : Prop :=
  (∀ report, .reported report ∈ events → report.kind ≠ .warning) →
    Woven FlowPart (writtenElements events) result

theorem renders_weaves : Renders .html Weaves where
  append before after harmless := by
    rw [writtenElements_append]
    exact (before fun report member => harmless report (List.mem_append_left _ member)).append
      (after fun report member => harmless report (List.mem_append_right _ member))
  aside quiet _ := by
    rw [writtenElements_of_aside quiet]
    exact .nil
  segment text _ := .htmlParagraphs_escape text
  escape _ := .of_part (.loose (.plain rfl))
  enclosed marks events call member inside harmless := by
    have isMark : ∀ encloser ∈ (Tag.Markup.of .html).enclosers,
        encloser.2 ∈ Markup.elementMarks := by decide
    rw [writtenElements_append,
      writtenElements_of_element (Call.element?_of_mem_enclosers member)]
    exact (inside fun report isReport =>
      harmless report (List.mem_append_left _ isReport)).enclose (isMark _ member)
  fixed text call member _ := by
    rcases List.mem_cons.mp member with same | literal
    · obtain ⟨isBreak, rfl⟩ := Prod.mk.inj same
      rw [writtenElements_of_none (Call.element?_eq_none (by simp [isBreak]))]
      exact .of_part (.loose (.unit (by decide)))
    · obtain ⟨word, isWord, same⟩ := List.mem_map.mp literal
      obtain ⟨rfl, rfl⟩ := Prod.mk.inj same
      have woven : Woven FlowPart [] (Markup.escape call.name) := .escape (fun _ => .loose) _
      rw [Tag.escape_of_mem_codeWords isWord] at woven
      rw [writtenElements_of_element (Call.element?_of_mem_codeWords isWord)]
      exact woven.enclose (by decide)
  block call body isBlock _ _ := by
    rw [writtenElements_of_none (Call.element?_eq_none (by simp [isBlock])),
      show Format.html.convert body = Markup.escape body from rfl, Markup.enclose_longcode]
    exact .of_part (.gap (.block body))
  declined call notices _ _ _ harmless :=
    absurd rfl (harmless _ (List.mem_cons_of_mem _ List.mem_cons_self))

/-- With the builtin tags of HTML, where nothing mentions the tag that passes its parameter through
and no block is declined, the inline elements of the finished document are properly nested. They are
those that the calls write, one for each call of a tag for bold, italic or code and for each word
that is set as code, in the order of the calls. An element is closed in the paragraph that it is
opened in, unless a paragraph ends in the parameter that its tag encloses, and then it is not. There
is a result unless the sink gives up. -/
theorem woven_iff_of_builtin_html (engine : Engine) (builtin : engine.Builtin .html)
    (freeAbbreviations : ∀ name expansion, engine.abbreviations.find? name = some expansion →
      ¬Scan.Mentions "html".toList expansion)
    (text : Text) (free : ¬Scan.Mentions "html".toList text)
    (harmless : ∀ report ∈ (engine.expand text).reports, report.kind ≠ .warning) :
    (∀ result, (engine.expand text).outcome = .ok result →
      (∀ elements, Woven DocumentPart elements (Format.html.finish result) ↔
        elements = ((engine.expand text).calls.filterMap Call.element?).map Element.thinned) ∧
      ∀ call ∈ (engine.expand text).calls, ∀ element, call.element? = some element →
        (element.thinned.Kept ↔
          ¬(call.name ∈ Tag.enclosingNames ∧ "</p>".toList <:+: call.parameter))) ∧
      ∀ fault, (engine.expand text).outcome = .error fault →
        ∃ report ∈ (engine.expand text).reports, (engine.sink report).outcome = .error fault := by
  refine ⟨fun result ended => ?_, fun fault failed => builtin.exists_report_of_failed failed⟩
  have weaves := renders_weaves.gives_expandAt builtin freeAbbreviations 0 free result ended
  have woven : Woven FlowPart ((engine.expand text).calls.filterMap Call.element?) result :=
    weaves fun report member => harmless report (Run.mem_reports_iff.mpr member)
  refine ⟨fun elements => ⟨fun other => other.unique woven.finish, ?_⟩, ?_⟩
  · rintro rfl
    exact woven.finish
  · intro call isCall element writes
    have listed := List.mem_filterMap.mpr ⟨call, isCall, writes⟩
    obtain ⟨inner, within⟩ := woven.inside_of_mem element listed
    rw [within.flow.kept_thinned_iff]
    rcases Call.of_element? writes with ⟨isName, inside⟩ | ⟨isWord, inside⟩
    · rw [inside, and_iff_right isName]
    · have others : ∀ word ∈ Tag.codeWords,
          word ∉ Tag.enclosingNames ∧ ¬"</p>".toList <:+: word := by decide
      rw [inside]
      exact iff_of_true (others _ isWord).2 fun both => (others _ isWord).1 both.1

/-- Elements in an element, around the end of a paragraph, and around a word. -/
theorem woven_iff_of_builtin_html_nested :
    let text := "@bold(a @italic(b)) @code(c\n\nd) @nil".toList
    let document := ("<p><b>a <i>b</i></b> <code>c</p>\n" ++
      "<p>d</code> <code>nil</code></p>").toList
    htmlEngine.Builtin .html ∧ ¬Scan.Mentions "html".toList text ∧
      (∀ report ∈ (htmlEngine.expand text).reports, report.kind ≠ .warning) ∧
      (htmlEngine.expand text).outcome.map Format.html.finish = .ok document ∧
      Woven DocumentPart [
        ⟨(Tag.Markup.of .html).italic, "b".toList⟩,
        ⟨(Tag.Markup.of .html).bold, "a <i>b</i>".toList⟩,
        ⟨(Tag.Markup.of .html).code, "c</p>\n<p>d".toList⟩,
        ⟨(Tag.Markup.of .html).code, "nil".toList⟩] document := by
  intro text document
  have free : ¬Scan.Mentions "html".toList text := by decide +kernel
  have harmless : ∀ report ∈ (htmlEngine.expand text).reports, report.kind ≠ .warning := by
    decide +kernel
  have finished : (htmlEngine.expand text).outcome.map Format.html.finish = .ok document := by
    decide +kernel
  have woven := (woven_iff_of_builtin_html htmlEngine builtin_htmlEngine
    (fun _ _ found => by cases found) text free harmless).1
  refine ⟨builtin_htmlEngine, free, harmless, finished, ?_⟩
  cases ended : (htmlEngine.expand text).outcome with
  | ok result =>
    rw [ended] at finished
    have same : Format.html.finish result = document := Except.ok.inj finished
    rw [← same]
    refine ((woven result ended).1 _).mpr ?_
    decide +kernel
  | error fault =>
    rw [ended] at finished
    cases finished

/-- With an empty line in its parameter, a tag opens its element in one paragraph and closes it in
another. -/
theorem not_kept_of_empty_line :
    let text := "@bold(a\n\nb)".toList
    let document := "<p><b>a</p>\n<p>b</b></p>".toList
    htmlEngine.Builtin .html ∧ ¬Scan.Mentions "html".toList text ∧
      (∀ report ∈ (htmlEngine.expand text).reports, report.kind ≠ .warning) ∧
      (htmlEngine.expand text).outcome.map Format.html.finish = .ok document ∧
      ¬∃ elements, Woven DocumentPart elements document ∧ ∀ element ∈ elements, element.Kept := by
  intro text document
  refine ⟨builtin_htmlEngine, by decide +kernel, by decide +kernel, by decide +kernel, ?_⟩
  rintro ⟨elements, woven, allKept⟩
  let element : Element := ⟨(Tag.Markup.of .html).bold, "a</p>\n<p>b".toList⟩
  have inside : Woven FlowPart [] element.inside := by
    have letter (c : Char) (plain : Markup.isSpecial c = false) : Woven FlowPart [] [c] :=
      .of_part (.loose (.plain plain))
    have gap : Woven FlowPart [] ("</p>\n".toList ++ ([] ++ "<p>".toList)) :=
      .of_part (.gap .nothing)
    exact ((letter 'a' rfl).append gap).append (letter 'b' rfl)
  have finished : Format.html.finish (Tag.enclose element.marks element.inside) = document := by
    decide +kernel
  have own : Woven DocumentPart [element.thinned] document :=
    finished ▸ (inside.enclose (by decide)).finish
  obtain rfl := woven.unique own
  have across : ¬element.thinned.Kept := by decide +kernel
  exact across (allKept _ List.mem_cons_self)

end Engine

end TagExpansion
