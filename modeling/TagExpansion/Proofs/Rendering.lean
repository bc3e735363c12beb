import TagExpansion.Proofs.Nesting
import TagExpansion.Proofs.Trimming

/-
This file says what the builtin tags make of a text.

There are four kinds of builtin tags. Some enclose their expanded parameter in marks, some stand
for a fixed text, one sets a block, and one passes its parameter through. What an expansion with
these tags gives is therefore built from few things: converted segments, tag characters, texts
between marks, fixed texts, blocks, and, where a block has no delimiters, the tag as it would be
shown. A property that relates the events of an expansion to its result, and holds of these
things and of one after the other, holds of every expansion.

The tag that passes its parameter through can put anything into the result. So these theorems
are about texts that do not mention it. A parameter is a part of the text that it stands in, and
it mentions nothing that the text does not.
-/

namespace TagExpansion

open Tag (Definition Script)
open Scan (Argument Piece tagChar)

/-! ### Names that a text mentions -/

/-- Somewhere in a text the tag character stands before a name in any letter case. -/
def Scan.Mentions (name text : Text) : Prop := tagChar :: name <:+: Text.lower text

namespace Scan

instance (name text : Text) : Decidable (Mentions name text) :=
  inferInstanceAs (Decidable (_ <:+: _))

theorem Mentions.mono {name part text : Text} (mentions : Mentions name part)
    (inside : part <:+: text) : Mentions name text :=
  mentions.trans (inside.map Text.lowerChar)

theorem parameter_infix_source (argument : Argument) : argument.parameter <:+: argument.source := by
  cases argument with
  | absent => exact List.infix_rfl
  | enclosed inside => exact ⟨['('], [')'], rfl⟩
  | unclosed rest => exact List.nil_infix
  | line rest => exact Text.stripWith_infix Text.isBlank rest

theorem source_infix_of_mem_pieces {tags : Tag.Registry} {text : Text} {piece : Piece}
    (member : piece ∈ pieces tags text) : piece.source <:+: text := by
  obtain ⟨front, rest, after, rfl, begins⟩ := begins_of_mem_pieces member
  rw [← begins.source_append]
  exact ⟨front, after, List.append_assoc _ _ _⟩

/-- The parameter of a tag is a part of the text. -/
theorem parameter_infix_of_mem_pieces {tags : Tag.Registry} {text letters : Text}
    {definition : Definition} {argument : Argument}
    (member : .tag definition letters argument ∈ pieces tags text) :
    argument.parameter <:+: text := by
  have source : argument.source <:+: (Piece.tag definition letters argument).source :=
    (List.suffix_append _ _).isInfix
  exact (parameter_infix_source argument).trans (source.trans (source_infix_of_mem_pieces member))

/-- A text mentions the tags that are found in it. -/
theorem mentions_of_mem_pieces {tags : Tag.Registry} (named : tags.Named) {text letters : Text}
    {definition : Definition} {argument : Argument}
    (member : .tag definition letters argument ∈ pieces tags text) :
    Mentions definition.name text := by
  obtain ⟨rest, names⟩ := names_of_mem_pieces member
  have front : tagChar :: letters <:+: (Piece.tag definition letters argument).source :=
    (List.prefix_append (tagChar :: letters) argument.source).isInfix
  have lowered := (front.trans (source_infix_of_mem_pieces member)).map Text.lowerChar
  rw [Mentions, named _ _ names.registered]
  exact lowered

end Scan

/-! ### The four kinds of builtin tags -/

namespace Tag

/-- The name of the tag that sets a block. -/
def blockName : Text := "longcode".toList

/-- The name of the tag that passes its parameter through. -/
def passingName : Text := "html".toList

/-- The names of the tags that enclose their parameter. -/
def enclosingNames : List Text := ["bold".toList, "italic".toList, "code".toList]

/-- The tags that enclose their parameter, with their marks. -/
def Markup.enclosers (markup : Markup) : List (Text × Text × Text) :=
  [("bold".toList, markup.bold), ("italic".toList, markup.italic), ("code".toList, markup.code)]

/-- The words that stand for themselves, set as code. -/
def codeWords : List Text := ["nil".toList, "true".toList, "false".toList]

theorem escape_of_mem_codeWords {word : Text} (member : word ∈ codeWords) :
    TagExpansion.Markup.escape word = word := by
  have all : ∀ word ∈ codeWords, TagExpansion.Markup.escape word = word := by decide
  exact all word member

/-- The tags that stand for a fixed text, with these texts. -/
def Markup.constants (markup : Markup) : List (Text × Text) :=
  ("br".toList, markup.lineBreak) :: codeWords.map fun word => (word, enclose markup.code word)

theorem mem_enclosingNames_of_mem_enclosers {markup : Markup} {name : Text} {marks : Text × Text}
    (member : (name, marks) ∈ markup.enclosers) : name ∈ enclosingNames := by
  have listed : name ∈ markup.enclosers.map Prod.fst := List.mem_map.mpr ⟨_, member, rfl⟩
  exact listed

theorem ne_blockName_of_mem_enclosers {markup : Markup} {name : Text} {marks : Text × Text}
    (member : (name, marks) ∈ markup.enclosers) : name ≠ blockName := by
  have others : ∀ name ∈ enclosingNames, name ≠ blockName := by decide
  exact others name (mem_enclosingNames_of_mem_enclosers member)

theorem ne_blockName_of_mem_constants {markup : Markup} {name text : Text}
    (member : (name, text) ∈ markup.constants) : name ≠ blockName := by
  have others : ∀ name ∈ "br".toList :: codeWords, name ≠ blockName := by decide
  have listed : name ∈ markup.constants.map Prod.fst := List.mem_map.mpr ⟨_, member, rfl⟩
  exact others name listed

/-- What a builtin tag of a format can be. -/
inductive IsBuiltin (format : Format) : Definition → Prop where
  | enclosing {name : Text} {marks : Text × Text}
      (member : (name, marks) ∈ (Markup.of format).enclosers) :
      IsBuiltin format ⟨name, true, true, some (enclosing marks)⟩
  | standingFor {name text : Text} (member : (name, text) ∈ (Markup.of format).constants) :
      IsBuiltin format ⟨name, false, false, some (standingFor text)⟩
  | block : IsBuiltin format ⟨blockName, true, false, some (block (Markup.of format).longcode)⟩
  | passing : IsBuiltin format ⟨passingName, true, false, some (passing (Markup.of format).raw)⟩

theorem isBuiltin_of_mem_builtins {format : Format} {registration : Registration}
    (member : registration ∈ builtins format) : IsBuiltin format registration.definition := by
  simp only [builtins, List.mem_cons, List.not_mem_nil, or_false] at member
  rcases member with rfl | rfl | rfl | rfl | rfl | rfl | rfl | rfl | rfl
  · exact .enclosing (by cases format <;> decide)
  · exact .enclosing (by cases format <;> decide)
  · exact .enclosing (by cases format <;> decide)
  · exact .block
  · exact .passing
  · exact .standingFor (by cases format <;> decide)
  · exact .standingFor (by cases format <;> decide)
  · exact .standingFor (by cases format <;> decide)
  · exact .standingFor (by cases format <;> decide)

end Tag

namespace Engine

/-- An engine for the builtin tags of a format. Its abbreviations, its limit and its sink may be
any. -/
structure Builtin (engine : Engine) (format : Format) : Prop where
  tags : engine.tags = .builtin format
  convert : engine.convert = .always format.convert
  setParagraphs : engine.setParagraphs = .always format.setParagraphs

variable {engine : Engine} {format : Format}

theorem Builtin.isBuiltin (builtin : engine.Builtin format) {definition : Definition}
    (known : engine.Knows definition) : Tag.IsBuiltin format definition := by
  obtain ⟨name, found⟩ := known
  rw [builtin.tags] at found
  obtain ⟨registration, member, rfl⟩ := Tag.Registry.find?_builtin found
  exact Tag.isBuiltin_of_mem_builtins member

theorem Builtin.convertText (builtin : engine.Builtin format) (text : Text) :
    engine.convertText text = ⟨[.converted text], .ok (format.convert text)⟩ := by
  rw [Engine.convertText, builtin.convert]
  rfl

theorem Builtin.convertSegment (builtin : engine.Builtin format) (text : Text) :
    engine.convertSegment text = ⟨[.converted text, .arranged (format.convert text)],
      .ok (format.setParagraphs (format.convert text))⟩ := by
  rw [Engine.convertSegment, builtin.convertText]
  unfold Engine.arrangeText
  rw [builtin.setParagraphs]
  rfl

/-- A tag as it is shown in a format when it has a parameter. -/
def shownWith (format : Format) (name parameter : Text) : Text :=
  format.convert (tagChar :: '(' :: name) ++ parameter ++ format.convert [')']

/-- A tag as it is shown in a format when it has none. -/
def shownWithout (format : Format) (name : Text) : Text := format.convert (tagChar :: name)

theorem Builtin.expandTag_nil (builtin : engine.Builtin format) (nested : Text → Run Text)
    (depth : Nat) (definition : Definition) :
    engine.expandTag nested depth definition [] =
      (Journal.write (.converted (tagChar :: definition.name))).andThen fun _ =>
        engine.replace nested depth definition [] (shownWithout format definition.name) := by
  rw [expandTag, baselineWithout, builtin.convertText]
  rfl

theorem Builtin.expandTag_of_ne_nil (builtin : engine.Builtin format) (nested : Text → Run Text)
    (depth : Nat) (definition : Definition) {parameter : Text} (present : parameter ≠ []) :
    engine.expandTag nested depth definition parameter =
      (engine.prepare nested definition parameter).andThen fun prepared =>
        (Journal.writeAll [.converted (tagChar :: '(' :: definition.name),
          .converted [')']]).andThen fun _ =>
            engine.replace nested depth definition prepared
              (shownWith format definition.name prepared) := by
  rw [expandTag, if_neg (by rw [List.isEmpty_iff]; exact present)]
  simp only [baselineWith, builtin.convertText]
  rfl

/-! ### What the builtin tags keep -/

/-- An event that tells neither of a call nor of a warning, and hence nothing of what a tag is
replaced with. -/
def Aside : Event → Prop
  | .called _ => False
  | .reported report => report.kind ≠ .warning
  | _ => True

/-- A property of the events of an expansion and its result that the builtin tags of a format
keep. -/
structure Renders (format : Format) (holds : List Event → Text → Prop) : Prop where
  append : ∀ {front back first second}, holds front first → holds back second →
    holds (front ++ back) (first ++ second)
  aside : ∀ {events}, (∀ event ∈ events, Aside event) → holds events []
  segment : ∀ text, holds [] (format.setParagraphs (format.convert text))
  escape : holds [] [tagChar]
  enclosed : ∀ marks events call, (call.name, marks) ∈ (Tag.Markup.of format).enclosers →
    holds events call.parameter →
    holds (events ++ [.called call]) (Tag.enclose marks call.parameter)
  fixed : ∀ text call, (call.name, text) ∈ (Tag.Markup.of format).constants →
    holds [.called call] text
  block : ∀ call body, call.name = Tag.blockName → Tag.delimited? call.parameter = some body →
    holds [.called call] (Tag.enclose (Tag.Markup.of format).longcode (format.convert body))
  declined : ∀ call (notices : List Notice),
    call.name = Tag.blockName → Tag.delimited? call.parameter = none →
    call.baseline = shownWith format call.name call.parameter ∨
      call.parameter = [] ∧ call.baseline = shownWithout format call.name →
    holds (.called call :: .reported (Tag.missingDelimiter call.name) :: notices.map .noticed)
      call.baseline

/-- Where a run gives a result, the property holds of its events and the result. -/
def Gives (holds : List Event → Text → Prop) (run : Run Text) : Prop :=
  ∀ result, run.outcome = .ok result → holds run.entries result

theorem aside_handOver {report : Report} (own : report.kind ≠ .warning) :
    ∀ event ∈ (engine.handOver report).entries, Aside event := by
  intro event member
  rcases List.mem_cons.mp member with rfl | later
  · exact own
  · obtain ⟨notice, -, rfl⟩ := List.mem_map.mp later
    trivial

theorem aside_logAll (entries : List Log.Entry) :
    ∀ event ∈ (Run.logAll entries).entries, Aside event := by
  intro event member
  obtain ⟨entry, -, rfl⟩ := List.mem_map.mp member
  trivial

theorem aside_converted (texts : List Text) :
    ∀ event ∈ texts.map Event.converted, Aside event := by
  intro event member
  obtain ⟨text, -, rfl⟩ := List.mem_map.mp member
  trivial

namespace Renders

variable {holds : List Event → Text → Prop}

/-- What is told aside may stand before a result. -/
theorem gives_andThen (renders : Renders format holds) {α : Type} {first : Run α}
    {next : α → Run Text} (quiet : ∀ event ∈ first.entries, Aside event)
    (after : ∀ value, Gives holds (next value)) : Gives holds (first.andThen next) := by
  intro result ended
  obtain ⟨value, before, later⟩ := Journal.outcome_andThen_eq_ok_iff.mp ended
  rw [Journal.andThen_of_ok before]
  exact renders.append (renders.aside quiet) (after value result later)

/-- What is told aside may stand behind a result. -/
theorem append_aside (renders : Renders format holds) {events more : List Event} {text : Text}
    (before : holds events text) (quiet : ∀ event ∈ more, Aside event) :
    holds (events ++ more) text := by
  have both := renders.append before (renders.aside quiet)
  rw [List.append_nil] at both
  exact both

theorem gives_expandPieces (renders : Renders format holds) {nested : Text → Run Text}
    {depth : Nat} (start : Nat) {pieces : List Piece}
    (given : ∀ piece ∈ pieces, ∀ start, Gives holds (engine.expandPiece nested depth start piece)) :
    Gives holds (engine.expandPieces nested depth start pieces) := by
  induction pieces generalizing start with
  | nil =>
    intro result ended
    cases ended
    exact renders.aside (by simp [expandPieces, Journal.done])
  | cons piece others inductionHypothesis =>
    intro result ended
    rw [expandPieces] at ended ⊢
    obtain ⟨first, before, later⟩ := Journal.outcome_andThen_eq_ok_iff.mp ended
    rw [Journal.andThen_of_ok before]
    rw [Journal.map_eq_andThen, Journal.outcome_andThen_eq_ok_iff] at later
    obtain ⟨rest, behind, same⟩ := later
    cases same
    refine renders.append (given piece List.mem_cons_self start first before) ?_
    refine inductionHypothesis _ (fun other member => ?_) rest behind
    exact given other (List.mem_cons_of_mem piece member)

variable (renders : Renders format holds) (builtin : engine.Builtin format)
  {nested : Text → Run Text} {depth : Nat}

include renders builtin

theorem gives_convertSegment (text : Text) : Gives holds (engine.convertSegment text) := by
  intro result ended
  rw [builtin.convertSegment] at ended ⊢
  cases ended
  exact renders.append_aside (renders.segment text) (by simp [Aside])

theorem gives_block {parameter baseline : Text}
    (shown : baseline = shownWith format Tag.blockName parameter ∨
      parameter = [] ∧ baseline = shownWithout format Tag.blockName) :
    Gives holds (engine.replace nested depth
      ⟨Tag.blockName, true, false, some (Tag.block (Tag.Markup.of format).longcode)⟩
      parameter baseline) := by
  intro result ended
  unfold replace at ended ⊢
  cases delimited : Tag.delimited? parameter with
  | some body =>
    simp only [Tag.block, delimited, perform, builtin.convertText] at ended ⊢
    cases ended
    exact renders.append_aside
      (renders.block ⟨Tag.blockName, parameter, baseline, depth⟩ body rfl delimited)
      (aside_converted [body])
  | none =>
    simp only [Tag.block, delimited, perform] at ended ⊢
    cases handed : (engine.handOver (Tag.missingDelimiter Tag.blockName)).outcome with
    | ok value =>
      simp only [Journal.settle, handed] at ended ⊢
      cases ended
      show holds (.called ⟨Tag.blockName, parameter, baseline, depth⟩ ::
        ((engine.handOver (Tag.missingDelimiter Tag.blockName)).entries ++ [] ++ [])) baseline
      rw [List.append_nil, List.append_nil]
      exact renders.declined ⟨Tag.blockName, parameter, baseline, depth⟩ _ rfl delimited shown
    | error fault =>
      simp only [Journal.settle, handed] at ended
      cases ended

theorem gives_expandTag {definition : Definition} {parameter : Text}
    (isBuiltin : Tag.IsBuiltin format definition) (noPassing : definition.name ≠ Tag.passingName)
    (inner : Gives holds (nested (engine.abbreviations.resolve parameter))) :
    Gives holds (engine.expandTag nested depth definition parameter) := by
  by_cases present : parameter = []
  · subst present
    rw [builtin.expandTag_nil]
    refine renders.gives_andThen (aside_converted [_]) fun _ => ?_
    cases isBuiltin with
    | @enclosing name marks member =>
      intro result ended
      cases ended
      exact renders.enclosed marks [] ⟨name, [], shownWithout format name, depth⟩ member
        (renders.aside (by simp))
    | @standingFor name text member =>
      intro result ended
      cases ended
      exact renders.fixed text ⟨name, [], shownWithout format name, depth⟩ member
    | block => exact renders.gives_block builtin (.inr ⟨rfl, rfl⟩)
    | passing => exact absurd rfl noPassing
  · rw [builtin.expandTag_of_ne_nil _ _ _ present]
    cases isBuiltin with
    | @enclosing name marks member =>
      show Gives holds (((Run.logAll _).andThen fun _ => nested _).andThen _)
      rw [Journal.andThen_assoc]
      refine renders.gives_andThen (aside_logAll _) fun _ result ended => ?_
      obtain ⟨prepared, before, later⟩ := Journal.outcome_andThen_eq_ok_iff.mp ended
      rw [Journal.andThen_of_ok before]
      cases later
      have shown := renders.append_aside (inner prepared before)
        (aside_converted [tagChar :: '(' :: name, [')']])
      have enclosed := renders.enclosed marks _
        ⟨name, prepared, shownWith format name prepared, depth⟩ member shown
      rw [List.append_assoc] at enclosed
      exact enclosed
    | @standingFor name text member =>
      show Gives holds (((engine.handOver (unexpectedParameters _)).andThen fun _ =>
        .done parameter).andThen _)
      rw [Journal.andThen_assoc]
      refine renders.gives_andThen (aside_handOver Kind.noConfusion) fun _ => ?_
      rw [Journal.done_andThen]
      refine renders.gives_andThen (aside_converted [_, _]) fun _ result ended => ?_
      cases ended
      exact renders.fixed text ⟨name, parameter, shownWith format name parameter, depth⟩ member
    | block =>
      show Gives holds (((Run.logAll _).andThen fun _ => .done _).andThen _)
      rw [Journal.andThen_assoc]
      refine renders.gives_andThen (aside_logAll _) fun _ => ?_
      rw [Journal.done_andThen]
      exact renders.gives_andThen (aside_converted [_, _]) fun _ =>
        renders.gives_block builtin (.inl rfl)
    | passing => exact absurd rfl noPassing

theorem gives_expandPiece {text : Text} (start : Nat) {piece : Piece}
    (member : piece ∈ Scan.pieces engine.tags text) (free : ¬Scan.Mentions Tag.passingName text)
    (inner : ∀ parameter, parameter <:+: text →
      Gives holds (nested (engine.abbreviations.resolve parameter))) :
    Gives holds (engine.expandPiece nested depth start piece) := by
  cases piece with
  | segment segment =>
    have quiet : ∀ event ∈ (engine.reportSegment segment).entries, Aside event := by
      unfold reportSegment
      split
      · exact aside_handOver Kind.noConfusion
      · simp [Journal.done]
    exact renders.gives_andThen quiet fun _ => renders.gives_convertSegment builtin segment
  | escape =>
    intro result ended
    cases ended
    exact renders.escape
  | tag definition letters argument =>
    have quiet : ∀ event ∈ (engine.reportArgument letters argument).entries, Aside event := by
      cases argument with
      | unclosed rest => exact aside_handOver Kind.noConfusion
      | _ => simp [reportArgument, Journal.done]
    have noPassing : definition.name ≠ Tag.passingName := by
      intro same
      have named : engine.tags.Named := by
        rw [builtin.tags]
        exact (Tag.Registry.built_builtin format).named
      refine free ?_
      rw [← same]
      exact Scan.mentions_of_mem_pieces named member
    refine renders.gives_andThen quiet fun _ => ?_
    refine renders.gives_andThen (aside_logAll [_]) fun _ => ?_
    exact renders.gives_expandTag builtin (builtin.isBuiltin (knows_of_mem_pieces member)) noPassing
      (inner _ (Scan.parameter_infix_of_mem_pieces member))

/-- The property holds of every expansion with the builtin tags that gives a result, if neither the
text nor an abbreviation mentions the tag that passes its parameter through. -/
theorem gives_expandAt
    (freeAbbreviations : ∀ name expansion, engine.abbreviations.find? name = some expansion →
      ¬Scan.Mentions Tag.passingName expansion)
    (depth : Nat) {text : Text} (free : ¬Scan.Mentions Tag.passingName text) :
    Gives holds (engine.expandAt depth text) := by
  induction depth using engine.expandAt_induction generalizing text with
  | limit depth reached =>
    rw [expandAt_of_le engine reached]
    exact renders.gives_andThen (aside_handOver Kind.noConfusion) fun _ =>
      renders.gives_convertSegment builtin text
  | deeper depth below inductionHypothesis =>
    rw [expandAt_of_lt engine below]
    intro result ended
    have entered : holds [.entered] [] := renders.aside (by simp [Aside])
    refine renders.append_aside (renders.append entered ?_) (by simp [Aside])
    refine renders.gives_expandPieces 0 (fun piece member start => ?_) result ended
    refine renders.gives_expandPiece builtin start member free fun parameter inside => ?_
    refine inductionHypothesis ?_
    -- A parameter that is an abbreviation is replaced, any other one is a part of the text.
    unfold Abbreviations.resolve
    cases found : engine.abbreviations.find? parameter with
    | some expansion => exact freeAbbreviations parameter expansion found
    | none => exact fun mentions => free (mentions.mono inside)

end Renders

/-! ### Failures -/

/-- No builtin handler gives up on its own account. -/
theorem Builtin.not_givesUp (builtin : engine.Builtin format) {definition : Definition}
    (isBuiltin : Tag.IsBuiltin format definition) {handler : Tag.Handler}
    (isHandler : definition.handler = some handler) (name parameter baseline : Text) (depth : Nat)
    (fault : Fault) : ¬engine.GivesUp depth fault (handler name parameter baseline) := by
  intro raises
  cases isBuiltin with
  | enclosing =>
    cases isHandler
    exact raises
  | standingFor =>
    cases isHandler
    exact raises
  | passing =>
    cases isHandler
    exact raises
  | block =>
    cases isHandler
    cases delimited : Tag.delimited? parameter with
    | some body =>
      simp only [Tag.block, delimited, GivesUp, builtin.convertText] at raises
      exact raises.2
    | none =>
      simp only [Tag.block, delimited, GivesUp] at raises
      obtain ⟨handed, own⟩ := raises
      cases outcome : (engine.handOver (Tag.missingDelimiter name)).outcome with
      | ok value =>
        rw [outcome] at own
        exact own
      | error other =>
        rw [outcome] at handed own
        exact handed (congrArg Except.error own)

/-- With the builtin tags an expansion fails only where the sink does. -/
theorem Builtin.exists_report_of_failed (builtin : engine.Builtin format) {depth : Nat}
    {text : Text} {fault : Fault}
    (failed : (engine.expandAt depth text).outcome = .error fault) :
    ∃ report ∈ (engine.expandAt depth text).reports,
      (engine.sink report).outcome = .error fault := by
  cases excused_expandAt engine depth text fault failed with
  | handler member known name isHandler raises =>
    exact absurd raises (builtin.not_givesUp (builtin.isBuiltin known) isHandler _ _ _ _ fault)
  | sink member raises => exact ⟨_, List.mem_filterMap.mpr ⟨_, member, rfl⟩, raises⟩
  | converter member raises =>
    rw [builtin.convert] at raises
    cases raises
  | paragraphs member raises =>
    rw [builtin.setParagraphs] at raises
    cases raises

end Engine

end TagExpansion
