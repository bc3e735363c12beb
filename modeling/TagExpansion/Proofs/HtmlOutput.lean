import TagExpansion.Proofs.Escaping
import TagExpansion.Proofs.Rendering

/-
This file proves what HTML output is made of.

Everything that the builtin tags write for HTML is escaped or a mark, with one exception. A block
that has no delimiters is declined, and then the tag is shown with its parameter as it stands in
the text. Such a parameter stands between plain letters and a parenthesis, so nothing around it can
take it up: the output is fit for HTML exactly if every such parameter is.
-/

namespace TagExpansion.Engine

open Markup (Escaped Broken)

/-- All parameters that are shown as they stand in the text are fit for HTML. -/
def Sound (events : List Event) : Prop :=
  ∀ call, .called call ∈ events → call.name = Tag.blockName →
    Tag.delimited? call.parameter = none → Escaped call.parameter

/-- The events tell whether the output is fit for HTML, and output that is not cannot be mended. -/
def Judges (events : List Event) (result : Text) : Prop :=
  Sound events ∧ Escaped result ∨ ¬Sound events ∧ Broken result

theorem sound_append_iff {front back : List Event} :
    Sound (front ++ back) ↔ Sound front ∧ Sound back := by
  unfold Sound
  simp only [List.mem_append, or_imp, forall_and]

theorem Judges.append {front back : List Event} {first second : Text}
    (before : Judges front first) (after : Judges back second) :
    Judges (front ++ back) (first ++ second) := by
  rcases before with ⟨sound, escaped⟩ | ⟨unsound, broken⟩
  · rcases after with ⟨later, fit⟩ | ⟨unsound, broken⟩
    · exact .inl ⟨sound_append_iff.mpr ⟨sound, later⟩, escaped.append fit⟩
    · exact .inr ⟨fun both => unsound (sound_append_iff.mp both).2, broken.after escaped⟩
  · exact .inr ⟨fun both => unsound (sound_append_iff.mp both).1, broken.append second⟩

/-- Events without a block that is declined, with a text that is fit for HTML. -/
theorem judges_of_escaped {events : List Event} {text : Text} (escaped : Escaped text)
    (harmless : ∀ call, .called call ∈ events → call.name = Tag.blockName →
      Tag.delimited? call.parameter ≠ none) : Judges events text :=
  .inl ⟨fun call member isBlock missing => absurd missing (harmless call member isBlock), escaped⟩

theorem escaped_enclose {marks : Text × Text} (first : marks.1 ∈ Markup.marks)
    (last : marks.2 ∈ Markup.marks) {text : Text} (escaped : Escaped text) :
    Escaped (Tag.enclose marks text) :=
  ((Escaped.of_mem_marks first).append escaped).append (.of_mem_marks last)

theorem escaped_of_mem_constants {name text : Text}
    (member : (name, text) ∈ (Tag.Markup.of .html).constants) : Escaped text := by
  rcases List.mem_cons.mp member with same | literal
  · cases same
    exact .of_mem_marks (by decide)
  · obtain ⟨_, isWord, same⟩ := List.mem_map.mp literal
    cases same
    refine escaped_enclose (by decide) (by decide) ?_
    rw [← Tag.escape_of_mem_codeWords isWord]
    exact .escape _

/-- Shown with a parameter as it stands in the text, a tag is fit for HTML where the parameter
is, and cannot be mended where it is not. -/
theorem escaped_or_broken_shownWith (name parameter : Text) :
    Escaped parameter ∧ Escaped (shownWith .html name parameter) ∨
      ¬Escaped parameter ∧ Broken (shownWith .html name parameter) := by
  have front : Escaped (Markup.escape (Scan.tagChar :: '(' :: name)) := .escape _
  have back : Escaped (Markup.escape [')']) := .escape _
  by_cases fit : Escaped parameter
  · exact .inl ⟨fit, (front.append fit).append back⟩
  · refine .inr ⟨fit, ?_⟩
    show Broken (Markup.escape _ ++ parameter ++ [')'])
    rw [List.append_assoc]
    exact (Broken.of_not_escaped fit).after front

theorem renders_judges : Renders .html Judges where
  append := Judges.append
  aside aside := judges_of_escaped .nil fun call member => (aside _ member).elim
  segment text := judges_of_escaped (.htmlParagraphs_escape text) (by simp)
  escape := judges_of_escaped (.plain rfl .nil) (by simp)
  enclosed marks events call member inside := by
    have isMark : ∀ encloser ∈ (Tag.Markup.of .html).enclosers,
        encloser.2.1 ∈ Markup.marks ∧ encloser.2.2 ∈ Markup.marks := by decide
    obtain ⟨first, last⟩ := isMark _ member
    have front : Judges [] marks.1 := judges_of_escaped (.of_mem_marks first) (by simp)
    have back : Judges [.called call] marks.2 := by
      refine judges_of_escaped (.of_mem_marks last) fun other same => ?_
      cases List.mem_singleton.mp same
      exact fun isBlock => absurd isBlock (Tag.ne_blockName_of_mem_enclosers member)
    exact (front.append inside).append back
  fixed text call member := by
    refine judges_of_escaped (escaped_of_mem_constants member) fun other same => ?_
    cases List.mem_singleton.mp same
    exact fun isBlock => absurd isBlock (Tag.ne_blockName_of_mem_constants member)
  block call body isBlock delimited := by
    refine judges_of_escaped (escaped_enclose (by decide) (by decide) (.escape body)) ?_
    intro other same _ missing
    cases List.mem_singleton.mp same
    rw [delimited] at missing
    cases missing
  declined call notices isBlock missing shown := by
    have only : ∀ other, .called other ∈ Event.called call ::
        .reported (Tag.missingDelimiter call.name) :: notices.map .noticed → other = call := by
      intro other member
      simpa using member
    rcases shown with same | ⟨isEmpty, same⟩
    · rw [same]
      rcases escaped_or_broken_shownWith call.name call.parameter with
        ⟨fit, escaped⟩ | ⟨unfit, broken⟩
      · refine .inl ⟨fun other member _ _ => ?_, escaped⟩
        rw [only other member]
        exact fit
      · exact .inr ⟨fun sound => unfit (sound call List.mem_cons_self isBlock missing), broken⟩
    · refine .inl ⟨fun other member _ _ => ?_, ?_⟩
      · rw [only other member, isEmpty]
        exact .nil
      · rw [same]
        exact .escape _

theorem sound_iff_calls (run : Run Text) :
    Sound run.entries ↔ ∀ call ∈ run.calls, call.name = Tag.blockName →
      Tag.delimited? call.parameter = none → Escaped call.parameter := by
  unfold Sound
  simp only [Run.mem_calls_iff]

/-- With the builtin tags of HTML, and where nothing mentions the tag that passes its parameter
through, an expansion gives a result unless the sink gives up. The result is made of plain
characters, entities and marks exactly if the same is true of the parameter of every block that
has no delimiters. -/
theorem escaped_iff_of_builtin_html (engine : Engine) (builtin : engine.Builtin .html)
    (freeAbbreviations : ∀ name expansion, engine.abbreviations.find? name = some expansion →
      ¬Scan.Mentions "html".toList expansion)
    (depth : Nat) (text : Text) (free : ¬Scan.Mentions "html".toList text) :
    (∀ result, (engine.expandAt depth text).outcome = .ok result →
      (Escaped result ↔ ∀ call ∈ (engine.expandAt depth text).calls,
        call.name = "longcode".toList → Tag.delimited? call.parameter = none →
        Escaped call.parameter)) ∧
      ∀ fault, (engine.expandAt depth text).outcome = .error fault →
        ∃ report ∈ (engine.expandAt depth text).reports,
          (engine.sink report).outcome = .error fault := by
  refine ⟨fun result ended => ?_, fun fault failed => builtin.exists_report_of_failed failed⟩
  have judged := renders_judges.gives_expandAt builtin freeAbbreviations depth free result ended
  refine Iff.trans ?_ (sound_iff_calls (engine.expandAt depth text))
  rcases judged with ⟨sound, escaped⟩ | ⟨unsound, broken⟩
  · exact ⟨fun _ => sound, fun _ => escaped⟩
  · exact ⟨fun escaped => absurd escaped broken.not_escaped, fun sound => absurd sound unsound⟩

/-- An engine for HTML that knows no abbreviations. -/
def htmlEngine : Engine where
  tags := .builtin .html
  convert := .always Format.html.convert
  setParagraphs := .always Format.html.setParagraphs
  validLimit := Limit.valid_default

theorem builtin_htmlEngine : htmlEngine.Builtin .html := ⟨rfl, rfl, rfl⟩

/-- What stands in a tag or between the delimiters of a block is escaped. -/
theorem escaped_of_delimited_block :
    let text := "@bold(a < b) @longcode(#\"x\"#)".toList
    htmlEngine.Builtin .html ∧ ¬Scan.Mentions "html".toList text ∧
      ∃ result, (htmlEngine.expandAt 0 text).outcome = .ok result ∧ Escaped result := by
  intro text
  have free : ¬Scan.Mentions "html".toList text := by decide +kernel
  have expanded : ∃ result, (htmlEngine.expandAt 0 text).outcome = .ok result := by
    refine ⟨("<b>a &lt; b</b> </p>\n<pre class=\"longcode\">" ++
      "&quot;x&quot;</pre>\n<p>").toList, ?_⟩
    decide +kernel
  have delimited : ∀ call ∈ (htmlEngine.expandAt 0 text).calls,
      Tag.delimited? call.parameter = none → call.name ≠ "longcode".toList := by
    decide +kernel
  obtain ⟨result, ended⟩ := expanded
  have judged := escaped_iff_of_builtin_html htmlEngine builtin_htmlEngine
    (fun _ _ found => by cases found) 0 text free
  refine ⟨builtin_htmlEngine, free, result, ended, ?_⟩
  refine (judged.1 result ended).mpr fun call member isBlock missing => ?_
  exact absurd isBlock (delimited call member missing)

/-- A block without delimiters puts what it is given into the output as it is. -/
theorem not_escaped_of_undelimited_block :
    let text := "@longcode(<x>)".toList
    let result := "@(longcode<x>)".toList
    htmlEngine.Builtin .html ∧ ¬Scan.Mentions "html".toList text ∧
      (htmlEngine.expandAt 0 text).outcome = .ok result ∧ ¬Escaped result := by
  intro text result
  have free : ¬Scan.Mentions "html".toList text := by decide +kernel
  have unfit : ¬Escaped "<x>".toList := Escaped.false_of_no_unit rfl (by decide)
  refine ⟨builtin_htmlEngine, free, by decide +kernel, ?_⟩
  rcases escaped_or_broken_shownWith "longcode".toList "<x>".toList with ⟨fit, -⟩ | ⟨-, broken⟩
  · exact absurd fit unfit
  · exact broken.not_escaped

end TagExpansion.Engine
