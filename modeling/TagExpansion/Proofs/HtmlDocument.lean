import TagExpansion.Proofs.Blocks
import TagExpansion.Proofs.HtmlOutput

/-
This file proves that HTML output is a document once it is finished.

The builtin tags write content, and one of them a block that ends the paragraph around it and begins
another behind it. It does so at any depth, inside of tags that enclose their parameter as well as
outside of them, and so do the paragraphs of a segment. But each of these contributions is whole: it
ends one paragraph and begins another. So what an expansion gives is content with such gaps, as long
as no block is declined, for then its parameter would be shown as it stands in the text.
-/

namespace TagExpansion.Engine

open Markup (Flow Inline)

/-- Without a warning, which would tell of a declined block, a result is content with gaps. -/
def Flows (events : List Event) (result : Text) : Prop :=
  (∀ report, .reported report ∈ events → report.kind ≠ .warning) → Flow result

theorem inline_of_mem_constants {name text : Text}
    (member : (name, text) ∈ (Tag.Markup.of .html).constants) : Inline text := by
  rcases List.mem_cons.mp member with same | literal
  · cases same
    exact .of_mark (by decide)
  · obtain ⟨_, isWord, same⟩ := List.mem_map.mp literal
    cases same
    refine ((Inline.of_mark (by decide)).append ?_).append (.of_mark (by decide))
    rw [← Tag.escape_of_mem_codeWords isWord]
    exact .escape _

theorem renders_flows : Renders .html Flows where
  append before after harmless :=
    (before fun report member => harmless report (List.mem_append_left _ member)).append
      (after fun report member => harmless report (List.mem_append_right _ member))
  aside _ _ := .last .nil
  segment text _ := .htmlParagraphs_escape text
  escape _ := .last (.of_part (.plain rfl))
  enclosed marks events call member inside harmless := by
    have isMark : ∀ encloser ∈ (Tag.Markup.of .html).enclosers,
        encloser.2.1 ∈ Markup.inlineMarks ∧ encloser.2.2 ∈ Markup.inlineMarks := by decide
    obtain ⟨first, last⟩ := isMark _ member
    have flow := inside fun report isReport => harmless report (List.mem_append_left _ isReport)
    exact (Flow.after (.of_mark first) flow).append (.last (.of_mark last))
  fixed _ _ member _ := .last (inline_of_mem_constants member)
  block _ body _ _ _ := .of_gap (.block (.escape body))
  declined call notices _ _ _ harmless :=
    absurd rfl (harmless _ (List.mem_cons_of_mem _ List.mem_cons_self))

/-- With the builtin tags of HTML, where nothing mentions the tag that passes its parameter through
and no block is declined, the finished result is a row of blocks, each with at most one line feed
behind it. No block stands inside of another, and no paragraph is blank. There is a result unless
the sink gives up. -/
theorem isDocument_finish_of_builtin_html (engine : Engine) (builtin : engine.Builtin .html)
    (freeAbbreviations : ∀ name expansion, engine.abbreviations.find? name = some expansion →
      ¬Scan.Mentions "html".toList expansion)
    (text : Text) (free : ¬Scan.Mentions "html".toList text)
    (harmless : ∀ report ∈ (engine.expand text).reports, report.kind ≠ .warning) :
    (∀ result, (engine.expand text).outcome = .ok result →
      ∃ blocks, Markup.Document blocks (Format.html.finish result) ∧
        ∀ block ∈ blocks, block.Proper) ∧
      ∀ fault, (engine.expand text).outcome = .error fault →
        ∃ report ∈ (engine.expand text).reports, (engine.sink report).outcome = .error fault := by
  refine ⟨fun result ended => ?_, fun fault failed => builtin.exists_report_of_failed failed⟩
  have flows := renders_flows.gives_expandAt builtin freeAbbreviations 0 free result ended
  exact (flows fun report member =>
    harmless report (Run.mem_reports_iff.mpr member)).isDocument_finish

/-- A block behind a paragraph, which leaves an empty one between the two, and a block inside of
another tag. -/
theorem isDocument_finish_of_two_blocks :
    let text := "a\n\n@longcode(#<x>#)@bold(b @longcode(#y#))".toList
    let document := ("<p>a</p>\n<pre class=\"longcode\">&lt;x&gt;</pre>\n" ++
      "<p><b>b </p>\n<pre class=\"longcode\">y</pre>\n<p></b></p>").toList
    htmlEngine.Builtin .html ∧ ¬Scan.Mentions "html".toList text ∧
      (∀ report ∈ (htmlEngine.expand text).reports, report.kind ≠ .warning) ∧
      (htmlEngine.expand text).outcome.map Format.html.finish = .ok document ∧
      ∃ blocks, Markup.Document blocks document ∧ ∀ block ∈ blocks, block.Proper := by
  intro text document
  have free : ¬Scan.Mentions "html".toList text := by decide +kernel
  have harmless : ∀ report ∈ (htmlEngine.expand text).reports, report.kind ≠ .warning := by
    decide +kernel
  have finished : (htmlEngine.expand text).outcome.map Format.html.finish = .ok document := by
    decide +kernel
  have isDocument := (isDocument_finish_of_builtin_html htmlEngine builtin_htmlEngine
    (fun _ _ found => by cases found) text free harmless).1
  refine ⟨builtin_htmlEngine, free, harmless, finished, ?_⟩
  cases ended : (htmlEngine.expand text).outcome with
  | ok result =>
    rw [ended] at finished
    have same : Format.html.finish result = document := Except.ok.inj finished
    rw [← same]
    exact isDocument result ended
  | error fault =>
    rw [ended] at finished
    cases finished

end TagExpansion.Engine
