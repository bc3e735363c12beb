import TagExpansion.Proofs.ParameterForms
import TagExpansion.Proofs.Rendering
import TagExpansion.Proofs.Trimming

/-
This file proves that a block comes out as it was written.

What is to be set as a block is arbitrary: it may look like tags, have doubled tag characters,
blank lines and parentheses, as long as the parentheses are balanced. It stands between two equal
characters, which may occur in it as well. On its way it is found by counting parentheses, looked up
among the abbreviations, compared at its ends and cut, and only then converted. None of these steps
looks for tags, and the paragraphs are not set. So everything between the delimiters is converted,
but for the line breaks next to them.
-/

namespace TagExpansion

open Tag (Definition)
open Scan (tagChar)

/-! ### Blocks -/

theorem Tag.delimited?_of_enclosed (delimiter : Char) (body : Text) :
    delimited? (delimiter :: body ++ [delimiter]) =
      some (Text.stripWith Text.isLineBreak body) := by
  obtain ⟨next, others, same⟩ := List.exists_cons_of_ne_nil
    (List.append_ne_nil_of_right_ne_nil body (List.cons_ne_nil delimiter []))
  rw [List.cons_append, same, delimited?, ← same, List.getLast?_append, List.dropLast_concat]
  exact if_pos rfl

/-- The tag that sets a block in a format. -/
def Tag.blockDefinition (format : Format) : Definition :=
  ⟨blockName, true, false, some (block (Markup.of format).longcode)⟩

theorem Tag.spells_blockName (format : Format) :
    Scan.Spells (Registry.builtin format) blockName (blockDefinition format) := by
  refine ⟨by decide, ?_⟩
  cases format <;> rfl

/-- A text between two equal characters other than parentheses is balanced if it is so without
them. -/
theorem Scan.balanced_delimited {delimiter : Char} (noOpening : delimiter ≠ '(')
    (noClosing : delimiter ≠ ')') {body : Text} (balanced : Balanced body) :
    Balanced (delimiter :: body ++ [delimiter]) := by
  have alone : Balanced [delimiter] := (closing_other noOpening noClosing).mpr closing_nil
  exact alone.append (balanced.append alone)

namespace Engine

variable {engine : Engine} {format : Format}

/-- The tag of a block calls its handler with the parameter as it is written, and the handler has
the text between the delimiters converted. -/
theorem alike_expandTag_block (builtin : engine.Builtin format) (nested : Text → Run Text)
    (depth : Nat) {parameter body : Text} (delimited : Tag.delimited? parameter = some body)
    (unabbreviated : engine.abbreviations.find? parameter = none) :
    Run.Alike (engine.expandTag nested depth (Tag.blockDefinition format) parameter)
      ⟨[.converted (tagChar :: '(' :: Tag.blockName), .converted [')'],
        .called ⟨Tag.blockName, parameter, shownWith format Tag.blockName parameter, depth⟩,
        .converted body],
        .ok (Tag.enclose (Tag.Markup.of format).longcode (format.convert body))⟩ := by
  have present : parameter ≠ [] := by
    rintro rfl
    cases delimited
  have resolved : engine.abbreviations.resolve parameter = parameter := by
    rw [Abbreviations.resolve, unabbreviated]
    rfl
  have prepared : Run.Alike (engine.prepare nested (Tag.blockDefinition format) parameter)
      (.done parameter) := by
    have required : (Tag.blockDefinition format).requiresParameter = true := rfl
    rw [prepare, if_pos required, resolved]
    exact Run.Alike.logAll_andThen _ _
  have replaced (baseline : Text) :
      engine.replace nested depth (Tag.blockDefinition format) parameter baseline =
        ⟨[.called ⟨Tag.blockName, parameter, baseline, depth⟩, .converted body],
          .ok (Tag.enclose (Tag.Markup.of format).longcode (format.convert body))⟩ := by
    simp only [replace, Tag.blockDefinition, Tag.block, delimited, perform, builtin.convertText]
    rfl
  rw [builtin.expandTag_of_ne_nil nested depth _ present]
  refine (prepared.andThen fun _ => .refl _).trans ?_
  rw [Journal.done_andThen, replaced]
  exact .refl _

/-- A block gives its marks with the converted text between them, without the line breaks at its
ends. Nothing is reported, the handler of the block is the only one that is called, and no
paragraphs are set. -/
theorem expand_block (engine : Engine) {format : Format} (builtin : engine.Builtin format)
    {delimiter : Char} (noOpening : delimiter ≠ '(') (noClosing : delimiter ≠ ')') {body : Text}
    (balanced : Scan.Balanced body)
    (unabbreviated : engine.abbreviations.find? (delimiter :: body ++ [delimiter]) = none) :
    let parameter := delimiter :: body ++ [delimiter]
    let run := engine.expand (tagChar :: "longcode".toList ++ ('(' :: parameter ++ [')']))
    let marks := (Tag.Markup.of format).longcode
    (∃ core, Text.Trims Text.isLineBreak body core ∧
      run.outcome = .ok (marks.1 ++ format.convert core ++ marks.2)) ∧
    run.reports = [] ∧ run.diagnostics = [] ∧
    run.calls =
      [⟨"longcode".toList, parameter, shownWith format "longcode".toList parameter, 1⟩] ∧
    ∀ text, .arranged text ∉ run.entries := by
  intro parameter run marks
  have spells : Scan.Spells engine.tags Tag.blockName (Tag.blockDefinition format) := by
    rw [builtin.tags]
    exact Tag.spells_blockName format
  have alike := (alike_expandAt_enclosed engine.maxDepth_pos spells
    (Scan.balanced_delimited noOpening noClosing balanced)).trans
    (alike_expandTag_block builtin _ 1 (Tag.delimited?_of_enclosed delimiter body) unabbreviated)
  refine ⟨⟨_, Text.trims_stripWith _ body, alike.outcome⟩, alike.reports, alike.diagnostics,
    alike.calls, fun text member => ?_⟩
  have seen : .arranged text ∈ run.seen := List.mem_filter.mpr ⟨member, rfl⟩
  have unseen := alike.seen ▸ seen
  simp [Run.seen, Event.isSeen] at unseen

/-- A block with a tag, a doubled tag character, a blank line and its own delimiter. -/
theorem expand_block_of_lines :
    let engine : Engine := {
      tags := .builtin .html, convert := .always Format.html.convert
      setParagraphs := .always Format.html.setParagraphs, sink := .collect
      abbreviations := .ofList [("x".toList, "y".toList)] }
    let body := "\r\n@bold(#x)\n\n@@<\n".toList
    engine.Builtin .html ∧ Scan.Balanced body ∧
      engine.abbreviations.find? ('#' :: body ++ ['#']) = none ∧
      ∃ core, Text.Trims Text.isLineBreak body core ∧
        (engine.expand "@longcode(#\r\n@bold(#x)\n\n@@<\n#)".toList).outcome =
          .ok ("</p>\n<pre class=\"longcode\">".toList ++ Markup.escape core ++
            "</pre>\n<p>".toList) := by
  intro engine body
  have builtin : engine.Builtin .html := ⟨rfl, rfl, rfl⟩
  have found : Scan.splitClosing 0 (body ++ [')']) = some (body, []) := by decide
  have balanced : Scan.Balanced body := Scan.closing_of_splitClosing found
  have unabbreviated : engine.abbreviations.find? ('#' :: body ++ ['#']) = none := by decide
  obtain ⟨result, -⟩ :=
    expand_block engine builtin (by decide) (by decide) balanced unabbreviated
  exact ⟨builtin, balanced, unabbreviated, result⟩

end Engine

end TagExpansion
