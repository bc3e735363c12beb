import TagExpansion.Proofs.ParameterForms
import TagExpansion.Proofs.TagCharacters

/-
This file follows a tag that stands inside of itself any number of times.

The tag is replaced by its expanded parameter and nothing else is changed, so each expansion takes
off the outermost tag and leaves the rest to the next one. The limit of nesting says how often that
is done. What is inside then comes out as it is, whether there are tags left in it or not, and that
is why a warning is given as soon as there are as many tags as there may be expansions: the last of
them has the innermost text expanded at the limit, where nobody looks whether it has tags.

The parameter goes inwards before the first handler is called, so handlers are called from the
inside to the outside, and all of them see the text that comes out in the end.
-/

namespace TagExpansion.Scan

open Tag (Definition Registry)

/-! ### Tags inside of one another -/

/-- A text inside of `levels` tags of one name. -/
def nested (letters : Text) (levels : Nat) (inner : Text) : Text :=
  (List.replicate levels (tagChar :: letters ++ ['('])).flatten ++ inner ++
    List.replicate levels ')'

@[simp] theorem nested_zero (letters inner : Text) : nested letters 0 inner = inner := by
  simp [nested]

/-- The outermost tag has the others as its parameter. -/
theorem nested_succ (letters : Text) (levels : Nat) (inner : Text) :
    nested letters (levels + 1) inner =
      tagChar :: letters ++ ('(' :: nested letters levels inner ++ [')']) := by
  unfold nested
  rw [List.replicate_succ, List.flatten_cons, List.replicate_succ']
  simp only [List.append_assoc, List.cons_append, List.nil_append]

variable {tags : Registry} {letters inner : Text} {definition : Definition}

theorem nested_ne_nil (present : inner ≠ []) (levels : Nat) : nested letters levels inner ≠ [] := by
  cases levels with
  | zero =>
    rw [nested_zero]
    exact present
  | succ levels =>
    rw [nested_succ]
    exact List.cons_ne_nil _ _

theorem Spells.balanced (spells : Spells tags letters definition) :
    Balanced (tagChar :: letters) := by
  have noParenthesis (c : Char) (noLetter : ¬c.isAlpha) (other : c ≠ tagChar) :
      c ∉ tagChar :: letters := by
    rw [List.mem_cons, not_or]
    exact ⟨other, fun member => noLetter (spells.isAlpha member)⟩
  exact balanced_of_not_mem (noParenthesis _ (by decide) (by decide))
    (noParenthesis _ (by decide) (by decide))

theorem balanced_nested (spells : Spells tags letters definition) (balanced : Balanced inner)
    (levels : Nat) : Balanced (nested letters levels inner) := by
  induction levels with
  | zero =>
    rw [nested_zero]
    exact balanced
  | succ levels inductionHypothesis =>
    rw [nested_succ]
    exact spells.balanced.append (balanced_enclosed inductionHypothesis)

end TagExpansion.Scan

namespace TagExpansion

open Tag (Definition)
open Scan (Argument Piece tagChar nested)

/-- A tag that is replaced by its expanded parameter. -/
structure Tag.Definition.Transparent (definition : Definition) : Prop where
  required : definition.requiresParameter = true
  recursive : definition.recursive = true
  handler : definition.handler = some fun _ parameter _ => .answer parameter

namespace Engine

/-- An engine whose adapters change nothing and that knows no abbreviations. -/
structure Unchanging (engine : Engine) : Prop where
  convert : engine.convert = .always id
  setParagraphs : engine.setParagraphs = .always id
  abbreviations : engine.abbreviations = .empty

/-- The call of a handler at some depth, where the tag is shown as it is written. -/
def plainCall (name parameter : Text) (depth : Nat) : Call where
  name := name
  parameter := parameter
  baseline := tagChar :: '(' :: name ++ parameter ++ [')']
  depth := depth

variable {engine : Engine} {letters : Text} {definition : Definition} {depth : Nat}

theorem Unchanging.baselineWith (unchanging : engine.Unchanging) (name parameter : Text) :
    engine.baselineWith name parameter =
      ⟨[.converted (tagChar :: '(' :: name), .converted [')']],
        .ok (tagChar :: '(' :: name ++ parameter ++ [')'])⟩ := by
  simp only [Engine.baselineWith, convertText, unchanging.convert]
  rfl

theorem Unchanging.convertSegment (unchanging : engine.Unchanging) (text : Text) :
    engine.convertSegment text = ⟨[.converted text, .arranged text], .ok text⟩ := by
  simp only [Engine.convertSegment, convertText, arrangeText, unchanging.convert,
    unchanging.setParagraphs]
  rfl

/-! ### One tag is taken off -/

/-- What happens when the parameter of a transparent tag has come out. -/
def takeOff (name : Text) (depth : Nat) (result : Text) : Run Text :=
  ⟨[.converted (tagChar :: '(' :: name), .converted [')'], .called (plainCall name result depth)],
    .ok result⟩

theorem alike_expandTag_of_transparent (unchanging : engine.Unchanging)
    (transparent : definition.Transparent) (nested : Text → Run Text) {parameter : Text}
    (present : parameter ≠ []) :
    Run.Alike (engine.expandTag nested depth definition parameter)
      ((nested parameter).andThen (takeOff definition.name depth)) := by
  have expands : definition.expandsParameter = true := by
    rw [Definition.expandsParameter, transparent.required, transparent.recursive]
    rfl
  have resolved : engine.abbreviations.resolve parameter = parameter := by
    rw [unchanging.abbreviations]
    rfl
  have prepared : Run.Alike (engine.prepare nested definition parameter) (nested parameter) := by
    rw [prepare, if_pos transparent.required]
    simp only [if_pos expands, resolved]
    exact Run.Alike.logAll_andThen _ _
  have replaced (result : Text) : (engine.baselineWith definition.name result).andThen
      (engine.replace nested depth definition result) = takeOff definition.name depth result := by
    rw [unchanging.baselineWith, Journal.andThen_of_ok rfl, replace, transparent.handler]
    rfl
  rw [expandTag, if_neg (mt List.isEmpty_iff.mp present)]
  simp only [Journal.bind_eq_andThen, replaced]
  exact prepared.andThen fun _ => .refl _

/-- Below the limit a transparent tag has its parameter expanded one level deeper, and is then
replaced by the result. -/
theorem alike_expandAt_of_transparent (unchanging : engine.Unchanging)
    (spells : Scan.Spells engine.tags letters definition) (transparent : definition.Transparent)
    (below : depth < engine.maxDepth) {parameter : Text} (present : parameter ≠ [])
    (balanced : Scan.Balanced parameter) :
    Run.Alike (engine.expandAt depth (tagChar :: letters ++ ('(' :: parameter ++ [')'])))
      ((engine.expandAt (depth + 1) parameter).andThen (takeOff definition.name (depth + 1))) :=
  (alike_expandAt_enclosed below spells balanced).trans
    (alike_expandTag_of_transparent unchanging transparent _ present)

theorem calls_andThen_takeOff {run : Run Text} {result : Text} (ended : run.outcome = .ok result)
    (name : Text) :
    Run.calls (run.andThen (takeOff name depth)) = run.calls ++ [plainCall name result depth] := by
  rw [Journal.andThen_of_ok ended]
  exact List.filterMap_append

theorem reports_andThen_takeOff {run : Run Text} {result : Text} (ended : run.outcome = .ok result)
    (name : Text) : Run.reports (run.andThen (takeOff name depth)) = run.reports := by
  rw [Journal.andThen_of_ok ended]
  exact List.filterMap_append.trans (List.append_nil _)

/-! ### All of them -/

/-- How tags inside of one another come out when `room` more expansions may be opened: the result,
the calls from the inside to the outside, and the report if the limit is reached. -/
structure Unwraps (engine : Engine) (letters name : Text) (inner : Text) (levels room depth : Nat)
    (run : Run Text) : Prop where
  outcome : run.outcome = .ok (nested letters (levels - room) inner)
  calls : run.calls = (List.range' (depth + 1) (min levels room)).reverse.map
    (plainCall name (nested letters (levels - room) inner))
  reports : run.reports = if room ≤ levels then [engine.nestingTooDeep] else []

theorem unwraps_of_le (unchanging : engine.Unchanging) (name inner : Text) {levels : Nat}
    (reached : engine.maxDepth ≤ depth)
    (accepts : (engine.sink engine.nestingTooDeep).outcome = .ok ()) :
    engine.Unwraps letters name inner levels 0 depth
      (engine.expandAt depth (nested letters levels inner)) := by
  obtain ⟨calls, reports, outcome⟩ := run_of_le reached (nested letters levels inner)
  refine ⟨?_, ?_, ?_⟩
  · rw [outcome, accepts, unchanging.convert, unchanging.setParagraphs]
    rfl
  · rw [calls, Nat.min_zero]
    rfl
  · rw [reports, if_pos (Nat.zero_le _)]

theorem unwraps_zero (unchanging : engine.Unchanging) (name : Text) {inner : Text}
    (present : inner ≠ []) (plain : tagChar ∉ inner) (below : depth < engine.maxDepth) :
    engine.Unwraps letters name inner 0 (engine.maxDepth - depth) depth
      (engine.expandAt depth (nested letters 0 inner)) := by
  have room : ¬engine.maxDepth - depth ≤ 0 := by omega
  rw [Scan.nested_zero, expandAt_of_plain engine below present plain, unchanging.convertSegment]
  refine ⟨?_, ?_, ?_⟩
  · rw [Nat.zero_sub, Scan.nested_zero]
    rfl
  · rw [Nat.zero_min]
    rfl
  · rw [if_neg room]
    rfl

/-- One more tag outside is one more call at the end, one level higher. -/
theorem Unwraps.succ {inner : Text} {levels room : Nat} {run around : Run Text}
    (unwraps : engine.Unwraps letters definition.name inner levels room (depth + 1) run)
    (alike : Run.Alike around (run.andThen (takeOff definition.name (depth + 1)))) :
    engine.Unwraps letters definition.name inner (levels + 1) (room + 1) depth around := by
  have ended := unwraps.outcome
  refine ⟨?_, ?_, ?_⟩
  · rw [alike.outcome, Journal.andThen_of_ok ended, Nat.add_sub_add_right]
    rfl
  · rw [alike.calls, calls_andThen_takeOff ended, unwraps.calls, Nat.add_sub_add_right,
      Nat.add_min_add_right, List.range'_succ, List.reverse_cons, List.map_append]
    rfl
  · rw [alike.reports, reports_andThen_takeOff ended, unwraps.reports]
    simp only [Nat.add_le_add_iff_right]

/-- The induction is on the tags: each of them takes one of the expansions that are left. -/
theorem unwraps_expandAt (unchanging : engine.Unchanging)
    (spells : Scan.Spells engine.tags letters definition) (transparent : definition.Transparent)
    {inner : Text} (present : inner ≠ []) (plain : tagChar ∉ inner)
    (balanced : Scan.Balanced inner) (levels depth : Nat)
    (accepts : engine.maxDepth - depth ≤ levels →
      (engine.sink engine.nestingTooDeep).outcome = .ok ()) :
    engine.Unwraps letters definition.name inner levels (engine.maxDepth - depth) depth
      (engine.expandAt depth (nested letters levels inner)) := by
  induction levels generalizing depth with
  | zero =>
    by_cases below : depth < engine.maxDepth
    · exact unwraps_zero unchanging definition.name present plain below
    · have room : engine.maxDepth - depth = 0 := by omega
      rw [room] at accepts ⊢
      exact unwraps_of_le unchanging _ _ (Nat.le_of_not_lt below) (accepts (Nat.le_refl 0))
  | succ levels inductionHypothesis =>
    by_cases below : depth < engine.maxDepth
    · have room : engine.maxDepth - depth = engine.maxDepth - (depth + 1) + 1 := by omega
      rw [room] at accepts ⊢
      have unwraps := inductionHypothesis (depth + 1) fun reached =>
        accepts (Nat.add_le_add_right reached 1)
      refine unwraps.succ ?_
      rw [Scan.nested_succ]
      exact alike_expandAt_of_transparent unchanging spells transparent below
        (Scan.nested_ne_nil present levels) (Scan.balanced_nested spells balanced levels)
    · have room : engine.maxDepth - depth = 0 := by omega
      rw [room] at accepts ⊢
      exact unwraps_of_le unchanging _ _ (Nat.le_of_not_lt below) (accepts (Nat.zero_le _))

/-- Of tags inside of one another as many are taken off as there may be expansions, and the others
stay as they are written. The handler is called once for each that is taken off, the innermost
first. The one report says that the limit is reached, which is so as soon as there are as many tags
as there may be expansions. -/
theorem expand_nested (engine : Engine) (unchanging : engine.Unchanging) {letters : Text}
    {definition : Definition} (spells : Scan.Spells engine.tags letters definition)
    (transparent : definition.Transparent) (levels : Nat) {inner : Text} (present : inner ≠ [])
    (plain : tagChar ∉ inner) (balanced : Scan.Balanced inner)
    (accepts : engine.maxDepth ≤ levels → (engine.sink engine.nestingTooDeep).outcome = .ok ()) :
    let run := engine.expand (nested letters levels inner)
    let result := nested letters (levels - engine.maxDepth) inner
    run.outcome = .ok result ∧
      run.calls = (List.range' 1 (min levels engine.maxDepth)).reverse.map
        (plainCall definition.name result) ∧
      run.reports = (if engine.maxDepth ≤ levels then [engine.nestingTooDeep] else []) ∧
      (engine.sink = .collect → run.diagnostics =
        if engine.maxDepth ≤ levels then [Defect.nestingTooDeep.diagnostic engine] else []) := by
  intro run result
  have unwraps : engine.Unwraps letters definition.name inner levels engine.maxDepth 0 run :=
    unwraps_expandAt unchanging spells transparent present plain balanced levels 0 accepts
  refine ⟨unwraps.outcome, unwraps.calls, unwraps.reports, fun collects => ?_⟩
  have diagnostics : run.diagnostics = run.reports.filterMap Report.diagnosis? :=
    diagnostics_expandAt collects 0 _
  rw [diagnostics, unwraps.reports]
  split
  · exact filterMap_diagnosis?_map_report engine [.nestingTooDeep]
  · rfl

/-- Three tags where two expansions may stand inside one another. -/
theorem expand_nested_of_three :
    let tag : Definition := {
      name := "n".toList, requiresParameter := true, recursive := true
      handler := some fun _ parameter _ => .answer parameter }
    let engine : Engine := {
      tags := Tag.Registry.empty.store tag, sink := .collect, limit := .number 2 }
    engine.Unchanging ∧ Scan.Spells engine.tags "N".toList tag ∧ tag.Transparent ∧
      Scan.Balanced "(x)".toList ∧
      nested "N".toList 3 "(x)".toList = "@N(@N(@N((x))))".toList ∧
      (engine.expand "@N(@N(@N((x))))".toList).outcome = .ok "@N((x))".toList ∧
      (engine.expand "@N(@N(@N((x))))".toList).calls.map Call.depth = [2, 1] ∧
      (engine.expand "@N(@N(@N((x))))".toList).diagnostics = [⟨.nestingTooDeep,
        "Tags nested deeper than 2 levels, text left unexpanded".toList, 1⟩] := by
  intro tag engine
  have unchanging : engine.Unchanging := ⟨rfl, rfl, rfl⟩
  have spells : Scan.Spells engine.tags "N".toList tag := ⟨by decide, rfl⟩
  have transparent : tag.Transparent := ⟨rfl, rfl, rfl⟩
  have found : Scan.splitClosing 0 "(x))".toList = some ("(x)".toList, []) := by decide
  have balanced : Scan.Balanced "(x)".toList := Scan.closing_of_splitClosing found
  have written : nested "N".toList 3 "(x)".toList = "@N(@N(@N((x))))".toList := by decide
  obtain ⟨outcome, calls, -, diagnostics⟩ := expand_nested engine unchanging spells transparent 3
    (by decide) (by decide) balanced fun _ => outcome_collect_report engine .nestingTooDeep
  rw [written] at outcome calls diagnostics
  refine ⟨unchanging, spells, transparent, balanced, written, outcome, ?_, ?_⟩
  · rw [calls]
    decide
  · rw [diagnostics rfl]
    decide +kernel

end Engine

end TagExpansion
