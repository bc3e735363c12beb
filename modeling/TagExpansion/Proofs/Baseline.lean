import TagExpansion.Proofs.Rendering

/-
This file says what the baseline of a call shows.

A tag that has no parameter is shown as its name, any other one with the parameter in parentheses.
Which of the two it is was decided when the parameter was read. Until the handler is called the
parameter may change: an abbreviation is replaced, and the result expanded. Either can leave
nothing of it. So the baseline shows the parameter that the handler gets, with one exception: where
a parameter was written and has come out empty, a pair of parentheses is shown with nothing in it.

To tell the exception from the rule one has to know for which tag a handler was called. Every call
belongs to a tag in a text that was expanded: the text itself, the parameter of one of its tags, or
a text that a handler asked for. The proof finds it by going through the parts of an expansion.
-/

namespace TagExpansion

open Tag (Definition Handler Script)
open Scan (Argument Piece tagChar)

namespace Engine

/-! ### Baselines -/

/-- The baseline of a call is the name of the tag. -/
def ShowsWithout (engine : Engine) (call : Call) : Prop :=
  engine.convert (tagChar :: call.name) = .ok call.baseline

/-- The baseline of a call is the name of the tag with the parameter in parentheses. -/
def ShowsWith (engine : Engine) (call : Call) : Prop :=
  ∃ front back, engine.convert (tagChar :: '(' :: call.name) = .ok front ∧
    engine.convert [')'] = .ok back ∧ call.baseline = front ++ call.parameter ++ back

/-- The baseline of a call shows the parameter that the handler gets. -/
def Faithful (engine : Engine) (call : Call) : Prop :=
  (call.parameter ≠ [] → engine.ShowsWith call) ∧
    (call.parameter = [] → engine.ShowsWithout call)

/-- The converter makes a difference between a tag without a parameter and one with an empty pair of
parentheses. -/
def Distinguishes (engine : Engine) (name : Text) : Prop :=
  ∀ bare front back, engine.convert (tagChar :: name) = .ok bare →
    engine.convert (tagChar :: '(' :: name) = .ok front → engine.convert [')'] = .ok back →
    bare ≠ front ++ back

theorem Builtin.distinguishes {engine : Engine} {format : Format}
    (builtin : engine.Builtin format) (name : Text) : engine.Distinguishes name := by
  intro bare front back isBare isFront isBack same
  rw [builtin.convert] at isBare isFront isBack
  cases isBare
  cases isFront
  cases isBack
  have length := congrArg List.length same
  cases format with
  | plain => simp [Format.convert] at length
  | html =>
    have tag : Markup.escapeChar tagChar = [tagChar] := by decide
    have opening : Markup.escapeChar '(' = ['('] := by decide
    have closing : Markup.escapeChar ')' = [')'] := by decide
    simp [Format.convert, Markup.escape, tag, opening, closing] at length

/-! ### The tag of a call -/

/-- The parameter that a handler gets for the one that is written in the text. -/
inductive Hands (engine : Engine) (depth : Nat) (definition : Definition) : Text → Text → Prop where
  /-- Nothing is made of nothing. -/
  | empty : Hands engine depth definition [] []
  /-- A tag that requires no parameter keeps what it has. -/
  | unexpected {written : Text} (present : written ≠ [])
      (notRequired : definition.requiresParameter = false) :
      Hands engine depth definition written written
  /-- Abbreviations are replaced. -/
  | resolved {written : Text} (present : written ≠ [])
      (required : definition.requiresParameter = true)
      (notExpanded : definition.expandsParameter = false) :
      Hands engine depth definition written (engine.abbreviations.resolve written)
  /-- The result is expanded if the tag says so. -/
  | expanded {written parameter : Text} (present : written ≠ [])
      (expands : definition.expandsParameter = true)
      (ended : (engine.expandAt depth (engine.abbreviations.resolve written)).outcome =
        .ok parameter) :
      Hands engine depth definition written parameter

/-- A call of the handler of a tag whose parameter is written as given. -/
structure Serves (engine : Engine) (definition : Definition) (written : Text) (call : Call) :
    Prop where
  name : call.name = definition.name
  hands : engine.Hands call.depth definition written call.parameter
  shownWithout : written = [] → engine.ShowsWithout call
  shownWith : written ≠ [] → engine.ShowsWith call

/-- A script that runs at some depth has a text expanded. -/
def Asks (engine : Engine) (depth : Nat) (inner : Text) : Script → Prop
  | .answer _ => False
  | .decline => False
  | .fail _ => False
  | .expand text next =>
    text = inner ∨ engine.Asks depth inner (next (engine.expandAt depth text).outcome)
  | .convert text next => engine.Asks depth inner (next (engine.convertText text).outcome)
  | .report report next => engine.Asks depth inner (next (engine.handOver report).outcome)
  | .askDepth next => engine.Asks depth inner (next depth)
  | .askTags next => engine.Asks depth inner (next engine.tags.features)

/-- What a tag whose parameter is written as given has expanded at some depth: the parameter, with
abbreviations replaced, and what its handler asks for. -/
inductive Demands (engine : Engine) (depth : Nat) (definition : Definition) (written : Text) :
    Text → Prop where
  | parameter (present : written ≠ []) (expands : definition.expandsParameter = true) :
      Demands engine depth definition written (engine.abbreviations.resolve written)
  | handler {call : Call} {handler : Handler} {inner : Text}
      (serves : engine.Serves definition written call) (atDepth : call.depth = depth)
      (isHandler : definition.handler = some handler)
      (asks : engine.Asks depth inner (handler call.name call.parameter call.baseline)) :
      Demands engine depth definition written inner

/-- To expand a text at some depth is to expand another one, at the same depth or deeper: itself, or
what one of its tags has expanded. -/
inductive Visits (engine : Engine) : (depth : Nat) → Text → (deeper : Nat) → Text → Prop where
  | self {depth : Nat} {text : Text} : Visits engine depth text depth text
  | inside {depth deeper : Nat} {text letters inner innermost : Text} {definition : Definition}
      {argument : Argument}
      (member : .tag definition letters argument ∈ Scan.pieces engine.tags text)
      (demands : engine.Demands (depth + 1) definition argument.parameter inner)
      (visits : Visits engine (depth + 1) inner deeper innermost) :
      Visits engine depth text deeper innermost

/-- A call that belongs to a tag in a text that is expanded. -/
def Placed (engine : Engine) (depth : Nat) (text : Text) (call : Call) : Prop :=
  ∃ deeper inner definition letters argument, engine.Visits depth text deeper inner ∧
    .tag definition letters argument ∈ Scan.pieces engine.tags inner ∧
    call.depth = deeper + 1 ∧ engine.Serves definition argument.parameter call

theorem Placed.inside {engine : Engine} {depth : Nat} {text letters inner : Text}
    {definition : Definition} {argument : Argument} {call : Call}
    (member : .tag definition letters argument ∈ Scan.pieces engine.tags text)
    (demands : engine.Demands (depth + 1) definition argument.parameter inner)
    (placed : engine.Placed (depth + 1) inner call) : engine.Placed depth text call := by
  obtain ⟨deeper, innermost, other, letters', argument', visits, rest⟩ := placed
  exact ⟨deeper, innermost, other, letters', argument', .inside member demands visits, rest⟩

/-! ### Where calls come from -/

/-- The calls of a sequence are those of its parts. -/
theorem mem_calls_andThen {α β : Type} {first : Run α} {next : α → Run β} {call : Call}
    (member : call ∈ Run.calls (first.andThen next)) :
    call ∈ first.calls ∨ ∃ value, first.outcome = .ok value ∧ call ∈ (next value).calls := by
  cases ended : first.outcome with
  | ok value =>
    rw [Journal.andThen_of_ok ended, Run.mem_calls_iff, List.mem_append] at member
    exact member.imp Run.mem_calls_iff.mpr fun later => ⟨value, rfl, Run.mem_calls_iff.mpr later⟩
  | error fault =>
    rw [Journal.andThen_of_error ended] at member
    exact .inl member

/-- Behind a part without calls. -/
theorem mem_calls_of_silent {α β : Type} {first : Run α} {next : α → Run β} {call : Call}
    (silent : first.calls = []) (member : call ∈ Run.calls (first.andThen next)) :
    ∃ value, first.outcome = .ok value ∧ call ∈ (next value).calls := by
  rcases mem_calls_andThen member with before | later
  · rw [silent] at before
    cases before
  · exact later

variable {engine : Engine} {depth : Nat} {definition : Definition} {call : Call}

theorem calls_convertText (engine : Engine) (text : Text) : (engine.convertText text).calls = [] :=
  rfl

theorem calls_logAll (entries : List Log.Entry) : (Run.logAll entries).calls = [] := by
  show (entries.map fun entry => Event.noticed (.logged entry)).filterMap Event.call? = []
  rw [List.filterMap_map, List.filterMap_eq_nil_iff]
  intro entry _
  rfl

theorem calls_reportSegment (engine : Engine) (text : Text) :
    (engine.reportSegment text).calls = [] := by
  unfold reportSegment
  split
  · exact calls_handOver engine _
  · rfl

theorem calls_reportArgument (engine : Engine) (letters : Text) (argument : Argument) :
    (engine.reportArgument letters argument).calls = [] := by
  cases argument with
  | unclosed rest => exact calls_handOver engine _
  | absent => rfl
  | enclosed inside => rfl
  | line rest => rfl

/-- The calls in a script are those of the texts that it has expanded. -/
theorem exists_asks_of_mem_calls {script : Script}
    (member : call ∈ (engine.perform (engine.expandAt depth) depth script).calls) :
    ∃ inner, engine.Asks depth inner script ∧ call ∈ (engine.expandAt depth inner).calls := by
  induction script with
  | answer text => cases member
  | decline => cases member
  | fail fault => cases member
  | expand text next inductionHypothesis =>
    rw [Run.mem_calls_iff, perform, Journal.entries_settle, List.mem_append] at member
    rcases member with here | later
    · exact ⟨text, .inl rfl, Run.mem_calls_iff.mpr here⟩
    · obtain ⟨inner, asks, found⟩ := inductionHypothesis _ (Run.mem_calls_iff.mpr later)
      exact ⟨inner, .inr asks, found⟩
  | convert text next inductionHypothesis => exact inductionHypothesis _ member
  | report report next inductionHypothesis =>
    rw [Run.mem_calls_iff, perform, Journal.entries_settle, List.mem_append] at member
    rcases member with here | later
    · have none := Run.mem_calls_iff.mpr here
      rw [calls_handOver] at none
      cases none
    · exact inductionHypothesis _ (Run.mem_calls_iff.mpr later)
  | askDepth next inductionHypothesis => exact inductionHypothesis _ member
  | askTags next inductionHypothesis => exact inductionHypothesis _ member

/-- A tag that is replaced has its handler called, and the other calls are those of the texts that
the handler has expanded. -/
theorem of_mem_calls_replace {parameter baseline : Text} (member : call ∈
      (engine.replace (engine.expandAt depth) depth definition parameter baseline).calls) :
    call = ⟨definition.name, parameter, baseline, depth⟩ ∨
      ∃ handler inner, definition.handler = some handler ∧
        engine.Asks depth inner (handler definition.name parameter baseline) ∧
        call ∈ (engine.expandAt depth inner).calls := by
  unfold replace at member
  split at member
  · cases member
  · rename_i handler isHandler
    rcases mem_calls_andThen member with here | ⟨_, -, later⟩
    · exact .inl (List.mem_singleton.mp here)
    · rcases mem_calls_andThen later with inScript | ⟨_, -, behind⟩
      · obtain ⟨inner, asks, found⟩ := exists_asks_of_mem_calls inScript
        exact .inr ⟨handler, inner, isHandler, asks, found⟩
      · cases behind

/-- A call in the replacement of a tag is one for that tag, or one in a text that the tag has
expanded. -/
theorem serves_or_demands_of_replace {written parameter baseline : Text}
    (serves : engine.Serves definition written ⟨definition.name, parameter, baseline, depth⟩)
    (member : call ∈
      (engine.replace (engine.expandAt depth) depth definition parameter baseline).calls) :
    (engine.Serves definition written call ∧ call.depth = depth) ∨
      ∃ inner, engine.Demands depth definition written inner ∧
        call ∈ (engine.expandAt depth inner).calls := by
  rcases of_mem_calls_replace member with rfl | ⟨handler, inner, isHandler, asks, found⟩
  · exact .inl ⟨serves, rfl⟩
  · exact .inr ⟨inner, .handler serves rfl isHandler asks, found⟩

/-- What a parameter is made into is what the handler gets. -/
theorem hands_of_prepare {written parameter : Text} (present : written ≠ [])
    (ended : (engine.prepare (engine.expandAt depth) definition written).outcome = .ok parameter) :
    engine.Hands depth definition written parameter := by
  unfold prepare at ended
  split at ended
  · rename_i required
    obtain ⟨_, -, later⟩ := Journal.outcome_andThen_eq_ok_iff.mp ended
    split at later
    · rename_i expands
      exact .expanded present expands later
    · rename_i notExpanded
      cases later
      exact .resolved present required (eq_false_of_ne_true notExpanded)
  · rename_i notRequired
    obtain ⟨_, -, later⟩ := Journal.outcome_andThen_eq_ok_iff.mp ended
    cases later
    exact .unexpected present (eq_false_of_ne_true notRequired)

/-- The calls on the way are those of its expansion. -/
theorem demands_of_mem_calls_prepare {written : Text} (present : written ≠ [])
    (member : call ∈ (engine.prepare (engine.expandAt depth) definition written).calls) :
    ∃ inner, engine.Demands depth definition written inner ∧
      call ∈ (engine.expandAt depth inner).calls := by
  unfold prepare at member
  split at member
  · obtain ⟨_, -, later⟩ := mem_calls_of_silent (calls_logAll _) member
    split at later
    · rename_i expands
      exact ⟨_, .parameter present expands, later⟩
    · cases later
  · obtain ⟨_, -, later⟩ := mem_calls_of_silent (calls_handOver engine _) member
    cases later

theorem showsWith_of_baselineWith {name parameter baseline : Text}
    (ended : (engine.baselineWith name parameter).outcome = .ok baseline) :
    engine.ShowsWith ⟨name, parameter, baseline, depth⟩ := by
  obtain ⟨front, isFront, later⟩ := Journal.outcome_andThen_eq_ok_iff.mp ended
  obtain ⟨back, isBack, same⟩ := Journal.outcome_andThen_eq_ok_iff.mp later
  cases same
  exact ⟨front, back, isFront, isBack, rfl⟩

theorem calls_baselineWith (engine : Engine) (name parameter : Text) :
    (engine.baselineWith name parameter).calls = [] := by
  refine List.eq_nil_iff_forall_not_mem.mpr fun call member => ?_
  obtain ⟨_, -, later⟩ := mem_calls_of_silent (calls_convertText engine _) member
  obtain ⟨_, -, last⟩ := mem_calls_of_silent (calls_convertText engine _) later
  cases last

/-- A call in the expansion of a tag is one for that tag, or one in a text that the tag has
expanded. -/
theorem serves_or_demands_of_expandTag {written : Text}
    (member : call ∈
      (engine.expandTag (engine.expandAt depth) depth definition written).calls) :
    (engine.Serves definition written call ∧ call.depth = depth) ∨
      ∃ inner, engine.Demands depth definition written inner ∧
        call ∈ (engine.expandAt depth inner).calls := by
  unfold expandTag at member
  split at member
  · rename_i isEmpty
    have empty : written = [] := List.isEmpty_iff.mp isEmpty
    subst empty
    obtain ⟨baseline, shown, replaced⟩ := mem_calls_of_silent (calls_convertText engine _) member
    exact serves_or_demands_of_replace
      ⟨rfl, .empty, fun _ => shown, fun present => absurd rfl present⟩ replaced
  · rename_i isEmpty
    have present : written ≠ [] := mt List.isEmpty_iff.mpr isEmpty
    rcases mem_calls_andThen member with early | ⟨parameter, ready, later⟩
    · exact .inr (demands_of_mem_calls_prepare present early)
    · obtain ⟨baseline, shown, replaced⟩ :=
        mem_calls_of_silent (calls_baselineWith engine _ _) later
      exact serves_or_demands_of_replace ⟨rfl, hands_of_prepare present ready,
        fun empty => absurd empty present, fun _ => showsWith_of_baselineWith shown⟩ replaced

/-- Only tags have handlers called. -/
theorem exists_tag_of_mem_calls {nested : Text → Run Text} {start : Nat} {pieces : List Piece}
    (member : call ∈ (engine.expandPieces nested depth start pieces).calls) :
    ∃ definition letters argument, .tag definition letters argument ∈ pieces ∧
      call ∈ (engine.expandTag nested depth definition argument.parameter).calls := by
  induction pieces generalizing start with
  | nil => cases member
  | cons piece others inductionHypothesis =>
    rcases mem_calls_andThen member with here | ⟨_, -, later⟩
    · cases piece with
      | segment text =>
        obtain ⟨_, -, converted⟩ := mem_calls_of_silent (calls_reportSegment engine text) here
        have none := filterMap_entries_convertSegment engine Event.call? (fun _ => ⟨rfl, rfl⟩) text
        rw [Run.calls, none] at converted
        cases converted
      | escape => cases here
      | tag definition letters argument =>
        obtain ⟨_, -, logged⟩ := mem_calls_of_silent (calls_reportArgument engine _ _) here
        obtain ⟨_, -, found⟩ := mem_calls_of_silent (calls_logAll [_]) logged
        exact ⟨definition, letters, argument, List.mem_cons_self, found⟩
    · obtain ⟨definition, letters, argument, among, found⟩ := inductionHypothesis later
      exact ⟨definition, letters, argument, List.mem_cons_of_mem _ among, found⟩

/-- Every call belongs to a tag in a text that is expanded. -/
theorem placed_of_mem_calls (depth : Nat) (text : Text)
    (member : call ∈ (engine.expandAt depth text).calls) : engine.Placed depth text call := by
  induction depth using engine.expandAt_induction generalizing text with
  | limit depth reached =>
    rw [(run_of_le reached text).1] at member
    cases member
  | deeper depth below inductionHypothesis =>
    rw [expandAt_of_lt engine below, Run.mem_calls_iff, Journal.entries_enclose, List.cons_append,
      List.mem_cons, List.mem_append, List.mem_singleton] at member
    rcases member with entered | inside | left
    · cases entered
    · obtain ⟨definition, letters, argument, among, found⟩ :=
        exists_tag_of_mem_calls (Run.mem_calls_iff.mpr inside)
      rcases serves_or_demands_of_expandTag found with ⟨serves, atDepth⟩ | ⟨inner, demands, later⟩
      · exact ⟨depth, text, definition, letters, argument, .self, among, atDepth, serves⟩
      · exact .inside among demands (inductionHypothesis inner later)
    · cases left

/-! ### What a baseline shows -/

theorem Hands.eq_nil {parameter : Text} (hands : engine.Hands depth definition [] parameter) :
    parameter = [] := by
  cases hands with
  | empty => rfl
  | unexpected present => exact absurd rfl present
  | resolved present => exact absurd rfl present
  | expanded present => exact absurd rfl present

theorem Serves.faithful {written : Text} (serves : engine.Serves definition written call)
    (kept : written = [] ∨ call.parameter ≠ []) : engine.Faithful call := by
  have emptied : written = [] → call.parameter = [] := by
    rintro rfl
    exact serves.hands.eq_nil
  refine ⟨fun present => serves.shownWith (mt emptied present), fun empty => ?_⟩
  rcases kept with absent | present
  · exact serves.shownWithout absent
  · exact absurd empty present

theorem Serves.not_faithful {written : Text} (serves : engine.Serves definition written call)
    (distinguishes : engine.Distinguishes call.name) (present : written ≠ [])
    (empty : call.parameter = []) : ¬engine.Faithful call := by
  intro faithful
  obtain ⟨front, back, isFront, isBack, same⟩ := serves.shownWith present
  rw [empty, List.append_nil] at same
  exact distinguishes _ front back (faithful.2 empty) isFront isBack same

/-- Every call belongs to a tag in a text that is expanded, and its baseline shows the parameter
that the handler gets, unless there was one written and it has come out empty. In that case a
converter that makes the difference shows parentheses which should not be there. -/
theorem exists_tag_of_baseline (engine : Engine) (text : Text) {call : Call}
    (member : call ∈ (engine.expand text).calls) :
    ∃ deeper inner definition letters argument, engine.Visits 0 text deeper inner ∧
      .tag definition letters argument ∈ Scan.pieces engine.tags inner ∧
      call.depth = deeper + 1 ∧ engine.Serves definition argument.parameter call ∧
      (argument.parameter = [] ∨ call.parameter ≠ [] → engine.Faithful call) ∧
      (engine.Distinguishes call.name →
        (engine.Faithful call ↔ argument.parameter = [] ∨ call.parameter ≠ [])) := by
  obtain ⟨deeper, inner, definition, letters, argument, visits, among, atDepth, serves⟩ :=
    placed_of_mem_calls 0 text member
  refine ⟨deeper, inner, definition, letters, argument, visits, among, atDepth, serves,
    serves.faithful, fun distinguishes => ⟨fun faithful => ?_, serves.faithful⟩⟩
  by_contra lost
  obtain ⟨present, empty⟩ := not_or.mp lost
  exact serves.not_faithful distinguishes present (not_not.mp empty) faithful

/-- A call inside a tag, with a parameter of its own. -/
theorem exists_tag_of_baseline_of_code :
    let engine : Engine := {
      tags := .builtin .html, convert := .always Format.html.convert
      setParagraphs := .always Format.html.setParagraphs, sink := .collect }
    let call : Call := ⟨"code".toList, "a&lt;b".toList, "@(codea&lt;b)".toList, 2⟩
    call ∈ (engine.expand "@bold(@code(a<b))".toList).calls ∧ engine.Faithful call := by
  intro engine call
  have member : call ∈ (engine.expand "@bold(@code(a<b))".toList).calls := by decide +kernel
  obtain ⟨_, _, _, _, _, -, -, -, -, shown, -⟩ := exists_tag_of_baseline engine _ member
  exact ⟨member, shown (.inr (by decide))⟩

/-- A parameter whose only tag is replaced by nothing. -/
theorem expand_of_emptied :
    let inner : Definition := { name := "e".toList, handler := some fun _ _ _ => .answer [] }
    let outer : Definition := {
      name := "a".toList, requiresParameter := true, recursive := true
      handler := some fun _ _ _ => .decline }
    let engine : Engine := {
      tags := (Tag.Registry.empty.store inner).store outer, sink := .collect }
    (engine.expand "@a(@e)".toList).outcome = .ok "@(a)".toList ∧
      (engine.expand "@a(@e)".toList).calls = [⟨"e".toList, [], "@e".toList, 2⟩,
        ⟨"a".toList, [], "@(a)".toList, 1⟩] ∧
      ¬∀ call ∈ (engine.expand "@a(@e)".toList).calls, engine.Faithful call := by
  intro inner outer engine
  have calls : (engine.expand "@a(@e)".toList).calls = [⟨"e".toList, [], "@e".toList, 2⟩,
      ⟨"a".toList, [], "@(a)".toList, 1⟩] := by decide +kernel
  refine ⟨by decide +kernel, calls, fun faithful => ?_⟩
  rw [calls] at faithful
  have shown := (faithful _ (.tail _ (.head _))).2 rfl
  unfold ShowsWithout at shown
  exact absurd shown (by decide)

end Engine

end TagExpansion
