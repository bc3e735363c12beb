import TagExpansion.Proofs.Collecting
import TagExpansion.Proofs.Registry
import TagExpansion.Proofs.Template

/-
This file gives a full account of what an expansion reports.

Four things can be wrong with a text. A segment may look like a tag, a parenthesis may be open to
the end, a tag that takes no parameter may have one, and a parameter may be nested too deep. The
first three can be seen from a piece, the fourth from the depth at which a parameter is expanded.
So the defects of a text are those of its pieces from left to right, where a piece whose parameter
is expanded counts with the defects of that parameter, abbreviations resolved. Nothing in this
account is about how a text is expanded.

If the handlers keep to themselves, the reports of an expansion are the defects of the text, each
once and in their order. Where an adapter or the sink gives up, they are so up to that point. A
sink that takes up diagnostics has one for each report, with the name or the limit in its message.
-/

namespace TagExpansion

open Tag (Definition Script)
open Scan (Argument Piece tagChar)

/-- Something that is wrong with a text. -/
inductive Defect where
  /-- A segment looks like a tag of this name. -/
  | unknownTag (name : Text)
  /-- The parenthesis behind this name is not closed. -/
  | unmatchedParenthesis (name : Text)
  /-- The tag of this name takes no parameter and has one. -/
  | unexpectedParameters (name : Text)
  /-- A parameter is to be expanded at the limit of nesting. -/
  | nestingTooDeep
  deriving DecidableEq, Repr

/-- A limit that an engine accepts has few digits. -/
theorem Engine.hasNumeral_limit (engine : Engine) :
    Text.hasNumeral engine.limit.toInt = true := by
  obtain ⟨positive, atMost⟩ := engine.validLimit
  have small : engine.limit.toInt.natAbs ≤ Limit.greatest := by omega
  exact decide_eq_true (small.trans_lt (by decide +kernel))

namespace Defect

/-- The report about a defect. -/
def report (engine : Engine) : Defect → Report
  | .unknownTag name => Engine.unknownTag name
  | .unmatchedParenthesis name => Engine.unmatchedParenthesis name
  | .unexpectedParameters name => Engine.unexpectedParameters name
  | .nestingTooDeep => engine.nestingTooDeep

/-- The diagnostic of a defect. -/
def diagnostic (engine : Engine) : Defect → Diagnostic
  | .unknownTag name => ⟨.unknownTag, "Unknown tag name \"".toList ++ name ++ "\"".toList, 1⟩
  | .unmatchedParenthesis name =>
    ⟨.unmatchedParenthesis,
      "No matching closing parenthesis for tag \"".toList ++ name ++ "\"".toList, 1⟩
  | .unexpectedParameters name =>
    ⟨.unexpectedParameters,
      "Tag \"".toList ++ name ++ "\" is not allowed to have any parameters".toList, 1⟩
  | .nestingTooDeep =>
    ⟨.nestingTooDeep, "Tags nested deeper than ".toList ++ Text.ofInt engine.limit.toInt ++
      " levels, text left unexpanded".toList, 1⟩

/-- A report with one argument that its template shows. -/
theorem diagnose_of_fill {kind : Kind} {template message : Text} {argument : Value}
    (fits : Template.fill template [argument] = .ok message) :
    (Report.mk Engine.ownVerbosity kind template [argument]).diagnose =
      .done ⟨kind, message, Engine.ownVerbosity⟩ := by
  have given : ¬[argument].isEmpty = true := Bool.false_ne_true
  have filled : Report.fillTemplate template [argument] = .done message := by
    rw [Report.fillTemplate, if_neg given, fits]
  show ((Report.fillTemplate template [argument]).mapEntries Notice.logged).andThen _ = _
  rw [filled]
  rfl

theorem diagnose_of_name {kind : Kind} {template front back : Text}
    (split : template = front ++ '%' :: 's' :: back) (before : '%' ∉ front) (behind : '%' ∉ back)
    (name : Text) :
    (Report.mk Engine.ownVerbosity kind template [.text name]).diagnose =
      .done ⟨kind, front ++ name ++ back, Engine.ownVerbosity⟩ := by
  rw [split]
  exact diagnose_of_fill (Template.fill_text before behind name)

/-- The reports of an expansion fit their templates. -/
theorem diagnose_report (engine : Engine) (defect : Defect) :
    (defect.report engine).diagnose = .done (defect.diagnostic engine) := by
  cases defect with
  | unknownTag name =>
    exact diagnose_of_name (by decide +kernel) (by decide +kernel) (by decide +kernel) name
  | unmatchedParenthesis name =>
    exact diagnose_of_name (by decide +kernel) (by decide +kernel) (by decide +kernel) name
  | unexpectedParameters name =>
    exact diagnose_of_name (by decide +kernel) (by decide +kernel) (by decide +kernel) name
  | nestingTooDeep =>
    have split : "Tags nested deeper than %d levels, text left unexpanded".toList =
        "Tags nested deeper than ".toList ++
          '%' :: 'd' :: " levels, text left unexpanded".toList := by
      decide +kernel
    refine diagnose_of_fill ?_
    rw [split]
    exact Template.fill_number (by decide +kernel) (by decide +kernel) engine.hasNumeral_limit

end Defect

/-! ### The defects of a text -/

/-- What is wrong with a piece, apart from its parameter. -/
def Scan.Piece.defect? : Piece → Option Defect
  | .segment (first :: second :: rest) =>
    if first = tagChar ∧ second.isAlpha then
      some (.unknownTag (Text.lower ((second :: rest).takeWhile Char.isAlpha)))
    else none
  | .segment _ => none
  | .escape => none
  | .tag _ letters (.unclosed _) => some (.unmatchedParenthesis (Text.lower letters))
  | .tag definition _ (.enclosed inside) =>
    if definition.requiresParameter = false ∧ inside ≠ [] then
      some (.unexpectedParameters definition.name)
    else none
  | .tag _ _ _ => none

namespace Engine

/-- The text that has to be expanded for a piece: the parameter of a tag that says so, with
abbreviations resolved. -/
def inner? (engine : Engine) : Piece → Option Text
  | .tag definition _ argument =>
    if definition.expandsParameter ∧ argument.parameter ≠ [] then
      some (engine.abbreviations.resolve argument.parameter)
    else none
  | _ => none

/-- The defects of a text, when `room` more texts may be opened inside one another. -/
def defectsWithin (engine : Engine) : (room : Nat) → Text → List Defect
  | 0, _ => [.nestingTooDeep]
  | room + 1, text =>
    (Scan.pieces engine.tags text).flatMap fun piece =>
      piece.defect?.toList ++ (engine.inner? piece).toList.flatMap (engine.defectsWithin room)

/-- The defects of a text inside `depth` other texts. -/
def defectsAt (engine : Engine) (depth : Nat) (text : Text) : List Defect :=
  engine.defectsWithin (engine.maxDepth - depth) text

/-- The defects of a text, those of a parameter in the place of its tag. -/
def defects (engine : Engine) (text : Text) : List Defect := engine.defectsAt 0 text

/-- The defects that come with a piece, the expanded text included. -/
def pieceDefects (engine : Engine) (depth : Nat) (piece : Piece) : List Defect :=
  piece.defect?.toList ++ (engine.inner? piece).toList.flatMap (engine.defectsAt depth)

theorem defectsAt_of_lt (engine : Engine) {depth : Nat} (below : depth < engine.maxDepth)
    (text : Text) :
    engine.defectsAt depth text =
      (Scan.pieces engine.tags text).flatMap (engine.pieceDefects (depth + 1)) := by
  obtain ⟨room, isRoom⟩ : ∃ room, engine.maxDepth - depth = room + 1 :=
    ⟨engine.maxDepth - depth - 1, by omega⟩
  have left : engine.maxDepth - (depth + 1) = room := by omega
  have nested : engine.defectsAt (depth + 1) = engine.defectsWithin room := by
    funext inner
    rw [defectsAt, left]
  rw [defectsAt, isRoom, defectsWithin, ← nested]
  rfl

theorem defectsAt_of_le (engine : Engine) {depth : Nat} (reached : engine.maxDepth ≤ depth)
    (text : Text) : engine.defectsAt depth text = [.nestingTooDeep] := by
  have left : engine.maxDepth - depth = 0 := by omega
  rw [defectsAt, left, defectsWithin]

/-! ### Texts without defects -/

/-- A text at some depth has another one at some depth expanded: itself, or what the parameter of
one of its tags has expanded. At the limit there are no tags. -/
inductive Opens (engine : Engine) : (depth : Nat) → Text → (deeper : Nat) → Text → Prop where
  | self {depth : Nat} {text : Text} : Opens engine depth text depth text
  | parameter {depth deeper : Nat} {text inner innermost : Text} {piece : Piece}
      (below : depth < engine.maxDepth) (member : piece ∈ Scan.pieces engine.tags text)
      (asks : engine.inner? piece = some inner)
      (opens : Opens engine (depth + 1) inner deeper innermost) :
      Opens engine depth text deeper innermost

/-- No text that is expanded for a text is at the limit, and none has a piece with a defect. -/
def CleanAt (engine : Engine) (depth : Nat) (text : Text) : Prop :=
  ∀ deeper innermost, engine.Opens depth text deeper innermost →
    deeper < engine.maxDepth ∧ ∀ piece ∈ Scan.pieces engine.tags innermost, piece.defect? = none

theorem cleanAt_iff_of_lt {engine : Engine} {depth : Nat} (below : depth < engine.maxDepth)
    (text : Text) :
    engine.CleanAt depth text ↔ ∀ piece ∈ Scan.pieces engine.tags text, piece.defect? = none ∧
      ∀ inner, engine.inner? piece = some inner → engine.CleanAt (depth + 1) inner := by
  constructor
  · intro clean piece member
    refine ⟨(clean depth text .self).2 piece member, ?_⟩
    intro inner asks deeper innermost opens
    exact clean deeper innermost (.parameter below member asks opens)
  · intro pieces deeper innermost opens
    cases opens with
    | self => exact ⟨below, fun piece member => (pieces piece member).1⟩
    | parameter _ member asks opens =>
      exact (pieces _ member).2 _ asks deeper innermost opens

theorem defectsAt_eq_nil_iff (engine : Engine) (depth : Nat) (text : Text) :
    engine.defectsAt depth text = [] ↔ engine.CleanAt depth text := by
  induction depth using engine.expandAt_induction generalizing text with
  | limit depth reached =>
    rw [defectsAt_of_le engine reached]
    constructor
    · intro none
      cases none
    · intro clean
      exact absurd (clean depth text .self).1 (Nat.not_lt.mpr reached)
  | deeper depth below inductionHypothesis =>
    rw [defectsAt_of_lt engine below, List.flatMap_eq_nil_iff, cleanAt_iff_of_lt below]
    refine forall₂_congr fun piece _ => ?_
    rw [pieceDefects, List.append_eq_nil_iff, Option.toList_eq_nil_iff, List.flatMap_eq_nil_iff]
    refine and_congr_right fun _ => forall_congr' fun inner => ?_
    rw [Option.mem_toList, inductionHypothesis]

end Engine

/-! ### Handlers that keep to themselves -/

/-- A script that has the engine do nothing and does not fail. It may know the depth and the tags. -/
def Tag.Script.Detached : Script → Prop
  | .answer _ => True
  | .decline => True
  | .fail _ => False
  | .expand _ _ => False
  | .convert _ _ => False
  | .report _ _ => False
  | .askDepth next => ∀ depth, (next depth).Detached
  | .askTags next => ∀ tags, (next tags).Detached

/-- Every script of a definition is detached. -/
def Tag.Definition.Detached (definition : Definition) : Prop :=
  ∀ parameter baseline, (definition.script parameter baseline).Detached

namespace Engine

/-- All handlers keep to themselves. -/
def Detached (engine : Engine) : Prop :=
  ∀ definition, engine.Knows definition → definition.Detached

theorem not_givesUp_of_detached {engine : Engine} {depth : Nat} {fault : Fault} {script : Script}
    (detached : script.Detached) : ¬engine.GivesUp depth fault script := by
  induction script with
  | answer text => exact id
  | decline => exact id
  | fail other => exact detached.elim
  | expand text next => exact detached.elim
  | convert text next => exact detached.elim
  | report report next => exact detached.elim
  | askDepth next inductionHypothesis => exact inductionHypothesis depth (detached depth)
  | askTags next inductionHypothesis =>
    exact inductionHypothesis engine.tags.features (detached engine.tags.features)

end Engine

/-! ### What a run tells -/

namespace Run

variable {α β : Type}

/-- The reports of a run are the given ones, or a front part of them if it fails. -/
structure Tells (expected : List Report) (run : Run α) : Prop where
  start : run.reports <+: expected
  whole : ∀ {value}, run.outcome = .ok value → run.reports = expected

namespace Tells

theorem of_eq {expected : List Report} {run : Run α} (same : run.reports = expected) :
    Tells expected run :=
  ⟨same ▸ List.prefix_refl _, fun _ => same⟩

theorem andThen {front back : List Report} {run : Run α} {next : α → Run β}
    (first : Tells front run) (second : ∀ value, Tells back (next value)) :
    Tells (front ++ back) (run.andThen next) := by
  cases ended : run.outcome with
  | ok value =>
    have reports : Run.reports (run.andThen next) = front ++ (next value).reports := by
      rw [Journal.andThen_of_ok ended, ← first.whole ended]
      exact List.filterMap_append
    refine ⟨?_, fun succeeds => ?_⟩
    · rw [reports]
      exact (List.prefix_append_right_inj _).mpr (second value).start
    · rw [Journal.andThen_of_ok ended] at succeeds
      rw [reports, (second value).whole succeeds]
  | error fault =>
    rw [Journal.andThen_of_error ended]
    refine ⟨first.start.trans (List.prefix_append _ _), fun succeeds => ?_⟩
    cases succeeds

theorem map {expected : List Report} {run : Run α} (change : α → β) (tells : Tells expected run) :
    Tells expected (run.map change) := by
  rw [Journal.map_eq_andThen, ← List.append_nil expected]
  exact tells.andThen fun _ => of_eq rfl

theorem enclose {expected : List Report} {run : Run α} (tells : Tells expected run) :
    Tells expected (run.enclose .entered .left) := by
  have same : Run.reports (run.enclose .entered .left) = run.reports := by
    show (run.entries ++ [Event.left]).filterMap Event.report? = _
    rw [List.filterMap_append]
    exact List.append_nil _
  exact ⟨same ▸ tells.start, fun succeeds => same ▸ tells.whole succeeds⟩

/-- Silence before a run. -/
theorem after {expected : List Report} {run : Run α} {next : α → Run β} (silent : Tells [] run)
    (second : ∀ value, Tells expected (next value)) : Tells expected (run.andThen next) :=
  silent.andThen second

/-- Silence behind a run. -/
theorem before {expected : List Report} {run : Run α} {next : α → Run β}
    (tells : Tells expected run) (silent : ∀ value, Tells [] (next value)) :
    Tells expected (run.andThen next) := by
  rw [← List.append_nil expected]
  exact tells.andThen silent

end Tells

end Run

namespace Engine

open Run (Tells)

variable {engine : Engine} {nested : Text → Run Text} {depth : Nat}

theorem tells_handOver (engine : Engine) (report : Report) :
    Tells [report] (engine.handOver report) :=
  .of_eq (reports_handOver engine report)

theorem tells_convertText (engine : Engine) (text : Text) : Tells [] (engine.convertText text) :=
  .of_eq rfl

theorem tells_convertSegment (engine : Engine) (text : Text) :
    Tells [] (engine.convertSegment text) :=
  .of_eq (filterMap_entries_convertSegment engine _ (fun _ => ⟨rfl, rfl⟩) text)

theorem tells_baselineWith (engine : Engine) (name parameter : Text) :
    Tells [] (engine.baselineWith name parameter) :=
  (tells_convertText engine _).after fun _ =>
    (tells_convertText engine _).after fun _ => .of_eq rfl

theorem tells_logAll (entries : List Log.Entry) : Tells [] (Run.logAll entries) := by
  refine .of_eq ?_
  show (entries.map fun entry => Event.noticed (.logged entry)).filterMap Event.report? = []
  rw [List.filterMap_map, List.filterMap_eq_nil_iff]
  intro entry _
  rfl

theorem tells_perform {script : Script} (detached : script.Detached) :
    Tells [] (engine.perform nested depth script) := by
  induction script with
  | answer text => exact .of_eq rfl
  | decline => exact .of_eq rfl
  | fail other => exact detached.elim
  | expand text next => exact detached.elim
  | convert text next => exact detached.elim
  | report report next => exact detached.elim
  | askDepth next inductionHypothesis =>
    have told : Tells [] (Journal.write (.told depth) : Run Unit) := .of_eq rfl
    exact told.after fun _ => inductionHypothesis depth (detached depth)
  | askTags next inductionHypothesis =>
    exact inductionHypothesis engine.tags.features (detached engine.tags.features)

theorem tells_replace {definition : Definition} (detached : definition.Detached)
    (parameter baseline : Text) :
    Tells [] (engine.replace nested depth definition parameter baseline) := by
  have scripted := detached parameter baseline
  unfold Definition.script at scripted
  unfold replace
  split
  · exact .of_eq rfl
  · rename_i handler isHandler
    rw [isHandler] at scripted
    have called (call : Call) : Tells [] (Journal.write (.called call) : Run Unit) := .of_eq rfl
    exact (called _).after fun _ => (tells_perform scripted).after fun _ => .of_eq rfl

/-- What is told about the parameter of a tag, apart from its form. -/
def parameterDefects (engine : Engine) (deeper : Text → List Defect) (definition : Definition)
    (parameter : Text) : List Defect :=
  if parameter = [] then []
  else if definition.requiresParameter then
    if definition.expandsParameter then deeper (engine.abbreviations.resolve parameter) else []
  else [.unexpectedParameters definition.name]

theorem tells_expandTag {deeper : Text → List Defect}
    (inner : ∀ text, Tells ((deeper text).map (·.report engine)) (nested text))
    {definition : Definition} (detached : definition.Detached) (parameter : Text) :
    Tells ((engine.parameterDefects deeper definition parameter).map (·.report engine))
      (engine.expandTag nested depth definition parameter) := by
  unfold expandTag parameterDefects
  by_cases empty : parameter = []
  · rw [if_pos empty, if_pos (List.isEmpty_iff.mpr empty)]
    exact (tells_convertText engine _).after fun _ => tells_replace detached _ _
  · rw [if_neg empty, if_neg (mt List.isEmpty_iff.mp empty)]
    refine Tells.before ?_ fun prepared =>
      (tells_baselineWith engine _ _).after fun _ => tells_replace detached _ _
    unfold prepare
    split
    · refine (tells_logAll _).after fun _ => ?_
      split
      · exact inner _
      · exact .of_eq rfl
    · exact (tells_handOver engine _).before fun _ => .of_eq rfl

theorem defect?_segment (text : Text) :
    (Piece.segment text).defect? = (Scan.unknownName? text).map .unknownTag := by
  match text with
  | [] => rfl
  | [first] =>
    rw [Scan.unknownName?, if_neg (by simp)]
    rfl
  | first :: second :: rest =>
    rw [Piece.defect?, Scan.unknownName?]
    by_cases looksLikeTag : first = tagChar ∧ second.isAlpha
    · rw [if_pos looksLikeTag, if_pos (by simp [looksLikeTag])]
      rfl
    · rw [if_neg looksLikeTag, if_neg (by simpa [List.takeWhile_cons] using looksLikeTag)]
      rfl

theorem tells_reportSegment (engine : Engine) (text : Text) :
    Tells ((Piece.segment text).defect?.toList.map (·.report engine))
      (engine.reportSegment text) := by
  rw [defect?_segment]
  unfold reportSegment
  split
  · rename_i name isUnknown
    rw [isUnknown]
    exact tells_handOver engine _
  · rename_i isUnknown
    rw [isUnknown]
    exact .of_eq rfl

/-- What is wrong with the form of an argument. -/
def argumentDefects (letters : Text) : Argument → List Defect
  | .unclosed _ => [.unmatchedParenthesis (Text.lower letters)]
  | _ => []

theorem tells_reportArgument (engine : Engine) (letters : Text) (argument : Argument) :
    Tells ((argumentDefects letters argument).map (·.report engine))
      (engine.reportArgument letters argument) := by
  cases argument with
  | unclosed rest => exact tells_handOver engine _
  | absent => exact .of_eq rfl
  | enclosed inside => exact .of_eq rfl
  | line rest => exact .of_eq rfl

theorem parameterDefects_of_required (deeper : Text → List Defect) {definition : Definition}
    (required : definition.requiresParameter = true) (letters : Text) (argument : Argument) :
    engine.parameterDefects deeper definition argument.parameter =
      (engine.inner? (.tag definition letters argument)).toList.flatMap deeper := by
  rw [parameterDefects, inner?]
  by_cases empty : argument.parameter = []
  · rw [if_pos empty, if_neg fun asks => asks.2 empty]
    rfl
  · rw [if_neg empty, if_pos required]
    by_cases expands : definition.expandsParameter = true
    · rw [if_pos expands, if_pos ⟨expands, empty⟩]
      exact (List.append_nil _).symm
    · rw [if_neg expands, if_neg fun asks => expands asks.1]
      rfl

theorem inner?_of_not_required {definition : Definition}
    (notRequired : definition.requiresParameter = false) (letters : Text) (argument : Argument) :
    engine.inner? (.tag definition letters argument) = none := by
  refine if_neg fun asks => ?_
  rw [Definition.expandsParameter, notRequired] at asks
  exact Bool.false_ne_true asks.1

/-- The defects of a tag are those of the form of its argument and those of its parameter. -/
theorem pieceDefects_tag (engine : Engine) (depth : Nat) {definition : Definition}
    {rest after : Text} {argument : Argument} (takes : Scan.Takes definition rest argument after)
    (letters : Text) :
    engine.pieceDefects depth (.tag definition letters argument) =
      argumentDefects letters argument ++
        engine.parameterDefects (engine.defectsAt depth) definition argument.parameter := by
  rw [pieceDefects]
  cases required : definition.requiresParameter with
  | true =>
    rw [parameterDefects_of_required _ required letters]
    congr 1
    cases takes with
    | enclosed balanced =>
      rw [Piece.defect?, if_neg (by simp [required])]
      rfl
    | unclosed unmatched => rfl
    | line noParenthesis required longest => rfl
    | absent noParenthesis notRequired => rfl
  | false =>
    rw [inner?_of_not_required required, Option.toList_none, List.flatMap_nil, List.append_nil]
    cases takes with
    | @enclosed inside after balanced =>
      by_cases empty : inside = []
      · rw [Piece.defect?, if_neg fun unexpected => unexpected.2 empty, empty]
        rfl
      · rw [Piece.defect?, if_pos ⟨required, empty⟩, Argument.parameter, parameterDefects,
          if_neg empty, if_neg (by simp [required])]
        rfl
    | unclosed unmatched => rfl
    | line noParenthesis isRequired longest =>
      -- The rest of a line is read only for a tag that takes a parameter.
      rw [required] at isRequired
      cases isRequired
    | absent noParenthesis notRequired => rfl

theorem tells_expandPiece (detached : engine.Detached) (inner : ∀ text,
      Tells ((engine.defectsAt depth text).map (·.report engine)) (nested text))
    (start : Nat) {text after : Text} {piece : Piece}
    (begins : Scan.Begins engine.tags text piece after) :
    Tells ((engine.pieceDefects depth piece).map (·.report engine))
      (engine.expandPiece nested depth start piece) := by
  cases begins with
  | escape => exact .of_eq rfl
  | @segment c others after noTag noEscape longest =>
    have only : engine.pieceDefects depth (.segment (c :: others)) =
        (Piece.segment (c :: others)).defect?.toList := List.append_nil _
    rw [only]
    exact (tells_reportSegment engine _).before fun _ => tells_convertSegment engine _
  | @tag letters rest after definition argument names takes =>
    have keeps := detached definition ⟨letters, names.registered⟩
    rw [pieceDefects_tag engine depth takes, List.map_append]
    refine (tells_reportArgument engine letters argument).andThen fun _ => ?_
    exact (tells_logAll [_]).after fun _ => tells_expandTag inner keeps argument.parameter

theorem tells_expandPieces (detached : engine.Detached) (inner : ∀ text,
      Tells ((engine.defectsAt depth text).map (·.report engine)) (nested text))
    (start : Nat) {pieces : List Piece}
    (begin : ∀ piece ∈ pieces, ∃ text after, Scan.Begins engine.tags text piece after) :
    Tells ((pieces.flatMap (engine.pieceDefects depth)).map (·.report engine))
      (engine.expandPieces nested depth start pieces) := by
  induction pieces generalizing start with
  | nil => exact .of_eq rfl
  | cons piece others inductionHypothesis =>
    obtain ⟨text, after, begins⟩ := begin piece List.mem_cons_self
    rw [List.flatMap_cons, List.map_append]
    refine (tells_expandPiece detached inner start begins).andThen fun first => ?_
    refine (inductionHypothesis _ fun other member => ?_).map _
    exact begin other (List.mem_cons_of_mem _ member)

/-- An expansion tells of the defects of its text, and of nothing else. -/
theorem tells_expandAt (detached : engine.Detached) (depth : Nat) (text : Text) :
    Tells ((engine.defectsAt depth text).map (·.report engine)) (engine.expandAt depth text) := by
  induction depth using engine.expandAt_induction generalizing text with
  | limit depth reached =>
    rw [expandAt_of_le engine reached, defectsAt_of_le engine reached]
    exact (tells_handOver engine _).before fun _ => tells_convertSegment engine text
  | deeper depth below inductionHypothesis =>
    rw [expandAt_of_lt engine below, defectsAt_of_lt engine below]
    refine (tells_expandPieces detached inductionHypothesis 0 fun piece member => ?_).enclose
    obtain ⟨front, rest, after, -, begins⟩ := Scan.begins_of_mem_pieces member
    exact ⟨rest, after, begins⟩

/-! ### The account -/

theorem diagnosis?_report (engine : Engine) (defect : Defect) :
    (defect.report engine).diagnosis? = some (defect.diagnostic engine) := by
  rw [Report.diagnosis?, defect.diagnose_report engine]
  rfl

/-- A sink that takes up diagnostics takes up those of defects. -/
theorem outcome_collect_report (engine : Engine) (defect : Defect) :
    (Sink.collect (defect.report engine)).outcome = .ok () :=
  Sink.outcome_collect (defect.diagnose_report engine)

theorem filterMap_diagnosis?_map_report (engine : Engine) (defects : List Defect) :
    (defects.map (·.report engine)).filterMap Report.diagnosis? =
      defects.map (·.diagnostic engine) := by
  rw [List.filterMap_map, ← List.filterMap_eq_map]
  congr 1
  funext defect
  exact diagnosis?_report engine defect

/-- If handlers keep to themselves, a failure is that of an adapter or of the sink. -/
theorem blames_of_detached (detached : engine.Detached) {text : Text} {fault : Fault}
    (failed : (engine.expand text).outcome = .error fault) :
    (∃ segment, .converted segment ∈ (engine.expand text).entries ∧
        engine.convert segment = .error fault) ∨
      (∃ segment, .arranged segment ∈ (engine.expand text).entries ∧
        engine.setParagraphs segment = .error fault) ∨
      ∃ report ∈ (engine.expand text).reports, (engine.sink report).outcome = .error fault := by
  cases excused_expandAt engine 0 text fault failed with
  | @handler call definition handler member known name isHandler raises =>
    have scripted := detached definition known call.parameter call.baseline
    rw [Definition.script, isHandler, name] at scripted
    exact absurd raises (not_givesUp_of_detached scripted)
  | sink member raises => exact .inr (.inr ⟨_, Run.mem_reports_iff.mpr member, raises⟩)
  | converter member raises => exact .inl ⟨_, member, raises⟩
  | paragraphs member raises => exact .inr (.inl ⟨_, member, raises⟩)

/-- The reports of an expansion, if the handlers keep to themselves, are the defects of the text,
each once and in their order. So there is no report if and only if no text that is expanded has a
defect or is at the limit. A failure is that of an adapter or of the sink, and what was reported
before it is a front part of the same list. -/
theorem reports_eq_map_defects (engine : Engine) (detached : engine.Detached) (text : Text) :
    (∀ result, (engine.expand text).outcome = .ok result →
      (engine.expand text).reports = (engine.defects text).map (·.report engine) ∧
      (engine.sink = .collect →
        (engine.expand text).diagnostics = (engine.defects text).map (·.diagnostic engine)) ∧
      ((engine.expand text).reports = [] ↔ engine.CleanAt 0 text)) ∧
    ∀ fault, (engine.expand text).outcome = .error fault →
      (engine.expand text).reports <+: (engine.defects text).map (·.report engine) ∧
      ((∃ segment, .converted segment ∈ (engine.expand text).entries ∧
          engine.convert segment = .error fault) ∨
        (∃ segment, .arranged segment ∈ (engine.expand text).entries ∧
          engine.setParagraphs segment = .error fault) ∨
        ∃ report ∈ (engine.expand text).reports,
          (engine.sink report).outcome = .error fault) := by
  have tells := tells_expandAt detached 0 text
  constructor
  · intro result succeeds
    have reports : (engine.expand text).reports = (engine.defects text).map (·.report engine) :=
      tells.whole succeeds
    refine ⟨reports, fun collects => ?_, ?_⟩
    · rw [expand, diagnostics_expandAt collects, ← expand, reports, List.filterMap_map,
        ← List.filterMap_eq_map]
      congr 1
      funext defect
      exact diagnosis?_report engine defect
    · rw [reports, List.map_eq_nil_iff]
      exact defectsAt_eq_nil_iff engine 0 text
  · intro fault failed
    exact ⟨tells.start, blames_of_detached detached failed⟩

/-- The four defects in one text; one of them comes from an abbreviation. -/
theorem reports_eq_map_defects_of_four :
    let bold : Definition := {
      name := "bold".toList, requiresParameter := true, recursive := true
      handler := some (Tag.enclosing (['*'], ['*'])) }
    let lineBreak : Definition := {
      name := "br".toList, handler := some (Tag.standingFor ['\n']) }
    let engine : Engine := {
      tags := (Tag.Registry.empty.store bold).store lineBreak
      abbreviations := .ofList [("x".toList, "@no".toList)]
      sink := .collect
      limit := .number 2 }
    let text := "@br(y)@bold(x)@bold(@bold(z))@bold(".toList
    let expected : List Diagnostic := [
      ⟨.unexpectedParameters, "Tag \"br\" is not allowed to have any parameters".toList, 1⟩,
      ⟨.unknownTag, "Unknown tag name \"no\"".toList, 1⟩,
      ⟨.nestingTooDeep, "Tags nested deeper than 2 levels, text left unexpanded".toList, 1⟩,
      ⟨.unmatchedParenthesis, "No matching closing parenthesis for tag \"bold\"".toList, 1⟩]
    engine.Detached ∧ (engine.expand text).outcome = .ok "\n*@no***z****".toList ∧
      (engine.expand text).diagnostics = expected := by
  intro bold lineBreak engine text expected
  have detached : engine.Detached := by
    rintro definition ⟨name, found⟩ parameter baseline
    rw [Tag.Registry.lookup, Tag.Registry.find?_store, Tag.Registry.find?_store] at found
    split at found
    · cases found
      trivial
    · split at found
      · cases found
        trivial
      · cases found
  have succeeds : (engine.expand text).outcome = .ok "\n*@no***z****".toList := by
    decide +kernel
  have defects : (engine.defects text).map (·.diagnostic engine) = expected := by decide +kernel
  obtain ⟨-, diagnostics, -⟩ := (reports_eq_map_defects engine detached text).1 _ succeeds
  exact ⟨detached, succeeds, (diagnostics rfl).trans defects⟩

end Engine

end TagExpansion
