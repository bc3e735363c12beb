import TagExpansion.Abbreviation
import TagExpansion.Engine.Event
import TagExpansion.Engine.Limit
import TagExpansion.Markup.Format
import TagExpansion.Scan.Piece

/-
This file expands texts.

An expansion goes through the pieces of a text from left to right. A segment is
converted and gets its paragraphs, a doubled tag character becomes a single one, and
a tag is replaced by what its handler says. Where a tag expands its parameter, and
where a handler asks for it, an expansion runs inside another one. The number of
expansions that may still be opened inside one another decreases with each, and that
is why every expansion ends: at the limit a text is converted and not expanded.

No text is refused. What is wrong with it is reported, and a failure can come only
from those whom an expansion turns to: a handler, an adapter or the sink.
-/

namespace TagExpansion

open Tag (Definition Registry Script)
open Scan (Argument Piece)

/-- An adapter makes a text from a text, or gives up. -/
abbrev Adapter := Text → Except Fault Text

/-- The adapter that changes every text in a given way and never gives up. -/
def Adapter.always (change : Text → Text) : Adapter := fun text => .ok (change text)

/-- All that an expansion depends on besides the text. -/
structure Engine where
  tags : Registry
  /-- Makes a stretch of text fit for the output. -/
  convert : Adapter := .always id
  /-- Sets the paragraphs of a converted stretch of text. -/
  setParagraphs : Adapter := .always id
  sink : Sink := Sink.forward
  abbreviations : Abbreviations := {}
  limit : Limit := .default
  validLimit : limit.Valid := by decide

namespace Engine

/-- An engine with the given limit, if an engine accepts it. -/
def withLimit? (engine : Engine) (limit : Limit) : Except Limit Engine :=
  if valid : limit.Valid then .ok { engine with limit, validLimit := valid } else .error limit

/-- How many expansions may stand inside one another. -/
def maxDepth (engine : Engine) : Nat := engine.limit.toInt.toNat

/-- Has a text converted. -/
def convertText (engine : Engine) (text : Text) : Run Text := do
  Journal.write (.converted text)
  .ofOutcome (engine.convert text)

/-- Has the paragraphs of a converted text set. -/
def arrangeText (engine : Engine) (text : Text) : Run Text := do
  Journal.write (.arranged text)
  .ofOutcome (engine.setParagraphs text)

/-- Converts a segment and sets its paragraphs. -/
def convertSegment (engine : Engine) (segment : Text) : Run Text := do
  let converted ← engine.convertText segment
  engine.arrangeText converted

/-- Hands a report over to the sink. -/
def handOver (engine : Engine) (report : Report) : Run Unit := do
  Journal.write (.reported report)
  (engine.sink report).mapEntries .noticed

/-! ### What an expansion reports -/

/-- The verbosity of what an expansion reports itself. -/
def ownVerbosity : Int := 1

/-- A text looks like a tag and names none. -/
def unknownTag (name : Text) : Report :=
  ⟨ownVerbosity, .unknownTag, "Unknown tag name \"%s\"".toList, [.text name]⟩

/-- A parenthesis is never closed. -/
def unmatchedParenthesis (name : Text) : Report :=
  ⟨ownVerbosity, .unmatchedParenthesis, "No matching closing parenthesis for tag \"%s\"".toList,
    [.text name]⟩

/-- A tag that takes no parameter has one. -/
def unexpectedParameters (name : Text) : Report :=
  ⟨ownVerbosity, .unexpectedParameters,
    "Tag \"%s\" is not allowed to have any parameters".toList, [.text name]⟩

/-- An expansion is asked for at the limit. -/
def nestingTooDeep (engine : Engine) : Report :=
  ⟨ownVerbosity, .nestingTooDeep,
    "Tags nested deeper than %d levels, text left unexpanded".toList,
    [.number engine.limit.toInt]⟩

/-- The entry that the log gets for a tag. -/
def occurrenceEntry (name : Text) (start stop : Nat) (parameter : Text) : Log.Entry :=
  ⟨Log.trace, "Tag ".toList ++ Text.quoted name ++ " at ".toList ++ Text.ofNat start ++
    "..".toList ++ Text.ofNat stop ++ ", parameter ".toList ++ Text.quoted parameter⟩

/-! ### Tags -/

/-- Runs the script of a handler. `nested` expands a text one level deeper, and `depth` is the
depth at which the script runs. A script that declines has no replacement. -/
def perform (engine : Engine) (nested : Text → Run Text) (depth : Nat) :
    Script → Run (Option Text)
  | .answer text => .done (some text)
  | .decline => .done none
  | .fail fault => .fail fault
  | .expand text next =>
    (nested text).settle fun outcome => perform engine nested depth (next outcome)
  | .convert text next =>
    (engine.convertText text).settle fun outcome => perform engine nested depth (next outcome)
  | .report report next =>
    (engine.handOver report).settle fun outcome => perform engine nested depth (next outcome)
  | .askDepth next =>
    (Journal.write (.told depth)).andThen fun _ => perform engine nested depth (next depth)
  | .askTags next => perform engine nested depth (next engine.tags.features)

/-- The replacement of a tag: what its handler answers, or the baseline. -/
def replace (engine : Engine) (nested : Text → Run Text) (depth : Nat) (definition : Definition)
    (parameter baseline : Text) : Run Text := do
  match definition.handler with
  | none => return baseline
  | some handler =>
    Journal.write (.called ⟨definition.name, parameter, baseline, depth⟩)
    let answer ← engine.perform nested depth (handler definition.name parameter baseline)
    return answer.getD baseline

/-- The parameter that a handler gets for a parameter that is not empty: abbreviations are
resolved, and the result is expanded if the tag says so. A tag that takes no parameter keeps
it as it is, which is worth a report. -/
def prepare (engine : Engine) (nested : Text → Run Text) (definition : Definition)
    (parameter : Text) : Run Text := do
  if definition.requiresParameter then
    Run.logAll (engine.abbreviations.resolutionLog parameter)
    let resolved := engine.abbreviations.resolve parameter
    if definition.expandsParameter then nested resolved else return resolved
  else
    engine.handOver (unexpectedParameters definition.name)
    return parameter

/-- A tag as it is shown when it has a parameter. -/
def baselineWith (engine : Engine) (name parameter : Text) : Run Text := do
  let front ← engine.convertText (Scan.tagChar :: '(' :: name)
  let back ← engine.convertText [')']
  return front ++ parameter ++ back

/-- A tag as it is shown when it has none. -/
def baselineWithout (engine : Engine) (name : Text) : Run Text :=
  engine.convertText (Scan.tagChar :: name)

/-- Expands a tag with the given parameter. -/
def expandTag (engine : Engine) (nested : Text → Run Text) (depth : Nat) (definition : Definition)
    (parameter : Text) : Run Text := do
  if parameter.isEmpty then
    let baseline ← engine.baselineWithout definition.name
    engine.replace nested depth definition parameter baseline
  else
    let prepared ← engine.prepare nested definition parameter
    let baseline ← engine.baselineWith definition.name prepared
    engine.replace nested depth definition prepared baseline

/-! ### Pieces -/

/-- Reports a segment that looks like a tag. -/
def reportSegment (engine : Engine) (text : Text) : Run Unit :=
  match Scan.unknownName? text with
  | some name => engine.handOver (unknownTag name)
  | none => .done ()

/-- Reports a parenthesis that is never closed. -/
def reportArgument (engine : Engine) (letters : Text) : Argument → Run Unit
  | .unclosed _ => engine.handOver (unmatchedParenthesis (Text.lower letters))
  | _ => .done ()

/-- Expands a piece that starts at the given position. -/
def expandPiece (engine : Engine) (nested : Text → Run Text) (depth start : Nat)
    (piece : Piece) : Run Text :=
  match piece with
  | .segment text => do
    engine.reportSegment text
    engine.convertSegment text
  | .escape => .done [Scan.tagChar]
  | .tag definition letters argument => do
    engine.reportArgument letters argument
    Run.log (occurrenceEntry definition.name start (start + piece.source.length)
      argument.parameter)
    engine.expandTag nested depth definition argument.parameter

/-- Expands pieces one after the other, the first of which starts at the given position. -/
def expandPieces (engine : Engine) (nested : Text → Run Text) (depth : Nat) :
    Nat → List Piece → Run Text
  | _, [] => .done []
  | start, piece :: others =>
    (engine.expandPiece nested depth start piece).andThen fun first =>
      (engine.expandPieces nested depth (start + piece.source.length) others).map (first ++ ·)

/-! ### Texts -/

/-- Expands a text from a given depth, when `room` more expansions may be opened inside one
another. -/
def expandWithin (engine : Engine) : (room depth : Nat) → Text → Run Text
  | 0, _, text => do
    engine.handOver engine.nestingTooDeep
    engine.convertSegment text
  | room + 1, depth, text =>
    (engine.expandPieces (engine.expandWithin room (depth + 1)) (depth + 1) 0
      (Scan.pieces engine.tags text)).enclose .entered .left

/-- Expands a text inside `depth` other expansions. -/
def expandAt (engine : Engine) (depth : Nat) (text : Text) : Run Text :=
  engine.expandWithin (engine.maxDepth - depth) depth text

/-- Expands a text. -/
def expand (engine : Engine) (text : Text) : Run Text := engine.expandAt 0 text

end Engine

/-! ### One engine for several texts -/

/-- An engine and all that has happened on it so far. -/
structure Session where
  engine : Engine
  history : List Event := []

namespace Session

/-- How many expansions are running. -/
def depth (session : Session) : Nat := Event.depthAfter session.history

/-- Expands a text at the depth of the session. -/
def run (session : Session) (text : Text) : Run Text × Session :=
  let run := session.engine.expandAt session.depth text
  (run, { session with history := session.history ++ run.entries })

/-- Expands several texts one after the other. -/
def runAll (session : Session) : List Text → List (Run Text) × Session
  | [] => ([], session)
  | text :: others =>
    let (first, session) := session.run text
    let (rest, session) := session.runAll others
    (first :: rest, session)

end Session

end TagExpansion
