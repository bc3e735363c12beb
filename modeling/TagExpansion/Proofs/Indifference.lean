import Mathlib.Data.List.Forall2
import TagExpansion.Proofs.Expansion

/-
This file proves that an expansion goes its way without looking at its output.

Converted text flows back into an expansion: it comes out of one level as the parameter and the
baseline of a tag on the level above. If two engines convert texts in different ways, then what
their handlers are given is different as well. Still the two expansions go side by side. A text is
scanned, abbreviated and reported on before it is converted, and never afterwards, so it is the same
text on both sides. The two runs have the same events in the same order, up to what is seen of the
output in them, and they end in the same way.

This asks something of handlers, because a handler can do what it likes with what it is given. Two
handlers go side by side if they ask for the same things, whatever output they are given and get
back. They may look at a parameter only if it was not expanded.
-/

namespace TagExpansion

open Tag (Definition Registry Script)
open Scan (Argument Piece)

/-! ### Outcomes that agree -/

/-- Two outcomes that are related values or the same failure. -/
inductive Concur {σ α β : Type} (agree : α → β → Prop) : Except σ α → Except σ β → Prop where
  | ok {value : α} {other : β} (related : agree value other) : Concur agree (.ok value) (.ok other)
  | error (failure : σ) : Concur agree (.error failure) (.error failure)

namespace Concur

variable {σ α β : Type} {agree : α → β → Prop}

theorem of_eq {outcome other : Except σ α} (same : outcome = other) :
    Concur Eq outcome other := by
  rw [same]
  cases other with
  | ok value => exact .ok rfl
  | error failure => exact .error failure

theorem eq {outcome other : Except σ α} (concur : Concur Eq outcome other) : outcome = other := by
  cases concur with
  | ok related => rw [related]
  | error failure => rfl

theorem mono {outcome : Except σ α} {other : Except σ β} {agree' : α → β → Prop}
    (concur : Concur agree outcome other)
    (weaker : ∀ value other, agree value other → agree' value other) :
    Concur agree' outcome other := by
  cases concur with
  | ok related => exact .ok (weaker _ _ related)
  | error failure => exact .error failure

theorem bind {γ δ : Type} {rel : γ → δ → Prop} {outcome : Except σ α} {other : Except σ β}
    {next : α → Except σ γ} {further : β → Except σ δ} (first : Concur agree outcome other)
    (second : ∀ value other, agree value other → Concur rel (next value) (further other)) :
    Concur rel (outcome >>= next) (other >>= further) := by
  cases first with
  | ok related => exact second _ _ related
  | error failure => exact .error failure

theorem mapError {τ : Type} {outcome : Except σ α} {other : Except σ β} (change : σ → τ)
    (concur : Concur agree outcome other) :
    Concur agree (outcome.mapError change) (other.mapError change) := by
  cases concur with
  | ok related => exact .ok related
  | error failure => exact .error (change failure)

theorem andThen {ε γ δ : Type} {rel : γ → δ → Prop} {first : Journal ε σ α} {first' : Journal ε σ β}
    {next : α → Journal ε σ γ} {further : β → Journal ε σ δ}
    (before : Concur agree first.outcome first'.outcome)
    (after : ∀ value other, agree value other →
      Concur rel (next value).outcome (further other).outcome) :
    Concur rel (first.andThen next).outcome (first'.andThen further).outcome := by
  rw [Journal.outcome_andThen, Journal.outcome_andThen]
  exact before.bind after

/-- Either both fail, and in the same way, or none does. -/
theorem error_iff {outcome : Except σ α} {other : Except σ β} (concur : Concur agree outcome other)
    (failure : σ) : outcome = .error failure ↔ other = .error failure := by
  cases concur with
  | ok related => exact iff_of_false nofun nofun
  | error failure => simp only [Except.error.injEq]

end Concur

/-! ### Runs side by side -/

/-- An event without what it shows of the output. -/
def Event.veiled : Event → Event
  | .called call => .called { call with parameter := [], baseline := [] }
  | .arranged _ => .arranged []
  | event => event

/-- Any two texts, of which nothing is said. -/
def Unrelated (_ _ : Text) : Prop := True

namespace Run

variable {α β : Type}

/-- Two runs with the same events but for the output, and with outcomes that agree. -/
structure Parallel (agree : α → α → Prop) (run other : Run α) : Prop where
  events : run.entries.map Event.veiled = other.entries.map Event.veiled
  outcomes : Concur agree run.outcome other.outcome

namespace Parallel

variable {agree : α → α → Prop} {run other : Run α}

theorem refl (run : Run α) : Parallel Eq run run := ⟨rfl, .of_eq rfl⟩

theorem mono {agree' : α → α → Prop} (parallel : Parallel agree run other)
    (weaker : ∀ value other, agree value other → agree' value other) : Parallel agree' run other :=
  ⟨parallel.events, parallel.outcomes.mono weaker⟩

theorem done {value other : α} (related : agree value other) :
    Parallel agree (Journal.done value) (Journal.done other) := ⟨rfl, .ok related⟩

theorem andThen {rel : β → β → Prop} {next further : α → Run β} (first : Parallel agree run other)
    (second : ∀ value other, agree value other → Parallel rel (next value) (further other)) :
    Parallel rel (run.andThen next) (other.andThen further) := by
  obtain ⟨entries, outcome⟩ := run
  obtain ⟨others, outcome'⟩ := other
  obtain ⟨events, outcomes⟩ := first
  -- The second runs start from values that agree, or neither of them starts.
  cases outcomes with
  | ok related =>
    obtain ⟨later, ended⟩ := second _ _ related
    refine ⟨?_, ended⟩
    show (entries ++ _).map Event.veiled = (others ++ _).map Event.veiled
    rw [List.map_append, List.map_append, later]
    exact congrArg (· ++ _) events
  | error fault => exact ⟨events, .error fault⟩

theorem settle {rel : β → β → Prop} {next further : Except Fault α → Run β}
    (first : Parallel agree run other)
    (second : ∀ outcome outcome', Concur agree outcome outcome' →
      Parallel rel (next outcome) (further outcome')) :
    Parallel rel (run.settle next) (other.settle further) := by
  obtain ⟨later, ended⟩ := second _ _ first.outcomes
  refine ⟨?_, ended⟩
  rw [Journal.entries_settle, Journal.entries_settle, List.map_append, List.map_append,
    first.events, later]

theorem enclose (before after : Event) (inside : Parallel agree run other) :
    Parallel agree (run.enclose before after) (other.enclose before after) := by
  refine ⟨?_, inside.outcomes⟩
  simp only [Journal.entries_enclose, List.map_append, List.map_cons, inside.events]

/-- What can be read off events without looking at the output is the same. -/
theorem filterMap_eq {γ : Type} {read : Event → Option γ} (parallel : Parallel agree run other)
    (blind : ∀ event, read event.veiled = read event) :
    run.entries.filterMap read = other.entries.filterMap read := by
  have unveiled : ∀ events : List Event,
      events.filterMap read = (events.map Event.veiled).filterMap read := by
    intro events
    rw [List.filterMap_map]
    exact congrArg (List.filterMap · events) (funext fun event => (blind event).symm)
  rw [unveiled run.entries, unveiled other.entries, parallel.events]

theorem reports (parallel : Parallel agree run other) : run.reports = other.reports :=
  parallel.filterMap_eq fun event => by cases event <;> rfl

theorem diagnostics (parallel : Parallel agree run other) : run.diagnostics = other.diagnostics :=
  parallel.filterMap_eq fun event => by cases event <;> rfl

end Parallel

end Run

/-! ### Handlers side by side -/

/-- Two scripts that ask for the same things, whatever output they get. -/
inductive Tag.Script.Akin : Script → Script → Prop where
  | answer (text other : Text) : Akin (.answer text) (.answer other)
  | decline : Akin .decline .decline
  | fail (fault : Fault) : Akin (.fail fault) (.fail fault)
  | expand {text : Text} {next further : Except Fault Text → Script}
      (goesOn : ∀ outcome other, Concur Unrelated outcome other →
        Akin (next outcome) (further other)) : Akin (.expand text next) (.expand text further)
  | convert {text : Text} {next further : Except Fault Text → Script}
      (goesOn : ∀ outcome other, Concur Unrelated outcome other →
        Akin (next outcome) (further other)) : Akin (.convert text next) (.convert text further)
  | report {report : Report} {next further : Except Fault Unit → Script}
      (goesOn : ∀ outcome, Akin (next outcome) (further outcome)) :
      Akin (.report report next) (.report report further)
  | askDepth {next further : Nat → Script} (goesOn : ∀ depth, Akin (next depth) (further depth)) :
      Akin (.askDepth next) (.askDepth further)

/-- Two definitions that differ at most in what their handlers make of output. A parameter that is
not expanded is no output, and is the same for both. -/
structure Tag.Definition.Akin (definition other : Definition) : Prop where
  name : definition.name = other.name
  requiresParameter : definition.requiresParameter = other.requiresParameter
  recursive : definition.recursive = other.recursive
  handlers : Option.Rel (fun handler handler' => ∀ parameter parameter' baseline baseline',
      (definition.expandsParameter = false → parameter = parameter') →
        Script.Akin (handler definition.name parameter baseline)
          (handler' definition.name parameter' baseline'))
    definition.handler other.handler

theorem Tag.Definition.Akin.expandsParameter {definition other : Definition}
    (akin : definition.Akin other) : definition.expandsParameter = other.expandsParameter := by
  rw [Definition.expandsParameter, Definition.expandsParameter, akin.requiresParameter,
    akin.recursive]

/-- Two registries that have the same names, with definitions side by side. -/
def Tag.Registry.Akin (tags others : Registry) : Prop :=
  ∀ name, Option.Rel Definition.Akin (tags.lookup name) (others.lookup name)

/-! ### Pieces side by side -/

namespace Scan

/-- Two pieces that differ at most in the definition that the name of a tag leads to. -/
inductive Piece.Akin : Piece → Piece → Prop where
  | tag {definition other : Definition} (akin : definition.Akin other) (letters : Text)
      (argument : Argument) : Akin (.tag definition letters argument) (.tag other letters argument)
  | escape : Akin .escape .escape
  | segment (text : Text) : Akin (.segment text) (.segment text)

theorem Piece.Akin.source {piece other : Piece} (akin : piece.Akin other) :
    piece.source = other.source := by
  cases akin <;> rfl

theorem readArgument_congr {definition other : Definition}
    (same : definition.requiresParameter = other.requiresParameter) (rest : Text) :
    readArgument definition rest = readArgument other rest := by
  unfold readArgument
  rw [same]

variable {tags others : Registry}

theorem akin_namedTag? (akin : tags.Akin others) (rest : Text) :
    Option.Rel Definition.Akin (namedTag? tags rest) (namedTag? others rest) := by
  unfold namedTag?
  dsimp only
  split
  · exact .none
  · exact akin _

theorem akin_readPiece (akin : tags.Akin others) (c : Char) (rest : Text) :
    (readPiece tags c rest).1.Akin (readPiece others c rest).1 ∧
      (readPiece tags c rest).2 = (readPiece others c rest).2 := by
  by_cases isTag : c = tagChar
  · have named := akin_namedTag? akin rest
    unfold readPiece
    rw [if_pos isTag, if_pos isTag]
    -- The look-ups are taken out of the definition, so that they can be compared case by case.
    generalize namedTag? tags rest = found at named ⊢
    generalize namedTag? others rest = found' at named ⊢
    cases named with
    | some definitions =>
      dsimp only
      rw [readArgument_congr definitions.requiresParameter]
      exact ⟨.tag definitions _ _, rfl⟩
    | none =>
      cases rest with
      | nil => exact ⟨.segment _, rfl⟩
      | cons d after =>
        dsimp only
        split
        · exact ⟨.escape, rfl⟩
        · exact ⟨.segment _, rfl⟩
  · unfold readPiece
    rw [if_neg isTag, if_neg isTag]
    exact ⟨.segment _, rfl⟩

/-- A text falls into the same pieces. -/
theorem akin_pieces (akin : tags.Akin others) (text : Text) :
    List.Forall₂ Piece.Akin (pieces tags text) (pieces others text) := by
  fun_induction pieces tags text with
  | case1 =>
    rw [pieces]
    exact .nil
  | case2 c rest inductionHypothesis =>
    obtain ⟨first, after⟩ := akin_readPiece akin c rest
    rw [pieces, ← after]
    exact .cons first inductionHypothesis

end Scan

/-! ### Expansions side by side -/

namespace Engine

/-- Two engines that differ at most in their output: in what they convert texts to, how they set
paragraphs, and what their handlers make of output. -/
structure Akin (engine other : Engine) : Prop where
  tags : engine.tags.Akin other.tags
  convert : ∀ text, Concur Unrelated (engine.convert text) (other.convert text)
  /-- What is arranged is output already, so it need not be the same text. -/
  setParagraphs : ∀ text text',
    Concur Unrelated (engine.setParagraphs text) (other.setParagraphs text')
  sink : engine.sink = other.sink
  abbreviations : engine.abbreviations = other.abbreviations
  limit : engine.limit = other.limit

namespace Akin

open Run (Parallel)

variable {engine other : Engine}

theorem handOver (akin : engine.Akin other) (report : Report) :
    Parallel Eq (engine.handOver report) (other.handOver report) := by
  rw [Engine.handOver, Engine.handOver, akin.sink]
  exact .refl _

theorem convertText (akin : engine.Akin other) (text : Text) :
    Parallel Unrelated (engine.convertText text) (other.convertText text) :=
  ⟨rfl, akin.convert text⟩

theorem convertSegment (akin : engine.Akin other) (text : Text) :
    Parallel Unrelated (engine.convertSegment text) (other.convertSegment text) := by
  refine (akin.convertText text).andThen fun converted converted' _ => ?_
  exact ⟨rfl, akin.setParagraphs converted converted'⟩

theorem reportSegment (akin : engine.Akin other) (text : Text) :
    Parallel Eq (engine.reportSegment text) (other.reportSegment text) := by
  unfold Engine.reportSegment
  split
  · exact akin.handOver _
  · exact .refl _

theorem reportArgument (akin : engine.Akin other) (letters : Text) (argument : Argument) :
    Parallel Eq (engine.reportArgument letters argument)
      (other.reportArgument letters argument) := by
  unfold Engine.reportArgument
  split
  · exact akin.handOver _
  · exact .refl _

section Levels

variable {nested nested' : Text → Run Text} (akin : engine.Akin other)
  (deeper : ∀ text, Parallel Unrelated (nested text) (nested' text)) (depth : Nat)

include akin deeper

/-- The induction is on how the scripts go side by side. -/
theorem perform {script script' : Script} (scripts : script.Akin script') :
    Parallel (Option.Rel Unrelated) (engine.perform nested depth script)
      (other.perform nested' depth script') := by
  induction scripts with
  | answer text text' => exact .done (.some trivial)
  | decline => exact .done .none
  | fail fault => exact ⟨rfl, .error fault⟩
  | expand goesOn inductionHypothesis => exact (deeper _).settle inductionHypothesis
  | convert goesOn inductionHypothesis => exact (akin.convertText _).settle inductionHypothesis
  | report goesOn inductionHypothesis =>
    refine (akin.handOver _).settle fun outcome outcome' concur => ?_
    rw [concur.eq]
    exact inductionHypothesis outcome'
  | askDepth goesOn inductionHypothesis =>
    exact (Parallel.refl (Journal.write (.told depth))).andThen fun _ _ _ =>
      inductionHypothesis depth

theorem replace {definition definition' : Definition} (definitions : definition.Akin definition')
    {parameter parameter' : Text}
    (raw : definition.expandsParameter = false → parameter = parameter')
    (baseline baseline' : Text) :
    Parallel Unrelated (engine.replace nested depth definition parameter baseline)
      (other.replace nested' depth definition' parameter' baseline') := by
  have handlers := definitions.handlers
  unfold Engine.replace
  rw [← definitions.name]
  generalize definition.handler = handler at handlers ⊢
  generalize definition'.handler = handler' at handlers ⊢
  cases handlers with
  | none => exact .done trivial
  | some scripts =>
    have called : Parallel Eq
        (Journal.write (.called ⟨definition.name, parameter, baseline, depth⟩))
        (Journal.write (.called ⟨definition.name, parameter', baseline', depth⟩)) :=
      ⟨rfl, .ok rfl⟩
    refine called.andThen fun _ _ _ => ?_
    exact (akin.perform deeper depth (scripts _ _ _ _ raw)).andThen fun _ _ _ => .done trivial

theorem prepare {definition definition' : Definition} (definitions : definition.Akin definition')
    (parameter : Text) :
    Parallel (fun prepared prepared' => definition.expandsParameter = false → prepared = prepared')
      (engine.prepare nested definition parameter)
      (other.prepare nested' definition' parameter) := by
  unfold Engine.prepare
  rw [← definitions.requiresParameter, ← definitions.expandsParameter, ← definitions.name,
    ← akin.abbreviations]
  split
  · refine (Parallel.refl (Run.logAll _)).andThen fun _ _ _ => ?_
    dsimp only
    split
    · -- An expanded parameter is output, and nothing is asked of it.
      rename_i expands
      exact (deeper _).mono fun _ _ _ verbatim => absurd expands (by rw [verbatim]; decide)
    · exact .done fun _ => rfl
  · exact (akin.handOver _).andThen fun _ _ _ => .done fun _ => rfl

theorem expandTag {definition definition' : Definition} (definitions : definition.Akin definition')
    (parameter : Text) :
    Parallel Unrelated (engine.expandTag nested depth definition parameter)
      (other.expandTag nested' depth definition' parameter) := by
  unfold Engine.expandTag
  rw [← definitions.name]
  split
  · exact (akin.convertText _).andThen fun baseline baseline' _ =>
      akin.replace deeper depth definitions (fun _ => rfl) baseline baseline'
  · refine (akin.prepare deeper definitions parameter).andThen fun prepared prepared' raw => ?_
    have shown : Parallel Unrelated (engine.baselineWith definition.name prepared)
        (other.baselineWith definition.name prepared') :=
      (akin.convertText _).andThen fun _ _ _ =>
        (akin.convertText _).andThen fun _ _ _ => .done trivial
    exact shown.andThen fun baseline baseline' _ =>
      akin.replace deeper depth definitions raw baseline baseline'

theorem expandPiece {piece piece' : Piece} (pieces : piece.Akin piece') (start : Nat) :
    Parallel Unrelated (engine.expandPiece nested depth start piece)
      (other.expandPiece nested' depth start piece') := by
  cases pieces with
  | segment text =>
    exact (akin.reportSegment text).andThen fun _ _ _ => akin.convertSegment text
  | escape => exact .done trivial
  | tag definitions letters argument =>
    refine (akin.reportArgument letters argument).andThen fun _ _ _ => ?_
    rw [← definitions.name]
    exact (Parallel.refl (Run.log _)).andThen fun _ _ _ =>
      akin.expandTag deeper depth definitions argument.parameter

theorem expandPieces {pieces pieces' : List Piece}
    (related : List.Forall₂ Piece.Akin pieces pieces') (start : Nat) :
    Parallel Unrelated (engine.expandPieces nested depth start pieces)
      (other.expandPieces nested' depth start pieces') := by
  induction related generalizing start with
  | nil => exact .done trivial
  | cons first others inductionHypothesis =>
    refine (akin.expandPiece deeper depth first start).andThen fun _ _ _ => ?_
    rw [first.source, Journal.map_eq_andThen, Journal.map_eq_andThen]
    exact (inductionHypothesis _).andThen fun _ _ _ => .done trivial

end Levels

/-- Two engines that differ at most in their output expand every text side by side. -/
theorem expandAt (akin : engine.Akin other) (depth : Nat) (text : Text) :
    Parallel Unrelated (engine.expandAt depth text) (other.expandAt depth text) := by
  have sameDepth : other.maxDepth = engine.maxDepth := by rw [maxDepth, maxDepth, akin.limit]
  induction depth using engine.expandAt_induction generalizing text with
  | limit depth reached =>
    rw [expandAt_of_le engine reached, expandAt_of_le other (sameDepth ▸ reached),
      nestingTooDeep, nestingTooDeep, akin.limit]
    exact (akin.handOver _).andThen fun _ _ _ => akin.convertSegment text
  | deeper depth below inductionHypothesis =>
    rw [expandAt_of_lt engine below, expandAt_of_lt other (sameDepth ▸ below)]
    exact (akin.expandPieces inductionHypothesis (depth + 1) (Scan.akin_pieces akin.tags text)
      0).enclose _ _

theorem expand (akin : engine.Akin other) (text : Text) :
    Parallel Unrelated (engine.expand text) (other.expand text) :=
  akin.expandAt 0 text

end Akin

end Engine

end TagExpansion
