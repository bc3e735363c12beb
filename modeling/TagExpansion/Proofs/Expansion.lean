import TagExpansion.Engine.Basic

/-
This file says how an expansion is put together, and how a property of runs spreads
from its parts to the whole.

An expansion at some depth does a few things by itself: it hands over reports, writes
to the log, has texts converted, calls handlers. Everything else in it is an expansion
one level deeper. So what holds of these things, and of every expansion one level
deeper, and is kept when one run follows another, holds of the expansion. A theorem
about all runs is this argument once, with the property in question, and an induction
on how many levels are left.
-/

namespace TagExpansion.Engine

open Tag (Definition Registry Script)
open Scan (Argument Piece)

/-! ### Texts -/

/-- Below the limit the pieces of a text are expanded, and what is nested in them is expanded one
level deeper. -/
theorem expandAt_of_lt (engine : Engine) {depth : Nat} (below : depth < engine.maxDepth)
    (text : Text) :
    engine.expandAt depth text =
      (engine.expandPieces (engine.expandAt (depth + 1)) (depth + 1) 0
        (Scan.pieces engine.tags text)).enclose .entered .left := by
  obtain ⟨room, isRoom⟩ : ∃ room, engine.maxDepth - depth = room + 1 :=
    ⟨engine.maxDepth - depth - 1, by omega⟩
  have left : engine.maxDepth - (depth + 1) = room := by omega
  have nested : engine.expandAt (depth + 1) = engine.expandWithin room (depth + 1) := by
    funext inner
    rw [expandAt, left]
  rw [expandAt, isRoom, expandWithin, nested]

/-- At the limit a text is converted, and that is reported. -/
theorem expandAt_of_le (engine : Engine) {depth : Nat} (reached : engine.maxDepth ≤ depth)
    (text : Text) :
    engine.expandAt depth text =
      (engine.handOver engine.nestingTooDeep).andThen fun _ =>
        engine.convertSegment text := by
  have left : engine.maxDepth - depth = 0 := by omega
  rw [expandAt, left, expandWithin]
  rfl

/-- What holds at the limit and is passed on from each level to the one above holds at every
depth. -/
theorem expandAt_induction (engine : Engine) {motive : Nat → Prop}
    (limit : ∀ depth, engine.maxDepth ≤ depth → motive depth)
    (deeper : ∀ depth, depth < engine.maxDepth → motive (depth + 1) → motive depth)
    (depth : Nat) : motive depth := by
  induction left : engine.maxDepth - depth generalizing depth with
  | zero => exact limit depth (by omega)
  | succ room inductionHypothesis =>
    exact deeper depth (by omega) (inductionHypothesis (depth + 1) (by omega))

/-! ### The parts of an expansion -/

/-- A segment comes out as the adapters say, one after the other. -/
theorem outcome_convertSegment (engine : Engine) (text : Text) :
    (engine.convertSegment text).outcome = engine.convert text >>= engine.setParagraphs :=
  Journal.outcome_andThen (engine.convertText text) engine.arrangeText

/-- A definition that some name leads to. -/
def Knows (engine : Engine) (definition : Definition) : Prop :=
  ∃ name, engine.tags.lookup name = some definition

/-- A property of runs that holds of all parts of an expansion and is kept when one of them
follows another. -/
structure Spreads (engine : Engine) (nested : Text → Run Text) (depth : Nat)
    (property : ∀ {α : Type}, Run α → Prop) : Prop where
  done : ∀ {α : Type} (value : α), property (.done value)
  andThen : ∀ {α β : Type} {first : Run α} {next : α → Run β}, property first →
    (∀ value, property (next value)) → property (first.andThen next)
  handOver : ∀ report, property (engine.handOver report)
  logAll : ∀ entries, property (Run.logAll entries)
  convertText : ∀ text, property (engine.convertText text)
  arrangeText : ∀ text, property (engine.arrangeText text)
  replace : ∀ definition, engine.Knows definition → ∀ parameter baseline,
    property (engine.replace nested depth definition parameter baseline)
  nested : ∀ text, property (nested text)

namespace Spreads

variable {engine : Engine} {nested : Text → Run Text} {depth : Nat}
  {property : ∀ {α : Type}, Run α → Prop}

theorem convertSegment (spreads : Spreads engine nested depth property) (text : Text) :
    property (engine.convertSegment text) :=
  spreads.andThen (spreads.convertText text) spreads.arrangeText

theorem baselineWith (spreads : Spreads engine nested depth property) (name parameter : Text) :
    property (engine.baselineWith name parameter) :=
  spreads.andThen (spreads.convertText _) fun _ =>
    spreads.andThen (spreads.convertText _) fun _ => spreads.done _

theorem prepare (spreads : Spreads engine nested depth property) (definition : Definition)
    (parameter : Text) : property (engine.prepare nested definition parameter) := by
  unfold Engine.prepare
  split
  · refine spreads.andThen (spreads.logAll _) fun _ => ?_
    split
    · exact spreads.nested _
    · exact spreads.done _
  · exact spreads.andThen (spreads.handOver _) fun _ => spreads.done _

theorem expandTag (spreads : Spreads engine nested depth property) {definition : Definition}
    (known : engine.Knows definition) (parameter : Text) :
    property (engine.expandTag nested depth definition parameter) := by
  unfold Engine.expandTag
  split
  · exact spreads.andThen (spreads.convertText _) fun baseline =>
      spreads.replace definition known parameter baseline
  · refine spreads.andThen (spreads.prepare definition parameter) fun prepared => ?_
    exact spreads.andThen (spreads.baselineWith _ _) fun baseline =>
      spreads.replace definition known prepared baseline

theorem reportSegment (spreads : Spreads engine nested depth property) (text : Text) :
    property (engine.reportSegment text) := by
  unfold Engine.reportSegment
  split
  · exact spreads.handOver _
  · exact spreads.done ()

theorem reportArgument (spreads : Spreads engine nested depth property) (letters : Text)
    (argument : Argument) : property (engine.reportArgument letters argument) := by
  cases argument with
  | unclosed rest => exact spreads.handOver _
  | absent => exact spreads.done ()
  | enclosed inside => exact spreads.done ()
  | line rest => exact spreads.done ()

theorem expandPiece (spreads : Spreads engine nested depth property) (start : Nat) {piece : Piece}
    (known : ∀ definition letters argument, piece = .tag definition letters argument →
      engine.Knows definition) :
    property (engine.expandPiece nested depth start piece) := by
  cases piece with
  | segment text =>
    exact spreads.andThen (spreads.reportSegment text) fun _ => spreads.convertSegment text
  | escape => exact spreads.done _
  | tag definition letters argument =>
    refine spreads.andThen (spreads.reportArgument letters argument) fun _ => ?_
    exact spreads.andThen (spreads.logAll [_]) fun _ =>
      spreads.expandTag (known definition letters argument rfl) argument.parameter

theorem expandPieces (spreads : Spreads engine nested depth property) (start : Nat)
    {pieces : List Piece} (known : ∀ definition letters argument,
      .tag definition letters argument ∈ pieces → engine.Knows definition) :
    property (engine.expandPieces nested depth start pieces) := by
  induction pieces generalizing start with
  | nil => exact spreads.done []
  | cons piece others inductionHypothesis =>
    refine spreads.andThen (spreads.expandPiece start ?_) fun first => ?_
    · rintro definition letters argument rfl
      exact known definition letters argument List.mem_cons_self
    · rw [Journal.map_eq_andThen]
      refine spreads.andThen (inductionHypothesis _ ?_) fun rest => spreads.done _
      intro definition letters argument member
      exact known definition letters argument (List.mem_cons_of_mem _ member)

end Spreads

end TagExpansion.Engine
