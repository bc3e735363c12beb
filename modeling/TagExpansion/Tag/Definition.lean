import TagExpansion.Diagnostic
import TagExpansion.Tag.Name

/-
This file says what a tag is.

A tag has a name, says whether it takes a parameter and whether that parameter is
expanded first, and may have a handler that computes its replacement. A handler
sees the name, the parameter and a baseline, which is the tag itself as it would be
shown. It may turn to the engine any number of times: have a text expanded or
converted, hand over a report, ask for the depth, or ask which tags there are. In the
end it gives a replacement, or declines, which leaves the baseline in place, or fails.

What a handler does is a value, its script. A script is a tree whose branches are
the engine's possible answers, so every path through it is finite, and a run of it
can be followed step by step. What a handler asks for may fail. The failure is an
answer like others: a handler may let it through, give up for another reason, or go on
as if nothing had happened.
-/

namespace TagExpansion.Tag

/-- What can be seen of a tag without running its handler. -/
structure Features where
  name : Text
  requiresParameter : Bool
  recursive : Bool
  hasHandler : Bool
  deriving DecidableEq, Repr

/-- What a handler does, step by step. -/
inductive Script where
  /-- Gives the replacement. -/
  | answer (text : Text)
  /-- Keeps the baseline. -/
  | decline
  /-- Gives up. -/
  | fail (fault : Fault)
  /-- Has a text expanded and goes on with the outcome. -/
  | expand (text : Text) (next : Except Fault Text → Script)
  /-- Has a text converted and goes on with the outcome. -/
  | convert (text : Text) (next : Except Fault Text → Script)
  /-- Hands over a report and goes on with the outcome. -/
  | report (report : Report) (next : Except Fault Unit → Script)
  /-- Asks how deep the expansion is and goes on with the answer. -/
  | askDepth (next : Nat → Script)
  /-- Asks which tags the engine knows and goes on with the answer. -/
  | askTags (next : List Features → Script)

/-- Goes on with what was asked for, and lets a failure through. -/
def Script.orFail {α : Type} (next : α → Script) : Except Fault α → Script
  | .ok value => next value
  | .error fault => .fail fault

/-- A handler makes a script from the name, the parameter and the baseline of a tag. -/
abbrev Handler := (name parameter baseline : Text) → Script

/-- A tag. -/
structure Definition where
  name : Text
  /-- Whether the tag takes a parameter, from parentheses or from the rest of the line. -/
  requiresParameter : Bool := false
  /-- Whether the parameter is expanded before the handler sees it. -/
  recursive : Bool := false
  handler : Option Handler := none

namespace Definition

/-- Expansion of the parameter has a meaning only for a tag that takes one. -/
def expandsParameter (definition : Definition) : Bool :=
  definition.requiresParameter && definition.recursive

/-- What can be seen of a tag. -/
def features (definition : Definition) : Features :=
  ⟨definition.name, definition.requiresParameter, definition.recursive, definition.handler.isSome⟩

/-- What a tag does with a parameter, in a few words. -/
def options (definition : Definition) : Text :=
  if !definition.requiresParameter then "no parameter".toList
  else if definition.recursive then "parameter, expanded".toList
  else "parameter, verbatim".toList

/-- The script of a tag for a parameter and a baseline; a tag without a handler declines. -/
def script (definition : Definition) (parameter baseline : Text) : Script :=
  match definition.handler with
  | none => .decline
  | some handler => handler definition.name parameter baseline

end Definition

end TagExpansion.Tag
