import TagExpansion.Engine.Basic

/-
This file compares runs as they look from outside.

Whoever uses an engine sees the result or the failure, the calls of handlers, the texts that go to
the adapters, the reports and what becomes of them. The marks at which expansions start and end are
not seen, and the log is written for another reader: it says where in the text a tag stands. Two
runs that differ only there look alike. What stands at one place of a text looks like the same
thing at another place, and pieces that follow one another look as they would one by one.
-/

namespace TagExpansion

open Scan (Piece)

/-- Whether an event is seen from outside of the engine. -/
def Event.isSeen : Event → Bool
  | .entered => false
  | .left => false
  | .noticed (.logged _) => false
  | _ => true

namespace Run

variable {α β : Type}

/-- The events of a run that are seen from outside, in order. -/
def seen (run : Run α) : List Event := run.entries.filter Event.isSeen

theorem filterMap_seen {γ : Type} {read : Event → Option γ}
    (blind : ∀ event, event.isSeen = false → read event = none) (run : Run α) :
    run.seen.filterMap read = run.entries.filterMap read := by
  rw [seen, List.filterMap_filter]
  congr 1
  funext event
  cases isSeen : event.isSeen with
  | true => rfl
  | false => rw [if_neg Bool.false_ne_true, blind event isSeen]

/-- Two runs with the same outcome and the same events, as far as they are seen from outside. -/
structure Alike (run other : Run α) : Prop where
  outcome : run.outcome = other.outcome
  seen : run.seen = other.seen

namespace Alike

theorem refl (run : Run α) : Alike run run := ⟨rfl, rfl⟩

theorem symm {run other : Run α} (alike : Alike run other) : Alike other run :=
  ⟨alike.outcome.symm, alike.seen.symm⟩

theorem trans {first second third : Run α} (front : Alike first second)
    (back : Alike second third) : Alike first third :=
  ⟨front.outcome.trans back.outcome, front.seen.trans back.seen⟩

theorem andThen {run other : Run α} {next further : α → Run β} (first : Alike run other)
    (second : ∀ value, Alike (next value) (further value)) :
    Alike (run.andThen next) (other.andThen further) := by
  have same : other.entries.filter Event.isSeen = run.entries.filter Event.isSeen :=
    first.seen.symm
  cases ended : run.outcome with
  | ok value =>
    have alsoEnded : other.outcome = .ok value := first.outcome.symm.trans ended
    rw [Journal.andThen_of_ok ended, Journal.andThen_of_ok alsoEnded]
    refine ⟨(second value).outcome, ?_⟩
    show (run.entries ++ _).filter _ = (other.entries ++ _).filter _
    rw [List.filter_append, List.filter_append, same]
    exact congrArg _ (second value).seen
  | error fault =>
    have alsoEnded : other.outcome = .error fault := first.outcome.symm.trans ended
    rw [Journal.andThen_of_error ended, Journal.andThen_of_error alsoEnded]
    exact ⟨rfl, same.symm⟩

theorem map {run other : Run α} (change : α → β) (alike : Alike run other) :
    Alike (run.map change) (other.map change) := by
  rw [Journal.map_eq_andThen, Journal.map_eq_andThen]
  exact alike.andThen fun _ => refl _

theorem filterMap_eq {run other : Run α} (alike : Alike run other) {γ : Type}
    {read : Event → Option γ} (blind : ∀ event, event.isSeen = false → read event = none) :
    run.entries.filterMap read = other.entries.filterMap read := by
  rw [← filterMap_seen blind run, alike.seen, filterMap_seen blind other]

theorem calls {run other : Run α} (alike : Alike run other) : run.calls = other.calls := by
  refine alike.filterMap_eq fun event unseen => ?_
  cases event with
  | called call => cases unseen
  | _ => rfl

theorem reports {run other : Run α} (alike : Alike run other) : run.reports = other.reports := by
  refine alike.filterMap_eq fun event unseen => ?_
  cases event with
  | reported report => cases unseen
  | _ => rfl

theorem diagnostics {run other : Run α} (alike : Alike run other) :
    run.diagnostics = other.diagnostics := by
  refine alike.filterMap_eq fun event unseen => ?_
  cases event with
  | noticed notice =>
    cases notice with
    | recorded diagnostic => cases unseen
    | _ => rfl
  | _ => rfl

/-- The marks around an expansion are not seen. -/
theorem enclose (run : Run α) : Alike (run.enclose .entered .left) run := by
  refine ⟨rfl, ?_⟩
  show (Event.entered :: run.entries ++ [Event.left]).filter Event.isSeen = _
  rw [List.filter_append, List.filter_cons_of_neg Bool.false_ne_true]
  exact List.append_nil _

/-- The log is not seen. -/
theorem log (entry other : Log.Entry) : Alike (Run.log entry) (Run.log other) := ⟨rfl, rfl⟩

theorem logAll_andThen (entries : List Log.Entry) (next : Unit → Run α) :
    Alike ((Run.logAll entries).andThen next) (next ()) := by
  have unseen : Alike (Run.logAll entries) (.done ()) := by
    refine ⟨rfl, ?_⟩
    show (entries.map fun entry => Event.noticed (.logged entry)).filter Event.isSeen = []
    rw [List.filter_map, List.map_eq_nil_iff, List.filter_eq_nil_iff]
    intro entry _
    exact Bool.false_ne_true
  exact unseen.andThen fun _ => refl _

end Alike

end Run

namespace Engine

variable {engine : Engine} {nested : Text → Run Text} {depth : Nat}

/-- A piece looks alike wherever it stands. -/
theorem alike_expandPiece (start other : Nat) (piece : Piece) :
    Run.Alike (engine.expandPiece nested depth start piece)
      (engine.expandPiece nested depth other piece) := by
  cases piece with
  | segment text => exact .refl _
  | escape => exact .refl _
  | tag definition letters argument =>
    refine (Run.Alike.refl (engine.reportArgument letters argument)).andThen fun _ => ?_
    exact (Run.Alike.log _ _).andThen fun _ => .refl _

theorem alike_expandPieces (start other : Nat) (pieces : List Piece) :
    Run.Alike (engine.expandPieces nested depth start pieces)
      (engine.expandPieces nested depth other pieces) := by
  induction pieces generalizing start other with
  | nil => exact .refl _
  | cons piece others inductionHypothesis =>
    exact (alike_expandPiece start other piece).andThen fun first =>
      (inductionHypothesis _ _).map _

/-- Pieces behind other pieces are expanded when those are done, and only if they are. -/
theorem alike_expandPieces_append (start : Nat) (front back : List Piece) :
    Run.Alike (engine.expandPieces nested depth start (front ++ back))
      ((engine.expandPieces nested depth start front).andThen fun written =>
        (engine.expandPieces nested depth 0 back).map (written ++ ·)) := by
  induction front generalizing start with
  | nil =>
    rw [List.nil_append, expandPieces, Journal.done_andThen]
    simp only [List.nil_append, Journal.map_id]
    exact alike_expandPieces start 0 back
  | cons piece others inductionHypothesis =>
    rw [List.cons_append, expandPieces, expandPieces, Journal.andThen_assoc]
    refine (Run.Alike.refl _).andThen fun first => ?_
    refine ((inductionHypothesis _).map _).trans ?_
    -- What was written first comes to stand before the rest, whichever of the two is done last.
    rw [Journal.map_andThen, Journal.map_eq_andThen, Journal.andThen_assoc]
    refine (Run.Alike.refl _).andThen fun written => ?_
    rw [Journal.map_map, Journal.done_andThen]
    simp only [List.append_assoc]
    exact .refl _

end Engine

end TagExpansion
