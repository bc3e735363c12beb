import TagExpansion.Proofs.Nesting

/-
This file proves that a limit of nesting that is never reached is never noticed.

The limit enters an expansion at one place only: a text that is to be expanded at the limit is
reported and converted instead. Two engines that differ in nothing but the limit therefore go the
same way, event by event, up to the first such report of the lower one. Where there is none, they
go the same way to the end, be it a result or a failure, and every handler has seen the same depth.

The two runs are compared part by part. A part of the lower run that has no such report is matched
by the same part of the higher one, and where one part follows another the first has to be matched
before the second is looked at, because its outcome decides what the second is.
-/

namespace TagExpansion.Engine

open Tag (Definition Script)
open Scan (Piece)

/-- No text was left unexpanded because of the limit. -/
def Unhindered (events : List Event) : Prop :=
  ∀ report, .reported report ∈ events → report.kind ≠ .nestingTooDeep

theorem Unhindered.of_subset {events more : List Event} (unhindered : Unhindered more)
    (included : events ⊆ more) : Unhindered events :=
  fun report member => unhindered report (included member)

/-- The second run is the first one, unless a text was left unexpanded in the first. -/
def Matches {α : Type} (lower higher : Run α) : Prop := Unhindered lower.entries → higher = lower

namespace Matches

variable {α β : Type}

theorem refl (run : Run α) : Matches run run := fun _ => rfl

theorem andThen {lower higher : Run α} {next further : α → Run β} (first : Matches lower higher)
    (second : ∀ value, Matches (next value) (further value)) :
    Matches (lower.andThen next) (higher.andThen further) := by
  intro unhindered
  cases ended : lower.outcome with
  | ok value =>
    rw [Journal.andThen_of_ok ended] at unhindered ⊢
    have same := first (unhindered.of_subset (List.subset_append_left _ _))
    have later := second value (unhindered.of_subset (List.subset_append_right _ _))
    rw [same, Journal.andThen_of_ok ended, later]
  | error fault =>
    rw [Journal.andThen_of_error ended] at unhindered ⊢
    rw [first unhindered, Journal.andThen_of_error ended]

theorem settle {lower higher : Run α} {next further : Except Fault α → Run β}
    (first : Matches lower higher) (second : ∀ outcome, Matches (next outcome) (further outcome)) :
    Matches (lower.settle next) (higher.settle further) := by
  intro unhindered
  have same := first (unhindered.of_subset (List.subset_append_left _ _))
  have later := second lower.outcome (unhindered.of_subset (List.subset_append_right _ _))
  rw [same, Journal.settle, Journal.settle, later]

theorem map {lower higher : Run α} (change : α → β) (first : Matches lower higher) :
    Matches (lower.map change) (higher.map change) := by
  intro unhindered
  rw [first unhindered]

theorem enclose {lower higher : Run α} (before after : Event) (inside : Matches lower higher) :
    Matches (lower.enclose before after) (higher.enclose before after) := by
  intro unhindered
  have included : lower.entries ⊆ (lower.enclose before after).entries := by
    rw [Journal.entries_enclose, List.cons_append]
    exact fun event member => List.mem_cons_of_mem _ (List.mem_append_left _ member)
  rw [inside (unhindered.of_subset included)]

end Matches

/-- The same engine with another limit. -/
def limitedTo (engine : Engine) (limit : Limit) (valid : limit.Valid) : Engine :=
  { engine with limit, validLimit := valid }

section Levels

variable {engine : Engine} {limit : Limit} {valid : limit.Valid} {lower higher : Text → Run Text}
  (nested : ∀ text, Matches (lower text) (higher text)) (depth : Nat)

include nested

/-- The induction is on the script, and both runs are handed the same answers. -/
theorem matches_perform (script : Script) :
    Matches (engine.perform lower depth script)
      ((engine.limitedTo limit valid).perform higher depth script) := by
  induction script with
  | answer text => exact .refl _
  | decline => exact .refl _
  | fail fault => exact .refl _
  | expand text next inductionHypothesis => exact (nested text).settle inductionHypothesis
  | convert text next inductionHypothesis =>
    exact (Matches.refl (engine.convertText text)).settle inductionHypothesis
  | report report next inductionHypothesis =>
    exact (Matches.refl (engine.handOver report)).settle inductionHypothesis
  | askDepth next inductionHypothesis =>
    exact (Matches.refl (Journal.write (.told depth))).andThen fun _ => inductionHypothesis depth
  | askTags next inductionHypothesis => exact inductionHypothesis engine.tags.features

theorem matches_replace (definition : Definition) (parameter baseline : Text) :
    Matches (engine.replace lower depth definition parameter baseline)
      ((engine.limitedTo limit valid).replace higher depth definition parameter baseline) := by
  unfold replace
  split
  · exact .refl _
  · exact (Matches.refl (Journal.write _)).andThen fun _ =>
      (matches_perform nested depth _).andThen fun _ => .refl _

theorem matches_prepare (definition : Definition) (parameter : Text) :
    Matches (engine.prepare lower definition parameter)
      ((engine.limitedTo limit valid).prepare higher definition parameter) := by
  unfold prepare
  split
  · refine (Matches.refl (Run.logAll _)).andThen fun _ => ?_
    dsimp only
    split
    · exact nested _
    · exact .refl _
  · exact .refl _

theorem matches_expandTag (definition : Definition) (parameter : Text) :
    Matches (engine.expandTag lower depth definition parameter)
      ((engine.limitedTo limit valid).expandTag higher depth definition parameter) := by
  unfold expandTag
  split
  · exact (Matches.refl (engine.baselineWithout _)).andThen fun baseline =>
      matches_replace nested depth definition parameter baseline
  · refine (matches_prepare nested definition parameter).andThen fun prepared => ?_
    exact (Matches.refl (engine.baselineWith _ _)).andThen fun baseline =>
      matches_replace nested depth definition prepared baseline

theorem matches_expandPiece (start : Nat) (piece : Piece) :
    Matches (engine.expandPiece lower depth start piece)
      ((engine.limitedTo limit valid).expandPiece higher depth start piece) := by
  cases piece with
  | segment text => exact .refl _
  | escape => exact .refl _
  | tag definition letters argument =>
    refine (Matches.refl (engine.reportArgument letters argument)).andThen fun _ => ?_
    exact (Matches.refl (Run.log _)).andThen fun _ =>
      matches_expandTag nested depth definition argument.parameter

theorem matches_expandPieces (start : Nat) (pieces : List Piece) :
    Matches (engine.expandPieces lower depth start pieces)
      ((engine.limitedTo limit valid).expandPieces higher depth start pieces) := by
  induction pieces generalizing start with
  | nil => exact .refl _
  | cons piece others inductionHypothesis =>
    exact (matches_expandPiece nested depth start piece).andThen fun first =>
      (inductionHypothesis _).map _

end Levels

/-- At every depth the higher limit makes a difference only where the lower one is reached. -/
theorem matches_expandAt {engine : Engine} {limit : Limit} {valid : limit.Valid}
    (raised : engine.maxDepth ≤ (engine.limitedTo limit valid).maxDepth) (depth : Nat)
    (text : Text) :
    Matches (engine.expandAt depth text) ((engine.limitedTo limit valid).expandAt depth text) := by
  induction depth using engine.expandAt_induction generalizing text with
  | limit depth reached =>
    intro unhindered
    have reports : .reported engine.nestingTooDeep ∈ (engine.expandAt depth text).entries := by
      have only := (run_of_le reached text).2.1
      have member : engine.nestingTooDeep ∈ (engine.expandAt depth text).reports := by
        rw [only]
        exact List.mem_singleton_self _
      exact Run.mem_reports_iff.mp member
    exact absurd rfl (unhindered _ reports)
  | deeper depth below inductionHypothesis =>
    rw [expandAt_of_lt engine below,
      expandAt_of_lt (engine.limitedTo limit valid) (Nat.lt_of_lt_of_le below raised)]
    exact (matches_expandPieces inductionHypothesis (depth + 1) 0 _).enclose _ _

/-- Where no text is left unexpanded because of the limit, the limit may be raised as far as an
engine accepts it: the run stays what it is, with its events in their order, its result or its
failure, and every depth that a handler sees. -/
theorem expand_withLimit?_of_unhindered (engine : Engine) (limit : Limit)
    (raised : engine.limit.toInt ≤ limit.toInt) (accepted : limit.toInt ≤ Limit.greatest)
    (text : Text)
    (unhindered : ∀ report ∈ (engine.expand text).reports, report.kind ≠ .nestingTooDeep) :
    ∃ other, engine.withLimit? limit = .ok other ∧ other.expand text = engine.expand text := by
  have valid : limit.Valid := ⟨Int.le_trans engine.validLimit.1 raised, accepted⟩
  have higher : engine.maxDepth ≤ (engine.limitedTo limit valid).maxDepth :=
    Int.toNat_le_toNat raised
  have same := matches_expandAt higher 0 text fun report member =>
    unhindered report (Run.mem_reports_iff.mpr member)
  exact ⟨engine.limitedTo limit valid, dif_pos valid, same⟩

/-- Three levels are enough for two tags inside one another. -/
theorem expand_withLimit?_of_nested_tags :
    let engine : Engine := { tags := .builtin .plain, limit := .number 3 }
    let text := "@bold(@italic(x))".toList
    engine.limit.toInt ≤ 150 ∧
      (∀ report ∈ (engine.expand text).reports, report.kind ≠ .nestingTooDeep) ∧
      ∃ other, engine.withLimit? (.number 150) = .ok other ∧
        other.expand text = engine.expand text := by
  intro engine text
  have raised : engine.limit.toInt ≤ 150 := by decide
  have unhindered : ∀ report ∈ (engine.expand text).reports, report.kind ≠ .nestingTooDeep := by
    decide +kernel
  exact ⟨raised, unhindered,
    expand_withLimit?_of_unhindered engine (.number 150) raised (by decide) text unhindered⟩

end TagExpansion.Engine
