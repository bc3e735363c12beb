/-
This file has the rule by which later sources win over earlier ones.

Several sources stand in a row, and each of them may give a value or be silent. The value that
counts is the one of the last source that is not silent. Changes of a registry, settings files,
files of abbreviations and the entries of a table all follow this rule. It is stated here without
looking at how the sources are read, so that it can be compared with what folding them over one
another makes of them.
-/

namespace TagExpansion

variable {ι α : Type} {gives : ι → α → Prop}

/-- No source gives a value. -/
def Silent (gives : ι → α → Prop) (sources : List ι) : Prop :=
  ∀ source ∈ sources, ∀ value, ¬gives source value

/-- The value is given by the last source that gives one. -/
def Last (gives : ι → α → Prop) (sources : List ι) (value : α) : Prop :=
  ∃ before source after,
    sources = before ++ source :: after ∧ gives source value ∧ Silent gives after

theorem silent_nil : Silent gives [] := fun _ member => nomatch member

theorem silent_cons {source : ι} {others : List ι} :
    Silent gives (source :: others) ↔ (∀ value, ¬gives source value) ∧ Silent gives others :=
  List.forall_mem_cons

theorem silent_append {first second : List ι} :
    Silent gives (first ++ second) ↔ Silent gives first ∧ Silent gives second :=
  List.forall_mem_append

theorem not_last_nil {value : α} : ¬Last gives [] value := by
  rintro ⟨before, source, after, same, -, -⟩
  exact absurd same (by simp)

/-- What stands behind is asked first. -/
theorem last_append {first second : List ι} {value : α} :
    Last gives (first ++ second) value ↔
      Last gives second value ∨ Silent gives second ∧ Last gives first value := by
  constructor
  · rintro ⟨before, source, after, same, given, silent⟩
    rcases List.append_eq_append_iff.mp same with ⟨between, rfl, rfl⟩ | ⟨between, rfl, rest⟩
    · exact .inl ⟨between, source, after, rfl, given, silent⟩
    · cases between with
      | nil =>
        rw [List.nil_append] at rest
        exact .inl ⟨[], source, after, rest.symm, given, silent⟩
      | cons head between =>
        rw [List.cons_append, List.cons.injEq] at rest
        obtain ⟨rfl, rfl⟩ := rest
        rw [silent_append] at silent
        exact .inr ⟨silent.2, before, source, between, rfl, given, silent.1⟩
  · rintro (⟨before, source, after, rfl, given, silent⟩ |
      ⟨quiet, before, source, after, rfl, given, silent⟩)
    · exact ⟨first ++ before, source, after, by simp, given, silent⟩
    · exact ⟨before, source, after ++ second, by simp, given, silent_append.mpr ⟨silent, quiet⟩⟩

theorem last_singleton {source : ι} {value : α} : Last gives [source] value ↔ gives source value := by
  constructor
  · rintro ⟨before, other, after, same, given, -⟩
    obtain ⟨rfl, same⟩ | ⟨rfl, -⟩ := List.singleton_eq_append_iff.mp same
    · cases same
      exact given
    · simp_all
  · intro given
    exact ⟨[], source, [], rfl, given, silent_nil⟩

theorem last_cons {source : ι} {others : List ι} {value : α} :
    Last gives (source :: others) value ↔
      Last gives others value ∨ Silent gives others ∧ gives source value := by
  rw [← List.singleton_append, last_append, last_singleton]

theorem last_concat {sources : List ι} {source : ι} {value : α} :
    Last gives (sources ++ [source]) value ↔
      gives source value ∨ (∀ other, ¬gives source other) ∧ Last gives sources value := by
  rw [last_append, last_singleton, silent_cons]
  simp [silent_nil]

/-- Either some value counts or no source gives one. -/
theorem silent_iff_forall_not_last {sources : List ι} :
    Silent gives sources ↔ ∀ value, ¬Last gives sources value := by
  induction sources with
  | nil => exact iff_of_true silent_nil fun _ => not_last_nil
  | cons source others inductionHypothesis =>
    rw [silent_cons, inductionHypothesis]
    simp only [last_cons, inductionHypothesis]
    constructor
    · rintro ⟨noValue, noLater⟩ value (later | ⟨-, given⟩)
      · exact noLater value later
      · exact noValue value given
    · intro none
      have noLater : ∀ value, ¬Last gives others value := fun value later => none value (.inl later)
      exact ⟨fun value given => none value (.inr ⟨noLater, given⟩), noLater⟩

/-- A source that was picked out gives what was made of it gives. -/
theorem silent_filterMap {κ : Type} {pick : κ → Option ι} {sources : List κ} :
    Silent gives (sources.filterMap pick) ↔
      Silent (fun source value => ∃ picked, pick source = some picked ∧ gives picked value)
        sources := by
  simp only [Silent, List.mem_filterMap]
  grind

theorem last_filterMap {κ : Type} {pick : κ → Option ι} {sources : List κ} {value : α} :
    Last gives (sources.filterMap pick) value ↔
      Last (fun source value => ∃ picked, pick source = some picked ∧ gives picked value)
        sources value := by
  induction sources with
  | nil => exact iff_of_false not_last_nil not_last_nil
  | cons source others inductionHypothesis =>
    rw [last_cons, ← silent_filterMap]
    cases picked : pick source with
    | none => simp [List.filterMap_cons_none picked, inductionHypothesis]
    | some found => simp [List.filterMap_cons_some picked, last_cons, inductionHypothesis]

end TagExpansion
