/-
This file has the shape shared by everything in the library that leaves a trail.

A journal is what happened, in order of time, and how it ended: with a value or
with a failure. Entries written before a failure stay written. Journals follow one
another: the second one starts from the value of the first, its entries stand
behind those of the first, and a failure ends the sequence.
-/

namespace TagExpansion

/-- Entries in order of time, and an outcome. -/
structure Journal (ε σ α : Type) where
  entries : List ε
  outcome : Except σ α

namespace Journal

variable {ε σ α β : Type}

/-- A journal without entries that ends with a value. -/
def done (value : α) : Journal ε σ α := ⟨[], .ok value⟩

/-- A journal without entries that ends with a failure. -/
def fail (failure : σ) : Journal ε σ α := ⟨[], .error failure⟩

/-- A journal of one entry. -/
def write (entry : ε) : Journal ε σ Unit := ⟨[entry], .ok ()⟩

/-- A journal without entries that ends as given. -/
def ofOutcome (outcome : Except σ α) : Journal ε σ α := ⟨[], outcome⟩

/-- One journal after the other. -/
def andThen (first : Journal ε σ α) (second : α → Journal ε σ β) : Journal ε σ β :=
  match first.outcome with
  | .ok value =>
    let rest := second value
    ⟨first.entries ++ rest.entries, rest.outcome⟩
  | .error failure => ⟨first.entries, .error failure⟩

instance : Monad (Journal ε σ) where
  pure := done
  bind := andThen

/-- One journal after the other, where the second starts from the outcome of the first, whatever
it is. -/
def settle {τ : Type} (first : Journal ε σ α) (second : Except σ α → Journal ε τ β) :
    Journal ε τ β :=
  let rest := second first.outcome
  ⟨first.entries ++ rest.entries, rest.outcome⟩

/-- Changes the value of a journal. -/
def map (change : α → β) (journal : Journal ε σ α) : Journal ε σ β :=
  ⟨journal.entries, journal.outcome.map change⟩

/-- Changes the failure of a journal. -/
def mapFailure {τ : Type} (change : σ → τ) (journal : Journal ε σ α) : Journal ε τ α :=
  ⟨journal.entries, journal.outcome.mapError change⟩

/-- Changes the entries of a journal. -/
def mapEntries {δ : Type} (change : ε → δ) (journal : Journal ε σ α) : Journal δ σ α :=
  ⟨journal.entries.map change, journal.outcome⟩

/-- Writes any number of entries for each entry of a journal. -/
def expandEntries {δ : Type} (change : ε → List δ) (journal : Journal ε σ α) : Journal δ σ α :=
  ⟨journal.entries.flatMap change, journal.outcome⟩

/-- Writes entries. -/
def writeAll (entries : List ε) : Journal ε σ Unit := ⟨entries, .ok ()⟩

/-- Puts entries before and behind a journal, whatever its outcome. -/
def enclose (before after : ε) (journal : Journal ε σ α) : Journal ε σ α :=
  ⟨before :: journal.entries ++ [after], journal.outcome⟩

/-! ### Laws -/

@[simp] theorem done_andThen (value : α) (next : α → Journal ε σ β) :
    (done value).andThen next = next value := rfl

@[simp] theorem fail_andThen (failure : σ) (next : α → Journal ε σ β) :
    (fail failure : Journal ε σ α).andThen next = fail failure := rfl

@[simp] theorem andThen_done (journal : Journal ε σ α) : journal.andThen done = journal := by
  obtain ⟨entries, outcome⟩ := journal
  cases outcome <;> simp [andThen, done]

/-- To change a value is to go on with the changed one. -/
theorem map_eq_andThen (change : α → β) (journal : Journal ε σ α) :
    journal.map change = journal.andThen fun value => done (change value) := by
  obtain ⟨entries, outcome⟩ := journal
  cases outcome <;> simp [map, andThen, done, Except.map]

theorem andThen_assoc {γ : Type} (first : Journal ε σ α) (second : α → Journal ε σ β)
    (third : β → Journal ε σ γ) :
    (first.andThen second).andThen third = first.andThen fun value => (second value).andThen third := by
  obtain ⟨entries, outcome⟩ := first
  cases outcome with
  | error failure => rfl
  | ok value =>
    simp only [andThen]
    cases (second value).outcome <;> simp

/-- What follows a journal that ends with a value. -/
theorem andThen_of_ok {first : Journal ε σ α} {value : α} (ended : first.outcome = .ok value)
    (next : α → Journal ε σ β) :
    first.andThen next = ⟨first.entries ++ (next value).entries, (next value).outcome⟩ := by
  rw [andThen, ended]

/-- Nothing follows a journal that ends with a failure. -/
theorem andThen_of_error {first : Journal ε σ α} {failure : σ}
    (ended : first.outcome = .error failure) (next : α → Journal ε σ β) :
    first.andThen next = ⟨first.entries, .error failure⟩ := by
  rw [andThen, ended]

/-- The outcome of a sequence is that of its parts, one after the other. -/
theorem outcome_andThen (first : Journal ε σ α) (next : α → Journal ε σ β) :
    (first.andThen next).outcome = first.outcome >>= fun value => (next value).outcome := by
  obtain ⟨entries, outcome⟩ := first
  cases outcome <;> rfl

/-- A sequence gives a result where both its parts do. -/
theorem outcome_andThen_eq_ok_iff {first : Journal ε σ α} {next : α → Journal ε σ β} {result : β} :
    (first.andThen next).outcome = .ok result ↔
      ∃ value, first.outcome = .ok value ∧ (next value).outcome = .ok result := by
  cases ended : first.outcome with
  | ok value => simp [andThen_of_ok ended]
  | error failure => simp [andThen_of_error ended]

/-- A change of the value leaves failures alone. -/
theorem outcome_map_eq_error_iff {change : α → β} {journal : Journal ε σ α} {failure : σ} :
    (journal.map change).outcome = .error failure ↔ journal.outcome = .error failure := by
  obtain ⟨entries, outcome⟩ := journal
  cases outcome <;> simp [map, Except.map]

/-- A change of the failure leaves values alone. -/
theorem outcome_mapFailure_eq_ok_iff {τ : Type} {change : σ → τ} {journal : Journal ε σ α}
    {value : α} :
    (journal.mapFailure change).outcome = .ok value ↔ journal.outcome = .ok value := by
  obtain ⟨entries, outcome⟩ := journal
  cases outcome with
  | ok result =>
    show Except.ok result = Except.ok value ↔ Except.ok result = Except.ok value
    rw [Except.ok.injEq, Except.ok.injEq]
  | error cause => exact iff_of_false nofun nofun

theorem outcome_mapFailure_eq_error_iff {τ : Type} {change : σ → τ} {journal : Journal ε σ α}
    {failure : τ} :
    (journal.mapFailure change).outcome = .error failure ↔
      ∃ cause, journal.outcome = .error cause ∧ failure = change cause := by
  obtain ⟨entries, outcome⟩ := journal
  cases outcome with
  | ok result => exact iff_of_false nofun (by rintro ⟨cause, ⟨⟩, -⟩)
  | error cause =>
    constructor
    · rintro ⟨⟩
      exact ⟨cause, rfl, rfl⟩
    · rintro ⟨cause, ⟨⟩, rfl⟩
      rfl

@[simp] theorem pure_eq_done (value : α) : (pure value : Journal ε σ α) = done value := rfl

@[simp] theorem bind_eq_andThen (first : Journal ε σ α) (second : α → Journal ε σ β) :
    (first >>= second) = first.andThen second := rfl

@[simp] theorem entries_enclose (before after : ε) (journal : Journal ε σ α) :
    (journal.enclose before after).entries = before :: journal.entries ++ [after] := rfl

@[simp] theorem outcome_enclose (before after : ε) (journal : Journal ε σ α) :
    (journal.enclose before after).outcome = journal.outcome := rfl

@[simp] theorem entries_settle {τ : Type} (first : Journal ε σ α)
    (second : Except σ α → Journal ε τ β) :
    (first.settle second).entries = first.entries ++ (second first.outcome).entries := rfl

@[simp] theorem outcome_settle {τ : Type} (first : Journal ε σ α)
    (second : Except σ α → Journal ε τ β) :
    (first.settle second).outcome = (second first.outcome).outcome := rfl

/-- Only what follows the outcome that there is counts. -/
theorem settle_congr {τ : Type} {first : Journal ε σ α} {second third : Except σ α → Journal ε τ β}
    (same : second first.outcome = third first.outcome) :
    first.settle second = first.settle third := by
  unfold settle
  rw [same]

/-- To let every failure through is to go on only behind a value. -/
theorem settle_ofOutcome_andThen (first : Journal ε σ α) (next : α → Journal ε σ β) :
    (first.settle fun outcome => (ofOutcome outcome).andThen next) = first.andThen next := by
  obtain ⟨entries, outcome⟩ := first
  cases outcome with
  | ok value => rfl
  | error failure => simp [settle, andThen, ofOutcome]

/-- A change of the value of a sequence is a change of the value of its last part. -/
theorem map_andThen {γ : Type} (change : β → γ) (first : Journal ε σ α) (next : α → Journal ε σ β) :
    (first.andThen next).map change = first.andThen fun value => (next value).map change := by
  simp only [map_eq_andThen, andThen_assoc]

theorem map_id (journal : Journal ε σ α) : (journal.map fun value => value) = journal := by
  rw [map_eq_andThen]
  exact andThen_done journal

theorem map_map {γ : Type} (change : β → γ) (earlier : α → β) (journal : Journal ε σ α) :
    (journal.map earlier).map change = journal.map fun value => change (earlier value) := by
  simp only [map_eq_andThen, andThen_assoc, done_andThen]

end Journal

end TagExpansion
