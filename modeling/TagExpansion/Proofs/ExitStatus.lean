import TagExpansion.Proofs.Delivery

/-
This file says when a call for the command ends with the number of warnings.

There are two ways to it. In the strict mode it tells that the result was written and that a warning
or an error was found, in the settings or in the text. A call whose arguments are not understood ends
with the same number, although there is a status of its own for calls that are not understood.
Nothing else that stops a call has this number.
-/

namespace TagExpansion.Command

variable {toolkit : Toolkit} {call : Call}

/-- The arguments of a call, those of the program or those of the command, are refused. -/
inductive Call.Rejected (toolkit : Toolkit) (call : Call) : Prop where
  | program {complaint : Text} (refused : call.reading toolkit = .misuse complaint)
  | command {settings : ProgramSettings} {arguments : List Text} {manner : Manner}
      {complaint : Text} (asks : call.Asks toolkit settings arguments)
      (prepared : prepare toolkit call settings = .done manner)
      (refused : call.readExpand toolkit arguments = .misuse complaint)

/-- A result can be written where it is to go. -/
def Parcel.Arrives (surroundings : Surroundings) (parcel : Parcel) : Prop :=
  parcel.target = dash ∨ ∃ place,
    surroundings.files.destination (.ofText parcel.target) = .ok place ∧
      surroundings.fate place = .kept

/-! ### The status of a result -/

theorem Parcel.code_eq_two_iff (parcel : Parcel) :
    parcel.status.code = 2 ↔ parcel.strict ∧
      ∃ diagnostic ∈ parcel.diagnostics,
        diagnostic.severity = .warning ∨ diagnostic.severity = .error := by
  have serious (severity : Severity) :
      severity ≠ .info ↔ severity = .warning ∨ severity = .error := by
    cases severity <;> simp
  have number (warns : Bool) :
      (if warns then Status.warnings else .success).code = 2 ↔ warns := by
    cases warns <;> decide
  rw [Parcel.status, number]
  simp [Diagnostic.anySerious, serious]

/-- What was delivered has the number that the diagnostics ask for. -/
theorem Delivered.code_eq_two_iff {environment : Environment} {parcel : Parcel} {outcome : Outcome}
    (delivered : Delivered environment parcel outcome) :
    outcome.status.code = 2 ↔
      parcel.Arrives environment.toSurroundings ∧ parcel.status.code = 2 := by
  cases delivered with
  | printed isDash _ _ status =>
    have arrives : parcel.Arrives environment.toSurroundings := .inl isDash
    rw [status, and_iff_right arrives]
  | stored _ found kept _ _ _ status =>
    have arrives : parcel.Arrives environment.toSurroundings := .inr ⟨_, found, kept⟩
    rw [status, and_iff_right arrives]
  | cut noDash found isCut _ _ _ status =>
    rw [status]
    refine iff_of_false (by decide) ?_
    rintro ⟨isDash | ⟨place, found', kept⟩, -⟩
    · exact noDash isDash
    · cases found.symm.trans found'
      cases isCut.symm.trans kept
  | failed noDash closed _ _ status =>
    refine iff_of_false (fun warns => ?_) ?_
    · obtain status | status := status <;> rw [status] at warns <;> cases warns
    · rintro ⟨isDash | ⟨place, found, kept⟩, -⟩
      · exact noDash isDash
      · obtain ⟨error, fails⟩ | ⟨place', reason, found', refused⟩ := closed
        · cases fails.symm.trans found
        · cases found'.symm.trans found
          cases refused.symm.trans kept

/-! ### The status of a call -/

/-- Arguments that are refused end a call with the number of warnings. -/
theorem code_run_of_rejected (conforms : toolkit.Conforms) (rejected : call.Rejected toolkit) :
    (run toolkit call).status.code = 2 := by
  cases rejected with
  | program refused =>
    rw [run, program, refused]
    exact conforms.misuseStatus
  | @command settings arguments manner complaint asks prepared refused =>
    have course := prepack_eq toolkit call manner arguments
    rw [refused] at course
    rw [run, program_of_asks asks, prepared, Journal.done_andThen, expand_eq, course]
    exact conforms.misuseStatus

/-- What keeps a call from its result, be it that the arguments are refused or not. -/
theorem rejected_or_ordinary_of_prepack {settings : ProgramSettings} {arguments : List Text}
    {manner : Manner} (asks : call.Asks toolkit settings arguments)
    (prepared : prepare toolkit call settings = .done manner) {stop : Stop}
    (stops : (prepack (call.environment toolkit manner) Subcommand.expand.path arguments).outcome =
      .error stop) : call.Rejected toolkit ∨ stop.IsOrdinary := by
  rw [prepack_eq] at stops
  cases read : call.readExpand toolkit arguments with
  | settled answers =>
    rw [read] at stops
    exact .inr ((reserved_pack _ _).stops stop stops)
  | help =>
    rw [read] at stops
    cases stops
    exact .inr trivial
  | misuse complaint => exact .inl (.command asks prepared read)
  | broken breakdown =>
    rw [read] at stops
    cases stops
    exact .inr trivial

theorem rejected_or_exists_draft (forExpand : call.ForExpand toolkit)
    (warns : (run toolkit call).status.code = 2) :
    call.Rejected toolkit ∨
      ∃ (draft : Draft toolkit call) (parcel : Parcel), draft.Makes parcel := by
  have beginning := beginning_program forExpand
  rw [run] at warns
  generalize program toolkit call = course at beginning warns
  cases beginning with
  | misused refused => exact .inl (.program refused)
  | help asked => cases warns
  | stopped notes other => exact absurd warns other
  | @begun settings arguments manner asks prepared =>
    rw [expand_eq] at warns
    cases made : (prepack (call.environment toolkit manner) Subcommand.expand.path
        arguments).outcome with
    | error stop =>
      obtain rejected | ordinary := rejected_or_ordinary_of_prepack asks prepared made
      · exact .inl rejected
      · rw [Journal.andThen_of_error made] at warns
        exact absurd warns (ordinary.code_ne toolkit.misuseStatus)
    | ok parcel =>
      obtain ⟨draft, makes⟩ := Draft.exists_of_prepack asks prepared made
      exact .inr ⟨draft, parcel, makes⟩

/-- The number of the status of warnings means one of two things: the arguments of the call are
refused, or the strict mode was asked for, the result was written, and there is a diagnostic that is
more than information. -/
theorem code_run_eq_two_iff (toolkit : Toolkit) (conforms : toolkit.Conforms) (call : Call)
    (forExpand : call.ForExpand toolkit) :
    (run toolkit call).status.code = 2 ↔ call.Rejected toolkit ∨
      ∃ (draft : Draft toolkit call) (parcel : Parcel), draft.Makes parcel ∧
        draft.settings.strict ∧ parcel.Arrives call.toSurroundings ∧
        ∃ diagnostic ∈ parcel.diagnostics,
          diagnostic.severity = .warning ∨ diagnostic.severity = .error := by
  have status {draft : Draft toolkit call} {parcel : Parcel} (makes : draft.Makes parcel) :
      (run toolkit call).status.code = 2 ↔ parcel.Arrives call.toSurroundings ∧
        draft.settings.strict ∧ ∃ diagnostic ∈ parcel.diagnostics,
          diagnostic.severity = .warning ∨ diagnostic.severity = .error := by
    have strict : parcel.strict = draft.settings.strict := by
      cases makes
      rfl
    rw [← strict, ← parcel.code_eq_two_iff]
    exact (draft.delivered makes).code_eq_two_iff
  constructor
  · intro warns
    obtain rejected | ⟨draft, parcel, makes⟩ := rejected_or_exists_draft forExpand warns
    · exact .inl rejected
    · obtain ⟨arrives, isStrict, serious⟩ := (status makes).mp warns
      exact .inr ⟨draft, parcel, makes, isStrict, arrives, serious⟩
  · rintro (rejected | ⟨draft, parcel, makes, isStrict, arrives, serious⟩)
    · exact code_run_of_rejected conforms rejected
    · exact (status makes).mpr ⟨arrives, isStrict, serious⟩

/-- A tag that there is not is worth a warning, and it counts in the strict mode though it is not
shown. -/
theorem code_run_eq_two_of_unknown_tag :
    let text := "@no".toList
    let call : Call :=
      { arguments := ["-q", "expand", "--strict"].map String.toList, input := .ok text }
    Tools.standard.Conforms ∧ call.ForExpand Tools.standard ∧
      (∃ draft : Draft Tools.standard call, draft.settings.strict) ∧
      (run Tools.standard call).status.code = 2 := by
  intro text call
  obtain ⟨engine, made, expanded, diagnostic, member, warning⟩ : ∃ engine,
      Config.engine? {} .collect = .ok engine ∧ (engine.expand text).outcome = .ok text ∧
        ∃ diagnostic ∈ (engine.expand text).diagnostics, diagnostic.severity = .warning :=
    ⟨_, rfl, by decide +kernel, by decide +kernel⟩
  obtain ⟨answers, read, quiet⟩ : ∃ answers, call.reading Tools.standard =
      .settled (answers, some (.expand, ["--strict".toList])) ∧
        ProgramSettings.ofAnswers answers = { quiet := 1 } := ⟨_, rfl, rfl⟩
  obtain ⟨settled, readToo, strict⟩ : ∃ settled,
      call.readExpand Tools.standard ["--strict".toList] = .settled settled ∧
        ExpandSettings.ofAnswers settled = { strict := true } := ⟨_, rfl, rfl⟩
  have forExpand : call.ForExpand Tools.standard := Call.forExpand_of_reading read
  let draft : Draft Tools.standard call :=
    { programSettings := { quiet := 1 }
      manner := ⟨⟨0, none⟩, some Log.defaultThreshold⟩
      arguments := ["--strict".toList], answers := settled, config := {}, text
      asks := ⟨answers, read, quiet⟩, prepared := rfl, read := readToo
      configured := by rw [strict]; rfl
      supplied := by rw [strict]; rfl }
  have isStrict : draft.settings.strict := congrArg ExpandSettings.strict strict
  have isDash : draft.settings.target = dash := congrArg ExpandSettings.target strict
  refine ⟨Tools.conforms_standard, forExpand, ⟨draft, isStrict⟩,
    (code_run_eq_two_iff Tools.standard Tools.conforms_standard call forExpand).mpr (.inr ?_)⟩
  exact ⟨draft, _, .intro made expanded, isStrict, .inl isDash, diagnostic, member, .inl warning⟩

/-- A limit out of range ends a call with the number of warnings. The strict mode was not asked for,
there is no result, and the number for calls that are not understood is another one. -/
theorem code_run_eq_two_of_limit :
    let words : List Text := ["--max-depth".toList, "0".toList]
    let call : Call := { arguments := "expand".toList :: words, input := .ok "x".toList }
    (run Tools.standard call).status.code = 2 ∧ Status.usageError.code = 64 ∧
      "--strict".toList ∉ call.arguments ∧ call.Rejected Tools.standard ∧
      IsEmpty (Draft Tools.standard call) := by
  intro words call
  obtain ⟨answers, read, plain⟩ : ∃ answers,
      call.reading Tools.standard = .settled (answers, some (.expand, words)) ∧
        ProgramSettings.ofAnswers answers = {} := ⟨_, rfl, rfl⟩
  obtain ⟨complaint, refused⟩ : ∃ complaint,
      call.readExpand Tools.standard words = .misuse complaint := ⟨_, rfl⟩
  refine ⟨by decide +kernel, rfl, by decide, .command ⟨answers, read, plain⟩ rfl refused,
    ⟨fun draft => ?_⟩⟩
  obtain ⟨others, other, -⟩ := draft.asks
  have same : words = draft.arguments := by
    have both := read.symm.trans other
    simp only [Reading.settled.injEq, Prod.mk.injEq, Option.some.injEq] at both
    exact both.2.2
  have settled := draft.read
  rw [← same, refused] at settled
  cases settled

end TagExpansion.Command
