import TagExpansion.Proofs.Terminal
import TagExpansion.Proofs.Views

/-
This file says what a call for the command that expands leaves behind.

When the result is made, it goes to one place, and no effect of the call touches another one. The
options of the program have no part in the files and in the status, and in the result only as far as
codes for a terminal are concerned: what is printed on the standard output may lose its codes on the
way.
-/

namespace TagExpansion

/-! ### Writing a file -/

/-- A path that a file can be written to leads to a place outside of the working directory and of
those around it. -/
theorem FileTree.outside_of_destination {tree : FileTree} {path : Path} {place : List Text}
    (found : tree.destination path = .ok place) : ¬place.isPrefixOf tree.directory = true := by
  unfold FileTree.destination at found
  split at found
  · cases found
  · split at found
    · cases found
    · rename_i other _
      split at found
      · cases found
      · cases found
      · rename_i noDirectory _
        cases found
        exact fun around => noDirectory (if_pos around)

/-- Bytes that are stored stand at their place. -/
theorem FileTree.node?_store_self {tree : FileTree} {place : List Text}
    (outside : ¬place.isPrefixOf tree.directory = true) (bytes : List UInt8) :
    (tree.store place bytes).node? place = some (.file bytes) := by
  rw [store, node?, if_neg outside, OrderedMap.find?_insert, if_pos rfl]

/-- Everything else is as it was. -/
theorem FileTree.node?_store_other (tree : FileTree) {place other : List Text}
    (elsewhere : other ≠ place) (bytes : List UInt8) :
    (tree.store place bytes).node? other = tree.node? other := by
  rw [store, node?, node?, OrderedMap.find?_insert, if_neg elsewhere.symm]

namespace Command

/-! ### Effects among notes -/

/-- An effect among notes is all that counts. -/
theorem close_of_enclosed {toolkit : Toolkit} {surroundings : Surroundings} {before after : List Effect}
    (notes : ∀ effect ∈ before, effect.IsNote) (laterNotes : ∀ effect ∈ after, effect.IsNote)
    (effects : List Effect) (ended : Except Stop Status) :
    let outcome := Course.close toolkit surroundings ⟨before ++ (effects ++ after), ended⟩
    outcome.standardOutput = printedIn effects ∧
      outcome.files = effects.foldl Effect.apply surroundings.files := by
  intro outcome
  obtain ⟨output, files⟩ :=
    @close_append_of_notes toolkit surroundings after laterNotes (before ++ effects) ended
  rw [printedIn_append, printedIn_of_notes notes, List.nil_append, List.append_assoc] at output
  rw [List.foldl_append, foldl_apply_of_notes notes, List.append_assoc] at files
  exact ⟨output, files⟩

/-- Bytes that are stored among notes stand where they were to go, and that is all. -/
theorem close_of_stored {toolkit : Toolkit} {surroundings : Surroundings} {before after : List Effect}
    (notes : ∀ effect ∈ before, effect.IsNote) (laterNotes : ∀ effect ∈ after, effect.IsNote)
    {path : Path} {place : List Text} (found : surroundings.files.destination path = .ok place)
    (bytes : List UInt8) (ended : Except Stop Status) :
    let outcome :=
      Course.close toolkit surroundings ⟨before ++ ([.stored place bytes] ++ after), ended⟩
    outcome.files.node? place = some (.file bytes) ∧
      (∀ other, other ≠ place → outcome.files.node? other = surroundings.files.node? other) ∧
      outcome.standardOutput = [] := by
  intro outcome
  obtain ⟨output, files⟩ := @close_of_enclosed toolkit surroundings _ _ notes laterNotes
    [.stored place bytes] ended
  have outside := FileTree.outside_of_destination found
  refine ⟨?_, fun other elsewhere => ?_, output⟩
  · rw [files]
    exact FileTree.node?_store_self outside bytes
  · rw [files]
    exact FileTree.node?_store_other _ elsewhere bytes

/-! ### Delivering the result -/

/-- Nothing can be written where a path leads: there is no place for a file, or the file that is
there cannot be opened. -/
def Surroundings.Closed (surroundings : Surroundings) (target : Text) : Prop :=
  (∃ error, surroundings.files.destination (.ofText target) = .error error) ∨
    ∃ place reason, surroundings.files.destination (.ofText target) = .ok place ∧
      surroundings.fate place = .refused reason

/-- What the writing of a result can come to. -/
inductive Writing (environment : Environment) (target document : Text) : Course Unit → Prop where
  | printed (isDash : target = dash) :
      Writing environment target document ⟨[environment.resultOf document], .ok ()⟩
  | stored {place : List Text} (noDash : target ≠ dash)
      (found : environment.files.destination (.ofText target) = .ok place)
      (kept : environment.fate place = .kept) :
      Writing environment target document ⟨[.stored place (Text.encode document)], .ok ()⟩
  | cut {place : List Text} {count : Nat} {reason message : Text} {note : Effect}
      (noDash : target ≠ dash)
      (found : environment.files.destination (.ofText target) = .ok place)
      (isCut : environment.fate place = .cut count reason) (isNote : note.IsNote) :
      Writing environment target document
        ⟨[.stored place ((Text.encode document).take count), note],
          .error (.error .accessError message)⟩
  | failed {notes : List Effect} {stop : Stop} (noDash : target ≠ dash)
      (closed : environment.Closed target) (areNotes : ∀ effect ∈ notes, effect.IsNote)
      (status : ∀ number, stop.status number = .accessError ∨ stop.status number = .failure) :
      Writing environment target document ⟨notes, .error stop⟩

theorem writing_writeTarget (environment : Environment) (target document : Text) :
    Writing environment target document (writeTarget environment target document) := by
  have told (text : Text) :
      ∀ effect ∈ [noteOf environment.toolkit environment.toSurroundings environment.color text],
        effect.IsNote :=
    List.forall_mem_singleton.mpr (isNote_noteOf _ _ _ _)
  unfold writeTarget
  split
  · rename_i isDash
    exact .printed isDash
  · rename_i noDash
    split
    · rename_i place found
      unfold writePlace
      split
      · rename_i kept
        exact .stored noDash found kept
      · rename_i reason refused
        exact .failed noDash (.inr ⟨place, reason, found, refused⟩) (told _) fun _ => .inl rfl
      · rename_i count reason isCut
        exact .cut noDash found isCut (isNote_noteOf _ _ _ _)
    · rename_i fails
      exact .failed noDash (.inl ⟨_, fails⟩) (told _) fun _ => .inl rfl
    · rename_i fails
      exact .failed noDash (.inl ⟨_, fails⟩) (List.forall_mem_nil _) fun _ => .inr rfl

/-- What becomes of a result. -/
inductive Delivered (environment : Environment) (parcel : Parcel) (outcome : Outcome) : Prop where
  /-- It is printed, as far as its codes for a terminal are shown, and all files are as they were. -/
  | printed (isDash : parcel.target = dash)
      (output : outcome.standardOutput = environment.toolkit.echo environment.color
        environment.outputIsTerminal parcel.document)
      (unchanged : outcome.files = environment.files) (status : outcome.status = parcel.status)
      (noCrash : outcome.crash = none)
  /-- It stands in one file, all other files are as they were, and nothing is printed. -/
  | stored {place : List Text} (noDash : parcel.target ≠ dash)
      (found : environment.files.destination (.ofText parcel.target) = .ok place)
      (kept : environment.fate place = .kept)
      (content : outcome.files.node? place = some (.file (Text.encode parcel.document)))
      (others : ∀ other, other ≠ place → outcome.files.node? other = environment.files.node? other)
      (silent : outcome.standardOutput = []) (status : outcome.status = parcel.status)
      (noCrash : outcome.crash = none)
  /-- The writing failed half way: a part of it stands in one file, and all other files are as they
  were. -/
  | cut {place : List Text} {count : Nat} {reason : Text} (noDash : parcel.target ≠ dash)
      (found : environment.files.destination (.ofText parcel.target) = .ok place)
      (isCut : environment.fate place = .cut count reason)
      (content : outcome.files.node? place =
        some (.file ((Text.encode parcel.document).take count)))
      (others : ∀ other, other ≠ place → outcome.files.node? other = environment.files.node? other)
      (silent : outcome.standardOutput = []) (status : outcome.status = .accessError)
  /-- It cannot be written, and all files are as they were. -/
  | failed (noDash : parcel.target ≠ dash) (closed : environment.Closed parcel.target)
      (silent : outcome.standardOutput = []) (unchanged : outcome.files = environment.files)
      (status : outcome.status = .accessError ∨ outcome.status = .failure)

theorem delivered_close (environment : Environment) (parcel : Parcel) {notes : List Effect}
    (areNotes : ∀ effect ∈ notes, effect.IsNote) :
    Delivered environment parcel (Course.close environment.toolkit environment.toSurroundings
      ((Journal.writeAll notes).andThen fun _ => deliver environment parcel)) := by
  have later := isNote_of_mem_report environment parcel.diagnostics
  have writing := writing_writeTarget environment parcel.target parcel.document
  rw [deliver]
  generalize writeTarget environment parcel.target parcel.document = course at writing ⊢
  cases writing with
  | printed isDash =>
    obtain ⟨output, files⟩ := close_of_enclosed areNotes later _ (.ok parcel.status)
    exact .printed isDash (output.trans (List.append_nil _)) files rfl rfl
  | stored noDash found kept =>
    obtain ⟨content, others, output⟩ := close_of_stored areNotes later found _ (.ok parcel.status)
    exact .stored noDash found kept content others output rfl rfl
  | @cut place count reason message note noDash found isCut isNote =>
    have noted : ∀ effect ∈ [note], effect.IsNote := List.forall_mem_singleton.mpr isNote
    obtain ⟨content, others, output⟩ :=
      close_of_stored areNotes noted found _ (.error (.error .accessError message))
    exact .cut noDash found isCut content others output rfl
  | @failed told stop noDash closed areTold status =>
    obtain ⟨output, files⟩ := close_of_enclosed areNotes areTold [] (.error stop)
    exact .failed noDash closed output files (status environment.toolkit.misuseStatus)

/-- The result of a draft is delivered. -/
theorem Draft.delivered {toolkit : Toolkit} {call : Call} (draft : Draft toolkit call)
    {parcel : Parcel} (makes : draft.Makes parcel) :
    Delivered draft.environment parcel (run toolkit call) := by
  obtain ⟨notes, areNotes, course⟩ := draft.exists_program_eq makes
  rw [run, course]
  exact delivered_close draft.environment parcel areNotes

namespace Draft

variable {toolkit : Toolkit} {call : Call} (draft : Draft toolkit call)

/-- Only one option of the program has to do with colors. -/
theorem color_eq : draft.environment.color =
    if draft.programSettings.noColor then some false else none := by
  have prepared := draft.prepared
  unfold prepare at prepared
  split at prepared
  · cases prepared
  · rename_i view viewed
    split at prepared
    · cases prepared
    · rename_i threshold _
      obtain ⟨verbosity, -, rfl⟩ := Option.map_eq_some_iff.mp viewed
      have same : Manner.mk _ _ = draft.manner := Except.ok.inj (congrArg Journal.outcome prepared)
      rw [environment, Call.environment, ← same]

/-- What is printed of a text is the text itself if a terminal may show its codes, or if it has
none. -/
theorem echo_eq_self_iff (conforms : toolkit.Conforms) (text : Text) :
    toolkit.echo draft.environment.color call.outputIsTerminal text = text ↔
      (call.outputIsTerminal ∧ draft.programSettings.noColor = false) ∨
        ∀ code, toolkit.IsCode code → ¬code <:+: text := by
  rw [draft.color_eq, ← conforms.echo_eq_self_iff]
  cases draft.programSettings.noColor with
  | true => simp [conforms.echo_plain]
  | false =>
    cases call.outputIsTerminal with
    | true => simp [conforms.echo_terminal]
    | false => simp

end Draft

/-! ### Calls that come to no result -/

section Calls

variable {toolkit : Toolkit} {call : Call}

/-- Help is asked for neither of the program nor of the command. -/
def Call.NoHelp (toolkit : Toolkit) (call : Call) : Prop :=
  call.reading toolkit ≠ .help ∧ ∀ settings arguments, call.Asks toolkit settings arguments →
    call.readExpand toolkit arguments ≠ .help

theorem close_of_notes {surroundings : Surroundings} {course : Course Status}
    (notes : ∀ effect ∈ course.entries, effect.IsNote) :
    (course.close toolkit surroundings).files = surroundings.files ∧
      (course.close toolkit surroundings).standardOutput = [] :=
  ⟨foldl_apply_of_notes notes _, printedIn_of_notes notes⟩

/-- Unless help is asked for, nothing but notes comes of the arguments of the command. -/
theorem isNote_of_mem_prepack (manner : Manner) {arguments : List Text}
    (noHelp : call.readExpand toolkit arguments ≠ .help) :
    ∀ effect ∈ (prepack (call.environment toolkit manner) Subcommand.expand.path arguments).entries,
      effect.IsNote := by
  rw [prepack_eq]
  cases read : call.readExpand toolkit arguments with
  | settled answers => exact (reserved_pack _ _).notes
  | help => exact absurd read noHelp
  | misuse complaint => exact List.forall_mem_singleton.mpr (isNote_noteOf _ _ _ _)
  | broken breakdown => exact List.forall_mem_nil _

/-- A call without a draft leaves no trace but notes. -/
theorem files_run_of_isEmpty (forExpand : call.ForExpand toolkit) (noHelp : call.NoHelp toolkit)
    (none : IsEmpty (Draft toolkit call)) :
    (run toolkit call).files = call.files ∧ (run toolkit call).standardOutput = [] := by
  rw [run]
  have beginning := beginning_program forExpand
  generalize program toolkit call = course at beginning ⊢
  cases beginning with
  | misused refused => exact close_of_notes (List.forall_mem_singleton.mpr (isNote_noteOf _ _ _ _))
  | help asked => exact absurd asked noHelp.1
  | stopped notes => exact close_of_notes notes
  | @begun settings arguments manner asks prepared =>
    have notes := isNote_of_mem_prepack manner (noHelp.2 _ _ asks)
    rw [expand_eq]
    cases made : (prepack (call.environment toolkit manner) Subcommand.expand.path
        arguments).outcome with
    | error stop =>
      rw [Journal.andThen_of_error made]
      exact close_of_notes notes
    | ok parcel =>
      obtain ⟨draft, -⟩ := Draft.exists_of_prepack asks prepared made
      exact none.elim draft

end Calls

/-! ### The effects of a call -/

/-- A call that does not come to a result changes no file and prints nothing on the standard output.
Any other call delivers its result to the one place where it is to go, and there is always a result.
A result that is printed comes out as it is if and only if a terminal shows it and colors are not
ruled out, or no part of it is a code for a terminal. The options of the program do not change the
result, the files and the status, but only how much is shown of the diagnostics, and with which
codes. -/
theorem effects_of_run (toolkit : Toolkit) (conforms : toolkit.Conforms) (call : Call)
    (forExpand : call.ForExpand toolkit) (noHelp : call.NoHelp toolkit) :
    (IsEmpty (Draft toolkit call) →
      (run toolkit call).files = call.files ∧ (run toolkit call).standardOutput = []) ∧
    (∀ draft : Draft toolkit call, ∃ parcel, draft.Makes parcel ∧
      Delivered draft.environment parcel (run toolkit call) ∧
      (parcel.target = dash → ((run toolkit call).standardOutput = parcel.document ↔
        (call.outputIsTerminal ∧ draft.programSettings.noColor = false) ∨
          ∀ code, toolkit.IsCode code → ¬code <:+: parcel.document))) ∧
    ∀ others settings settings' view view' arguments, call.Asks toolkit settings arguments →
      Call.Asks toolkit { call with arguments := others } settings' arguments →
      settings.view? = some view → settings'.view? = some view' →
      Reshown toolkit call.toSurroundings view view' (run toolkit call)
        (run toolkit { call with arguments := others }) := by
  refine ⟨files_run_of_isEmpty forExpand noHelp, fun draft => ?_, ?_⟩
  · obtain ⟨parcel, makes⟩ := draft.exists_makes
    have delivered := draft.delivered makes
    refine ⟨parcel, makes, delivered, fun isDash => ?_⟩
    cases delivered with
    | printed _ output =>
      rw [output]
      exact draft.echo_eq_self_iff conforms parcel.document
    | stored noDash => exact absurd isDash noDash
    | cut noDash => exact absurd isDash noDash
    | failed noDash => exact absurd isDash noDash
  · intro others settings settings' view view' arguments asks asks' viewed viewed'
    exact reshown_run conforms asks asks' viewed viewed'

/-- Two calls that write the same file: one shows more diagnostics, the other one is quiet. -/
theorem effects_of_run_of_file :
    let wordsWith (options : List String) : List Text :=
      (options ++ ["expand", "-o", "out"]).map String.toList
    let call : Call := { arguments := wordsWith ["-v"], input := .ok "@bold(x)@no".toList }
    Tools.standard.Conforms ∧ call.ForExpand Tools.standard ∧ call.NoHelp Tools.standard ∧
      (∃ (draft : Draft Tools.standard call) (parcel : Parcel), draft.Makes parcel ∧
        parcel.target = "out".toList ∧
        Delivered draft.environment parcel (run Tools.standard call)) ∧
      Reshown Tools.standard call.toSurroundings ⟨2, none⟩ ⟨0, some false⟩ (run Tools.standard call)
        (run Tools.standard { call with arguments := wordsWith ["--no-color", "-qq"] }) := by
  intro wordsWith call
  let words : List Text := ["-o".toList, "out".toList]
  obtain ⟨answers, loud, viewed⟩ : ∃ answers,
      call.reading Tools.standard = .settled (answers, some (.expand, words)) ∧
        (ProgramSettings.ofAnswers answers).view? = some ⟨2, none⟩ := ⟨_, rfl, rfl⟩
  obtain ⟨others, quiet, viewed'⟩ : ∃ answers,
      Call.reading Tools.standard { call with arguments := wordsWith ["--no-color", "-qq"] } =
          .settled (answers, some (.expand, words)) ∧
        (ProgramSettings.ofAnswers answers).view? = some ⟨0, some false⟩ := ⟨_, rfl, rfl⟩
  obtain ⟨settled, read, made⟩ : ∃ settled,
      call.readExpand Tools.standard words = .settled settled ∧
        ExpandSettings.ofAnswers settled = { target := "out".toList } := ⟨_, rfl, rfl⟩
  have forExpand : call.ForExpand Tools.standard := Call.forExpand_of_reading loud
  have noHelp : call.NoHelp Tools.standard := by
    refine ⟨fun help => ?_, ?_⟩
    · cases loud.symm.trans help
    · rintro settings arguments ⟨given, other, -⟩ help
      cases loud.symm.trans other
      cases read.symm.trans help
  have asks : call.Asks Tools.standard (.ofAnswers answers) words := ⟨answers, loud, rfl⟩
  obtain ⟨-, delivered, reshown⟩ :=
    effects_of_run Tools.standard Tools.conforms_standard call forExpand noHelp
  refine ⟨Tools.conforms_standard, forExpand, noHelp, ?_,
    reshown _ _ _ _ _ _ asks ⟨others, quiet, rfl⟩ viewed viewed'⟩
  obtain ⟨manner, prepared⟩ : ∃ manner,
      prepare Tools.standard call (.ofAnswers answers) = .done manner := by
    rw [prepare, viewed]
    exact ⟨_, rfl⟩
  let draft : Draft Tools.standard call :=
    { programSettings := .ofAnswers answers, manner, arguments := words, answers := settled
      config := {}, text := "@bold(x)@no".toList, asks, prepared, read
      configured := by rw [made]; rfl
      supplied := by rw [made]; rfl }
  obtain ⟨parcel, makes, isDelivered, -⟩ := delivered draft
  refine ⟨draft, parcel, makes, ?_, isDelivered⟩
  cases makes
  exact congrArg ExpandSettings.target made

/-- A result with a code for a terminal is not printed as it is. -/
theorem standardOutput_run_of_code :
    let text := "\x1b[31mx".toList
    let call : Call := { arguments := ["expand".toList], input := .ok text }
    ∃ (draft : Draft Tools.standard call) (parcel : Parcel), draft.Makes parcel ∧
      parcel.target = dash ∧ parcel.document = text ∧
      (run Tools.standard call).standardOutput = "x".toList ∧
      (run Tools.standard call).standardOutput ≠ parcel.document := by
  intro text call
  obtain ⟨engine, made, expanded⟩ : ∃ engine, Config.engine? {} .collect = .ok engine ∧
      (engine.expand text).outcome = .ok text := ⟨_, rfl, by decide +kernel⟩
  obtain ⟨settled, read, plain⟩ : ∃ settled,
      call.readExpand Tools.standard [] = .settled settled ∧
        ExpandSettings.ofAnswers settled = {} := ⟨_, rfl, rfl⟩
  let draft : Draft Tools.standard call :=
    { programSettings := {}, manner := ⟨⟨1, none⟩, some Log.defaultThreshold⟩, arguments := []
      answers := settled, config := {}, text, asks := ⟨_, rfl, rfl⟩, prepared := rfl, read
      configured := by rw [plain]; rfl
      supplied := by rw [plain]; rfl }
  have printed : (run Tools.standard call).standardOutput = "x".toList := by decide +kernel
  refine ⟨draft, _, .intro made expanded, congrArg ExpandSettings.target plain, rfl, printed, ?_⟩
  rw [printed]
  show "x".toList ≠ text
  decide

end Command

end TagExpansion
