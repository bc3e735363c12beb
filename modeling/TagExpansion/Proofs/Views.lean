import Mathlib.Data.List.Forall2
import TagExpansion.Proofs.Draft

/-
This file compares calls that are made in different views.

How much is shown of the diagnostics, and whether texts may have codes for a terminal, is settled by
the options of the program. Colors are asked for wherever something is printed, and the verbosity
only when the result is there. So two calls with different options of the program do the same, one
thing after the other, and print the same texts; what is shown of a text can differ in its codes, and
at the end one of them may show more diagnostics than the other one.
-/

namespace TagExpansion.Command

/-! ### What effects come to -/

/-- What some effects put on the standard output. -/
def printedIn (effects : List Effect) : Text :=
  effects.flatMap fun effect => match effect with
    | .result text => text
    | _ => []

theorem printedIn_append (front back : List Effect) :
    printedIn (front ++ back) = printedIn front ++ printedIn back :=
  List.flatMap_append

theorem printedIn_of_notes {effects : List Effect} (notes : ∀ effect ∈ effects, effect.IsNote) :
    printedIn effects = [] := by
  refine List.flatMap_eq_nil_iff.mpr fun effect member => ?_
  have note := notes effect member
  cases effect with
  | result text => exact note.elim
  | note text => rfl
  | stored place bytes => exact note.elim

theorem foldl_apply_of_notes {effects : List Effect} (notes : ∀ effect ∈ effects, effect.IsNote)
    (files : FileTree) : effects.foldl Effect.apply files = files := by
  induction effects with
  | nil => rfl
  | cons effect others inductionHypothesis =>
    rw [List.forall_mem_cons] at notes
    rw [List.foldl_cons]
    cases effect with
    | result text => exact notes.1.elim
    | note text => exact inductionHypothesis notes.2
    | stored place bytes => exact notes.1.elim

/-- Notes at the end of a call change nothing but what is printed on the standard error output. -/
theorem close_append_of_notes {toolkit : Toolkit} {surroundings : Surroundings} {after : List Effect}
    (notes : ∀ effect ∈ after, effect.IsNote) (effects : List Effect) (ended : Except Stop Status) :
    let outcome := Course.close toolkit surroundings ⟨effects ++ after, ended⟩
    outcome.standardOutput = printedIn effects ∧
      outcome.files = effects.foldl Effect.apply surroundings.files := by
  constructor
  · show printedIn (effects ++ after) = _
    rw [printedIn_append, printedIn_of_notes notes, List.append_nil]
  · show (effects ++ after).foldl Effect.apply surroundings.files = _
    rw [List.foldl_append, foldl_apply_of_notes notes]

/-! ### How much is shown, and how -/

section View

variable (toolkit : Toolkit) (surroundings : Surroundings) (color color' : Option Bool)

/-- Two effects that are the same, or print the same text with different colors settled. -/
inductive Alike : Effect → Effect → Prop where
  | same (effect : Effect) : Alike effect effect
  | result (text : Text) :
      Alike (resultOf toolkit surroundings color text) (resultOf toolkit surroundings color' text)
  | note (text : Text) :
      Alike (noteOf toolkit surroundings color text) (noteOf toolkit surroundings color' text)

/-- Two courses that come to the same, with effects that are alike. -/
structure Resembles {α : Type} (course course' : Course α) : Prop where
  entries : List.Forall₂ (Alike toolkit surroundings color color') course.entries course'.entries
  outcome : course.outcome = course'.outcome

variable {toolkit surroundings color color'}

theorem Resembles.of_eq {α : Type} {course course' : Course α} (same : course = course') :
    Resembles toolkit surroundings color color' course course' := by
  rw [same]
  exact ⟨List.forall₂_same.mpr fun effect _ => .same effect, rfl⟩

/-- What was read from arguments makes courses that are alike in all colors. -/
theorem Resembles.course {α : Type} (page : Text) (reading : Reading α) :
    Resembles toolkit surroundings color color' (reading.course toolkit surroundings color page)
      (reading.course toolkit surroundings color' page) := by
  cases reading with
  | settled value => exact .of_eq rfl
  | help => exact ⟨.cons (.result _) .nil, rfl⟩
  | misuse complaint => exact ⟨.cons (.note _) .nil, rfl⟩
  | broken breakdown => exact .of_eq rfl

theorem Resembles.andThen {α β : Type} {first first' : Course α} {next next' : α → Course β}
    (before : Resembles toolkit surroundings color color' first first')
    (after : ∀ value, Resembles toolkit surroundings color color' (next value) (next' value)) :
    Resembles toolkit surroundings color color' (first.andThen next) (first'.andThen next') := by
  cases ended : first.outcome with
  | ok value =>
    rw [Journal.andThen_of_ok ended, Journal.andThen_of_ok (before.outcome.symm.trans ended)]
    exact ⟨List.rel_append before.entries (after value).entries, (after value).outcome⟩
  | error stop =>
    rw [Journal.andThen_of_error ended, Journal.andThen_of_error (before.outcome.symm.trans ended)]
    exact ⟨before.entries, rfl⟩

end View

/-- The environment with another view. -/
def Environment.seen (environment : Environment) (view : View) : Environment :=
  { environment with toView := view }

section Environment

variable (environment : Environment) (view view' : View)

/-- The same in two views, as far as colors are concerned. -/
abbrev Resembling {α : Type} (course : Environment → Course α) : Prop :=
  Resembles environment.toolkit environment.toSurroundings view.color view'.color
    (course (environment.seen view)) (course (environment.seen view'))

theorem resembling_fail {α : Type} (status : Status) (message : Text) :
    Resembling environment view view' fun seen => (seen.fail status message : Course α) :=
  ⟨.cons (.note _) .nil, rfl⟩

theorem resembling_read (interface : Interface) (path : Text) (arguments : List Text) :
    Resembling environment view view' fun seen => seen.read interface path arguments :=
  .course _ _

theorem resembling_resolveConfig (settings : ExpandSettings) :
    Resembling environment view view' fun seen => resolveConfig seen settings := by
  refine (Resembles.of_eq rfl).andThen fun paths => ?_
  refine (Resembles.of_eq rfl).andThen fun layer => ?_
  show Resembles _ _ _ _ (if layer.freeze.errors.isEmpty then _ else _)
    (if layer.freeze.errors.isEmpty then _ else _)
  split
  · exact .of_eq rfl
  · exact resembling_fail environment view view' _ _

theorem resembling_readSource (source : Text) :
    Resembling environment view view' fun seen => readSource seen source := by
  simp only [Resembling, readSource, Environment.seen]
  split
  · exact .of_eq rfl
  · split
    · exact .of_eq rfl
    · split <;> exact resembling_fail environment view view' _ _
    · exact resembling_fail environment view view' _ _
    · exact .of_eq rfl

theorem resembling_pack (settings : ExpandSettings) :
    Resembling environment view view' fun seen => pack seen settings := by
  refine (resembling_resolveConfig environment view view' settings).andThen fun config => ?_
  refine (Resembles.of_eq rfl).andThen fun _ => ?_
  refine (Resembles.of_eq rfl).andThen fun engine => ?_
  refine (resembling_readSource environment view view' settings.source).andThen fun text => ?_
  exact .of_eq rfl

theorem resembling_prepack (path : Text) (arguments : List Text) :
    Resembling environment view view' fun seen => prepack seen path arguments :=
  (resembling_read environment view view' expandInterface path arguments).andThen fun answers =>
    resembling_pack environment view view' (.ofAnswers answers)

theorem resembling_writeTarget (target document : Text) :
    Resembling environment view view' fun seen => writeTarget seen target document := by
  simp only [Resembling, writeTarget, Environment.seen]
  split
  · exact ⟨.cons (.result _) .nil, rfl⟩
  · split
    · rename_i place found
      simp only [writePlace]
      split
      · exact .of_eq rfl
      · exact resembling_fail environment view view' _ _
      · exact (Resembles.of_eq rfl).andThen fun _ => resembling_fail environment view view' _ _
    · exact resembling_fail environment view view' _ _
    · exact .of_eq rfl

end Environment

/-- Two outcomes of which one shows more of the diagnostics, or leaves codes for a terminal in what
it prints where the other one takes them out. What is shown at a lower verbosity is among what is
shown at a higher one, in the same order. -/
structure Reshown (toolkit : Toolkit) (surroundings : Surroundings) (view view' : View)
    (outcome outcome' : Outcome) : Prop where
  status : outcome.status = outcome'.status
  crash : outcome.crash = outcome'.crash
  files : outcome.files = outcome'.files
  standardOutput : view.color = view'.color ∨ surroundings.outputIsTerminal = false →
    outcome.standardOutput = outcome'.standardOutput
  effects : ∃ before before' diagnostics after,
    List.Forall₂ (Alike toolkit surroundings view.color view'.color) before before' ∧
    outcome.effects = before ++ ((shownAt view.verbosity diagnostics).map
      (diagnosticEffect toolkit surroundings view.color) ++ after) ∧
    outcome'.effects = before' ++ ((shownAt view'.verbosity diagnostics).map
      (diagnosticEffect toolkit surroundings view'.color) ++ after) ∧
    (view.verbosity ≤ view'.verbosity →
      (shownAt view.verbosity diagnostics).Sublist (shownAt view'.verbosity diagnostics))

theorem shownAt_sublist {verbosity verbosity' : Int} (less : verbosity ≤ verbosity')
    (diagnostics : List Diagnostic) :
    (shownAt verbosity diagnostics).Sublist (shownAt verbosity' diagnostics) :=
  List.monotone_filter_right diagnostics fun _ shown =>
    decide_eq_true ((of_decide_eq_true shown).trans less)

section Reshown

variable {toolkit : Toolkit} {surroundings : Surroundings}

theorem foldl_apply_of_alike {color color' : Option Bool} {effects effects' : List Effect}
    (alike : List.Forall₂ (Alike toolkit surroundings color color') effects effects')
    (files : FileTree) :
    effects.foldl Effect.apply files = effects'.foldl Effect.apply files := by
  induction alike generalizing files with
  | nil => rfl
  | cons first _ inductionHypothesis =>
    rw [List.foldl_cons, List.foldl_cons, inductionHypothesis]
    cases first <;> rfl

/-- Where no terminal shows the standard output, or colors are settled in the same way, the same is
printed on it. -/
theorem printedIn_of_alike {color color' : Option Bool} {effects effects' : List Effect}
    (alike : List.Forall₂ (Alike toolkit surroundings color color') effects effects')
    (agree : ∀ text, resultOf toolkit surroundings color text =
      resultOf toolkit surroundings color' text) : printedIn effects = printedIn effects' := by
  induction alike with
  | nil => rfl
  | @cons effect effect' others others' first _ inductionHypothesis =>
    show printedIn ([effect] ++ others) = printedIn ([effect'] ++ others')
    rw [printedIn_append, printedIn_append, inductionHypothesis]
    cases first with
    | same => rfl
    | result text => rw [agree]
    | note text => rfl

/-- Two views print the same, unless a terminal shows it and only one of them rules out colors. -/
def PrintAlike (toolkit : Toolkit) (surroundings : Surroundings) (view view' : View) : Prop :=
  view.color = view'.color ∨ surroundings.outputIsTerminal = false → ∀ text,
    resultOf toolkit surroundings view.color text = resultOf toolkit surroundings view'.color text

variable {view view' : View}

/-- A view that the options of the program ask for does not ask for colors. -/
theorem color_of_view? {settings : ProgramSettings}
    (viewed : settings.view? = some view) : view.color = none ∨ view.color = some false := by
  obtain ⟨verbosity, -, rfl⟩ := Option.map_eq_some_iff.mp viewed
  dsimp only
  split
  · exact .inr rfl
  · exact .inl rfl

theorem printAlike_of_view? (conforms : toolkit.Conforms) {settings settings' : ProgramSettings}
    (viewed : settings.view? = some view) (viewed' : settings'.view? = some view') :
    PrintAlike toolkit surroundings view view' := by
  intro plain text
  obtain same | noTerminal := plain
  · rw [same]
  · have echoed {settings : ProgramSettings} {view : View} (viewed : settings.view? = some view) :
        toolkit.echo view.color false text = toolkit.echo none false text := by
      obtain unsettled | ruledOut := color_of_view? viewed
      · rw [unsettled]
      · rw [ruledOut, conforms.echo_plain]
    rw [resultOf, resultOf, noTerminal, echoed viewed, echoed viewed']

/-- Two courses that are alike but for the diagnostics they show. -/
theorem reshown_close (agree : PrintAlike toolkit surroundings view view') {before before' : List Effect}
    (alike : List.Forall₂ (Alike toolkit surroundings view.color view'.color) before before')
    (diagnostics : List Diagnostic) {after : List Effect}
    (notes : ∀ effect ∈ after, effect.IsNote) (ended : Except Stop Status) :
    Reshown toolkit surroundings view view'
      (Course.close toolkit surroundings ⟨before ++ ((shownAt view.verbosity diagnostics).map
        (diagnosticEffect toolkit surroundings view.color) ++ after), ended⟩)
      (Course.close toolkit surroundings ⟨before' ++ ((shownAt view'.verbosity diagnostics).map
        (diagnosticEffect toolkit surroundings view'.color) ++ after), ended⟩) := by
  have shown (color : Option Bool) (some : List Diagnostic) : ∀ effect ∈
      some.map (diagnosticEffect toolkit surroundings color) ++ after, effect.IsNote := by
    refine List.forall_mem_append.mpr ⟨fun effect member => ?_, notes⟩
    obtain ⟨diagnostic, -, rfl⟩ := List.mem_map.mp member
    trivial
  obtain ⟨output, files⟩ :=
    close_append_of_notes (shown view.color (shownAt view.verbosity diagnostics)) before ended
  obtain ⟨output', files'⟩ :=
    close_append_of_notes (shown view'.color (shownAt view'.verbosity diagnostics)) before' ended
  refine ⟨rfl, rfl, ?_, fun plain => ?_, before, before', diagnostics, after, alike, rfl, rfl,
    fun less => shownAt_sublist less diagnostics⟩
  · exact files.trans ((foldl_apply_of_alike alike _).trans files'.symm)
  · exact output.trans ((printedIn_of_alike alike (agree plain)).trans output'.symm)

/-- Two courses that are alike and show no diagnostics. -/
theorem reshown_of_resembles (agree : PrintAlike toolkit surroundings view view')
    {course course' : Course Status}
    (resembles : Resembles toolkit surroundings view.color view'.color course course') :
    Reshown toolkit surroundings view view' (course.close toolkit surroundings)
      (course'.close toolkit surroundings) := by
  obtain ⟨entries, outcome⟩ := course
  obtain ⟨entries', outcome'⟩ := course'
  obtain ⟨alike, rfl⟩ := resembles
  have closed := reshown_close agree alike [] (List.forall_mem_nil _) outcome
  simpa [shownAt] using closed

end Reshown

/-- Nothing but the diagnostics shown depends on the view, apart from colors. -/
theorem reshown_expand (environment : Environment) (view view' : View)
    (agree : PrintAlike environment.toolkit environment.toSurroundings view view') (path : Text)
    (arguments : List Text) :
    Reshown environment.toolkit environment.toSurroundings view view'
      ((expand (environment.seen view) path arguments).close environment.toolkit
        environment.toSurroundings)
      ((expand (environment.seen view') path arguments).close environment.toolkit
        environment.toSurroundings) := by
  have made := resembling_prepack environment view view' path arguments
  rw [expand_eq, expand_eq]
  cases packed : (prepack (environment.seen view) path arguments).outcome with
  | error stop =>
    have packed' := made.outcome.symm.trans packed
    rw [Journal.andThen_of_error packed, Journal.andThen_of_error packed']
    exact reshown_of_resembles agree ⟨made.entries, rfl⟩
  | ok parcel =>
    have packed' := made.outcome.symm.trans packed
    have written := resembling_writeTarget environment view view' parcel.target parcel.document
    rw [Journal.andThen_of_ok packed, Journal.andThen_of_ok packed', deliver, deliver]
    cases ended : (writeTarget (environment.seen view) parcel.target parcel.document).outcome with
    | error stop =>
      rw [Journal.andThen_of_error ended, Journal.andThen_of_error (written.outcome.symm.trans ended)]
      exact reshown_of_resembles agree ⟨List.rel_append made.entries written.entries, rfl⟩
    | ok _ =>
      rw [Journal.andThen_of_ok ended, Journal.andThen_of_ok (written.outcome.symm.trans ended)]
      have notes : ∀ effect ∈ environment.logEffects (summaryEntry parcel.diagnostics),
          effect.IsNote := isNote_of_mem_logEffects environment
      have closed := reshown_close agree (List.rel_append made.entries written.entries)
        parcel.diagnostics notes (.ok parcel.status)
      rw [List.append_assoc, List.append_assoc] at closed
      exact closed

theorem reshown_run (conforms : toolkit.Conforms) {call : Call} {others : List Text}
    {settings settings' : ProgramSettings} {view view' : View} {arguments : List Text}
    (asks : call.Asks toolkit settings arguments)
    (asks' : Call.Asks toolkit { call with arguments := others } settings' arguments)
    (viewed : settings.view? = some view) (viewed' : settings'.view? = some view') :
    Reshown toolkit call.toSurroundings view view' (run toolkit call)
      (run toolkit { call with arguments := others }) := by
  have agree : PrintAlike toolkit call.toSurroundings view view' :=
    printAlike_of_view? conforms viewed viewed'
  rw [run, run, program_of_asks asks, program_of_asks asks', prepare, prepare, viewed, viewed']
  dsimp only
  cases Log.readThreshold call.logLevel with
  | error error => exact reshown_of_resembles agree (.of_eq rfl)
  | ok threshold =>
    exact reshown_expand (call.environment toolkit
      ⟨view, some (threshold.getD Log.defaultThreshold)⟩) view view' agree _ arguments

end TagExpansion.Command
