import Mathlib
import TagExpansion.Engine.Basic
import TagExpansion.Proofs.Template

/-
This file says which reports cannot be told.

A report is a template with arguments, and what a template makes of its arguments can go wrong in
two ways. That they do not fit is foreseen: the template is then shown with the arguments behind it.
But a number can also be too large for what the template does with it: for a code point, for a
width or a precision, for an integer with so many digits, for a number with a fraction. This is not
foreseen, and the report fails. It fails, too, where the arguments do not fit and one of them has an
integer in it that is too long to be written down.

The first large number on the way through the template decides. What comes before it has been
filled, so a large number behind a misfit does no harm.
-/

namespace TagExpansion

namespace Template

/-! ### Failures of a sequence -/

section

variable {ε α β : Type} {first : Except ε α} {failure : ε}

theorem bind_eq_error_iff {next : α → Except ε β} :
    first >>= next = .error failure ↔
      first = .error failure ∨ ∃ value, first = .ok value ∧ next value = .error failure := by
  cases first with
  | ok value => simp [bind, Except.bind]
  | error other => simp [bind, Except.bind]

theorem map_eq_error_iff {change : α → β} :
    change <$> first = .error failure ↔ first = .error failure := by
  cases first with
  | ok value => simp [Functor.map, Except.map]
  | error other => simp [Functor.map, Except.map]

end

variable {bound : Int} {cause cause' : Overflow} {extent : Option Extent} {argument : Value}
  {arguments : List Value} {layout : Layout} {form : Char}

/-! ### One argument -/

/-- An argument stands for a number that is too large for the form in which it is shown. -/
inductive TooLarge (precision : Option Nat) : Char → Value → Overflow → Prop where
  /-- There is no such code point. -/
  | character {argument : Value} {code : Int} (stands : integer? argument = some code)
      (outside : code < 0 ∨ 0x110000 ≤ code) : TooLarge precision 'c' argument .character
  /-- An infinite number has no integer part. -/
  | infinite {form : Char} {number : Double} {negative : Bool} (isForm : form ∈ ['d', 'i', 'u'])
      (isInfinite : number.reading = .infinite negative) :
      TooLarge precision form (.real number) .infinite
  /-- So many digits are too many for an integer part. -/
  | decimal {form : Char} {argument : Value} {whole : Int} (isForm : form ∈ ['d', 'i', 'u'])
      (stands : wholeNumber argument = .ok whole) (exceeds : maxDigits < precision.getD 0) :
      TooLarge precision form argument .digits
  /-- So many digits are too many for an integer. -/
  | based {form : Char} {argument : Value} {whole : Int} (isForm : form ∈ ['o', 'x', 'X'])
      (stands : integer? argument = some whole) (exceeds : maxDigits < precision.getD 0) :
      TooLarge precision form argument .digits
  /-- The number with a fraction that is nearest to an integer is infinite. -/
  | fraction {form : Char} {argument : Value} {whole : Int} {negative : Bool}
      (isForm : form ∈ ['e', 'E', 'f', 'F', 'g', 'G']) (stands : integer? argument = some whole)
      (isInfinite : (Double.ofDecimal (whole < 0) whole.natAbs 0).reading = .infinite negative) :
      TooLarge precision form argument .fraction

theorem ite_eq_overflow_iff {α : Type} {condition : Prop} [Decidable condition] {value : α} :
    (if condition then Except.error (.overflow cause') else .ok value) =
      (.error (.overflow cause) : Except Failure α) ↔ cause = cause' ∧ condition := by
  split
  · simp_all [eq_comm]
  · simp_all

theorem exactInteger_eq_ok_iff {whole : Int} :
    exactInteger argument = .ok whole ↔ integer? argument = some whole := by
  unfold exactInteger
  split
  · simp_all
  · simp_all

theorem exactInteger_ne_overflow : exactInteger argument ≠ .error (.overflow cause) := by
  unfold exactInteger
  split
  · nofun
  · nofun

theorem showText_ne_overflow {text : Value → Text} :
    showText layout text argument ≠ .error (.overflow cause) := by
  unfold showText
  split
  · nofun
  · nofun

theorem character_eq_overflow_iff :
    character argument = .error (.overflow cause) ↔
      cause = .character ∧ ∃ code, integer? argument = some code ∧
        (code < 0 ∨ 0x110000 ≤ code) := by
  unfold character
  split
  · rename_i c
    simp [integer?]
  · rw [bind_eq_error_iff, or_iff_right exactInteger_ne_overflow]
    simp only [exactInteger_eq_ok_iff, ite_eq_overflow_iff, Bool.or_eq_true, decide_eq_true_eq]
    exact ⟨fun ⟨code, stands, isCause, large⟩ => ⟨isCause, code, stands, large⟩,
      fun ⟨isCause, code, stands, large⟩ => ⟨code, stands, isCause, large⟩⟩

theorem wholeNumber_eq_overflow_iff :
    wholeNumber argument = .error (.overflow cause) ↔
      cause = .infinite ∧ ∃ number negative, argument = .real number ∧
        number.reading = .infinite negative := by
  cases argument with
  | real number =>
    unfold wholeNumber
    cases isRead : number.reading with
    | finite negative mantissa exponent => simp [isRead, Double.truncate?]
    | infinite negative => simp [isRead, eq_comm]
    | notANumber => simp [isRead, Double.truncate?]
  | _ => simp [wholeNumber, integer?]

theorem showInteger_eq_overflow_iff {decimal : Bool} {whole : Int} :
    showInteger layout form decimal whole = .error (.overflow cause) ↔
      cause = .digits ∧ maxDigits < layout.precision.getD 0 := by
  unfold showInteger
  split
  · simp_all [eq_comm]
  · split
    · simp_all
    · simp_all

theorem nearest_eq_overflow_iff {whole : Int} :
    nearest whole = .error (.overflow cause) ↔
      cause = .fraction ∧ ∃ negative,
        (Double.ofDecimal (whole < 0) whole.natAbs 0).reading = .infinite negative := by
  unfold nearest
  cases isRead : (Double.ofDecimal (whole < 0) whole.natAbs 0).reading with
  | infinite negative => simp [isRead, eq_comm]
  | finite negative mantissa exponent => simp [isRead]
  | notANumber => simp [isRead]

theorem realNumber_eq_overflow_iff :
    realNumber argument = .error (.overflow cause) ↔
      cause = .fraction ∧ ∃ whole negative, integer? argument = some whole ∧
        (Double.ofDecimal (whole < 0) whole.natAbs 0).reading = .infinite negative := by
  unfold realNumber
  split
  · simp [integer?]
  · rw [bind_eq_error_iff, or_iff_right exactInteger_ne_overflow]
    simp only [exactInteger_eq_ok_iff, nearest_eq_overflow_iff]
    exact ⟨fun ⟨whole, stands, isCause, negative, large⟩ =>
        ⟨isCause, whole, negative, stands, large⟩,
      fun ⟨isCause, whole, negative, stands, large⟩ =>
        ⟨whole, stands, isCause, negative, large⟩⟩

theorem showArgument_eq_overflow_iff :
    showArgument layout form argument = .error (.overflow cause) ↔
      TooLarge layout.precision form argument cause := by
  constructor
  · intro failed
    -- The forms in the order in which they are asked for; a text in any form is harmless.
    unfold showArgument at failed
    split at failed
    · exact absurd failed showText_ne_overflow
    split at failed
    · exact absurd failed showText_ne_overflow
    split at failed
    · exact absurd failed showText_ne_overflow
    split at failed
    · rename_i isForm
      obtain ⟨rfl, code, stands, outside⟩ :=
        character_eq_overflow_iff.mp (map_eq_error_iff.mp failed)
      rw [beq_iff_eq.mp isForm]
      exact .character stands outside
    split at failed
    · rename_i isForm
      have isDecimal : form ∈ ['d', 'i', 'u'] := by simpa [or_assoc] using isForm
      rcases bind_eq_error_iff.mp failed with number | ⟨whole, stands, shown⟩
      · obtain ⟨rfl, number, negative, rfl, isInfinite⟩ := wholeNumber_eq_overflow_iff.mp number
        exact .infinite isDecimal isInfinite
      · obtain ⟨rfl, exceeds⟩ := showInteger_eq_overflow_iff.mp shown
        exact .decimal isDecimal stands exceeds
    split at failed
    · rename_i isForm
      have isBased : form ∈ ['o', 'x', 'X'] := by simpa [or_assoc] using isForm
      rcases bind_eq_error_iff.mp failed with number | ⟨whole, stands, shown⟩
      · exact absurd number exactInteger_ne_overflow
      · obtain ⟨rfl, exceeds⟩ := showInteger_eq_overflow_iff.mp shown
        exact .based isBased (exactInteger_eq_ok_iff.mp stands) exceeds
    split at failed
    · rename_i isForm
      obtain ⟨rfl, whole, negative, stands, isInfinite⟩ :=
        realNumber_eq_overflow_iff.mp (map_eq_error_iff.mp failed)
      exact .fraction (List.contains_iff_mem.mp isForm) stands isInfinite
    · cases failed
  · intro tooLarge
    cases tooLarge with
    | character stands outside =>
      exact map_eq_error_iff.mpr (character_eq_overflow_iff.mpr ⟨rfl, _, stands, outside⟩)
    | infinite isForm isInfinite =>
      rw [showArgument_of_decimal isForm, bind_eq_error_iff]
      exact .inl (wholeNumber_eq_overflow_iff.mpr ⟨rfl, _, _, rfl, isInfinite⟩)
    | decimal isForm stands exceeds =>
      rw [showArgument_of_decimal isForm, bind_eq_error_iff]
      exact .inr ⟨_, stands, showInteger_eq_overflow_iff.mpr ⟨rfl, exceeds⟩⟩
    | based isForm stands exceeds =>
      rw [showArgument_of_based isForm, bind_eq_error_iff]
      exact .inr ⟨_, exactInteger_eq_ok_iff.mpr stands,
        showInteger_eq_overflow_iff.mpr ⟨rfl, exceeds⟩⟩
    | fraction isForm stands isInfinite =>
      rw [showArgument_of_fraction isForm, map_eq_error_iff]
      exact realNumber_eq_overflow_iff.mpr ⟨rfl, _, _, stands, isInfinite⟩

/-! ### One directive -/

/-- A width or a precision comes from the arguments, and the number that is next there is out of
bounds. -/
def Extent.Exceeds (bound : Int) (extent : Option Extent) (arguments : List Value) : Prop :=
  extent = some .argument ∧ ∃ argument others size, arguments = argument :: others ∧
    integer? argument = some size ∧ (size < -bound - 1 ∨ bound < size)

theorem resolveExtent_eq_overflow_iff :
    resolveExtent bound cause' extent arguments = .error (.overflow cause) ↔
      cause = cause' ∧ Extent.Exceeds bound extent arguments := by
  unfold resolveExtent
  split
  · simp [Extent.Exceeds]
  · split
    · simp [Extent.Exceeds]
    · simp [Extent.Exceeds]
  · rw [bind_eq_error_iff, or_iff_left (by rintro ⟨_, _, ended⟩; cases ended)]
    cases arguments with
    | nil => simp [takeExtent, next, Extent.Exceeds, bind, Except.bind]
    | cons argument others =>
      cases stands : integer? argument with
      | none => simp [takeExtent, next, Extent.Exceeds, bind, Except.bind, stands]
      | some size =>
        simp only [takeExtent, next, bind, Except.bind, stands, ite_eq_overflow_iff,
          Bool.or_eq_true, decide_eq_true_eq]
        simp [Extent.Exceeds, stands]

/-- A directive comes upon a number that is too large: a width or a precision that is taken from the
arguments, or the argument that it shows. -/
inductive Directive.Overflows (directive : Directive) (arguments : List Value) :
    Overflow → Prop where
  | width (exceeds : Extent.Exceeds maxWidth directive.width arguments) :
      Overflows directive arguments .width
  | precision {width : Option Int} {others : List Value}
      (hasWidth : resolveExtent maxWidth .width directive.width arguments = .ok (width, others))
      (exceeds : Extent.Exceeds maxPrecision directive.precision others) :
      Overflows directive arguments .precision
  | argument {width precision : Option Int} {others rest : List Value} {argument : Value}
      {form : Char} {cause : Overflow}
      (hasWidth : resolveExtent maxWidth .width directive.width arguments = .ok (width, others))
      (hasPrecision : resolveExtent maxPrecision .precision directive.precision others =
        .ok (precision, argument :: rest))
      (hasForm : directive.form = some form)
      (tooLarge : TooLarge (precision.map Int.toNat) form argument cause) :
      Overflows directive arguments cause

theorem showNext_eq_overflow_iff {directive : Directive} {width precision : Option Int} :
    directive.showNext width precision arguments = .error (.overflow cause) ↔
      ∃ form argument rest, directive.form = some form ∧ arguments = argument :: rest ∧
        TooLarge (precision.map Int.toNat) form argument cause := by
  have layout : (directive.flags.layout width precision).precision = precision.map Int.toNat := rfl
  unfold Directive.showNext
  cases hasForm : directive.form with
  | none => simp
  | some form =>
    cases arguments with
    | nil => simp [next, bind, Except.bind]
    | cons argument rest =>
      show showArgument _ form argument >>= _ = _ ↔ _
      rw [bind_eq_error_iff, or_iff_left (by rintro ⟨_, _, ended⟩; cases ended),
        showArgument_eq_overflow_iff, layout]
      simp

theorem fill_eq_overflow_iff {directive : Directive} :
    directive.fill arguments = .error (.overflow cause) ↔
      directive.named = false ∧ directive.Overflows arguments cause := by
  unfold Directive.fill
  dsimp only
  split
  · rename_i named
    exact ⟨nofun, fun ⟨unnamed, _⟩ => absurd (named.symm.trans unnamed) (by decide)⟩
  · rename_i unnamed
    rw [Bool.not_eq_true] at unnamed
    constructor
    · intro failed
      refine ⟨unnamed, ?_⟩
      rcases bind_eq_error_iff.mp failed with first | ⟨⟨width, others⟩, hasWidth, failed⟩
      · obtain ⟨rfl, exceeds⟩ := resolveExtent_eq_overflow_iff.mp first
        exact .width exceeds
      rcases bind_eq_error_iff.mp failed with second | ⟨⟨precision, rest⟩, hasPrecision, failed⟩
      · obtain ⟨rfl, exceeds⟩ := resolveExtent_eq_overflow_iff.mp second
        exact .precision hasWidth exceeds
      obtain ⟨form, argument, left, hasForm, rfl, tooLarge⟩ := showNext_eq_overflow_iff.mp failed
      exact .argument hasWidth hasPrecision hasForm tooLarge
    · rintro ⟨-, overflows⟩
      cases overflows with
      | width exceeds =>
        exact bind_eq_error_iff.mpr (.inl (resolveExtent_eq_overflow_iff.mpr ⟨rfl, exceeds⟩))
      | precision hasWidth exceeds =>
        refine bind_eq_error_iff.mpr (.inr ⟨_, hasWidth, bind_eq_error_iff.mpr (.inl ?_)⟩)
        exact resolveExtent_eq_overflow_iff.mpr ⟨rfl, exceeds⟩
      | argument hasWidth hasPrecision hasForm tooLarge =>
        refine bind_eq_error_iff.mpr (.inr ⟨_, hasWidth,
          bind_eq_error_iff.mpr (.inr ⟨_, hasPrecision, ?_⟩)⟩)
        exact showNext_eq_overflow_iff.mpr ⟨_, _, _, hasForm, rfl, tooLarge⟩

/-! ### A template -/

/-- The first number that is too large for its directive, on the way through the parts of a template
with arguments. All directives in front of it are filled. -/
inductive Overflows : List Part → List Value → Overflow → Prop where
  | literal {c : Char} {rest : List Part} {arguments : List Value} {cause : Overflow}
      (behind : Overflows rest arguments cause) : Overflows (.literal c :: rest) arguments cause
  | here {directive : Directive} {rest : List Part} {arguments : List Value} {cause : Overflow}
      (unnamed : directive.named = false) (overflows : directive.Overflows arguments cause) :
      Overflows (.directive directive :: rest) arguments cause
  | behind {directive : Directive} {rest : List Part} {arguments others : List Value} {text : Text}
      {cause : Overflow} (filled : directive.fill arguments = .ok (text, others))
      (behind : Overflows rest others cause) :
      Overflows (.directive directive :: rest) arguments cause

theorem fillParts_eq_overflow_iff {parts : List Part} :
    fillParts parts arguments = .error (.overflow cause) ↔ Overflows parts arguments cause := by
  constructor
  · -- The arguments become fewer from part to part.
    intro failed
    induction parts generalizing arguments with
    | nil => cases arguments <;> cases failed
    | cons part rest inductionHypothesis =>
      cases part with
      | literal c => exact .literal (inductionHypothesis (map_eq_error_iff.mp failed))
      | directive directive =>
        rcases bind_eq_error_iff.mp failed with first | ⟨⟨text, others⟩, filled, later⟩
        · obtain ⟨unnamed, overflows⟩ := fill_eq_overflow_iff.mp first
          exact .here unnamed overflows
        · rcases bind_eq_error_iff.mp later with behind | ⟨_, _, ended⟩
          · exact .behind filled (inductionHypothesis behind)
          · cases ended
  · intro overflows
    induction overflows with
    | literal behind inductionHypothesis => exact map_eq_error_iff.mpr inductionHypothesis
    | here unnamed overflows =>
      exact bind_eq_error_iff.mpr (.inl (fill_eq_overflow_iff.mpr ⟨unnamed, overflows⟩))
    | behind filled behind inductionHypothesis =>
      exact bind_eq_error_iff.mpr
        (.inr ⟨_, filled, bind_eq_error_iff.mpr (.inl inductionHypothesis)⟩)

end Template

/-! ### Reports -/

namespace Report

variable {template text : Text} {arguments : List Value} {cause : Template.Overflow}

/-- The text of a template with arguments. -/
inductive Tells (template : Text) : List Value → Text → Prop where
  /-- Without arguments the template is the text. -/
  | bare : Tells template [] template
  /-- Arguments that fit are put in. -/
  | filled {arguments : List Value} {text : Text} (given : arguments ≠ [])
      (fits : Template.fill template arguments = .ok text) : Tells template arguments text
  /-- Arguments that do not fit come behind the template. -/
  | misfit {arguments : List Value} (given : arguments ≠ [])
      (misfit : Template.fill template arguments = .error .mismatch)
      (writable : Value.areWritable arguments = true) :
      Tells template arguments (template ++ ' ' :: Value.writtenArguments arguments)

/-- A template with arguments has no text: it comes upon a number that is too large, or the
arguments do not fit and cannot be written down either. -/
inductive Untellable (template : Text) (arguments : List Value) : Template.Overflow → Prop where
  | overflows {cause : Template.Overflow} (given : arguments ≠ [])
      (overflows : Template.Overflows (Template.parts template) arguments cause) :
      Untellable template arguments cause
  | unwritable (given : arguments ≠ [])
      (misfit : Template.fill template arguments = .error .mismatch)
      (unwritable : Value.areWritable arguments = false) : Untellable template arguments .numeral

theorem fillTemplate_of_ne_nil (given : arguments ≠ []) :
    (fillTemplate template arguments).outcome = match Template.fill template arguments with
      | .ok text => .ok text
      | .error (.overflow cause) => .error cause
      | .error .mismatch =>
        if Value.areWritable arguments then
          .ok (template ++ ' ' :: Value.writtenArguments arguments)
        else .error .numeral := by
  rw [fillTemplate, if_neg (by simpa using given)]
  cases Template.fill template arguments with
  | ok text => rfl
  | error failure =>
    cases failure with
    | overflow cause => rfl
    | mismatch =>
      dsimp only
      split
      · rfl
      · rfl

theorem Tells.outcome (tells : Tells template arguments text) :
    (fillTemplate template arguments).outcome = .ok text := by
  cases tells with
  | bare => rfl
  | filled given fits => rw [fillTemplate_of_ne_nil given, fits]
  | misfit given misfit writable =>
    rw [fillTemplate_of_ne_nil given, misfit]
    exact if_pos writable

theorem Untellable.outcome (untellable : Untellable template arguments cause) :
    (fillTemplate template arguments).outcome = .error cause := by
  cases untellable with
  | overflows given overflows =>
    have failed : Template.fill template arguments = .error (.overflow cause) :=
      Template.fillParts_eq_overflow_iff.mpr overflows
    rw [fillTemplate_of_ne_nil given, failed]
  | unwritable given misfit unwritable =>
    rw [fillTemplate_of_ne_nil given, misfit]
    exact if_neg (Bool.not_eq_true _ ▸ unwritable)

theorem tells_or_untellable (template : Text) (arguments : List Value) :
    (∃ text, Tells template arguments text) ∨ ∃ cause, Untellable template arguments cause := by
  by_cases given : arguments = []
  · subst given
    exact .inl ⟨template, .bare⟩
  · cases filled : Template.fill template arguments with
    | ok text => exact .inl ⟨text, .filled given filled⟩
    | error failure =>
      cases failure with
      | overflow cause =>
        exact .inr ⟨cause, .overflows given (Template.fillParts_eq_overflow_iff.mp filled)⟩
      | mismatch =>
        cases writable : Value.areWritable arguments with
        | true => exact .inl ⟨_, .misfit given filled writable⟩
        | false => exact .inr ⟨_, .unwritable given filled writable⟩

theorem outcome_fillTemplate_eq_ok_iff :
    (fillTemplate template arguments).outcome = .ok text ↔ Tells template arguments text := by
  refine ⟨fun ended => ?_, Tells.outcome⟩
  rcases tells_or_untellable template arguments with ⟨other, tells⟩ | ⟨cause, untellable⟩
  · rw [tells.outcome] at ended
    cases ended
    exact tells
  · rw [untellable.outcome] at ended
    cases ended

theorem outcome_fillTemplate_eq_error_iff :
    (fillTemplate template arguments).outcome = .error cause ↔
      Untellable template arguments cause := by
  refine ⟨fun ended => ?_, Untellable.outcome⟩
  rcases tells_or_untellable template arguments with ⟨text, tells⟩ | ⟨other, untellable⟩
  · rw [tells.outcome] at ended
    cases ended
  · rw [untellable.outcome] at ended
    cases ended
    exact untellable

/-- A report fails if its template has no text, and for no other reason. -/
theorem outcome_diagnose_eq_error_iff {report : Report} :
    report.diagnose.outcome = .error cause ↔
      Untellable report.template report.arguments cause := by
  rw [diagnose, Journal.bind_eq_andThen, Journal.outcome_andThen, Template.bind_eq_error_iff,
    or_iff_left (by rintro ⟨_, _, ended⟩; cases ended)]
  exact outcome_fillTemplate_eq_error_iff

theorem outcome_diagnose_mapFailure_eq_error_iff {report : Report} {fault : Fault} :
    (report.diagnose.mapFailure Fault.overflow).outcome = .error fault ↔
      ∃ cause, Untellable report.template report.arguments cause ∧ fault = .overflow cause := by
  rw [Journal.outcome_mapFailure_eq_error_iff]
  simp only [outcome_diagnose_eq_error_iff]

end Report

/-! ### Sinks -/

namespace Sink

/-- A sink fails for the reports that have no text, and for no others. -/
def FailsUntold (sink : Sink) : Prop :=
  ∀ report fault, (sink report).outcome = .error fault ↔
    ∃ cause, Report.Untellable report.template report.arguments cause ∧ fault = .overflow cause

/-- What follows a diagnostic does not fail. -/
theorem outcome_andThen_eq_error_iff {first : Journal Notice Fault Diagnostic}
    {next : Diagnostic → Journal Notice Fault Unit} {fault : Fault}
    (succeeds : ∀ diagnostic, (next diagnostic).outcome = .ok ()) :
    (first.andThen next).outcome = .error fault ↔ first.outcome = .error fault := by
  rw [Journal.outcome_andThen, Template.bind_eq_error_iff, or_iff_left]
  rintro ⟨diagnostic, -, failed⟩
  rw [succeeds diagnostic] at failed
  cases failed

theorem failsUntold_collect : collect.FailsUntold := fun _ _ =>
  (outcome_andThen_eq_error_iff fun _ => rfl).trans Report.outcome_diagnose_mapFailure_eq_error_iff

theorem failsUntold_forward : forward.FailsUntold := fun _ _ =>
  (outcome_andThen_eq_error_iff fun _ => rfl).trans Report.outcome_diagnose_mapFailure_eq_error_iff

end Sink

namespace Capacity

open Report (Tells Untellable)

variable {capacity : Capacity} {template : Text} {arguments : List Value}

/-- What a template with arguments fails with. -/
inductive Fails (capacity : Capacity) (template : Text) (arguments : List Value) :
    Fault → Prop where
  /-- Memory or the stack gives out. -/
  | exhausted {breakdown : Breakdown} (gives : capacity template arguments = some breakdown) :
      Fails capacity template arguments (.exhausted breakdown)
  /-- They are enough, and there is no text. -/
  | untellable {cause : Template.Overflow} (enough : capacity template arguments = none)
      (untellable : Untellable template arguments cause) :
      Fails capacity template arguments (.overflow cause)

theorem outcome_fail_eq_error_iff {ε α : Type} {breakdown : Breakdown} {fault : Fault}
    (gives : capacity template arguments = some breakdown) :
    (.fail (.exhausted breakdown) : Journal ε Fault α).outcome = .error fault ↔
      capacity.Fails template arguments fault := by
  constructor
  · rintro ⟨⟩
    exact .exhausted gives
  · intro fails
    cases fails with
    | exhausted other =>
      cases gives.symm.trans other
      rfl
    | untellable enough => cases gives.symm.trans enough

theorem fails_iff_of_none {fault : Fault} (enough : capacity template arguments = none) :
    capacity.Fails template arguments fault ↔
      ∃ cause, Untellable template arguments cause ∧ fault = .overflow cause := by
  constructor
  · intro fails
    cases fails with
    | exhausted gives => cases enough.symm.trans gives
    | untellable _ untellable => exact ⟨_, untellable, rfl⟩
  · rintro ⟨cause, untellable, rfl⟩
    exact .untellable enough untellable

theorem outcome_fillTemplate_eq_ok_iff {text : Text} :
    (capacity.fillTemplate template arguments).outcome = .ok text ↔
      capacity template arguments = none ∧ Tells template arguments text := by
  unfold fillTemplate
  split
  · rename_i gives
    exact iff_of_false nofun fun ⟨enough, _⟩ => nomatch gives.symm.trans enough
  · rename_i enough
    rw [Journal.outcome_mapFailure_eq_ok_iff, Report.outcome_fillTemplate_eq_ok_iff,
      and_iff_right enough]

theorem outcome_fillTemplate_eq_error_iff {fault : Fault} :
    (capacity.fillTemplate template arguments).outcome = .error fault ↔
      capacity.Fails template arguments fault := by
  unfold fillTemplate
  split
  · rename_i gives
    exact outcome_fail_eq_error_iff gives
  · rename_i enough
    rw [fails_iff_of_none enough, Journal.outcome_mapFailure_eq_error_iff]
    simp only [Report.outcome_fillTemplate_eq_error_iff]

theorem outcome_confine_eq_error_iff {sink : Sink} (fails : sink.FailsUntold) {report : Report}
    {fault : Fault} : (capacity.confine sink report).outcome = .error fault ↔
      capacity.Fails report.template report.arguments fault := by
  unfold confine
  split
  · rename_i gives
    exact outcome_fail_eq_error_iff gives
  · rename_i enough
    rw [fails_iff_of_none enough]
    exact fails report fault

end Capacity

namespace Engine

open Report (Tells)

/-- The engine with another sink and nothing else changed. -/
def withSink (engine : Engine) (sink : Sink) : Engine := { engine with sink }

/-- What becomes of a template with arguments. As far as memory and the stack go, it gives the one
text that it tells, or fails with the one cause for which it tells none, and never both. A report of
it that is handed over fails where memory or the stack gives out and for that cause, and for nothing
else, whether its diagnostic is taken up or sent to the log. -/
theorem outcome_handOver_eq_error_iff (capacity : Capacity) (template : Text)
    (arguments : List Value) :
    (∀ text, (capacity.fillTemplate template arguments).outcome = .ok text ↔
      capacity template arguments = none ∧ Tells template arguments text) ∧
    (∀ fault, (capacity.fillTemplate template arguments).outcome = .error fault ↔
      capacity.Fails template arguments fault) ∧
    ∀ (engine : Engine) (verbosity : Int) (kind : Kind) (fault : Fault),
      (((engine.withSink (capacity.confine .collect)).handOver
          ⟨verbosity, kind, template, arguments⟩).outcome = .error fault ↔
        capacity.Fails template arguments fault) ∧
      (((engine.withSink (capacity.confine .forward)).handOver
          ⟨verbosity, kind, template, arguments⟩).outcome = .error fault ↔
        capacity.Fails template arguments fault) :=
  ⟨fun _ => Capacity.outcome_fillTemplate_eq_ok_iff,
    fun _ => Capacity.outcome_fillTemplate_eq_error_iff, fun _ _ _ _ =>
      ⟨Capacity.outcome_confine_eq_error_iff Sink.failsUntold_collect,
        Capacity.outcome_confine_eq_error_iff Sink.failsUntold_forward⟩⟩

/-- A code point that is too large by one ends an expansion, however much memory there is. -/
theorem outcome_expand_of_code_point :
    let report : Report := ⟨1, .warning, "%c".toList, [.number 0x110000]⟩
    let definition : Tag.Definition := {
      name := "x".toList
      handler := some fun _ _ _ => .report report (.orFail fun _ => .decline) }
    let engine : Engine := {
      tags := Tag.Registry.empty.store definition, sink := Capacity.ample.confine .collect }
    let failure : Fault := .overflow .character
    ¬(∃ text, (Capacity.ample.fillTemplate report.template report.arguments).outcome = .ok text) ∧
      (engine.handOver report).outcome = .error failure ∧
      ((engine.withSink (Capacity.ample.confine .forward)).handOver report).outcome =
        .error failure ∧
      (engine.expand "@x".toList).outcome = .error failure := by
  intro report definition engine failure
  refine ⟨?_, rfl, rfl, by cbv⟩
  rintro ⟨text, told⟩
  cases told

end Engine

end TagExpansion
