import Mathlib.Data.List.TakeWhile
import TagExpansion.Proofs.Draft

/-
This file says which settings of the log are read, and what becomes of a call whose setting is not.

The blanks at the ends of a setting and its letter case do not count. What is left is a number if it
consists of decimal digits, of whatever script, and may be the name of a level otherwise; anything
else asks for nothing. There are two exceptions, and both are settings that look like numbers. The
test for digits also lets through superscripts, circled digits and the like, of which no number can
be made, and a number has a greatest length. The program does not foresee these two, and they end
every call that gets so far as to set up its log. Nothing else in a setting ends a call.
-/

namespace TagExpansion

/-! ### Numerals -/

namespace Text

theorem isDigit_of_decimalValue? {c : Char} {value : Nat} (decimal : decimalValue? c = some value) :
    isDigit c = true := by
  rw [isDigit, decimal]
  rfl

theorem decimalValue?_underscore : decimalValue? '_' = none := by decide

theorem not_isDigit_underscore : isDigit '_' = false := by decide +kernel

/-- Behind a digit, another character than the underscore has to be a digit. -/
theorem digitsWithUnderscores_cons {c : Char} (noUnderscore : c ≠ '_') (afterDigit : Bool)
    (rest : Text) :
    digitsWithUnderscores afterDigit (c :: rest) = (decimalValue? c).bind fun value =>
      (digitsWithUnderscores true rest).map fun others => value :: others := by
  rw [digitsWithUnderscores.eq_def]
  split
  · rename_i same
    cases same
  · rename_i same
    cases same
    exact absurd rfl noUnderscore
  · rename_i same
    cases same
    cases decimalValue? c with
    | none => rfl
    | some value => cases digitsWithUnderscores true rest <;> rfl

/-- A text of decimal digits, with the values of the digits. -/
def Decimals (word : Text) (values : List Nat) : Prop :=
  word.map decimalValue? = values.map some

namespace Decimals

variable {word : Text} {values : List Nat}

theorem length (decimals : Decimals word values) : values.length = word.length := by
  have same := congrArg List.length decimals
  rw [List.length_map, List.length_map] at same
  exact same.symm

theorem isSome (decimals : Decimals word values) : ∀ c ∈ word, (decimalValue? c).isSome := by
  intro c member
  have listed : decimalValue? c ∈ values.map some := decimals ▸ List.mem_map_of_mem member
  obtain ⟨value, -, same⟩ := List.mem_map.mp listed
  rw [← same]
  rfl

theorem unique (decimals : Decimals word values) {others : List Nat}
    (decimals' : Decimals word others) : values = others :=
  (List.map_inj_right fun _ _ => Option.some.inj).mp (decimals.symm.trans decimals')

theorem digitsWithUnderscores_eq (decimals : Decimals word values) :
    digitsWithUnderscores true word = some values := by
  induction word generalizing values with
  | nil =>
    cases values with
    | nil => rfl
    | cons value others => cases decimals
  | cons c rest inductionHypothesis =>
    cases values with
    | nil => cases decimals
    | cons value others =>
      obtain ⟨first, later⟩ := List.cons.inj decimals
      have noUnderscore : c ≠ '_' := by
        rintro rfl
        rw [decimalValue?_underscore] at first
        cases first
      rw [digitsWithUnderscores_cons noUnderscore, first, inductionHypothesis later]
      rfl

/-- The number that decimal digits stand for is read, unless there are too many of them. -/
theorem readNatural?_eq (decimals : Decimals word values) (nonempty : word ≠ []) :
    readNatural? word =
      if values.length ≤ maxNumeralDigits then some (numberOfDigits 10 values) else none := by
  obtain ⟨c, rest, rfl⟩ := List.exists_cons_of_ne_nil nonempty
  have noUnderscore : c ≠ '_' := by
    rintro rfl
    have isDecimal := decimals.isSome '_' List.mem_cons_self
    rw [decimalValue?_underscore] at isDecimal
    cases isDecimal
  have front : digitsWithUnderscores false (c :: rest) = some values := by
    rw [digitsWithUnderscores_cons noUnderscore, ← digitsWithUnderscores_cons noUnderscore true]
    exact decimals.digitsWithUnderscores_eq
  rw [readNatural?, front]
  rfl

end Decimals

theorem exists_decimals {word : Text} (decimal : ∀ c ∈ word, (decimalValue? c).isSome) :
    ∃ values, Decimals word values := by
  induction word with
  | nil => exact ⟨[], rfl⟩
  | cons c rest inductionHypothesis =>
    rw [List.forall_mem_cons] at decimal
    obtain ⟨value, isValue⟩ := Option.isSome_iff_exists.mp decimal.1
    obtain ⟨others, later⟩ := inductionHypothesis decimal.2
    refine ⟨value :: others, ?_⟩
    rw [Decimals, List.map_cons, List.map_cons, isValue, later]

/-- No number is read where a character is neither a decimal digit nor an underscore. -/
theorem digitsWithUnderscores_eq_none {word : Text} {c : Char} (member : c ∈ word)
    (other : decimalValue? c = none) (noUnderscore : '_' ∉ word) (afterDigit : Bool) :
    digitsWithUnderscores afterDigit word = none := by
  induction word generalizing afterDigit with
  | nil => cases member
  | cons d rest inductionHypothesis =>
    rw [List.mem_cons, not_or] at noUnderscore
    rw [digitsWithUnderscores_cons (Ne.symm noUnderscore.1)]
    rcases List.mem_cons.mp member with rfl | later
    · rw [other]
      rfl
    · rw [inductionHypothesis later noUnderscore.2]
      cases decimalValue? d <;> rfl

end Text

/-! ### The setting -/

namespace Log

open Text (decimalValue? isDigit maxNumeralDigits)

/-- A word that looks like a number and is none: all its characters are digits in the wider sense,
but one of them is no decimal digit, or there are too many of them. -/
structure Unreadable (word : Text) : Prop where
  nonempty : word ≠ []
  digits : ∀ c ∈ word, isDigit c = true
  failing : (∃ c ∈ word, decimalValue? c = none) ∨ maxNumeralDigits < word.length

theorem decimals_or_not_digits {word : Text} (readable : ¬Unreadable word) :
    (word ≠ [] ∧ word.length ≤ maxNumeralDigits ∧ ∃ values, Text.Decimals word values) ∨
      (word = [] ∨ ∃ c ∈ word, isDigit c = false) := by
  by_cases digits : word ≠ [] ∧ ∀ c ∈ word, isDigit c = true
  · have fine : ¬((∃ c ∈ word, decimalValue? c = none) ∨ maxNumeralDigits < word.length) :=
      fun failing => readable ⟨digits.1, digits.2, failing⟩
    rw [not_or, Nat.not_lt] at fine
    refine .inl ⟨digits.1, fine.2, Text.exists_decimals fun c member => ?_⟩
    rw [Option.isSome_iff_ne_none]
    exact fun loose => fine.1 ⟨c, member, loose⟩
  · refine .inr ?_
    by_cases empty : word = []
    · exact .inl empty
    · exact .inr (by simpa [empty] using digits)

theorem readThreshold_some (setting : Text) :
    readThreshold (some setting) =
      (let word := Text.upper (Text.strip setting)
      if !word.isEmpty && word.all isDigit then
        let digits := word.takeWhile fun c => (decimalValue? c).isSome
        if maxNumeralDigits < digits.length then .error (.tooManyDigits digits.length)
        else match Text.readNatural? word with
          | some number => .ok (some (number : Int))
          | none => .error (.notANumeral word)
      else .ok (namedLevel? word)) := by
  cases setting with
  | nil => rfl
  | cons c rest => rfl

section Setting

variable {setting word : Text} (isWord : Text.upper (Text.strip setting) = word)

include isWord

/-- A word of decimal digits that is not too long is a number. -/
theorem readThreshold_of_decimals {values : List Nat} (nonempty : word ≠ [])
    (decimals : Text.Decimals word values) (fits : word.length ≤ maxNumeralDigits) :
    readThreshold (some setting) = .ok (some (Text.numberOfDigits 10 values)) := by
  have digits : word.all isDigit = true := List.all_eq_true.mpr fun c member =>
    (Option.isSome_iff_exists.mp (decimals.isSome c member)).elim fun _ =>
      Text.isDigit_of_decimalValue?
  have front : (word.takeWhile fun c => (decimalValue? c).isSome) = word :=
    List.takeWhile_eq_self_iff.mpr decimals.isSome
  rw [readThreshold_some, isWord]
  dsimp only
  rw [if_pos (by simp [nonempty, digits]), front, if_neg (by omega),
    decimals.readNatural?_eq nonempty, decimals.length, if_pos fits]

/-- A word that does not look like a number is the name of a level, or asks for nothing. -/
theorem readThreshold_of_not_digits (other : word = [] ∨ ∃ c ∈ word, isDigit c = false) :
    readThreshold (some setting) = .ok (namedLevel? word) := by
  rw [readThreshold_some, isWord]
  dsimp only
  refine if_neg fun both => ?_
  rw [Bool.and_eq_true, List.all_eq_true, Bool.not_eq_true', List.isEmpty_eq_false_iff] at both
  rcases other with empty | ⟨c, member, noDigit⟩
  · exact both.1 empty
  · have isDigit := both.2 c member
    rw [noDigit] at isDigit
    cases isDigit

theorem exists_error_of_unreadable (unreadable : Unreadable word) :
    ∃ error, readThreshold (some setting) = .error error := by
  have digits : word.all isDigit = true := List.all_eq_true.mpr unreadable.digits
  rw [readThreshold_some, isWord]
  dsimp only
  rw [if_pos (by simp [unreadable.nonempty, digits])]
  split
  · exact ⟨_, rfl⟩
  · rename_i short
    have noUnderscore : '_' ∉ word := by
      intro member
      have isDigit := unreadable.digits _ member
      rw [Text.not_isDigit_underscore] at isDigit
      cases isDigit
    rcases unreadable.failing with ⟨c, member, loose⟩ | long
    · rw [Text.readNatural?, Text.digitsWithUnderscores_eq_none member loose noUnderscore]
      exact ⟨_, rfl⟩
    · -- All decimal digits at the front are fewer than all characters, so one is none.
      by_cases decimal : ∀ c ∈ word, (decimalValue? c).isSome
      · rw [List.takeWhile_eq_self_iff.mpr decimal] at short
        exact absurd long short
      · obtain ⟨c, member, loose⟩ : ∃ c ∈ word, decimalValue? c = none := by simpa using decimal
        rw [Text.readNatural?, Text.digitsWithUnderscores_eq_none member loose noUnderscore]
        exact ⟨_, rfl⟩

/-- The two kinds of words that look like numbers and are none are the only ones that cannot be
read. -/
theorem readThreshold_eq_error_iff :
    (∃ error, readThreshold (some setting) = .error error) ↔ Unreadable word := by
  refine ⟨fun ⟨error, failed⟩ => Classical.byContradiction fun readable => ?_,
    exists_error_of_unreadable isWord⟩
  rcases decimals_or_not_digits readable with ⟨nonempty, fits, values, decimals⟩ | other
  · rw [readThreshold_of_decimals isWord nonempty decimals fits] at failed
    cases failed
  · rw [readThreshold_of_not_digits isWord other] at failed
    cases failed

end Setting

/-! ### What a setting demands -/

/-- The names that a setting may give, with their levels. -/
def landmarks : List (Text × Level) := [
  ("TRACE".toList, trace), ("DEBUG".toList, debug), ("INFO".toList, info),
  ("WARNING".toList, warning), ("WARN".toList, warning), ("ERROR".toList, error),
  ("CRITICAL".toList, critical), ("FATAL".toList, critical), ("NOTSET".toList, 0)]

theorem mem_landmarks_of_namedLevel? {word : Text} {level : Level}
    (named : namedLevel? word = some level) : (word, level) ∈ landmarks := by
  unfold namedLevel? at named
  simp only [Bool.or_eq_true, decide_eq_true_eq] at named
  repeat' split at named
  case isFalse => cases named
  all_goals
    rename_i same
    obtain rfl := Option.some.inj named
    first
    | exact same ▸ by decide
    | exact same.elim (· ▸ by decide) (· ▸ by decide)

theorem namedLevel?_eq_some_iff {word : Text} {level : Level} :
    namedLevel? word = some level ↔ (word, level) ∈ landmarks := by
  refine ⟨mem_landmarks_of_namedLevel?, fun listed => ?_⟩
  have allNamed : ∀ entry ∈ landmarks, namedLevel? entry.1 = some entry.2 := by decide
  exact allNamed _ listed

/-- What a setting demands once its blanks and its letter case are out of the way: digits demand
their number, the name of a level demands that level, and all other words demand nothing. -/
inductive Demands (word : Text) : Option Level → Prop where
  | number {values : List Nat} (nonempty : word ≠ []) (decimals : Text.Decimals word values) :
      Demands word (some (Text.numberOfDigits 10 values))
  | name {level : Level} (named : (word, level) ∈ landmarks) : Demands word (some level)
  | nothing (noNumber : word = [] ∨ ∃ c ∈ word, decimalValue? c = none)
      (noName : ∀ level, (word, level) ∉ landmarks) : Demands word none

theorem Demands.nonneg {word : Text} {threshold : Option Level} (demands : Demands word threshold) :
    ∀ level ∈ threshold, 0 ≤ level := by
  cases demands with
  | number =>
    rintro _ ⟨⟩
    exact Int.natCast_nonneg _
  | name named =>
    rintro _ ⟨⟩
    have allNonneg : ∀ entry ∈ landmarks, 0 ≤ entry.2 := by decide
    exact allNonneg _ named
  | nothing => nofun

/-- The names of levels consist of letters. -/
theorem decimalValue?_of_mem_landmarks {name : Text} {level : Level} {c : Char}
    (listed : (name, level) ∈ landmarks) (member : c ∈ name) : decimalValue? c = none := by
  have letters : ∀ entry ∈ landmarks, entry.1.all (fun c => (decimalValue? c).isNone) = true := by
    decide +kernel
  exact Option.isNone_iff_eq_none.mp (List.all_eq_true.mp (letters _ listed) c member)

theorem landmarks_unique :
    ∀ entry ∈ landmarks, ∀ other ∈ landmarks, entry.1 = other.1 → entry = other := by
  decide

/-- A name of a level is no number. -/
theorem not_decimals_of_mem_landmarks {word : Text} {level : Level} {values : List Nat}
    (nonempty : word ≠ []) (decimals : Text.Decimals word values) : (word, level) ∉ landmarks := by
  intro named
  obtain ⟨c, rest, rfl⟩ := List.exists_cons_of_ne_nil nonempty
  have isDecimal := decimals.isSome c List.mem_cons_self
  rw [decimalValue?_of_mem_landmarks named List.mem_cons_self] at isDecimal
  cases isDecimal

/-- A word demands one thing only. -/
theorem Demands.unique {word : Text} {threshold other : Option Level}
    (demands : Demands word threshold) (demandsOther : Demands word other) : threshold = other := by
  have notBoth {values : List Nat} (nonempty : word ≠ []) (decimals : Text.Decimals word values) :
      ¬(word = [] ∨ ∃ c ∈ word, decimalValue? c = none) := by
    rintro (empty | ⟨c, member, loose⟩)
    · exact nonempty empty
    · have isDecimal := decimals.isSome c member
      rw [loose] at isDecimal
      cases isDecimal
  cases demands with
  | number nonempty decimals =>
    cases demandsOther with
    | number _ decimals' => rw [decimals.unique decimals']
    | name named => exact absurd named (not_decimals_of_mem_landmarks nonempty decimals)
    | nothing noNumber => exact absurd noNumber (notBoth nonempty decimals)
  | name named =>
    cases demandsOther with
    | number nonempty decimals =>
      exact absurd named (not_decimals_of_mem_landmarks nonempty decimals)
    | name named' => exact congrArg (some ∘ Prod.snd) (landmarks_unique _ named _ named' rfl)
    | nothing _ noName => exact absurd named (noName _)
  | nothing noNumber noName =>
    cases demandsOther with
    | number nonempty decimals => exact absurd noNumber (notBoth nonempty decimals)
    | name named => exact absurd named (noName _)
    | nothing => rfl

/-- A word that names no number is read as what it demands. -/
theorem demands_namedLevel? {word : Text} (other : word = [] ∨ ∃ c ∈ word, isDigit c = false) :
    Demands word (namedLevel? word) := by
  cases named : namedLevel? word with
  | some level => exact .name (namedLevel?_eq_some_iff.mp named)
  | none =>
    refine .nothing (other.imp_right ?_) fun level listed => ?_
    · rintro ⟨c, member, noDigit⟩
      refine ⟨c, member, Option.eq_none_iff_forall_ne_some.mpr fun value decimal => ?_⟩
      rw [Text.isDigit_of_decimalValue? decimal] at noDigit
      cases noDigit
    · rw [namedLevel?_eq_some_iff.mpr listed] at named
      cases named

/-- Every setting that can be read gives what it demands, and nothing else. -/
theorem exists_demands_of_not_unreadable {setting word : Text}
    (isWord : Text.upper (Text.strip setting) = word) (readable : ¬Unreadable word) :
    ∃ threshold, readThreshold (some setting) = .ok threshold ∧
      ∀ other, Demands word other ↔ other = threshold := by
  have only {threshold : Option Level} (demands : Demands word threshold) (other : Option Level) :
      Demands word other ↔ other = threshold :=
    ⟨fun demandsOther => demandsOther.unique demands, fun same => same ▸ demands⟩
  rcases decimals_or_not_digits readable with ⟨nonempty, fits, values, decimals⟩ | other
  · exact ⟨_, readThreshold_of_decimals isWord nonempty decimals fits,
      only (.number nonempty decimals)⟩
  · exact ⟨_, readThreshold_of_not_digits isWord other, only (demands_namedLevel? other)⟩

end Log

/-! ### Calls -/

namespace Command

/-- An outcome that is not a crash over the setting of the log. -/
def Spares {α : Type} (outcome : Except Stop α) : Prop :=
  ∀ error, outcome ≠ .error (.crash (.setting error))

namespace Spares

variable {α β : Type}

theorem ok (value : α) : Spares (.ok value : Except Stop α) := nofun

theorem error {stop : Stop} (other : ∀ error, stop ≠ .crash (.setting error)) :
    Spares (.error stop : Except Stop α) := by
  rintro error ⟨⟩
  exact other error rfl

theorem bind {outcome : Except Stop α} {next : α → Except Stop β} (before : Spares outcome)
    (after : ∀ value, Spares (next value)) : Spares (outcome >>= next) := by
  cases outcome with
  | ok value => exact after value
  | error stop =>
    rintro error ⟨⟩
    exact before error rfl

theorem andThen {first : Course α} {next : α → Course β} (before : Spares first.outcome)
    (after : ∀ value, Spares (next value).outcome) : Spares (first.andThen next).outcome := by
  rw [Journal.outcome_andThen]
  exact before.bind after

end Spares

theorem Reserved.spares {α : Type} {course : Course α} (reserved : Reserved course) :
    Spares course.outcome := fun error failed =>
  (reserved.stops _ failed).ne_setting error rfl

/-- Whatever is found wrong with arguments, it is not the setting of the log. -/
theorem spares_course {α : Type} (toolkit : Toolkit) (surroundings : Surroundings)
    (color : Option Bool) (page : Text) (reading : Reading α) :
    Spares (reading.course toolkit surroundings color page).outcome := by
  cases reading with
  | settled value => exact .ok _
  | help => exact .error nofun
  | misuse complaint => exact .error nofun
  | broken breakdown => exact .error nofun

section Environment

variable (environment : Environment)

theorem spares_writeTarget (target text : Text) :
    Spares (writeTarget environment target text).outcome := by
  unfold writeTarget
  split
  · exact .ok _
  · split
    · unfold writePlace
      split
      · exact .ok _
      · exact .error nofun
      · exact Spares.andThen (.ok _) fun _ => .error nofun
    · exact .error nofun
    · exact .error nofun

theorem spares_runExpand (settings : ExpandSettings) :
    Spares (runExpand environment settings).outcome := by
  rw [runExpand_eq]
  exact (reserved_pack environment settings).spares.andThen fun parcel =>
    (spares_writeTarget environment parcel.target parcel.document).andThen fun _ => .ok _

/-- Once the log is set up, a call does not crash over its setting, whichever command it is for. -/
theorem spares_runCommand (command : Subcommand) (path : Text) (arguments : List Text) :
    Spares (runCommand environment command path arguments).outcome := by
  have read (interface : Interface) : Spares (environment.read interface path arguments).outcome :=
    spares_course _ _ _ _ _
  cases command with
  | expand => exact (read expandInterface).andThen fun _ => spares_runExpand environment _
  | tags =>
    exact (read tagsInterface).andThen fun _ =>
      Spares.andThen (.ok _) fun _ => Spares.andThen (.ok _) fun _ => .ok _
  | version => exact (read versionInterface).andThen fun _ => Spares.andThen (.ok _) fun _ => .ok _

theorem spares_proceed (chosen : Option (Subcommand × List Text)) :
    Spares (proceed environment chosen).outcome := by
  cases chosen with
  | none => exact .ok _
  | some both => exact spares_runCommand environment _ _ _

end Environment

/-- A call gets so far as to set up its log: its options can be read, they do not contradict each
other, and it names a command or none at all. -/
def Call.SetsUpLog (toolkit : Toolkit) (call : Call) : Prop :=
  ∃ answers chosen, call.reading toolkit = .settled (answers, chosen) ∧
    (ProgramSettings.ofAnswers answers).view? ≠ none

section Calls

variable {toolkit : Toolkit} {call : Call} {error : Log.LevelError}

theorem outcome_andThen_eq_setting_iff {α β : Type} {first : Course α} {next : α → Course β}
    (spares : ∀ value, Spares (next value).outcome) :
    (first.andThen next).outcome = .error (.crash (.setting error)) ↔
      first.outcome = .error (.crash (.setting error)) := by
  rw [Journal.outcome_andThen]
  cases first.outcome with
  | ok value => exact iff_of_false (spares value error) nofun
  | error stop =>
    show Except.error stop = _ ↔ _
    rw [Except.error.injEq, Except.error.injEq]

theorem outcome_prepare_eq_setting_iff {settings : ProgramSettings} :
    (prepare toolkit call settings).outcome = .error (.crash (.setting error)) ↔
      settings.view? ≠ none ∧ Log.readThreshold call.logLevel = .error error := by
  unfold prepare
  cases settings.view? with
  | none => simp [failWith]
  | some view => cases Log.readThreshold call.logLevel <;> simp [Journal.fail, Journal.done]

/-- The log is set up behind the options of the program and the name of the command, and nothing
else in a call can crash over the setting. -/
theorem outcome_program_eq_setting_iff :
    (program toolkit call).outcome = .error (.crash (.setting error)) ↔
      call.SetsUpLog toolkit ∧ Log.readThreshold call.logLevel = .error error := by
  rw [program, Journal.bind_eq_andThen, Call.SetsUpLog]
  have unsettled {reading : Reading (programInterface.Answers × Option (Subcommand × List Text))}
      (other : ∀ both, reading ≠ .settled both) :
      ¬((∃ answers chosen, reading = .settled (answers, chosen) ∧
        (ProgramSettings.ofAnswers answers).view? ≠ none) ∧
          Log.readThreshold call.logLevel = .error error) := by
    rintro ⟨⟨answers, chosen, read, -⟩, -⟩
    exact other _ read
  cases read : call.reading toolkit with
  | settled both =>
    obtain ⟨answers, chosen⟩ := both
    have only : (∃ others other, Reading.settled (answers, chosen) = .settled (others, other) ∧
        (ProgramSettings.ofAnswers others).view? ≠ none) ↔
        (ProgramSettings.ofAnswers answers).view? ≠ none := by
      refine ⟨?_, fun sets => ⟨answers, chosen, rfl, sets⟩⟩
      rintro ⟨_, _, ⟨⟩, sets⟩
      exact sets
    rw [only, ← @outcome_prepare_eq_setting_iff toolkit]
    exact outcome_andThen_eq_setting_iff fun manner => spares_proceed _ chosen
  | help => exact iff_of_false (by rintro ⟨⟩) (unsettled (by rintro both ⟨⟩))
  | misuse complaint => exact iff_of_false (by rintro ⟨⟩) (unsettled (by rintro both ⟨⟩))
  | broken breakdown => exact iff_of_false (by rintro ⟨⟩) (unsettled (by rintro both ⟨⟩))

theorem crash_run_eq_setting_iff_outcome :
    (run toolkit call).crash = some (.setting error) ↔
      (program toolkit call).outcome = .error (.crash (.setting error)) := by
  unfold run Course.close
  cases (program toolkit call).outcome with
  | ok status => simp
  | error stop => cases stop <;> simp [Stop.crash?]

/-- A setting is read as what it demands, a level that is not negative or nothing, unless it is a
word that looks like a number and is none. Such a word, and no other one, ends the calls that set up
their log. -/
theorem run_of_logLevel (toolkit : Toolkit) (call : Call) (setting : Text)
    (isSet : call.logLevel = some setting) :
    let word := Text.upper (Text.strip setting)
    (¬Log.Unreadable word → ∃ threshold, Log.readThreshold call.logLevel = .ok threshold ∧
      (∀ other, Log.Demands word other ↔ other = threshold) ∧ ∀ level ∈ threshold, 0 ≤ level) ∧
    ((∃ error, Log.readThreshold call.logLevel = .error error) ↔ Log.Unreadable word) ∧
    ((∃ error, (run toolkit call).crash = some (.setting error)) ↔
      call.SetsUpLog toolkit ∧ Log.Unreadable word) := by
  intro word
  have unreadable : (∃ error, Log.readThreshold (some setting) = .error error) ↔
      Log.Unreadable word := Log.readThreshold_eq_error_iff rfl
  rw [isSet]
  refine ⟨fun readable => ?_, unreadable, ?_⟩
  · obtain ⟨threshold, read, demands⟩ := Log.exists_demands_of_not_unreadable rfl readable
    exact ⟨threshold, read, demands, ((demands threshold).mpr rfl).nonneg⟩
  · rw [← unreadable, ← exists_and_left, ← isSet]
    exact exists_congr fun error =>
      crash_run_eq_setting_iff_outcome.trans outcome_program_eq_setting_iff

/-- Blanks and digits of another script are no obstacle. -/
theorem run_of_logLevel_fullwidth :
    Log.readThreshold (some " \uff11\uff10 ".toList) = .ok (some 10) ∧
      ¬∃ error, (run Tools.standard { arguments := ["version".toList]
                                      logLevel := some " \uff11\uff10 ".toList }).crash =
        some (.setting error) := by
  obtain ⟨-, refuses, crashes⟩ := run_of_logLevel Tools.standard
    { arguments := ["version".toList], logLevel := some " \uff11\uff10 ".toList } _ rfl
  have read : Log.readThreshold (some " \uff11\uff10 ".toList) = .ok (some 10) := by
    decide +kernel
  refine ⟨read, fun crash => ?_⟩
  obtain ⟨error, failed⟩ := refuses.mpr (crashes.mp crash).2
  cases read.symm.trans failed

/-- A superscript two passes for a digit, but it is no numeral, and so the version is not shown. -/
theorem run_of_logLevel_superscript :
    Log.readThreshold (some "\u00b2".toList) = .error (.notANumeral "\u00b2".toList) ∧
      (run Tools.standard { arguments := ["version".toList], logLevel := some "\u00b2".toList }).crash =
        some (.setting (.notANumeral "\u00b2".toList)) := by
  decide +kernel

end Calls

end Command

end TagExpansion
