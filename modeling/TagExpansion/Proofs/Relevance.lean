import Mathlib
import TagExpansion.Proofs.Baseline
import TagExpansion.Proofs.LetterCase
import TagExpansion.Proofs.OrderedMap
import TagExpansion.Proofs.Registry
import TagExpansion.Proofs.Rendering
import TagExpansion.Proofs.Trimming

/-
This file proves that a tag matters only to the texts that name it.

A text names a tag where the longest run of letters behind a tag character is its name. What an
expansion looks up are such names, but not only those of the text: a parameter is cut out of the
text, loses the blanks at its ends or is replaced by an abbreviation, and is scanned again. The
point is that no cut makes a name. Parentheses, line breaks and blanks are no letters, and so the
letters in front of a cut are a whole name, or none at all. So all names that are ever looked up, at
any depth, stand in the text or in the text of an abbreviation.

Handlers are asked for two things. They have nothing expanded, because a handler can make up the
text that it hands over, and may name in it what it likes. And they do not ask which tags there are,
because the answer tells registries apart whatever the text names.
-/

namespace TagExpansion

open Tag (Definition Registration Registry Script)
open Scan (Argument Piece tagChar)

/-! ### Names in a text -/

namespace Scan

/-- Somewhere in a text the longest run of letters behind a tag character is a name, in any letter
case. -/
def Refers (text name : Text) : Prop :=
  ∃ front letters rest, text = front ++ (tagChar :: letters ++ rest) ∧ letters ≠ [] ∧
    Longest Char.isAlpha letters rest ∧ Text.lower letters = name

theorem refers_iff {text name : Text} :
    Refers text name ↔ name ∈ text.tails.filterMap unknownName? := by
  rw [List.mem_filterMap]
  constructor
  · rintro ⟨front, letters, rest, rfl, nonempty, longest, rfl⟩
    refine ⟨_, (List.mem_tails _ _).mpr (List.suffix_append front _), ?_⟩
    rw [List.cons_append, unknownName?, longest.takeWhile_append, if_pos (by simp [nonempty])]
  · rintro ⟨tail, isTail, found⟩
    obtain ⟨front, rfl⟩ := (List.mem_tails _ _).mp isTail
    cases tail with
    | nil => cases found
    | cons c rest =>
      simp only [unknownName?, Option.ite_none_right_eq_some, Bool.and_eq_true,
        decide_eq_true_eq, Option.some.injEq, Bool.not_eq_true', List.isEmpty_eq_false_iff] at found
      obtain ⟨⟨rfl, nonempty⟩, named⟩ := found
      refine ⟨front, _, rest.dropWhile Char.isAlpha, ?_, nonempty, longest_takeWhile _ rest, named⟩
      rw [List.cons_append, List.takeWhile_append_dropWhile]

instance (text name : Text) : Decidable (Refers text name) :=
  decidable_of_iff ((text.tails.filterMap unknownName?).contains name)
    (List.contains_iff_mem.trans refers_iff.symm)

theorem Refers.behind {text name : Text} (front : Text) (refers : Refers text name) :
    Refers (front ++ text) name := by
  obtain ⟨before, letters, rest, rfl, nonempty, longest, named⟩ := refers
  exact ⟨front ++ before, letters, rest, (List.append_assoc _ _ _).symm, nonempty, longest, named⟩

/-- A cut behind which there is no letter makes no name. -/
theorem Refers.before {text back name : Text} (refers : Refers text name)
    (cut : ∀ c, back.head? = some c → c.isAlpha = false) : Refers (text ++ back) name := by
  obtain ⟨before, letters, rest, rfl, nonempty, longest, named⟩ := refers
  refine ⟨before, letters, rest ++ back, by simp only [List.append_assoc], nonempty,
    ⟨longest.all, fun c isHead => ?_⟩, named⟩
  cases rest with
  | nil => exact cut c isHead
  | cons d rest => exact longest.stop c isHead

theorem not_refers_nil {name : Text} : ¬Refers [] name := by
  rw [refers_iff]
  exact List.not_mem_nil

/-- A name in its canonical form keeps it. -/
theorem lower_lower {letters : Text} (isName : ∀ c ∈ letters, c.isAlpha = true) :
    Text.lower (Text.lower letters) = Text.lower letters := by
  have lowered : Text.lower letters = letters.map Char.toLower :=
    List.map_congr_left fun c member => Text.lowerChar_eq_toLower (isName c member)
  have same : Text.SameLetters letters (Text.lower letters) := by
    rw [lowered, Text.SameLetters, List.map_map]
    exact List.map_congr_left fun c _ => c.toLower_toLower_eq_toLower.symm
  exact (same.lower isName).symm

theorem Refers.lower_eq {text name : Text} (refers : Refers text name) :
    Text.lower name = name := by
  obtain ⟨front, letters, rest, -, -, longest, rfl⟩ := refers
  exact lower_lower longest.all

theorem not_isAlpha_of_isBlank {c : Char} (blank : Text.isBlank c = true) : c.isAlpha = false := by
  refine eq_false_of_ne_true fun isAlpha => ?_
  simp only [Char.isAlpha, Char.isUpper, Char.isLower, Bool.or_eq_true, Bool.and_eq_true,
    decide_eq_true_eq, ge_iff_le, UInt32.le_iff_toNat_le, Char.reduceVal, UInt32.reduceToNat]
    at isAlpha
  simp only [Text.isBlank, Char.toNat, Bool.or_eq_true, Bool.and_eq_true, decide_eq_true_eq,
    beq_iff_eq] at blank
  omega

variable {tags others : Registry} {text letters name : Text} {definition : Definition}
  {argument : Argument}

/-- The parameter that a tag takes has no names but those of what it is taken from. -/
theorem Takes.refers {rest after : Text} (takes : Takes definition rest argument after)
    (refers : Refers argument.parameter name) : Refers rest name := by
  cases takes with
  | enclosed balanced =>
    refine Refers.behind ['('] (refers.before fun c isHead => ?_)
    cases isHead
    decide
  | unclosed unmatched => exact absurd refers not_refers_nil
  | @line line after noParenthesis required longest =>
    obtain ⟨front, back, split, -, blank⟩ := (Text.trims_stripWith Text.isBlank line).split
    rw [split, List.append_assoc, List.append_assoc]
    refine Refers.behind front (Refers.before refers fun c isHead => ?_)
    cases back with
    | nil =>
      refine eq_false_of_ne_true fun isAlpha => ?_
      have isBreak := longest.stop c isHead
      rw [Text.isLineBreak_of_isAlpha isAlpha] at isBreak
      cases isBreak
    | cons d back =>
      cases isHead
      exact not_isAlpha_of_isBlank (blank c List.mem_cons_self)
  | absent noParenthesis notRequired => exact absurd refers not_refers_nil

/-- No cut makes a name: the parameter of a tag in a text has no names but those of the text. -/
theorem refers_of_mem_pieces (member : .tag definition letters argument ∈ pieces tags text)
    (refers : Refers argument.parameter name) : Refers text name := by
  obtain ⟨front, rest, after, rfl, begins⟩ := begins_of_mem_pieces member
  cases begins with
  | tag names takes => exact ((takes.refers refers).behind (tagChar :: letters)).behind front

/-! ### Registries that agree -/

/-- Two registries find the same under every name in a text. -/
def Agree (tags others : Registry) (text : Text) : Prop :=
  ∀ name, Refers text name → others.lookup name = tags.lookup name

theorem Agree.of_append {front : Text} (agree : Agree tags others (front ++ text)) :
    Agree tags others text := fun name refers => agree name (refers.behind front)

theorem Agree.namedTag? {rest : Text} (agree : Agree tags others (tagChar :: rest)) :
    namedTag? others rest = namedTag? tags rest := by
  have longest := longest_takeWhile Char.isAlpha rest
  unfold Scan.namedTag?
  dsimp only
  split
  · rfl
  · rename_i nonempty
    have refers : Refers (tagChar :: rest) (Text.lower (rest.takeWhile Char.isAlpha)) :=
      ⟨[], _, rest.dropWhile Char.isAlpha,
        by rw [List.nil_append, List.cons_append, List.takeWhile_append_dropWhile],
        by simpa using nonempty, longest, rfl⟩
    have found := agree _ refers
    rwa [Registry.lookup, Registry.lookup, lower_lower longest.all] at found

/-- A text falls into the same pieces if its names lead to the same definitions. -/
theorem Agree.pieces_eq (agree : Agree tags others text) :
    pieces others text = pieces tags text := by
  fun_induction pieces tags text with
  | case1 => rw [pieces]
  | case2 c rest inductionHypothesis =>
    have first : readPiece others c rest = readPiece tags c rest := by
      unfold readPiece
      split
      · rename_i isTag
        subst isTag
        rw [agree.namedTag?]
      · rfl
    have later : Agree tags others (readPiece tags c rest).2 := by
      rw [← source_readPiece tags c rest] at agree
      exact agree.of_append
    rw [pieces, first, inductionHypothesis later]

end Scan

/-! ### Engines with other tags -/

namespace Engine

/-- The handler of a tag, called at some depth, has no text expanded, whatever parameter and
baseline it gets. -/
def FlatAt (engine : Engine) (depth : Nat) (definition : Definition) : Prop :=
  ∀ parameter baseline inner, ¬engine.Asks depth inner (definition.script parameter baseline)

/-- No handler has a text expanded. -/
def Flat (engine : Engine) : Prop :=
  ∀ definition, engine.Knows definition → ∀ depth, engine.FlatAt depth definition

/-- A script that runs at some depth asks which tags there are. -/
def Surveys (engine : Engine) (depth : Nat) : Script → Prop
  | .answer _ => False
  | .decline => False
  | .fail _ => False
  | .expand text next => engine.Surveys depth (next (engine.expandAt depth text).outcome)
  | .convert text next => engine.Surveys depth (next (engine.convertText text).outcome)
  | .report report next => engine.Surveys depth (next (engine.handOver report).outcome)
  | .askDepth next => engine.Surveys depth (next depth)
  | .askTags _ => True

/-- The handler of a tag, called at some depth, does not ask which tags there are. -/
def BlindAt (engine : Engine) (depth : Nat) (definition : Definition) : Prop :=
  ∀ parameter baseline, ¬engine.Surveys depth (definition.script parameter baseline)

/-- No handler asks which tags there are. -/
def Blind (engine : Engine) : Prop :=
  ∀ definition, engine.Knows definition → ∀ depth, engine.BlindAt depth definition

/-- The engine with other tags and nothing else changed. -/
def withTags (engine : Engine) (tags : Registry) : Engine := { engine with tags }

/-- A text, or the text of an abbreviation, has a name behind a tag character. -/
def Concerns (engine : Engine) (text name : Text) : Prop :=
  Scan.Refers text name ∨ ∃ entry ∈ engine.abbreviations.toList, Scan.Refers entry.2 name

variable {engine : Engine} {others : Registry} {nested nested' : Text → Run Text} {depth : Nat}

/-- Such a name is in its canonical form. -/
theorem Concerns.lower_eq {text name : Text} (concerns : engine.Concerns text name) :
    Text.lower name = name := by
  rcases concerns with refers | ⟨entry, -, refers⟩
  · exact refers.lower_eq
  · exact refers.lower_eq

/-- An abbreviation stands for a text that is in the table, and any other text for itself. -/
theorem concerns_resolve {text name : Text}
    (concerns : engine.Concerns (engine.abbreviations.resolve text) name) :
    engine.Concerns text name := by
  rcases concerns with inText | inTable
  · unfold Abbreviations.resolve at inText
    cases found : engine.abbreviations.find? text with
    | none =>
      rw [found] at inText
      exact .inl inText
    | some expansion =>
      rw [found] at inText
      exact .inr ⟨_, OrderedMap.find?_eq_some_iff.mp found, inText⟩
  · exact .inr inTable

theorem perform_withTags {script : Script} (flat : ∀ inner, ¬engine.Asks depth inner script)
    (blind : ¬engine.Surveys depth script) :
    (engine.withTags others).perform nested' depth script = engine.perform nested depth script := by
  induction script with
  | answer text => rfl
  | decline => rfl
  | fail fault => rfl
  | expand text next => exact absurd (.inl rfl) (flat text)
  | convert text next inductionHypothesis =>
    have later := inductionHypothesis (engine.convertText text).outcome flat blind
    exact Journal.settle_congr later
  | report report next inductionHypothesis =>
    have later := inductionHypothesis (engine.handOver report).outcome flat blind
    exact Journal.settle_congr later
  | askDepth next inductionHypothesis =>
    exact congrArg (Journal.write (.told depth)).andThen
      (funext fun _ => inductionHypothesis depth flat blind)
  | askTags next => exact absurd trivial blind

theorem replace_withTags {definition : Definition} (flat : engine.FlatAt depth definition)
    (blind : engine.BlindAt depth definition) (parameter baseline : Text) :
    (engine.withTags others).replace nested' depth definition parameter baseline =
      engine.replace nested depth definition parameter baseline := by
  have asksNothing := flat parameter baseline
  have surveysNothing := blind parameter baseline
  unfold Definition.script at asksNothing surveysNothing
  unfold replace
  split
  · rfl
  · rename_i handler hasHandler
    rw [hasHandler] at asksNothing surveysNothing
    rw [perform_withTags asksNothing surveysNothing]

theorem prepare_withTags (definition : Definition) {parameter : Text}
    (same : nested' (engine.abbreviations.resolve parameter) =
      nested (engine.abbreviations.resolve parameter)) :
    (engine.withTags others).prepare nested' definition parameter =
      engine.prepare nested definition parameter := by
  have abbreviations : (engine.withTags others).abbreviations = engine.abbreviations := rfl
  simp only [prepare, abbreviations, same]
  rfl

theorem expandTag_withTags {definition : Definition} (flat : engine.FlatAt depth definition)
    (blind : engine.BlindAt depth definition) {parameter : Text} (same : nested' (engine.abbreviations.resolve parameter) =
      nested (engine.abbreviations.resolve parameter)) :
    (engine.withTags others).expandTag nested' depth definition parameter =
      engine.expandTag nested depth definition parameter := by
  unfold expandTag
  rw [prepare_withTags definition same]
  have replaced : (engine.withTags others).replace nested' depth definition =
      engine.replace nested depth definition := by
    funext parameter baseline
    exact replace_withTags flat blind parameter baseline
  simp only [replaced]
  rfl

theorem expandPieces_withTags {pieces : List Piece}
    (alike : ∀ definition letters argument, .tag definition letters argument ∈ pieces →
      engine.FlatAt depth definition ∧ engine.BlindAt depth definition ∧
        nested' (engine.abbreviations.resolve argument.parameter) =
          nested (engine.abbreviations.resolve argument.parameter)) (start : Nat) :
    (engine.withTags others).expandPieces nested' depth start pieces =
      engine.expandPieces nested depth start pieces := by
  induction pieces generalizing start with
  | nil => rfl
  | cons piece rest inductionHypothesis =>
    have first : (engine.withTags others).expandPiece nested' depth start piece =
        engine.expandPiece nested depth start piece := by
      cases piece with
      | segment text => rfl
      | escape => rfl
      | tag definition letters argument =>
        obtain ⟨flat, blind, same⟩ := alike definition letters argument List.mem_cons_self
        simp only [expandPiece, expandTag_withTags flat blind same]
        rfl
    have later := inductionHypothesis fun definition letters argument member =>
      alike definition letters argument (List.mem_cons_of_mem _ member)
    simp only [expandPieces, first, later]

/-- Two registries lead to the same definitions under all names in a text and in abbreviations. -/
def Agree (engine : Engine) (others : Registry) (text : Text) : Prop :=
  ∀ name, engine.Concerns text name → others.lookup name = engine.tags.lookup name

theorem expandAt_withTags (flat : engine.Flat) (blind : engine.Blind) {text : Text}
    (agree : engine.Agree others text) (depth : Nat) : (engine.withTags others).expandAt depth text = engine.expandAt depth text := by
  induction depth using engine.expandAt_induction generalizing text with
  | limit depth reached =>
    rw [expandAt_of_le engine reached, expandAt_of_le (engine.withTags others) reached]
    rfl
  | deeper depth below inductionHypothesis =>
    have pieces : Scan.pieces others text = Scan.pieces engine.tags text :=
      Scan.Agree.pieces_eq fun name refers => agree name (.inl refers)
    have tags : (engine.withTags others).tags = others := rfl
    rw [expandAt_of_lt engine below, expandAt_of_lt (engine.withTags others) below, tags, pieces,
      expandPieces_withTags fun definition letters argument member => ?_]
    have known := knows_of_mem_pieces member
    refine ⟨flat definition known (depth + 1), blind definition known (depth + 1),
      inductionHypothesis ?_⟩
    intro name concerns
    refine agree name ?_
    rcases concerns_resolve concerns with inParameter | inTable
    · exact .inl (Scan.refers_of_mem_pieces member inParameter)
    · exact .inr inTable

/-- Changes to tags do not matter if they are about a name that is mentioned nowhere. -/
theorem agree_of_not_concerns {text key : Text} (unconcerned : ¬engine.Concerns text key)
    (same : ∀ other, key ≠ other → others.tags.find? other = engine.tags.tags.find? other) :
    engine.Agree others text := by
  intro name concerns
  refine same _ fun isKey => unconcerned ?_
  rwa [isKey, concerns.lower_eq]

/-- Where no handler has a text expanded or asks which tags there are, the run of a text depends
only on what the registry has under the names that stand behind a tag character in the text or in
the text of an abbreviation. Other registries that agree on these give the same run, calls, reports
and diagnostics included, and so does a registry that gained or lost a tag of another name. -/
theorem expandAt_of_agree {engine : Engine} (flat : engine.Flat) (blind : engine.Blind)
    (text : Text) :
    (∀ others, engine.Agree others text → ∀ depth,
      (engine.withTags others).expandAt depth text = engine.expandAt depth text) ∧
    (∀ name, ¬engine.Concerns text (Text.lower name) → ∀ depth,
      (engine.withTags (engine.tags.unregister name)).expandAt depth text =
        engine.expandAt depth text) ∧
    ∀ registration after definition,
      (engine.tags.register registration).outcome = .ok (after, definition) →
      ¬engine.Concerns text (Text.lower registration.name) → ∀ depth,
        (engine.withTags after).expandAt depth text = engine.expandAt depth text := by
  refine ⟨fun others agree => expandAt_withTags flat blind agree, fun name unconcerned => ?_,
    fun registration after definition accepted unconcerned => ?_⟩
  · refine expandAt_withTags flat blind
      (agree_of_not_concerns unconcerned fun other different => ?_)
    exact (OrderedMap.find?_erase _ _ _).trans (if_neg different)
  · refine expandAt_withTags flat blind
      (agree_of_not_concerns unconcerned fun other different => ?_)
    rw [(Registry.of_register_eq_ok accepted).2]
    exact (Registry.find?_store _ _ _).trans (if_neg different)

/-- No builtin tag has a text expanded. -/
theorem flat_of_builtin {format : Format} (tags : engine.tags = .builtin format) : engine.Flat := by
  rintro definition ⟨name, found⟩ depth parameter baseline inner
  rw [tags] at found
  obtain ⟨registration, member, isRegistered⟩ := Registry.find?_builtin found
  have isBuiltin := Tag.isBuiltin_of_mem_builtins member
  rw [← isRegistered] at isBuiltin
  cases isBuiltin with
  | enclosing => exact id
  | standingFor => exact id
  | passing => exact id
  | block =>
    show ¬engine.Asks depth inner (Tag.block _ Tag.blockName parameter baseline)
    unfold Tag.block
    cases Tag.delimited? parameter with
    | some body =>
      simp only [Asks]
      cases (engine.convertText body).outcome <;> exact id
    | none =>
      simp only [Asks]
      cases (engine.handOver (Tag.missingDelimiter Tag.blockName)).outcome <;> exact id

/-- No builtin tag asks which tags there are. -/
theorem blind_of_builtin {format : Format} (tags : engine.tags = .builtin format) :
    engine.Blind := by
  rintro definition ⟨name, found⟩ depth parameter baseline
  rw [tags] at found
  obtain ⟨registration, member, isRegistered⟩ := Registry.find?_builtin found
  have isBuiltin := Tag.isBuiltin_of_mem_builtins member
  rw [← isRegistered] at isBuiltin
  cases isBuiltin with
  | enclosing => exact id
  | standingFor => exact id
  | passing => exact id
  | block =>
    show ¬engine.Surveys depth (Tag.block _ Tag.blockName parameter baseline)
    unfold Tag.block
    cases Tag.delimited? parameter with
    | some body =>
      simp only [Surveys]
      cases (engine.convertText body).outcome <;> exact id
    | none =>
      simp only [Surveys]
      cases (engine.handOver (Tag.missingDelimiter Tag.blockName)).outcome <;> exact id

/-- A tag whose name goes on behind that of another one, in a text and in an abbreviation. -/
theorem expandAt_of_agree_codes :
    let engine : Engine := {
      tags := .builtin .plain
      abbreviations := .ofList [("x".toList, "@it(y)".toList)] }
    let text := "@bold(@codes x)@br x".toList
    let others := engine.tags.unregister "Code".toList
    let registration : Registration := { name := "Co".toList }
    engine.Flat ∧ engine.Blind ∧ engine.Agree others text ∧
      (engine.withTags others).expandAt 0 text = engine.expandAt 0 text ∧
      ¬engine.Concerns text "code".toList ∧ ¬engine.Concerns text "co".toList ∧
      ∃ after definition, (engine.tags.register registration).outcome = .ok (after, definition) ∧
        (engine.withTags after).expandAt 0 text = engine.expandAt 0 text := by
  intro engine text others registration
  have flat : engine.Flat := flat_of_builtin rfl
  have blind : engine.Blind := blind_of_builtin rfl
  have noCode : ¬engine.Concerns text "code".toList := by
    unfold Concerns
    decide
  have noCo : ¬engine.Concerns text "co".toList := by
    unfold Concerns
    decide
  obtain ⟨agreeing, removing, registering⟩ := expandAt_of_agree flat blind text
  have agree : engine.Agree others text :=
    agree_of_not_concerns noCode fun other different =>
      (OrderedMap.find?_erase _ _ _).trans (if_neg different)
  exact ⟨flat, blind, agree, agreeing others agree 0, noCode, noCo, _, _, rfl,
    registering registration _ _ rfl noCo 0⟩

/-- A registry with a single tag knows only that one. -/
theorem eq_of_knows_store {only definition : Definition}
    (tags : engine.tags = Registry.empty.store only) (known : engine.Knows definition) :
    definition = only := by
  obtain ⟨name, found⟩ := known
  have stored : (if only.name = Text.lower name then some only else none) = some definition := by
    rw [← found, tags]
    exact (Registry.find?_store .empty only (Text.lower name)).symm
  exact (Option.some.inj (Option.ite_none_right_eq_some.mp stored).2).symm

/-- A handler that answers with the names of the tags tells apart registries that agree on all names
in a text. And where an abbreviation names a tag, the tag matters to a text that does not. -/
theorem not_expandAt_of_agree_names :
    let listing : Definition := {
      name := "tags".toList
      handler := some fun _ _ _ =>
        .askTags fun tags => .answer (Text.join [' '] (tags.map Tag.Features.name)) }
    let engine : Engine := { tags := Registry.empty.store listing }
    let others := engine.tags.store { name := "y".toList }
    let text := "@tags".toList
    let taking : Definition := {
      name := "a".toList, requiresParameter := true, recursive := true }
    let abbreviating : Engine := {
      tags := Registry.empty.store taking
      abbreviations := .ofList [("x".toList, "@y".toList)] }
    let more := abbreviating.tags.store {
      name := "y".toList, handler := some (Tag.standingFor "Y".toList) }
    (engine.Flat ∧ engine.Agree others text ∧
      ((engine.withTags others).expand text).outcome ≠ (engine.expand text).outcome) ∧
    abbreviating.Flat ∧ ¬Scan.Refers "@a(x)".toList "y".toList ∧
      ((abbreviating.withTags more).expand "@a(x)".toList).outcome ≠
        (abbreviating.expand "@a(x)".toList).outcome := by
  intro listing engine others text taking abbreviating more
  refine ⟨⟨?_, ?_, ?_⟩, ?_, by decide, ?_⟩
  · intro definition known depth parameter baseline inner
    rw [eq_of_knows_store rfl known]
    exact id
  · have unconcerned : ¬engine.Concerns text "y".toList := by
      unfold Concerns
      decide
    exact agree_of_not_concerns unconcerned fun other different =>
      (Registry.find?_store _ _ _).trans (if_neg different)
  · decide +kernel
  · intro definition known depth parameter baseline inner
    rw [eq_of_knows_store rfl known]
    exact id
  · decide +kernel

end Engine

end TagExpansion
