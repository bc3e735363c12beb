import TagExpansion.Proofs.Alteration
import TagExpansion.Proofs.ParameterForms

/-
This file proves that the letter case of a tag's name is seen by nobody.

Letter case is folded where a tag is registered, where a name is looked up and where a name gets
into a report. So a text may have the letters of its tags' names in any case, as long as nothing
else in it changes: it falls into the same pieces, except for the letters themselves, and the
letters are not read again. The runs are then not only alike but the same, entry by entry. This is
said of tags that are found, and of nothing else: letters behind a tag character that name no tag
are ordinary text and come out as they stand.

A registration with the name in another case asks for the same definition, and is refused if and
only if the other one is. So the same registry comes about.
-/

namespace TagExpansion

/-! ### Texts up to letter case -/

namespace Text

/-- Two texts that are the same but for the case of ASCII letters. -/
def SameLetters (text other : Text) : Prop := text.map Char.toLower = other.map Char.toLower

instance (text other : Text) : Decidable (SameLetters text other) :=
  inferInstanceAs (Decidable (text.map Char.toLower = other.map Char.toLower))

theorem isAlpha_congr {c d : Char} (same : c.toLower = d.toLower) : c.isAlpha = d.isAlpha := by
  rw [← c.isAlpha_toLower_eq_isAlpha, same, d.isAlpha_toLower_eq_isAlpha]

/-- Only letters have a case. -/
theorem eq_of_not_isAlpha {c d : Char} (same : c.toLower = d.toLower) (noLetter : ¬c.isAlpha) :
    c = d := by
  have unchanged {e : Char} (noLetter : ¬e.isAlpha) : e.toLower = e :=
    Char.toLower_eq_of_not_isUpper fun upper => noLetter (by rw [Char.isAlpha, upper]; rfl)
  rw [← unchanged noLetter, same, unchanged (isAlpha_congr same ▸ noLetter)]

/-- A class of characters without letters does not see letter case. -/
theorem class_congr (isOf : Char → Bool) (noLetters : ∀ c, c.isAlpha → isOf c = false) {c d : Char}
    (same : c.toLower = d.toLower) : isOf c = isOf d := by
  by_cases isAlpha : c.isAlpha
  · rw [noLetters c isAlpha, noLetters d (isAlpha_congr same ▸ isAlpha)]
  · rw [eq_of_not_isAlpha same isAlpha]

theorem isLineBreak_of_isAlpha {c : Char} (isAlpha : c.isAlpha) : isLineBreak c = false := by
  refine eq_false_of_ne_true fun isBreak => ?_
  have either : c = '\r' ∨ c = '\n' := by simpa [isLineBreak] using isBreak
  rcases either with rfl | rfl <;> exact absurd isAlpha (by decide)

theorem lowerChar_eq_toLower {c : Char} (isAlpha : c.isAlpha) : lowerChar c = c.toLower := by
  unfold lowerChar
  rw [if_neg]
  intro isKelvin
  have same : c = Char.ofNat 0x212a := by rw [← isKelvin, Char.ofNat_toNat]
  rw [same] at isAlpha
  exact absurd isAlpha (by decide)

namespace SameLetters

variable {text other : Text}

theorem refl (text : Text) : SameLetters text text := rfl

theorem symm (same : SameLetters text other) : SameLetters other text := Eq.symm same

theorem length (same : SameLetters text other) : text.length = other.length := by
  rw [← List.length_map Char.toLower, same, List.length_map]

theorem append {front front' : Text} (first : SameLetters front front')
    (second : SameLetters text other) : SameLetters (front ++ text) (front' ++ other) := by
  unfold SameLetters at first second ⊢
  rw [List.map_append, List.map_append, first, second]

/-- Texts with a front part of the same length agree in both parts. -/
theorem of_append {front front' back back' : Text}
    (same : SameLetters (front ++ back) (front' ++ back')) (length : front.length = front'.length) :
    SameLetters front front' ∧ SameLetters back back' := by
  unfold SameLetters at same
  rw [List.map_append, List.map_append] at same
  exact List.append_inj same (by rw [List.length_map, List.length_map, length])

theorem eq_nil (same : SameLetters text other) (nothing : text = []) : other = [] :=
  List.length_eq_zero_iff.mp (by rw [← same.length, nothing, List.length_nil])

theorem head? (same : SameLetters text other) {d : Char} (isHead : other.head? = some d) :
    ∃ c, text.head? = some c ∧ c.toLower = d.toLower := by
  have heads := congrArg List.head? same
  rw [List.head?_map, List.head?_map, isHead] at heads
  exact Option.map_eq_some_iff.mp heads

theorem isAlpha (same : SameLetters text other) (letters : ∀ c ∈ text, c.isAlpha = true) :
    ∀ d ∈ other, d.isAlpha = true := by
  intro d member
  have lowered := List.mem_map_of_mem (f := Char.toLower) member
  rw [← same] at lowered
  obtain ⟨c, isLetter, sameLetter⟩ := List.mem_map.mp lowered
  rw [← isAlpha_congr sameLetter]
  exact letters c isLetter

/-- Letters in any case have the same canonical form. -/
theorem lower (same : SameLetters text other) (letters : ∀ c ∈ text, c.isAlpha = true) :
    Text.lower text = Text.lower other := by
  have lowered {word : Text} (letters : ∀ c ∈ word, c.isAlpha = true) :
      Text.lower word = word.map Char.toLower :=
    List.map_congr_left fun c member => lowerChar_eq_toLower (letters c member)
  rw [lowered letters, lowered (same.isAlpha letters), same]

theorem takeWhile_isAlpha (same : SameLetters text other) :
    SameLetters (text.takeWhile Char.isAlpha) (other.takeWhile Char.isAlpha) := by
  have folded (word : Text) : (word.takeWhile Char.isAlpha).map Char.toLower =
      (word.map Char.toLower).takeWhile Char.isAlpha := by
    rw [List.takeWhile_map]
    exact congrArg (List.map Char.toLower)
      (congrArg (List.takeWhile · word) (funext fun c => c.isAlpha_toLower_eq_isAlpha.symm))
  unfold SameLetters
  rw [folded, folded, same]

end SameLetters

end Text

open Text (SameLetters)

/-! ### Pieces up to letter case -/

namespace Scan

open Tag (Definition Registry)

variable {tags : Registry} {definition : Definition}
  {letters letters' rest rest' after after' : Text}

/-- Two pieces that differ at most in the case of the letters of a tag's name. -/
inductive Piece.Recased : Piece → Piece → Prop where
  | tag (definition : Definition) {letters letters' : Text} (argument : Argument)
      (isName : ∀ c ∈ letters, c.isAlpha = true) (same : SameLetters letters letters') :
      Recased (.tag definition letters argument) (.tag definition letters' argument)
  | refl (piece : Piece) : Recased piece piece

theorem Piece.Recased.length_source {piece other : Piece} (recased : piece.Recased other) :
    piece.source.length = other.source.length := by
  cases recased with
  | tag definition argument isName same =>
    simp only [Piece.source, List.length_append, List.length_cons, same.length]
  | refl => rfl

theorem Longest.recased {isOf : Char → Bool} {front back back' : Text}
    (longest : Longest isOf front back)
    (blind : ∀ {c d : Char}, c.toLower = d.toLower → isOf c = isOf d)
    (same : SameLetters back back') : Longest isOf front back' := by
  refine ⟨longest.all, fun d isHead => ?_⟩
  obtain ⟨c, wasHead, sameLetter⟩ := same.head? isHead
  rw [← blind sameLetter]
  exact longest.stop c wasHead

theorem not_isLineBreak_congr {c d : Char} (same : c.toLower = d.toLower) :
    (!Text.isLineBreak c) = !Text.isLineBreak d := by
  exact congrArg (!·)
    (Text.class_congr Text.isLineBreak (fun _ => Text.isLineBreak_of_isAlpha) same)

theorem ne_tagChar_congr {c d : Char} (same : c.toLower = d.toLower) :
    (c != tagChar) = (d != tagChar) := by
  refine congrArg (!·) (Text.class_congr (· == tagChar) (fun e isAlpha => ?_) same)
  refine eq_false_of_ne_true fun isTag => ?_
  rw [beq_iff_eq.mp isTag] at isAlpha
  exact absurd isAlpha (by decide)

theorem namedTag?_congr (same : SameLetters rest rest') :
    namedTag? tags rest = namedTag? tags rest' := by
  have named := same.takeWhile_isAlpha
  have lowered := named.lower fun c member => List.mem_takeWhile_imp member
  have isEmpty :
      (rest.takeWhile Char.isAlpha).isEmpty = (rest'.takeWhile Char.isAlpha).isEmpty := by
    rw [← List.isEmpty_map (f := Char.toLower), named, List.isEmpty_map]
  simp only [namedTag?, Registry.lookup, isEmpty, lowered]

theorem Names.recased (names : Names tags letters rest definition)
    (sameName : SameLetters letters letters') (sameRest : SameLetters rest rest') :
    Names tags letters' rest' definition where
  nonempty := fun nothing => names.nonempty (sameName.symm.eq_nil nothing)
  longest := ⟨sameName.isAlpha names.longest.all,
    (names.longest.recased Text.isAlpha_congr sameRest).stop⟩
  registered := by
    rw [← sameName.lower names.longest.all]
    exact names.registered

/-- An argument is the same whatever the letter case of what follows it. -/
theorem Takes.recased {argument : Argument} (takes : Takes definition rest argument after)
    (same : SameLetters after after') :
    Takes definition (argument.source ++ after') argument after' := by
  have noParenthesis {text text' : Text} (same : SameLetters text text')
      (none : text.head? ≠ some '(') : text'.head? ≠ some '(' := by
    intro isHead
    obtain ⟨c, wasHead, sameLetter⟩ := same.head? isHead
    rw [← Text.eq_of_not_isAlpha sameLetter.symm (by decide)] at wasHead
    exact none wasHead
  cases takes with
  | enclosed balanced =>
    rw [Argument.source, List.append_assoc]
    exact .enclosed balanced
  | unclosed unmatched =>
    rw [same.eq_nil rfl, Argument.source, List.append_nil]
    exact .unclosed unmatched
  | line none required longest =>
    exact .line (noParenthesis ((SameLetters.refl _).append same) none) required
      (longest.recased not_isLineBreak_congr same)
  | absent none notRequired => exact .absent (noParenthesis same none) notRequired

theorem Begins.isAlpha {text : Text} {argument : Argument}
    (begins : Begins tags text (.tag definition letters argument) after) :
    ∀ c ∈ letters, c.isAlpha = true := by
  cases begins with
  | tag names takes => exact names.longest.all

/-- What stands at the front of a text stands there in any letter case of its name and of what
follows. -/
theorem Begins.recased {text : Text} {piece piece' : Piece} (begins : Begins tags text piece after)
    (recased : piece.Recased piece') (same : SameLetters after after') :
    Begins tags (piece'.source ++ after') piece' after' := by
  have sameText : SameLetters text (piece.source ++ after') := by
    rw [← begins.source_append]
    exact (SameLetters.refl _).append same
  cases begins with
  | tag names takes =>
    obtain ⟨letters', piece', sameName⟩ : ∃ letters', piece' = .tag _ letters' _ ∧
        SameLetters _ letters' := by
      cases recased with
      | tag definition argument isName sameName => exact ⟨_, rfl, sameName⟩
      | refl => exact ⟨_, rfl, .refl _⟩
    subst piece'
    rw [Piece.source, List.append_assoc]
    refine .tag (names.recased sameName ?_) (takes.recased same)
    rw [Piece.source, List.append_assoc] at sameText
    exact (sameText.of_append rfl).2
  | escape =>
    cases recased
    exact .escape
  | @segment c others _ noTag noEscape longest =>
    cases recased
    refine .segment (fun letters rest definition whole names => ?_) (fun escape => ?_)
      (longest.recased ne_tagChar_congr same)
    · -- A name that is found now would have been found before.
      have found := names.namedTag?
      rw [List.cons_append, List.cons_append] at whole
      obtain ⟨isTag, whole⟩ := List.cons.inj whole
      rw [← whole, ← namedTag?_congr ((SameLetters.refl others).append same)] at found
      refine noTag _ _ definition ?_ (namedTag?_eq_some_iff.mp found)
      rw [List.cons_append, List.cons_append, List.takeWhile_append_dropWhile, isTag]
    · rw [List.cons_append, List.cons_prefix_cons] at escape
      obtain ⟨isTag, behind, second⟩ := escape
      obtain ⟨d, isHead, sameLetter⟩ := ((SameLetters.refl others).append same).head?
        (d := tagChar) (by rw [← second]; rfl)
      rw [← Text.eq_of_not_isAlpha sameLetter.symm (by decide), List.head?_eq_some_iff] at isHead
      obtain ⟨further, sameSecond⟩ := isHead
      rw [List.cons_append, sameSecond, ← isTag] at noEscape
      exact noEscape ⟨further, rfl⟩

/-! ### Texts that differ in the names of tags -/

/-- A position in the name of a tag that is found in a text. -/
def InName (tags : Registry) (text : Text) (position : Nat) : Prop :=
  ∃ front definition letters argument behind,
    pieces tags text = front ++ .tag definition letters argument :: behind ∧
      (front.flatMap Piece.source).length < position ∧
        position ≤ (front.flatMap Piece.source).length + letters.length

/-- Two texts that differ in the case of letters, and only inside the names of tags that are found
in the first of them. -/
structure Recased (tags : Registry) (text other : Text) : Prop where
  sameLetters : SameLetters text other
  inNames : ∀ position, text[position]? ≠ other[position]? → InName tags text position

/-- A position in a name is in that of the first piece or belongs to the text behind it. -/
theorem inName_cases {text : Text} {piece : Piece} (begins : Begins tags text piece after)
    {position : Nat} (inName : InName tags text position) :
    (∃ definition letters argument, piece = .tag definition letters argument ∧
        0 < position ∧ position ≤ letters.length) ∨
      ∃ inner, position = piece.source.length + inner ∧ InName tags after inner := by
  obtain ⟨front, definition, letters, argument, behind, split, start, stop⟩ := inName
  rw [pieces_of_begins begins] at split
  cases front with
  | nil =>
    obtain ⟨isTag, -⟩ := List.cons.inj split
    rw [List.flatMap_nil, List.length_nil, Nat.zero_add] at stop
    exact .inl ⟨definition, letters, argument, isTag, start, stop⟩
  | cons first front =>
    obtain ⟨isFirst, others⟩ := List.cons.inj split
    subst isFirst
    rw [List.flatMap_cons, List.length_append] at start stop
    refine .inr ⟨position - piece.source.length, by omega, front, definition, letters, argument,
      behind, others, ?_, ?_⟩
    · omega
    · omega

theorem exists_eq_append {text : Text} {first second : Nat}
    (length : text.length = first + second) :
    ∃ front back, text = front ++ back ∧ front.length = first ∧ back.length = second := by
  refine ⟨text.take first, text.drop first, (List.take_append_drop _ _).symm, ?_, ?_⟩
  · rw [List.length_take, length, Nat.min_eq_left (Nat.le_add_right _ _)]
  · rw [List.length_drop, length, Nat.add_sub_cancel_left]

namespace Recased

variable {text other : Text} {piece : Piece}

/-- Outside of names the texts are the same, as far as the first piece reaches. -/
theorem source_eq {source' : Text}
    (recased : Recased tags (piece.source ++ after) (source' ++ after'))
    (begins : Begins tags (piece.source ++ after) piece after)
    (length : piece.source.length = source'.length) (position : Nat)
    (outside : ∀ definition letters argument, piece = .tag definition letters argument →
      0 < position → letters.length < position) :
    piece.source[position]? = source'[position]? := by
  by_cases inside : position < piece.source.length
  · have same : (piece.source ++ after)[position]? = (source' ++ after')[position]? := by
      by_contra different
      rcases inName_cases begins (recased.inNames position different) with
        ⟨definition, letters, argument, isTag, start, stop⟩ | ⟨inner, isLater, -⟩
      · exact absurd (outside definition letters argument isTag start) (Nat.not_lt.mpr stop)
      · omega
    rwa [List.getElem?_append_left inside, List.getElem?_append_left (length ▸ inside)] at same
  · rw [List.getElem?_eq_none (Nat.le_of_not_lt inside),
      List.getElem?_eq_none (length ▸ Nat.le_of_not_lt inside)]

/-- The first piece of the one text is that of the other, and so on behind it. -/
theorem exists_begins (recased : Recased tags text other) (begins : Begins tags text piece after) :
    ∃ piece' after', Begins tags other piece' after' ∧ piece.Recased piece' ∧
      Recased tags after after' := by
  have whole := begins.source_append
  subst whole
  have whole : other.length = piece.source.length + after.length := by
    rw [← recased.sameLetters.length, List.length_append]
  obtain ⟨source', after', rfl, length, -⟩ := exists_eq_append whole
  obtain ⟨sameSource, sameAfter⟩ := recased.sameLetters.of_append length.symm
  have later : Recased tags after after' := by
    refine ⟨sameAfter, fun inner different => ?_⟩
    have moved : (piece.source ++ after)[piece.source.length + inner]? ≠
        (source' ++ after')[piece.source.length + inner]? := by
      rw [List.getElem?_append_right (Nat.le_add_right _ _), Nat.add_sub_cancel_left,
        List.getElem?_append_right (by omega), length, Nat.add_sub_cancel_left]
      exact different
    rcases inName_cases begins (recased.inNames _ moved) with
      ⟨definition, letters, argument, rfl, -, stop⟩ | ⟨same, isSame, inName⟩
    · simp only [Piece.source, List.length_append, List.length_cons] at stop
      omega
    · rwa [Nat.add_left_cancel isSame]
  suffices found : ∃ piece', piece.Recased piece' ∧ piece'.source = source' by
    obtain ⟨piece', recasedPiece, rfl⟩ := found
    exact ⟨piece', after', begins.recased recasedPiece sameAfter, recasedPiece, later⟩
  cases piece with
  | segment segment =>
    refine ⟨_, .refl _, List.ext_getElem? fun position => ?_⟩
    exact recased.source_eq begins length.symm position fun _ _ _ isTag => by cases isTag
  | escape =>
    refine ⟨_, .refl _, List.ext_getElem? fun position => ?_⟩
    exact recased.source_eq begins length.symm position fun _ _ _ isTag => by cases isTag
  | tag definition letters argument =>
    -- The other source has a character, as many letters, and a text as long as the argument.
    have sizes := length
    rw [Piece.source, List.length_append, List.length_cons] at sizes
    obtain ⟨front, last, rfl, frontLength, -⟩ := exists_eq_append sizes
    obtain ⟨c, letters', rfl⟩ := List.exists_cons_of_length_eq_add_one frontLength
    rw [List.length_cons, Nat.add_right_cancel_iff] at frontLength
    have first := recased.source_eq begins length.symm 0 fun _ _ _ _ positive =>
      absurd positive (Nat.lt_irrefl 0)
    have isArgument : argument.source = last := by
      refine List.ext_getElem? fun position => ?_
      have same := recased.source_eq begins length.symm (letters.length + 1 + position)
        fun _ _ _ isTag _ => by cases isTag; omega
      rw [Piece.source, List.getElem?_append_right (by rw [List.length_cons]; omega),
        List.getElem?_append_right (by rw [List.length_cons]; omega), List.length_cons,
        List.length_cons, frontLength, Nat.add_sub_cancel_left] at same
      exact same
    have isTag : tagChar = c := Option.some.inj first
    subst isArgument isTag
    refine ⟨.tag definition letters' argument, .tag _ _ begins.isAlpha ?_, rfl⟩
    have sameParts : SameLetters ((tagChar :: letters) ++ argument.source)
        ((tagChar :: letters') ++ argument.source) := sameSource
    have sameFront := (sameParts.of_append (by
      rw [List.length_cons, List.length_cons, frontLength])).1
    exact (List.cons.inj sameFront).2

/-- The letters of a tag at the front of a text may be in any case. -/
theorem of_begins {argument : Argument} (same : SameLetters letters letters')
    (begins : Begins tags (tagChar :: letters ++ rest) (.tag definition letters argument) after) :
    Recased tags (tagChar :: letters ++ rest) (tagChar :: letters' ++ rest) := by
  have sameText := (SameLetters.refl [tagChar]).append (same.append (.refl rest))
  refine ⟨sameText, fun position different =>
    ⟨[], definition, letters, argument, pieces tags after, pieces_of_begins begins, ?_⟩⟩
  rw [List.flatMap_nil, List.length_nil, Nat.zero_add]
  by_contra outside
  refine different ?_
  match position with
  | 0 => rfl
  | position + 1 =>
    have behind : letters.length ≤ position := by omega
    rw [List.cons_append, List.cons_append, List.getElem?_cons_succ, List.getElem?_cons_succ,
      List.getElem?_append_right behind, List.getElem?_append_right (same.length ▸ behind),
      same.length]

end Recased

/-- Texts that differ in the letter case of names fall into the same pieces, up to these letters. -/
theorem recased_pieces {text other : Text} (recased : Recased tags text other) :
    List.Forall₂ Piece.Recased (pieces tags text) (pieces tags other) := by
  fun_induction pieces tags text generalizing other with
  | case1 =>
    rw [recased.sameLetters.eq_nil rfl, pieces]
    exact .nil
  | case2 c rest inductionHypothesis =>
    obtain ⟨piece', after', begins, recasedPiece, later⟩ :=
      recased.exists_begins (begins_readPiece tags c rest)
    rw [pieces_of_begins begins]
    exact .cons recasedPiece (inductionHypothesis later)

end Scan

/-! ### Runs -/

namespace Engine

open Scan (Piece Recased)
open Tag (Registration Registry)

variable {engine : Engine} {nested : Text → Run Text} {depth : Nat}

/-- The letters of a name are read once more, for a report, and in their canonical form. -/
theorem expandPiece_recased {piece piece' : Piece} (recased : piece.Recased piece') (start : Nat) :
    engine.expandPiece nested depth start piece' = engine.expandPiece nested depth start piece := by
  have length := recased.length_source
  cases recased with
  | @tag definition letters letters' argument isName same =>
    have reported :
        engine.reportArgument letters' argument = engine.reportArgument letters argument := by
      unfold reportArgument
      rw [same.lower isName]
    simp only [expandPiece, ← length, reported]
  | refl => rfl

theorem expandPieces_recased {pieces pieces' : List Piece}
    (recased : List.Forall₂ Piece.Recased pieces pieces') (start : Nat) :
    engine.expandPieces nested depth start pieces' =
      engine.expandPieces nested depth start pieces := by
  induction recased generalizing start with
  | nil => rfl
  | cons first others inductionHypothesis =>
    rw [expandPieces, expandPieces, expandPiece_recased first, first.length_source,
      inductionHypothesis]

end Engine

/-! ### Registrations -/

namespace Tag

/-- Two registrations that differ at most in the letter case of the name. -/
structure Registration.Recased (registration other : Registration) : Prop where
  name : SameLetters registration.name other.name
  rest : other = { registration with name := other.name }

theorem isName_congr {name other : Text} (same : SameLetters name other) :
    isName name = isName other := by
  have isEmpty : name.isEmpty = other.isEmpty := by
    rw [← List.isEmpty_map (f := Char.toLower), same, List.isEmpty_map]
  have letters : name.all Char.isAlpha = other.all Char.isAlpha :=
    Bool.eq_iff_iff.mpr (by
      rw [List.all_eq_true, List.all_eq_true]
      exact ⟨same.isAlpha, same.symm.isAlpha⟩)
  rw [isName, isName, isEmpty, letters]

namespace Registry

/-- The registry after several registrations, each of which may be refused. -/
def registerEach (registry : Registry) (registrations : List Registration) : Registry :=
  registrations.foldl (fun registry registration => (registry.alter (.register registration)).1)
    registry

/-- Both registrations are accepted with the same definition, or both are refused. -/
theorem register_recased (registry : Registry) {registration other : Registration}
    (recased : registration.Recased other) (result : Registry × Definition) :
    (registry.register other).outcome = .ok result ↔
      (registry.register registration).outcome = .ok result := by
  obtain ⟨same, rest⟩ := recased
  rw [rest, register, register, canonical?, canonical?, ← isName_congr same]
  cases valid : isName registration.name with
  | false =>
    constructor
    · intro accepted
      cases accepted
    · intro accepted
      cases accepted
  | true =>
    rw [same.lower (List.all_eq_true.mp (Bool.and_eq_true_iff.mp valid).2)]
    exact Iff.rfl

/-- A refused registration changes nothing, in whatever words it is refused. -/
theorem alter_recased (registry : Registry) {registration other : Registration}
    (recased : registration.Recased other) :
    (registry.alter (.register other)).1 = (registry.alter (.register registration)).1 := by
  have same := registry.register_recased recased
  cases ended : (registry.register registration).outcome with
  | ok result => simp only [alter, ended, (same result).mpr ended]
  | error refusal =>
    cases ended' : (registry.register other).outcome with
    | ok result =>
      rw [(same result).mp ended'] at ended
      cases ended
    | error refusal' => simp only [alter, ended, ended']

variable {registrations variants : List Registration}

theorem registerEach_recased (recased : List.Forall₂ Registration.Recased registrations variants)
    (registry : Registry) :
    registry.registerEach variants = registry.registerEach registrations := by
  induction recased generalizing registry with
  | nil => rfl
  | cons first others inductionHypothesis =>
    unfold registerEach at inductionHypothesis ⊢
    rw [List.foldl_cons, List.foldl_cons, registry.alter_recased first, inductionHypothesis]

theorem registerAll_recased (recased : List.Forall₂ Registration.Recased registrations variants)
    (registry built : Registry) :
    (registry.registerAll variants).outcome = .ok built ↔
      (registry.registerAll registrations).outcome = .ok built := by
  induction recased generalizing registry with
  | nil => rfl
  | cons first others inductionHypothesis =>
    rw [outcome_registerAll_cons_eq_ok_iff, outcome_registerAll_cons_eq_ok_iff]
    exact exists₂_congr fun next definition =>
      and_congr (registry.register_recased first (next, definition)) (inductionHypothesis next)

end Registry

end Tag

namespace Engine

open Scan (Recased)
open Tag (Registration Registry)

/-- The letters of the names of tags may be in any case. In a text that is scanned they make no
difference to the run of it: not to what it gives, to calls, reports and diagnostics, nor to the
log. In registrations they make no difference to the registry that comes about, whether refused
registrations are passed over or end the sequence, and so to no run of an engine with it. -/
theorem expandAt_of_recased (engine : Engine) :
    (∀ {depth : Nat}, depth < engine.maxDepth → ∀ {text other : Text},
      Recased engine.tags text other → engine.expandAt depth other = engine.expandAt depth text) ∧
    ∀ {registrations variants : List Registration},
      List.Forall₂ Registration.Recased registrations variants → ∀ registry : Registry,
        registry.registerEach variants = registry.registerEach registrations ∧
        (∀ built, (registry.registerAll variants).outcome = .ok built ↔
          (registry.registerAll registrations).outcome = .ok built) ∧
        ∀ depth text,
          { engine with tags := registry.registerEach variants }.expandAt depth text =
            { engine with tags := registry.registerEach registrations }.expandAt depth text := by
  refine ⟨fun below text other recased => ?_, fun recased registry => ?_⟩
  · rw [expandAt_of_lt engine below, expandAt_of_lt engine below,
      expandPieces_recased (Scan.recased_pieces recased)]
  · have same := Registry.registerEach_recased recased registry
    exact ⟨same, Registry.registerAll_recased recased registry, fun depth text => by rw [same]⟩

/-- The name of a tag whose parenthesis is not closed, and a name that is registered twice. -/
theorem expandAt_of_recased_bold :
    let engine : Engine := { tags := .builtin .plain, sink := .collect }
    let registrations : List Registration := [{ name := "Tag".toList }, { name := "tag".toList }]
    let variants : List Registration := [{ name := "tAg".toList }, { name := "TAG".toList }]
    0 < engine.maxDepth ∧ Recased engine.tags "@Bold(a".toList "@bOLD(a".toList ∧
      engine.expandAt 0 "@bOLD(a".toList = engine.expandAt 0 "@Bold(a".toList ∧
      List.Forall₂ Registration.Recased registrations variants ∧
      Registry.empty.registerEach variants = Registry.empty.registerEach registrations := by
  intro engine registrations variants
  have below : 0 < engine.maxDepth := by decide
  have spells : Scan.Spells engine.tags "Bold".toList
      ⟨"bold".toList, true, true, some (Tag.enclosing (['*'], ['*']))⟩ := ⟨by decide, rfl⟩
  have unmatched := Scan.splitClosing_eq_none_iff.mp
    (show Scan.splitClosing 0 "a".toList = none by decide)
  have inAnyCase : SameLetters "Bold".toList "bOLD".toList := by decide +kernel
  have names := spells.names (show ¬Char.isAlpha '(' by decide) "a".toList
  have recased : Recased engine.tags "@Bold(a".toList "@bOLD(a".toList :=
    .of_begins inAnyCase (.tag names (.unclosed unmatched))
  have renamed : List.Forall₂ Registration.Recased registrations variants :=
    .cons ⟨by decide +kernel, rfl⟩ (.cons ⟨by decide +kernel, rfl⟩ .nil)
  obtain ⟨texts, registries⟩ := expandAt_of_recased engine
  exact ⟨below, recased, texts below recased, renamed, (registries renamed .empty).1⟩

end Engine

end TagExpansion
