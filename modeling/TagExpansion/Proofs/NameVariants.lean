import TagExpansion.Proofs.LetterCase
import TagExpansion.Proofs.Shelf

/-
This file compares the two ways in which a registry takes a name.

A registration checks that a name is made of ASCII letters before it folds their case. A look-up
folds the case of whatever it is given, and so do the question whether a name is there and the
removal of a name. The keys of a registry are lowercase ASCII letters. So the two ways come apart
only at a character that is no ASCII letter and becomes one when its case is folded, and there is
exactly one such character: the Kelvin sign. A name with a Kelvin sign in the place of a `k` is
found, and yet it cannot be registered, not even as a duplicate of the name that it finds.
-/

namespace TagExpansion

/-! ### Characters that become ASCII letters -/

namespace Text

/-- The sign of the unit of temperature, whose lowercase form is the letter `k`. -/
def kelvinSign : Char := '\u212a'

/-- A text with the letter in the place of every Kelvin sign. -/
def respelled (text : Text) : Text := text.map fun c => if c = kelvinSign then 'k' else c

theorem lowerChar_of_ne {c : Char} (other : c ≠ kelvinSign) : lowerChar c = c.toLower := by
  unfold lowerChar
  refine if_neg fun isKelvin => other ?_
  rw [← Char.ofNat_toNat c, isKelvin]
  rfl

/-- Apart from letters, only the Kelvin sign becomes a letter. -/
theorem isAlpha_of_lowerChar {c : Char} (lowercase : 'a' ≤ lowerChar c ∧ lowerChar c ≤ 'z')
    (other : c ≠ kelvinSign) : c.isAlpha = true := by
  rw [lowerChar_of_ne other] at lowercase
  rw [← Char.isAlpha_toLower_eq_isAlpha, Char.isAlpha, Bool.or_eq_true]
  refine .inr ?_
  rw [Char.isLower, Bool.and_eq_true, decide_eq_true_eq, decide_eq_true_eq]
  exact lowercase

theorem not_isAlpha_kelvinSign : kelvinSign.isAlpha = false := rfl

theorem lower_eq_map_toLower_respelled (text : Text) :
    lower text = (respelled text).map Char.toLower := by
  rw [lower, respelled, List.map_map]
  refine List.map_congr_left fun c _ => ?_
  rw [Function.comp_apply]
  split
  · rename_i isKelvin
    rw [isKelvin]
    rfl
  · rename_i other
    exact lowerChar_of_ne other

end Text

namespace Tag

open Text (kelvinSign respelled SameLetters)

/-! ### Names that become canonical -/

theorem map_toLower_of_isCanonical {key : Text} (canonical : IsCanonical key) :
    key.map Char.toLower = key := by
  refine (List.map_congr_left fun c member => ?_).trans (List.map_id key)
  have lowercase := canonical.2 c member
  refine Char.toLower_eq_of_not_isUpper fun upper => ?_
  rw [Char.isUpper, decide_eq_true_eq] at upper
  have above : 'a' ≤ 'Z' := Char.le_trans lowercase.1 upper.2
  exact absurd above (by decide)

theorem lower_eq_iff_of_isCanonical {name key : Text} (canonical : IsCanonical key) :
    Text.lower name = key ↔ SameLetters (respelled name) key := by
  rw [Text.lower_eq_map_toLower_respelled, SameLetters, map_toLower_of_isCanonical canonical]

/-- A text that becomes a canonical name is itself one that can be registered, unless it has a
Kelvin sign. -/
theorem isName_iff_of_isCanonical_lower {name : Text} (canonical : IsCanonical (Text.lower name)) :
    isName name = true ↔ kelvinSign ∉ name := by
  rw [isName, Bool.and_eq_true, List.all_eq_true]
  constructor
  · rintro ⟨-, letters⟩ member
    have isLetter := letters _ member
    rw [Text.not_isAlpha_kelvinSign] at isLetter
    cases isLetter
  · intro without
    refine ⟨?_, fun c member => ?_⟩
    · have nonempty : name ≠ [] := by simpa [Text.lower] using canonical.1
      simp [nonempty]
    · refine Text.isAlpha_of_lowerChar (canonical.2 _ (List.mem_map_of_mem member)) ?_
      rintro rfl
      exact without member

theorem canonical?_of_isCanonical_lower {name : Text} (canonical : IsCanonical (Text.lower name)) :
    canonical? name = if kelvinSign ∈ name then none else some (Text.lower name) := by
  unfold canonical?
  by_cases member : kelvinSign ∈ name
  · rw [if_pos member,
      if_neg fun valid => (isName_iff_of_isCanonical_lower canonical).mp valid member]
  · rw [if_neg member, if_pos ((isName_iff_of_isCanonical_lower canonical).mpr member)]

/-! ### Look-up and registration -/

namespace Record.Sound

variable {record : Record} (sound : record.Sound) {name : Text}

include sound

theorem contains_iff : record.registry.contains name = true ↔
    ∃ key ∈ record.registry.keys, SameLetters (respelled name) key := by
  rw [Registry.contains, Registry.lookup, Option.isSome_iff_exists, ← OrderedMap.mem_keys_iff]
  constructor
  · intro member
    exact ⟨_, member, (lower_eq_iff_of_isCanonical (sound.canonical _ member)).mp rfl⟩
  · rintro ⟨key, member, same⟩
    rw [(lower_eq_iff_of_isCanonical (sound.canonical key member)).mpr same]
    exact member

variable (contained : record.registry.contains name = true)

include contained

theorem canonical?_of_contained :
    canonical? name = if kelvinSign ∈ name then none else some (Text.lower name) := by
  refine canonical?_of_isCanonical_lower (sound.canonical _ ?_)
  exact OrderedMap.mem_keys_iff.mpr (Option.isSome_iff_exists.mp contained)

/-- A name that is there is refused, as a duplicate or, with a Kelvin sign, as no name at all. -/
theorem register_of_contained {registration : Registration} (named : registration.name = name)
    (noReplacement : registration.replace = false) :
    (record.registry.register registration).outcome =
      .error (if kelvinSign ∈ name then .invalidName name else .duplicate (Text.lower name)) := by
  have taken : record.registry.tags.contains (Text.lower name) = true := contained
  rw [Registry.register, named, sound.canonical?_of_contained contained]
  by_cases member : kelvinSign ∈ name
  · simp only [if_pos member]
    rfl
  · simp only [if_neg member, taken, noReplacement]
    rfl

end Record.Sound

/-- Whatever is done with any number of registries, looking a name up, asking for it and taking it
out agree: they find what is there under the name in another letter case, or with Kelvin signs for
the letter `k`. A name that they find has a canonical form, and is refused as a duplicate, exactly
if no Kelvin sign is in it; otherwise it is refused as no name. -/
theorem register_of_found (operations : List Operation) :
    ∀ record ∈ (Shelf.run operations).working ++ (Shelf.run operations).frozen, ∀ name,
      ((record.registry.lookup name).isSome = true ↔ record.registry.contains name = true) ∧
      ((record.registry.withdraw name).2 = true ↔ record.registry.contains name = true) ∧
      (record.registry.contains name = true ↔
        ∃ key ∈ record.registry.keys, SameLetters (respelled name) key) ∧
      (record.registry.contains name = true →
        (canonical? name = if kelvinSign ∈ name then none else some (Text.lower name)) ∧
        ∀ registration : Registration, registration.name = name → registration.replace = false →
          (record.registry.register registration).outcome =
            .error (if kelvinSign ∈ name then .invalidName name
              else .duplicate (Text.lower name))) := by
  intro record member name
  have sound : record.Sound := by
    rcases List.mem_append.mp member with working | frozen
    · exact (Shelf.sound_run operations).working record working
    · exact (Shelf.sound_run operations).frozen record frozen
  exact ⟨Iff.rfl, Iff.rfl, sound.contains_iff, fun contained =>
    ⟨sound.canonical?_of_contained contained, fun _ named noReplacement =>
      sound.register_of_contained contained named noReplacement⟩⟩

/-- A registry with two names that was frozen and thawed, and one of them in another letter case. -/
theorem register_of_found_link :
    let operations : List Operation := [.create, .register 0 { name := "Link".toList },
      .tag 0 { name := "code".toList }, .freeze 0, .thaw 0]
    ∃ record ∈ (Shelf.run operations).working ++ (Shelf.run operations).frozen,
      record.registry.contains "LINK".toList = true ∧
      canonical? "LINK".toList = some "link".toList ∧
      (record.registry.register { name := "LINK".toList }).outcome =
        .error (.duplicate "link".toList) := by
  intro operations
  have found : ((Shelf.run operations).working ++ (Shelf.run operations).frozen).map
      (fun record => record.registry.contains "LINK".toList) = [true, true, true] := by cbv
  obtain ⟨record, member, contained⟩ := List.mem_map.mp (found.symm ▸ List.mem_cons_self)
  obtain ⟨-, -, -, known⟩ := register_of_found operations record member "LINK".toList
  obtain ⟨canonical, refused⟩ := known contained
  exact ⟨record, member, contained, canonical, refused { name := "LINK".toList } rfl rfl⟩

/-- With a Kelvin sign a name is found that cannot be registered. -/
theorem register_of_found_kelvinSign :
    ∃ record ∈ (Shelf.run [.create, .register 0 { name := "link".toList }]).working,
      record.registry.contains "lin\u212a".toList = true ∧
      ((record.registry.lookup "lin\u212a".toList).map Definition.name = some "link".toList) ∧
      (record.registry.withdraw "lin\u212a".toList).2 = true ∧
      canonical? "lin\u212a".toList = none ∧
      ¬SameLetters "lin\u212a".toList "link".toList ∧
      (record.registry.register { name := "lin\u212a".toList }).outcome =
        .error (.invalidName "lin\u212a".toList) := by
  refine ⟨_, List.mem_singleton_self _, ?_⟩
  refine ⟨by cbv, by cbv, by cbv, by cbv, by decide, by cbv⟩

end Tag

end TagExpansion
