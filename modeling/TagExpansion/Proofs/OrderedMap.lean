import TagExpansion.OrderedMap
import TagExpansion.Proofs.Last

/-
This file has the theory of maps that remember the order of their keys.

A map can be looked at from two sides, the order of its keys and what is found under each of them.
The two sides together determine it. When entries are laid over a map, the values follow the rule
that the last one counts, while a key keeps the place where it came first. From this it follows that
maps with merging are a monoid, although merging is neither an append nor an override.
-/

namespace TagExpansion.OrderedMap

variable {κ α : Type} [DecidableEq κ]

/-! ### Keys and entries -/

theorem find?_eq_some_iff {map : OrderedMap κ α} {key : κ} {value : α} :
    map.find? key = some value ↔ (key, value) ∈ map.entries := by
  obtain ⟨entries, distinct⟩ := map
  simp only [find?]
  induction entries with
  | nil => simp [findIn]
  | cons entry rest inductionHypothesis =>
    obtain ⟨other, old⟩ := entry
    rw [List.map_cons, List.nodup_cons] at distinct
    by_cases same : other = key
    · have fresh : (key, value) ∉ rest := fun member =>
        distinct.1 (List.mem_map.mpr ⟨_, member, same.symm⟩)
      simp [findIn, same, fresh, eq_comm]
    · have different : key ≠ other := Ne.symm same
      simp [findIn, same, different, inductionHypothesis distinct.2]

theorem mem_keys_iff {map : OrderedMap κ α} {key : κ} :
    key ∈ map.keys ↔ ∃ value, map.find? key = some value := by
  simp [keys, find?_eq_some_iff]

theorem contains_eq_true_iff {map : OrderedMap κ α} {key : κ} :
    map.contains key = true ↔ key ∈ map.keys := by
  rw [contains, Option.isSome_iff_exists, mem_keys_iff]

/-! ### Entries laid over a map -/

/-- An entry gives the value of its key. -/
def Gives (key : κ) (entry : κ × α) (value : α) : Prop := entry = (key, value)

theorem find?_insertAll_eq_some_iff {map : OrderedMap κ α} {entries : List (κ × α)} {key : κ}
    {value : α} : (map.insertAll entries).find? key = some value ↔
      Last (Gives key) entries value ∨
        Silent (Gives key) entries ∧ map.find? key = some value := by
  induction entries generalizing map with
  | nil => simp [insertAll, not_last_nil, silent_nil]
  | cons entry others inductionHypothesis =>
    obtain ⟨other, old⟩ := entry
    rw [insertAll, List.foldl_cons, ← insertAll, inductionHypothesis, last_cons, silent_cons,
      find?_insert]
    by_cases same : other = key
    · simp [Gives, same]
    · simp [Gives, same]

/-- A map gives every key at most one value, so its order does not matter. -/
theorem last_entries_iff {map : OrderedMap κ α} {key : κ} {value : α} :
    Last (Gives key) map.entries value ↔ map.find? key = some value := by
  rw [find?_eq_some_iff]
  constructor
  · rintro ⟨before, source, after, same, rfl, -⟩
    rw [same]
    exact List.mem_append_right _ List.mem_cons_self
  · intro member
    obtain ⟨before, after, same⟩ := List.append_of_mem member
    refine ⟨before, _, after, same, rfl, ?_⟩
    rintro _ later other rfl
    have distinct := map.distinct
    rw [same, List.map_append, List.nodup_append, List.map_cons, List.nodup_cons] at distinct
    exact distinct.2.1.1 (List.mem_map.mpr ⟨_, later, rfl⟩)

theorem silent_entries_iff {map : OrderedMap κ α} {key : κ} :
    Silent (Gives key) map.entries ↔ map.find? key = none := by
  rw [silent_iff_forall_not_last, Option.eq_none_iff_forall_ne_some]
  exact forall_congr' fun value => not_congr last_entries_iff

/-! ### Maps as keys in order and a look-up -/

/-- The entries can be read off the keys and the look-up. -/
theorem map_some_entries (map : OrderedMap κ α) :
    map.entries.map some = map.keys.map fun key => (map.find? key).map (key, ·) := by
  rw [keys, List.map_map]
  refine List.map_congr_left fun entry member => ?_
  rw [Function.comp_apply, find?_eq_some_iff.mpr member, Option.map_some]

/-- Keys in order and look-up determine a map. -/
theorem ext_keys {first second : OrderedMap κ α} (keys : first.keys = second.keys)
    (find : ∀ key, first.find? key = second.find? key) : first = second := by
  have entries : first.entries = second.entries := by
    refine (List.map_inj_right fun _ _ => Option.some.inj).mp ?_
    rw [map_some_entries, map_some_entries, keys]
    simp only [find]
  obtain ⟨entries, distinct⟩ := first
  obtain ⟨others, different⟩ := second
  cases entries
  rfl

/-- Keys that come only once go behind the known ones, as far as they are new. -/
theorem keys_insertAll {map : OrderedMap κ α} {entries : List (κ × α)}
    (distinct : (entries.map Prod.fst).Nodup) :
    (map.insertAll entries).keys =
      map.keys ++ (entries.map Prod.fst).filter fun key => key ∉ map.keys := by
  induction entries generalizing map with
  | nil => exact (List.append_nil _).symm
  | cons entry others inductionHypothesis =>
    obtain ⟨key, value⟩ := entry
    rw [List.map_cons, List.nodup_cons] at distinct
    -- The key is not among the later ones, so for these it does not matter that it is known now.
    have later : (others.map Prod.fst).filter (fun other => other ∉ (map.insert key value).keys) =
        (others.map Prod.fst).filter fun other => other ∉ map.keys := by
      refine List.filter_congr fun other member => ?_
      have different : other ≠ key := fun same => distinct.1 (same ▸ member)
      rw [keys_insert]
      split <;> simp [different]
    rw [insertAll, List.foldl_cons, ← insertAll, inductionHypothesis distinct.2, later, keys_insert,
      List.map_cons]
    by_cases known : key ∈ map.keys
    · simp [known]
    · simp [known]

theorem keys_merge (lower upper : OrderedMap κ α) :
    (lower.merge upper).keys = lower.keys ++ upper.keys.filter fun key => key ∉ lower.keys :=
  keys_insertAll upper.distinct

theorem find?_merge (lower upper : OrderedMap κ α) (key : κ) :
    (lower.merge upper).find? key = (upper.find? key).or (lower.find? key) := by
  refine Option.ext fun value => ?_
  rw [Option.or_eq_some_iff, merge, find?_insertAll_eq_some_iff, last_entries_iff,
    silent_entries_iff]

@[simp] theorem find?_empty (key : κ) : (empty : OrderedMap κ α).find? key = none := rfl

theorem merge_empty (map : OrderedMap κ α) : map.merge empty = map := rfl

theorem empty_merge (map : OrderedMap κ α) : empty.merge map = map := by
  refine ext_keys ?_ fun key => ?_
  · rw [keys_merge]
    simp [empty, keys]
  · rw [find?_merge, find?_empty, Option.or_none]

theorem merge_assoc (lower middle upper : OrderedMap κ α) :
    (lower.merge middle).merge upper = lower.merge (middle.merge upper) := by
  refine ext_keys ?_ fun key => ?_
  · -- A key of the uppermost map is new on both sides if neither of the others has it.
    have new : upper.keys.filter (fun key => key ∉ (lower.merge middle).keys) =
        (upper.keys.filter fun key => key ∉ middle.keys).filter fun key => key ∉ lower.keys := by
      rw [List.filter_filter]
      refine List.filter_congr fun key _ => ?_
      rw [keys_merge]
      by_cases known : key ∈ lower.keys
      · simp [known]
      · simp [known]
    rw [keys_merge, new, keys_merge, keys_merge, keys_merge, List.filter_append, List.append_assoc]
  · rw [find?_merge, find?_merge, find?_merge, find?_merge, Option.or_assoc]

/-! ### Maps made of lists -/

theorem insertAll_append (map : OrderedMap κ α) (first second : List (κ × α)) :
    map.insertAll (first ++ second) = (map.insertAll first).insertAll second :=
  List.foldl_append

/-- To insert an entry is to lay the map with this entry alone over what is there. -/
theorem insert_eq_merge (map : OrderedMap κ α) (key : κ) (value : α) :
    map.insert key value = map.merge (empty.insert key value) := rfl

theorem merge_insert (lower upper : OrderedMap κ α) (key : κ) (value : α) :
    lower.merge (upper.insert key value) = (lower.merge upper).insert key value := by
  rw [insert_eq_merge, insert_eq_merge (lower.merge upper), merge_assoc]

/-- Entries that are laid over a map that is laid over another are laid over what the two make. -/
theorem merge_insertAll (lower upper : OrderedMap κ α) (entries : List (κ × α)) :
    lower.merge (upper.insertAll entries) = (lower.merge upper).insertAll entries := by
  induction entries generalizing upper with
  | nil => rfl
  | cons entry others inductionHypothesis =>
    rw [insertAll, List.foldl_cons, ← insertAll, inductionHypothesis, merge_insert]
    rfl

/-- The map of two lists is the map of the second laid over that of the first. -/
theorem ofList_append (first second : List (κ × α)) :
    ofList (first ++ second) = (ofList first).merge (ofList second) := by
  calc ofList (first ++ second) = (ofList first).insertAll second := insertAll_append _ _ _
    _ = (ofList first).merge (empty.insertAll second) := by rw [merge_insertAll, merge_empty]

theorem ofList_entries (map : OrderedMap κ α) : ofList map.entries = map := empty_merge map

theorem mem_of_mem_entries_ofList {entries : List (κ × α)} {key : κ} {value : α}
    (member : (key, value) ∈ (ofList entries).entries) : (key, value) ∈ entries := by
  rw [← find?_eq_some_iff, ofList, find?_insertAll_eq_some_iff] at member
  rcases member with ⟨before, _, after, rfl, rfl, -⟩ | ⟨-, none⟩
  · exact List.mem_append_right before List.mem_cons_self
  · cases none

end TagExpansion.OrderedMap
