import TagExpansion.Proofs.OrderedMap
import TagExpansion.Proofs.Registry

/-
This file proves that a registry can be listed.

The names of a registry are its keys in increasing order, and the definitions are what stands under
them. So both lists have every name once, and none is passed over. For this nothing has to be known
about the registry. If what stands under a name bears it, then the names of the definitions are the
names themselves, and no name comes twice among the definitions.

The order of names is the order of texts by their first different character.
-/

namespace TagExpansion

/-! ### The order of texts -/

namespace Text

/-- A text stands before another in the order of their first different characters. -/
def Precedes (first second : Text) : Prop := List.Lex (fun c d => c.toNat < d.toNat) first second

theorem isBefore_eq_true_iff {first second : Text} :
    isBefore first second = true ↔ first.Precedes second := by
  unfold Precedes
  fun_induction isBefore first second with
  | case1 => exact iff_of_false Bool.false_ne_true List.not_lex_nil
  | case2 c rest => exact iff_of_true rfl .nil
  | case3 c rest => exact iff_of_false Bool.false_ne_true List.not_lex_nil
  | case4 first second c inductionHypothesis =>
    rw [inductionHypothesis, List.cons_lex_cons_iff]
    simp
  | case5 c first d second different =>
    rw [List.cons_lex_cons_iff, decide_eq_true_iff]
    simp [different]

theorem Precedes.trans {first second third : Text} (lower : first.Precedes second)
    (upper : second.Precedes third) : first.Precedes third :=
  List.lex_trans Nat.lt_trans lower upper

theorem Precedes.asymm {first second : Text} (before : first.Precedes second) :
    ¬second.Precedes first :=
  List.lex_asymm Nat.lt_asymm before

/-- Of two different texts one stands before the other. -/
theorem precedes_of_ne {first second : Text} (different : first ≠ second)
    (notBehind : ¬second.Precedes first) : first.Precedes second := by
  refine Classical.byContradiction fun notBefore => different ?_
  refine List.lex_trichotomous (fun c d notLess notGreater => ?_) notBehind notBefore
  exact Char.toNat_inj.mp (by omega)

theorem not_precedes_trans {first second third : Text} (lower : ¬second.Precedes first)
    (upper : ¬third.Precedes second) : ¬third.Precedes first := by
  intro behind
  by_cases same : first = second
  · exact upper (same ▸ behind)
  · exact upper (behind.trans (precedes_of_ne same lower))

theorem not_precedes_total (first second : Text) :
    ¬second.Precedes first ∨ ¬first.Precedes second :=
  List.not_lex_total (fun c d => by omega) second first

theorem not_isBefore_eq_true_iff {first second : Text} :
    (!isBefore second first) = true ↔ ¬second.Precedes first := by
  rw [Bool.not_eq_true', Bool.eq_false_iff, ne_eq, isBefore_eq_true_iff]

end Text

/-! ### Names and definitions of a registry -/

namespace Tag.Registry

variable (registry : Registry)

theorem perm_names : registry.names.Perm registry.keys := List.mergeSort_perm _ _

theorem mem_names_iff {key : Text} : key ∈ registry.names ↔ key ∈ registry.keys :=
  registry.perm_names.mem_iff

theorem nodup_names : registry.names.Nodup := registry.perm_names.nodup_iff.mpr registry.tags.distinct

/-- The names are strictly increasing. -/
theorem pairwise_names : registry.names.Pairwise Text.Precedes := by
  have sorted : registry.names.Pairwise fun first second => ¬second.Precedes first := by
    refine (List.pairwise_mergeSort ?_ ?_ registry.keys).imp Text.not_isBefore_eq_true_iff.mp
    · intro first second third
      simp only [Text.not_isBefore_eq_true_iff]
      exact Text.not_precedes_trans
    · intro first second
      rw [Bool.or_eq_true, Text.not_isBefore_eq_true_iff, Text.not_isBefore_eq_true_iff]
      exact Text.not_precedes_total first second
  refine (sorted.and registry.nodup_names).imp fun ⟨notBehind, different⟩ => ?_
  exact Text.precedes_of_ne different notBehind

/-- Under every name there is a definition, and the definitions stand in the order of the names. -/
theorem map_some_definitions :
    registry.definitions.map some = registry.names.map registry.tags.find? := by
  have every : ∀ name ∈ registry.names, ∃ definition, registry.tags.find? name = some definition :=
    fun name member => OrderedMap.mem_keys_iff.mp (registry.mem_names_iff.mp member)
  unfold definitions
  generalize registry.names = names at every ⊢
  induction names with
  | nil => rfl
  | cons name others inductionHypothesis =>
    obtain ⟨definition, found⟩ := every name List.mem_cons_self
    rw [List.filterMap_cons_some found, List.map_cons, List.map_cons, found,
      inductionHypothesis fun other member => every other (List.mem_cons_of_mem _ member)]

theorem length_definitions : registry.definitions.length = registry.size := by
  calc registry.definitions.length
    _ = (registry.definitions.map some).length := (List.length_map _).symm
    _ = registry.names.length := by rw [map_some_definitions, List.length_map]
    _ = registry.keys.length := registry.perm_names.length_eq
    _ = registry.size := List.length_map _

variable {registry}

theorem mem_definitions_iff {definition : Definition} :
    definition ∈ registry.definitions ↔ ∃ key, registry.tags.find? key = some definition := by
  rw [definitions, List.mem_filterMap]
  constructor
  · rintro ⟨key, -, found⟩
    exact ⟨key, found⟩
  · rintro ⟨key, found⟩
    exact ⟨key, registry.mem_names_iff.mpr (OrderedMap.mem_keys_iff.mpr ⟨definition, found⟩), found⟩

/-- Where what is found under a name bears it, the definitions bear the names in their order. -/
theorem Named.map_name_definitions (named : registry.Named) :
    registry.definitions.map Definition.name = registry.names := by
  have itself : ∀ name ∈ registry.names,
      (registry.tags.find? name).map Definition.name = some name := by
    intro name member
    obtain ⟨definition, found⟩ := OrderedMap.mem_keys_iff.mp (registry.mem_names_iff.mp member)
    rw [found, Option.map_some, named name definition found]
  refine (List.map_inj_right fun _ _ => Option.some.inj).mp ?_
  calc (registry.definitions.map Definition.name).map some
    _ = (registry.definitions.map some).map (Option.map Definition.name) := by
      rw [List.map_map, List.map_map]
      exact List.map_congr_left fun _ _ => rfl
    _ = registry.names.map some := by
      rw [map_some_definitions, List.map_map]
      exact List.map_congr_left itself

end Tag.Registry

end TagExpansion
