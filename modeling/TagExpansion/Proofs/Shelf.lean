import TagExpansion.Proofs.Alteration
import TagExpansion.Proofs.Last

/-
This file proves that a look-up in a registry finds what was stored there last, whatever was done
to it and to others before.

Any number of registries are in use at a time. Some can still be altered, others are frozen, and
definitions go from one to another. Beside each registry stands a list of the changes that it has
been through, so that what it holds can be compared with what was done. The definitions come in on
three ways: by a registration, which brings a name into its canonical form, by taking over another
registry, and by thawing one. The latter two store a definition under whatever name it bears. What
makes this right is that every registry has its definitions under canonical names that they bear,
and this is kept by all that can be done.
-/

namespace TagExpansion.Tag

/-! ### Canonical names -/

/-- A name in its canonical form: a letter at least, and nothing but lowercase letters. -/
def IsCanonical (name : Text) : Prop := name ≠ [] ∧ ∀ c ∈ name, 'a' ≤ c ∧ c ≤ 'z'

theorem lowerChar_of_isAlpha {c : Char} (isAlpha : c.isAlpha = true) :
    'a' ≤ Text.lowerChar c ∧ Text.lowerChar c ≤ 'z' := by
  simp only [Char.isAlpha, Char.isUpper, Char.isLower, Bool.or_eq_true, Bool.and_eq_true,
    decide_eq_true_eq, ge_iff_le, UInt32.le_iff_toNat_le] at isAlpha
  simp only [Text.lowerChar, Char.toLower, Char.le_def, UInt32.le_iff_toNat_le, Char.toNat]
  grind [UInt32.toNat_add]

theorem isCanonical_lower {name : Text} (valid : isName name = true) :
    IsCanonical (Text.lower name) := by
  simp only [isName, Bool.and_eq_true, Bool.not_eq_true', List.isEmpty_eq_false_iff,
    List.all_eq_true] at valid
  refine ⟨by simpa [Text.lower] using valid.1, fun c member => ?_⟩
  obtain ⟨letter, isLetter, rfl⟩ := List.mem_map.mp member
  exact lowerChar_of_isAlpha (valid.2 letter isLetter)

/-! ### Registries and what was done to them -/

/-- What happens to a registry. -/
inductive Change where
  /-- A definition was stored under a name. -/
  | stored (name : Text) (definition : Definition)
  /-- A name was taken out. -/
  | removed (name : Text)

/-- What a change says about a name: the definition that stands there since, or that none does. -/
def Change.Tells (name : Text) : Change → Option Definition → Prop
  | .stored other definition, found => other = name ∧ found = some definition
  | .removed other, found => other = name ∧ found = none

/-- Definitions that are stored one after the other, each under the name that it bears. -/
def Change.storing (definitions : List Definition) : List Change :=
  definitions.map fun definition => .stored definition.name definition

/-- A registry, and the changes that it has been through. -/
structure Record where
  registry : Registry := .empty
  changes : List Change := []

/-- The definitions that get into a registry that takes over others: all of them if it may replace
what it has, else those before the first one whose name is taken. -/
def Registry.admitted (registry : Registry) (replace : Bool) (definitions : List Definition) :
    List Definition :=
  if replace then definitions
  else definitions.takeWhile fun definition => decide (definition.name ∉ registry.keys)

/-- The changes that an alteration brings about. -/
def Registry.changes (registry : Registry) (alteration : Alteration) : List Change :=
  match alteration, (registry.alter alteration).2 with
  | .register registration, .ok () | .tag registration, .ok () =>
    [.stored (Text.lower registration.name) registration.definition]
  | .register _, .error _ | .tag _, .error _ => []
  | .unregister name, _ => [.removed (Text.lower name)]
  | .update other replace, _ => Change.storing (registry.admitted replace other.definitions)

/-- Alters a registry and notes the changes, also where the alteration is refused. -/
def Record.alter (record : Record) (alteration : Alteration) : Record where
  registry := (record.registry.alter alteration).1
  changes := record.changes ++ record.registry.changes alteration

/-- The registries that are in use. -/
structure Shelf where
  /-- Those that can be altered. -/
  working : List Record := []
  frozen : List Record := []

/-- Where a registry stands. -/
inductive Place where
  | working (index : Nat)
  | frozen (index : Nat)

/-- What can be done with the registries on a shelf. -/
inductive Operation where
  /-- A new registry comes behind the others. -/
  | create
  | register (target : Nat) (registration : Registration)
  | tag (target : Nat) (registration : Registration)
  | unregister (target : Nat) (name : Text)
  | update (target : Nat) (source : Place) (replace : Bool)
  | freeze (source : Nat)
  | thaw (source : Nat)

namespace Shelf

/-- What stands at a place. -/
def at? (shelf : Shelf) : Place → Option Record
  | .working index => shelf.working[index]?
  | .frozen index => shelf.frozen[index]?

/-- Alters one of the registries. -/
def alter (shelf : Shelf) (target : Nat) (alteration : Alteration) : Shelf :=
  match shelf.working[target]? with
  | none => shelf
  | some record => { shelf with working := shelf.working.set target (record.alter alteration) }

/-- The shelf behind an operation. A place where nothing stands is left alone. -/
def step (shelf : Shelf) : Operation → Shelf
  | .create => { shelf with working := shelf.working ++ [{}] }
  | .register target registration => shelf.alter target (.register registration)
  | .tag target registration => shelf.alter target (.tag registration)
  | .unregister target name => shelf.alter target (.unregister name)
  | .update target source replace =>
    match shelf.at? source with
    | none => shelf
    | some record => shelf.alter target (.update record.registry replace)
  | .freeze source =>
    match shelf.working[source]? with
    | none => shelf
    | some record => { shelf with frozen := shelf.frozen ++ [record] }
  | .thaw source =>
    match shelf.frozen[source]? with
    | none => shelf
    | some record =>
      match record.registry.thaw with
      | .error _ => shelf
      | .ok copy =>
        { shelf with working := shelf.working ++ [⟨copy, Change.storing record.registry.definitions⟩] }

/-- The shelf behind any number of operations. -/
def run (operations : List Operation) : Shelf := operations.foldl step {}

end Shelf

/-! ### What is kept -/

/-- Every definition stands under a canonical name that it bears, and it is there because it was
stored there last. -/
structure Record.Sound (record : Record) : Prop where
  canonical : ∀ key ∈ record.registry.keys, IsCanonical key
  named : record.registry.Named
  accounted : ∀ key definition, record.registry.tags.find? key = some definition ↔
    Last (Change.Tells key) record.changes (some definition)

/-! ### Single changes -/

section Changes

variable {record : Record} (sound : record.Sound)

include sound

theorem sound_store {definition : Definition} (valid : IsCanonical definition.name) :
    Record.Sound ⟨record.registry.store definition,
      record.changes ++ [.stored definition.name definition]⟩ where
  canonical := by
    intro key member
    obtain ⟨found, isFound⟩ := OrderedMap.mem_keys_iff.mp member
    rw [Registry.find?_store] at isFound
    split at isFound
    · rename_i same
      exact same ▸ valid
    · exact sound.canonical key (OrderedMap.mem_keys_iff.mpr ⟨found, isFound⟩)
  named := Registry.named_store sound.named definition
  accounted := by
    intro key found
    rw [Registry.find?_store, last_concat, ← sound.accounted]
    by_cases same : definition.name = key
    · simp [Change.Tells, same, eq_comm]
    · simp [Change.Tells, same]

theorem sound_unregister (name : Text) :
    Record.Sound ⟨record.registry.unregister name,
      record.changes ++ [.removed (Text.lower name)]⟩ where
  canonical := by
    intro key member
    obtain ⟨found, isFound⟩ := OrderedMap.mem_keys_iff.mp member
    rw [Registry.unregister, OrderedMap.find?_erase] at isFound
    split at isFound
    · cases isFound
    · exact sound.canonical key (OrderedMap.mem_keys_iff.mpr ⟨found, isFound⟩)
  named := Registry.named_unregister sound.named name
  accounted := by
    intro key found
    rw [Registry.unregister, OrderedMap.find?_erase, last_concat, ← sound.accounted]
    by_cases same : Text.lower name = key
    · simp [Change.Tells, same]
    · simp [Change.Tells, same]

/-- The induction is on the definitions that are still to be stored. -/
theorem sound_foldl_store {definitions : List Definition}
    (valid : ∀ definition ∈ definitions, IsCanonical definition.name) :
    Record.Sound ⟨definitions.foldl Registry.store record.registry,
      record.changes ++ Change.storing definitions⟩ := by
  induction definitions generalizing record with
  | nil => simpa [Change.storing] using sound
  | cons definition others inductionHypothesis =>
    have first := sound_store sound (valid definition List.mem_cons_self)
    have rest := inductionHypothesis first fun other member =>
      valid other (List.mem_cons_of_mem _ member)
    simpa [Change.storing] using rest

theorem isCanonical_of_mem_definitions {definition : Definition}
    (member : definition ∈ record.registry.definitions) : IsCanonical definition.name := by
  obtain ⟨key, found⟩ := Registry.mem_definitions_iff.mp member
  rw [sound.named key definition found]
  exact sound.canonical key (OrderedMap.mem_keys_iff.mpr ⟨definition, found⟩)

end Changes

/-! ### Taking over and thawing -/

namespace Registry

theorem mem_keys_store_iff {registry : Registry} {definition : Definition} {key : Text} :
    key ∈ (registry.store definition).keys ↔ key = definition.name ∨ key ∈ registry.keys := by
  simp only [keys, OrderedMap.mem_keys_iff, find?_store]
  by_cases same : definition.name = key
  · simp [same]
  · simp [same, Ne.symm same]

theorem admitted_subset {registry : Registry} {replace : Bool} {definitions : List Definition} :
    registry.admitted replace definitions ⊆ definitions := by
  unfold admitted
  split
  · exact List.Subset.refl _
  · exact List.takeWhile_subset _

/-- A definition that is stored stands in the way only of those that bear its name. -/
theorem admitted_store {registry : Registry} {definition : Definition} {others : List Definition}
    (apart : definition.name ∉ others.map Definition.name) :
    (registry.store definition).admitted false others = registry.admitted false others := by
  simp only [admitted, Bool.false_eq_true, if_false]
  induction others with
  | nil => rfl
  | cons other rest inductionHypothesis =>
    rw [List.map_cons, List.mem_cons, not_or] at apart
    have same : decide (other.name ∉ (registry.store definition).keys) =
        decide (other.name ∉ registry.keys) := by
      simp [mem_keys_store_iff, Ne.symm apart.1]
    rw [List.takeWhile_cons, List.takeWhile_cons, same, inductionHypothesis apart.2]

/-- Names that come only once do not get in each other's way, so the definitions that get in can be
told from the registry as it was before. -/
theorem storeAll_of_nodup {registry : Registry} {replace : Bool} {definitions : List Definition}
    (distinct : (definitions.map Definition.name).Nodup) :
    (registry.storeAll replace definitions).1 =
      (registry.admitted replace definitions).foldl store registry := by
  cases replace with
  | true => rw [storeAll_true, admitted, if_pos rfl]
  | false =>
    induction definitions generalizing registry with
    | nil => rfl
    | cons definition others inductionHypothesis =>
      rw [List.map_cons, List.nodup_cons] at distinct
      by_cases taken : definition.name ∈ registry.keys
      · rw [storeAll_of_mem taken]
        simp [admitted, taken]
      · rw [storeAll_of_not_mem taken, inductionHypothesis distinct.2, admitted_store distinct.1]
        simp [admitted, taken]

/-- Definitions under names that are new and come only once are all stored, in their order. -/
theorem storeAll_of_fresh {registry : Registry} {definitions : List Definition}
    (distinct : (definitions.map Definition.name).Nodup)
    (fresh : ∀ definition ∈ definitions, definition.name ∉ registry.keys) :
    registry.storeAll false definitions = (definitions.foldl store registry, .ok ()) ∧
      (definitions.foldl store registry).tags.entries =
        registry.tags.entries ++ definitions.map fun definition => (definition.name, definition) := by
  induction definitions generalizing registry with
  | nil => exact ⟨rfl, (List.append_nil _).symm⟩
  | cons definition others inductionHypothesis =>
    rw [List.map_cons, List.nodup_cons] at distinct
    rw [List.forall_mem_cons] at fresh
    have later : ∀ other ∈ others, other.name ∉ (registry.store definition).keys := by
      intro other member known
      rcases mem_keys_store_iff.mp known with same | old
      · exact distinct.1 (List.mem_map.mpr ⟨other, member, same⟩)
      · exact fresh.2 other member old
    obtain ⟨accepted, entries⟩ := inductionHypothesis distinct.2 later
    rw [storeAll_of_not_mem fresh.1, List.foldl_cons]
    refine ⟨accepted, ?_⟩
    rw [entries, entries_store_of_not_mem fresh.1, List.append_assoc, List.singleton_append,
      List.map_cons]

section Thaw

variable {registry : Registry} (named : registry.Named)

include named

theorem Named.nodup_map_name_definitions : (registry.definitions.map Definition.name).Nodup := by
  rw [named.map_name_definitions]
  exact registry.nodup_names

/-- Thawing is never refused. -/
theorem Named.thaw_eq : registry.thaw = .ok (registry.definitions.foldl store .empty) := by
  have stored : empty.storeAll false registry.definitions =
      (registry.definitions.foldl store .empty, .ok ()) :=
    (storeAll_of_fresh named.nodup_map_name_definitions fun _ _ => List.not_mem_nil).1
  rw [thaw, update, stored]

variable {copy : Registry} (thawed : registry.thaw = .ok copy)

include thawed

theorem Named.entries_thaw :
    copy.tags.entries = registry.definitions.map fun definition => (definition.name, definition) := by
  rw [named.thaw_eq, Except.ok.injEq] at thawed
  rw [← thawed]
  exact (storeAll_of_fresh named.nodup_map_name_definitions fun _ _ => List.not_mem_nil).2

theorem Named.find?_thaw : copy.tags.find? = registry.tags.find? := by
  funext key
  refine Option.ext fun definition => ?_
  rw [OrderedMap.find?_eq_some_iff, named.entries_thaw thawed, List.mem_map]
  constructor
  · rintro ⟨_, member, ⟨⟩⟩
    obtain ⟨name, found⟩ := mem_definitions_iff.mp member
    rw [named name definition found]
    exact found
  · intro found
    exact ⟨definition, mem_definitions_iff.mpr ⟨key, found⟩, by rw [named key definition found]⟩

/-- The names of the copy came in increasing order, so there is nothing to sort. -/
theorem Named.names_thaw : copy.names = registry.names := by
  have listed : copy.keys = registry.names := by
    rw [keys, OrderedMap.keys, named.entries_thaw thawed, ← named.map_name_definitions,
      List.map_map]
    rfl
  rw [names, listed]
  exact List.mergeSort_of_pairwise (registry.pairwise_names.imp fun before =>
    Text.not_isBefore_eq_true_iff.mpr before.asymm)

theorem Named.definitions_thaw : copy.definitions = registry.definitions := by
  rw [definitions, named.names_thaw thawed, named.find?_thaw thawed, definitions]

end Thaw

end Registry

/-! ### Alterations and operations -/

theorem sound_empty : Record.Sound {} where
  canonical := nofun
  named := nofun
  accounted := fun _ _ => iff_of_false nofun not_last_nil

theorem sound_register {record : Record} (sound : record.Sound) (registration : Registration) :
    (record.alter (.register registration)).Sound := by
  unfold Record.alter Registry.changes
  obtain ⟨valid, same⟩ | ⟨refusal, same⟩ := record.registry.alter_register registration
  · simp only [same]
    exact sound_store sound (isCanonical_lower valid)
  · simp only [same, List.append_nil]
    exact sound

theorem sound_tag {record : Record} (sound : record.Sound) (registration : Registration) :
    (record.alter (.tag registration)).Sound := by
  have same : record.alter (.tag registration) = record.alter (.register registration) := by
    simp only [Record.alter, Registry.changes, Registry.alter_tag]
    cases (record.registry.alter (.register registration)).2 <;> rfl
  rw [same]
  exact sound_register sound registration

theorem sound_update {record other : Record} (sound : record.Sound) (source : other.Sound)
    (replace : Bool) : (record.alter (.update other.registry replace)).Sound := by
  rw [Record.alter, Registry.changes, Registry.alter, Registry.update,
    Registry.storeAll_of_nodup source.named.nodup_map_name_definitions]
  exact sound_foldl_store sound fun definition member =>
    isCanonical_of_mem_definitions source (Registry.admitted_subset member)

theorem sound_thaw {record : Record} {copy : Registry} (sound : record.Sound)
    (thawed : record.registry.thaw = .ok copy) :
    Record.Sound ⟨copy, Change.storing record.registry.definitions⟩ := by
  rw [sound.named.thaw_eq, Except.ok.injEq] at thawed
  rw [← thawed]
  exact sound_foldl_store sound_empty fun definition member =>
    isCanonical_of_mem_definitions sound member

/-- All registries on a shelf are in order. -/
structure Shelf.Sound (shelf : Shelf) : Prop where
  working : ∀ record ∈ shelf.working, record.Sound
  frozen : ∀ record ∈ shelf.frozen, record.Sound

namespace Shelf.Sound

variable {shelf : Shelf} (sound : shelf.Sound)

include sound

theorem at? {place : Place} {record : Record} (stands : shelf.at? place = some record) :
    record.Sound := by
  cases place with
  | working index => exact sound.working record (List.mem_of_getElem? stands)
  | frozen index => exact sound.frozen record (List.mem_of_getElem? stands)

theorem alter {target : Nat} {alteration : Alteration}
    (keeps : ∀ record : Record, record.Sound → (record.alter alteration).Sound) :
    (shelf.alter target alteration).Sound := by
  unfold Shelf.alter
  split
  · exact sound
  · rename_i record stands
    refine ⟨fun other member => ?_, sound.frozen⟩
    rcases List.mem_or_eq_of_mem_set member with old | rfl
    · exact sound.working other old
    · exact keeps record (sound.working record (List.mem_of_getElem? stands))

theorem add {record : Record} (new : record.Sound) :
    Shelf.Sound { shelf with working := shelf.working ++ [record] } := by
  refine ⟨fun other member => ?_, sound.frozen⟩
  rcases List.mem_append.mp member with old | isNew
  · exact sound.working other old
  · rw [List.mem_singleton.mp isNew]
    exact new

theorem step (operation : Operation) : (shelf.step operation).Sound := by
  cases operation with
  | create => exact sound.add sound_empty
  | register target registration =>
    exact sound.alter fun _ before => sound_register before registration
  | tag target registration => exact sound.alter fun _ before => sound_tag before registration
  | unregister target name => exact sound.alter fun _ before => sound_unregister before name
  | update target source replace =>
    simp only [Shelf.step]
    split
    · exact sound
    · rename_i other stands
      exact sound.alter fun _ before => sound_update before (sound.at? stands) replace
  | freeze source =>
    simp only [Shelf.step]
    split
    · exact sound
    · rename_i record stands
      refine ⟨sound.working, fun other member => ?_⟩
      rcases List.mem_append.mp member with old | isNew
      · exact sound.frozen other old
      · rw [List.mem_singleton.mp isNew]
        exact sound.working record (List.mem_of_getElem? stands)
  | thaw source =>
    simp only [Shelf.step]
    split
    · exact sound
    · rename_i record stands
      split
      · exact sound
      · rename_i copy thawed
        exact sound.add (sound_thaw (sound.frozen record (List.mem_of_getElem? stands)) thawed)

end Shelf.Sound

theorem Shelf.sound_foldl_step {shelf : Shelf} (sound : shelf.Sound) (operations : List Operation) :
    (operations.foldl Shelf.step shelf).Sound := by
  induction operations generalizing shelf with
  | nil => exact sound
  | cons operation others inductionHypothesis => exact inductionHypothesis (sound.step operation)

theorem Shelf.sound_run (operations : List Operation) : (Shelf.run operations).Sound :=
  sound_foldl_step ⟨by simp, by simp⟩ operations

/-! ### What can be read off a registry -/

/-- A registry says what was done to it. -/
structure Record.Faithful (record : Record) : Prop where
  /-- Every key is canonical, and the definition that stands under it bears it. -/
  canonical : ∀ key ∈ record.registry.keys, IsCanonical key ∧
    ∃ definition, record.registry.tags.find? key = some definition ∧ definition.name = key
  distinct : record.registry.keys.Nodup
  increasing : record.registry.names.Pairwise Text.Precedes
  complete : ∀ key, key ∈ record.registry.names ↔ key ∈ record.registry.keys
  /-- The definitions stand in the order of the names. -/
  ordered : record.registry.definitions.map some =
    record.registry.names.map record.registry.tags.find?
  counted : record.registry.size = record.registry.definitions.length
  /-- A look-up finds what was stored last under the name, if it was not taken out since. -/
  latest : ∀ name definition, record.registry.lookup name = some definition ↔
    Last (Change.Tells (Text.lower name)) record.changes (some definition)

theorem Record.Sound.faithful {record : Record} (sound : record.Sound) : record.Faithful where
  canonical := by
    intro key member
    obtain ⟨definition, found⟩ := OrderedMap.mem_keys_iff.mp member
    exact ⟨sound.canonical key member, definition, found, sound.named key definition found⟩
  distinct := record.registry.tags.distinct
  increasing := record.registry.pairwise_names
  complete := fun _ => record.registry.mem_names_iff
  ordered := record.registry.map_some_definitions
  counted := record.registry.length_definitions.symm
  latest := fun name => sound.accounted (Text.lower name)

/-- Whatever is done with any number of registries, each of them says what was done to it, and a
frozen one can be thawed into a copy that says the same. -/
theorem Shelf.faithful_of_run (operations : List Operation) :
    (∀ record ∈ (Shelf.run operations).working ++ (Shelf.run operations).frozen,
      record.Faithful) ∧
    ∀ record ∈ (Shelf.run operations).frozen, ∃ copy, record.registry.thaw = .ok copy ∧
      (∀ name, copy.lookup name = record.registry.lookup name) ∧
      copy.names = record.registry.names ∧ copy.definitions = record.registry.definitions := by
  have sound := sound_run operations
  constructor
  · intro record member
    rcases List.mem_append.mp member with working | frozen
    · exact (sound.working record working).faithful
    · exact (sound.frozen record frozen).faithful
  · intro record member
    have named := (sound.frozen record member).named
    have thawed := named.thaw_eq
    exact ⟨_, thawed, fun name => congrFun (named.find?_thaw thawed) (Text.lower name),
      named.names_thaw thawed, named.definitions_thaw thawed⟩

/-- A second registry takes over the first one up to a name that is taken, loses a name that is
written with the Kelvin sign, and is frozen. -/
theorem Shelf.faithful_of_refused_update :
    let operations : List Operation := [.create, .register 0 { name := "Ok".toList },
      .tag 0 { name := "A".toList }, .register 0 { name := "x1".toList }, .create,
      .register 1 { name := "ok".toList }, .update 1 (.working 0) false,
      .unregister 1 "O\u212a".toList, .freeze 1]
    ∃ record ∈ (Shelf.run operations).frozen, record.registry.names = ["a".toList] ∧
      record.Faithful ∧ ∃ copy, record.registry.thaw = .ok copy ∧ copy.names = ["a".toList] := by
  intro operations
  have listed : (Shelf.run operations).frozen.map (fun record => record.registry.names) =
      [["a".toList]] := by cbv
  obtain ⟨record, member, names⟩ := List.mem_map.mp (listed ▸ List.mem_singleton_self _)
  obtain ⟨faithful, thawed⟩ := faithful_of_run operations
  obtain ⟨copy, made, -, sameNames, -⟩ := thawed record member
  exact ⟨record, member, names, faithful record (List.mem_append_right _ member), copy, made,
    sameNames.trans names⟩

end TagExpansion.Tag
