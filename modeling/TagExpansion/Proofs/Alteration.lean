import Mathlib
import TagExpansion.Proofs.Catalogue

/-
This file tells what an alteration of a registry leaves behind when it is refused.

A registration is checked before anything is stored, and a removal is never refused. Taking over
another registry is different: its definitions are stored one by one, and each is checked when its
turn comes. So a refusal comes too late for the definitions before the one that is refused, and
these stay. What was in the registry before is not touched, and a refused alteration leaves no trace
exactly if the first definition that it would store is the one that is refused.
-/

namespace TagExpansion.Tag

/-- What can be done to a registry. -/
inductive Alteration where
  | register (registration : Registration)
  | tag (registration : Registration)
  | unregister (name : Text)
  | update (other : Registry) (replace : Bool)

namespace Registry

/-- The registry behind an alteration, and whether the alteration was refused. A registration that
is refused has not got so far as to store anything. -/
def alter (registry : Registry) : Alteration → Registry × Except Refusal Unit
  | .register registration =>
    match (registry.register registration).outcome with
    | .ok (after, _) => (after, .ok ())
    | .error refusal => (registry, .error refusal)
  | .tag registration =>
    match (registry.tag registration).outcome with
    | .ok (after, _) => (after, .ok ())
    | .error refusal => (registry, .error refusal)
  | .unregister name => (registry.unregister name, .ok ())
  | .update other replace => registry.update other replace

theorem alter_tag (registry : Registry) (registration : Registration) :
    registry.alter (.tag registration) = registry.alter (.register registration) := by
  simp only [alter, tag, Journal.map]
  cases (registry.register registration).outcome <;> rfl

theorem isName_of_register_eq_ok {registry after : Registry} {registration : Registration}
    {definition : Definition}
    (accepted : (registry.register registration).outcome = .ok (after, definition)) :
    isName registration.name = true := by
  cases valid : isName registration.name with
  | true => rfl
  | false =>
    rw [register, canonical?, if_neg (by simp [valid])] at accepted
    cases accepted

/-- A registration stores the definition that it asks for, or it changes nothing. -/
theorem alter_register (registry : Registry) (registration : Registration) :
    isName registration.name = true ∧ registry.alter (.register registration) =
        (registry.store registration.definition, .ok ()) ∨
      ∃ refusal, registry.alter (.register registration) = (registry, .error refusal) := by
  simp only [alter]
  cases ended : (registry.register registration).outcome with
  | ok result =>
    obtain ⟨after, definition⟩ := result
    exact .inl ⟨isName_of_register_eq_ok ended, by rw [(of_register_eq_ok ended).2]⟩
  | error refusal => exact .inr ⟨refusal, rfl⟩

/-! ### Storing definitions one by one -/

/-- A definition under a new name goes behind all others. -/
theorem entries_store_of_not_mem {registry : Registry} {definition : Definition}
    (fresh : definition.name ∉ registry.keys) :
    (registry.store definition).tags.entries =
      registry.tags.entries ++ [(definition.name, definition)] := by
  obtain ⟨⟨entries, distinct⟩⟩ := registry
  simp only [keys, OrderedMap.keys] at fresh
  simp only [store, OrderedMap.insert]
  induction entries with
  | nil => rfl
  | cons entry rest inductionHypothesis =>
    obtain ⟨other, old⟩ := entry
    rw [List.map_cons, List.nodup_cons] at distinct
    rw [List.map_cons, List.mem_cons, not_or] at fresh
    rw [OrderedMap.insertIn, if_neg (Ne.symm fresh.1), inductionHypothesis distinct.2 fresh.2,
      List.cons_append]

theorem storeAll_true (registry : Registry) (definitions : List Definition) :
    registry.storeAll true definitions = (definitions.foldl store registry, .ok ()) := by
  induction definitions generalizing registry with
  | nil => rfl
  | cons definition others inductionHypothesis =>
    rw [storeAll, Bool.not_true, Bool.and_false, if_neg Bool.false_ne_true, inductionHypothesis,
      List.foldl_cons]

theorem storeAll_of_mem {registry : Registry} {definition : Definition} {others : List Definition}
    (taken : definition.name ∈ registry.keys) :
    registry.storeAll false (definition :: others) =
      (registry, .error (.duplicate definition.name)) := by
  rw [storeAll, if_pos (by simpa using OrderedMap.contains_eq_true_iff.mpr taken)]

theorem storeAll_of_not_mem {registry : Registry} {definition : Definition}
    {others : List Definition} (fresh : definition.name ∉ registry.keys) :
    registry.storeAll false (definition :: others) =
      (registry.store definition).storeAll false others := by
  rw [storeAll, if_neg]
  rw [Bool.not_false, Bool.and_true, OrderedMap.contains_eq_true_iff]
  exact fresh

/-- A taking over that is refused has stored all definitions before the refused one, behind what the
registry had. -/
theorem storeAll_of_refused {registry : Registry} {definitions : List Definition}
    {refusal : Refusal} (refused : (registry.storeAll false definitions).2 = .error refusal) :
    ∃ stored clash rest, definitions = stored ++ clash :: rest ∧ refusal = .duplicate clash.name ∧
      clash.name ∈ (registry.storeAll false definitions).1.keys ∧
      (registry.storeAll false definitions).1.tags.entries =
        registry.tags.entries ++ stored.map fun definition => (definition.name, definition) := by
  induction definitions generalizing registry with
  | nil => cases refused
  | cons definition others inductionHypothesis =>
    by_cases taken : definition.name ∈ registry.keys
    · rw [storeAll_of_mem taken] at refused ⊢
      cases refused
      exact ⟨[], definition, others, rfl, rfl, taken, (List.append_nil _).symm⟩
    · rw [storeAll_of_not_mem taken] at refused ⊢
      obtain ⟨stored, clash, rest, rfl, same, known, entries⟩ := inductionHypothesis refused
      refine ⟨definition :: stored, clash, rest, rfl, same, known, ?_⟩
      rw [entries, entries_store_of_not_mem taken, List.append_assoc, List.singleton_append,
        List.map_cons]

/-- Only a registry that may not replace anything refuses to take over another. -/
theorem update_of_refused {registry other : Registry} {replace : Bool} {refusal : Refusal}
    (refused : (registry.update other replace).2 = .error refusal) :
    ∃ stored clash rest, other.definitions = stored ++ clash :: rest ∧
      refusal = .duplicate clash.name ∧ clash.name ∈ (registry.update other replace).1.keys ∧
      (registry.update other replace).1.tags.entries =
        registry.tags.entries ++ stored.map fun definition => (definition.name, definition) := by
  cases replace with
  | false => exact storeAll_of_refused refused
  | true =>
    rw [update, storeAll_true] at refused
    cases refused

/-! ### Refused alterations -/

theorem ext_entries {first second : Registry} (same : first.tags.entries = second.tags.entries) :
    first = second := by
  obtain ⟨⟨entries, distinct⟩⟩ := first
  obtain ⟨⟨others, different⟩⟩ := second
  cases same
  rfl

theorem update_eq_iff_of_refused {registry other : Registry} {replace : Bool} {refusal : Refusal}
    (refused : (registry.update other replace).2 = .error refusal) :
    (registry.update other replace).1 = registry ↔
      ∃ first, other.definitions.head? = some first ∧ first.name ∈ registry.keys := by
  obtain ⟨stored, clash, rest, split, -, known, entries⟩ := update_of_refused refused
  constructor
  · intro same
    rw [same] at known entries
    have nothing : stored = [] := by simpa using entries
    exact ⟨clash, by rw [split, nothing, List.nil_append, List.head?_cons], known⟩
  · rintro ⟨first, isFirst, taken⟩
    refine ext_entries (entries.trans ?_)
    cases stored with
    | nil => exact List.append_nil _
    | cons definition others =>
      -- A definition that was stored here would bear a name that stands in the registry twice.
      rw [split, List.cons_append, List.head?_cons, Option.some.injEq] at isFirst
      have distinct := (registry.update other replace).1.tags.distinct
      rw [entries, List.map_append, List.nodup_append] at distinct
      exact absurd rfl (distinct.2.2 _ taken _ (by simp [isFirst]))

/-- What a refused alteration leaves behind. A refused taking over has stored the definitions before
the refused one, so the registry is as before exactly if there is none. Any other alteration that is
refused leaves the registry as it was. -/
theorem alter_of_refused (registry : Registry) (alteration : Alteration) {refusal : Refusal}
    (refused : (registry.alter alteration).2 = .error refusal) :
    ((registry.alter alteration).1 = registry ↔
      ∀ other replace, alteration = .update other replace →
        ∃ first, other.definitions.head? = some first ∧ first.name ∈ registry.keys) ∧
    (∀ other replace, alteration = .update other replace →
      ∃ stored clash rest, other.definitions = stored ++ clash :: rest ∧
        refusal = .duplicate clash.name ∧
        (registry.alter alteration).1.tags.entries =
          registry.tags.entries ++ stored.map fun definition => (definition.name, definition)) := by
  cases alteration with
  | register registration =>
    obtain ⟨-, same⟩ | ⟨_, same⟩ := alter_register registry registration
    · rw [same] at refused
      cases refused
    · rw [same]
      exact ⟨iff_of_true rfl nofun, nofun⟩
  | tag registration =>
    obtain ⟨-, same⟩ | ⟨_, same⟩ := alter_register registry registration
    · rw [alter_tag, same] at refused
      cases refused
    · rw [alter_tag, same]
      exact ⟨iff_of_true rfl nofun, nofun⟩
  | unregister name => cases refused
  | update other replace =>
    constructor
    · rw [alter, update_eq_iff_of_refused refused]
      simp
    · rintro _ _ ⟨⟩
      obtain ⟨stored, clash, rest, split, same, -, entries⟩ := update_of_refused refused
      exact ⟨stored, clash, rest, split, same, entries⟩

/-- The registry of some names, without handlers. -/
def ofNames (names : List String) : Registry :=
  names.foldl (fun registry name => (registry.alter (.register { name := name.toList })).1) .empty

/-- The name that is refused is the first one, and nothing has changed. -/
theorem alter_of_first_clash :
    let registry := ofNames ["bold"]
    let update := Alteration.update (ofNames ["code", "bold"]) false
    (registry.alter update).2 = .error (.duplicate "bold".toList) ∧
      (registry.alter update).1 = registry := by
  have refused : ((ofNames ["bold"]).alter (.update (ofNames ["code", "bold"]) false)).2 =
      .error (.duplicate "bold".toList) := by cbv
  refine ⟨refused, (alter_of_refused _ _ refused).1.mpr ?_⟩
  rintro other replace ⟨⟩
  have named : (ofNames ["code", "bold"]).definitions.head?.map Definition.name =
      some "bold".toList := by cbv
  obtain ⟨first, isFirst, same⟩ := Option.map_eq_some_iff.mp named
  exact ⟨first, isFirst, by rw [same]; decide +kernel⟩

/-- The name that is refused is the second one, and the first one stays. -/
theorem keys_alter_of_second_clash :
    let registry := ofNames ["code"]
    let update := Alteration.update (ofNames ["code", "bold"]) false
    (registry.alter update).2 = .error (.duplicate "code".toList) ∧
      registry.keys = ["code".toList] ∧
      (registry.alter update).1.keys = ["code".toList, "bold".toList] ∧
      (registry.alter update).1 ≠ registry := by
  have before : (ofNames ["code"]).keys = ["code".toList] := by decide +kernel
  have after : ((ofNames ["code"]).alter (.update (ofNames ["code", "bold"]) false)).1.keys =
      ["code".toList, "bold".toList] := by cbv
  refine ⟨by cbv, before, after, fun same => ?_⟩
  rw [same, before] at after
  cases after

end Registry

end TagExpansion.Tag
