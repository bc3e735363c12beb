import TagExpansion.Tag.Builtin

/-
This file has the registries that can come about, and what is true of all of them.

A registry starts empty, and its definitions come and go by registration, removal and
taking over another registry; a frozen registry and a thawed one are registries that
came about in the same way. Every one of these operations stores a definition under
its own name or takes a name out. So whatever is found under a name bears that name,
in every registry that can be made.
-/

namespace TagExpansion.Tag

/-- The definition that a registration asks for. -/
def Registration.definition (registration : Registration) : Definition where
  name := Text.lower registration.name
  requiresParameter := registration.requiresParameter
  recursive := registration.recursive
  handler := registration.handler

namespace Registry

/-- The registries that can be made. A taking over that stops at a taken name has still made a
registry. -/
inductive Built : Registry → Prop where
  | empty : Built .empty
  | register {registry after : Registry} {registration : Registration} {definition : Definition}
      (before : Built registry)
      (accepted : (registry.register registration).outcome = .ok (after, definition)) : Built after
  | unregister {registry : Registry} (name : Text) (before : Built registry) :
      Built (registry.unregister name)
  | update {registry other : Registry} (replace : Bool) (before : Built registry)
      (source : Built other) : Built (registry.update other replace).1

/-! ### What an operation does -/

theorem find?_store (registry : Registry) (definition : Definition) (key : Text) :
    (registry.store definition).tags.find? key =
      if definition.name = key then some definition else registry.tags.find? key :=
  OrderedMap.find?_insert registry.tags definition.name key definition

/-- A registration that is accepted stores the definition that it asks for. -/
theorem of_register_eq_ok {registry after : Registry} {registration : Registration}
    {definition : Definition}
    (accepted : (registry.register registration).outcome = .ok (after, definition)) :
    definition = registration.definition ∧ after = registry.store registration.definition := by
  unfold register canonical? at accepted
  split at accepted
  · cases accepted
  · rename_i name isCanonical
    split at isCanonical
    · cases isCanonical
      split at accepted
      · cases accepted
      · cases accepted
        exact ⟨rfl, rfl⟩
    · cases isCanonical

/-- The steps of a taking over. -/
theorem storeAll_cons (registry : Registry) (replace : Bool) (definition : Definition)
    (others : List Definition) :
    (registry.storeAll replace (definition :: others)).1 = registry ∨
      (registry.storeAll replace (definition :: others)).1 =
        ((registry.store definition).storeAll replace others).1 := by
  rw [storeAll]
  split
  · exact .inl rfl
  · exact .inr rfl

/-! ### Names -/

/-- What is found under a name bears that name. -/
def Named (registry : Registry) : Prop :=
  ∀ key definition, registry.tags.find? key = some definition → definition.name = key

theorem named_store {registry : Registry} (named : registry.Named) (definition : Definition) :
    (registry.store definition).Named := by
  intro key found isFound
  rw [find?_store] at isFound
  split at isFound
  · rename_i same
    cases isFound
    exact same
  · exact named key found isFound

theorem named_unregister {registry : Registry} (named : registry.Named) (name : Text) :
    (registry.unregister name).Named := by
  intro key found isFound
  rw [unregister, OrderedMap.find?_erase] at isFound
  split at isFound
  · cases isFound
  · exact named key found isFound

theorem named_storeAll {registry : Registry} (named : registry.Named) (replace : Bool)
    (definitions : List Definition) : (registry.storeAll replace definitions).1.Named := by
  induction definitions generalizing registry with
  | nil => exact named
  | cons definition others inductionHypothesis =>
    rcases storeAll_cons registry replace definition others with same | same
    · rw [same]
      exact named
    · rw [same]
      exact inductionHypothesis (named_store named definition)

/-- In every registry that can be made, what is found under a name bears that name. -/
theorem Built.named {registry : Registry} (built : registry.Built) : registry.Named := by
  induction built with
  | empty =>
    intro key definition found
    cases found
  | register before accepted inductionHypothesis =>
    rw [(of_register_eq_ok accepted).2]
    exact named_store inductionHypothesis _
  | unregister name before inductionHypothesis => exact named_unregister inductionHypothesis name
  | update replace before source inductionHypothesis _ =>
    exact named_storeAll inductionHypothesis replace _

/-! ### The builtin tags -/

/-- Several registrations are one registration after the other. -/
theorem outcome_registerAll_cons_eq_ok_iff {registry after : Registry} {registration : Registration}
    {others : List Registration} :
    (registry.registerAll (registration :: others)).outcome = .ok after ↔
      ∃ next definition, (registry.register registration).outcome = .ok (next, definition) ∧
        (next.registerAll others).outcome = .ok after := by
  rw [registerAll, Journal.bind_eq_andThen, Journal.outcome_andThen_eq_ok_iff, Prod.exists]

theorem built_registerAll {registry after : Registry} {registrations : List Registration}
    (before : registry.Built)
    (accepted : (registry.registerAll registrations).outcome = .ok after) : after.Built := by
  induction registrations generalizing registry with
  | nil =>
    cases accepted
    exact before
  | cons registration others inductionHypothesis =>
    obtain ⟨next, definition, first, rest⟩ := outcome_registerAll_cons_eq_ok_iff.mp accepted
    exact inductionHypothesis (before.register first) rest

/-- Registrations add nothing but the definitions that they ask for. -/
theorem find?_registerAll {registry after : Registry} {registrations : List Registration}
    {key : Text} {definition : Definition}
    (accepted : (registry.registerAll registrations).outcome = .ok after)
    (found : after.tags.find? key = some definition) :
    registry.tags.find? key = some definition ∨
      ∃ registration ∈ registrations, definition = registration.definition := by
  induction registrations generalizing registry with
  | nil =>
    cases accepted
    exact .inl found
  | cons registration others inductionHypothesis =>
    obtain ⟨next, stored, first, rest⟩ := outcome_registerAll_cons_eq_ok_iff.mp accepted
    rcases inductionHypothesis rest with before | ⟨later, member, same⟩
    · rw [(of_register_eq_ok first).2, find?_store] at before
      split at before
      · cases before
        exact .inr ⟨registration, List.mem_cons_self, rfl⟩
      · exact .inl before
    · exact .inr ⟨later, List.mem_cons_of_mem _ member, same⟩

theorem built_builtin (format : Format) : (builtin format).Built := by
  unfold builtin
  split
  · rename_i accepted
    exact built_registerAll .empty accepted
  · exact .empty

/-- A tag of the builtin registry is one of the builtin tags. -/
theorem find?_builtin {format : Format} {key : Text} {definition : Definition}
    (found : (builtin format).tags.find? key = some definition) :
    ∃ registration ∈ builtins format, definition = registration.definition := by
  unfold builtin at found
  split at found
  · rename_i accepted
    rcases find?_registerAll accepted found with before | asked
    · cases before
    · exact asked
  · cases found

end Registry

end TagExpansion.Tag
