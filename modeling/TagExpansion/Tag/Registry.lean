import TagExpansion.OrderedMap
import TagExpansion.Tag.Definition

/-
This file has the registry of tags.

A registry holds definitions under their canonical names and remembers the order
in which the names came. A name is registered once, unless a replacement is asked
for. Taking over another registry stores its definitions one by one in the order of
their names; when a name is taken, those stored before it stay.
-/

namespace TagExpansion.Tag

/-- The tags that an engine knows. -/
structure Registry where
  tags : OrderedMap Text Definition := {}

/-- Why a registry does not take a definition. -/
inductive Refusal where
  | invalidName (name : Text)
  | duplicate (name : Text)
  deriving DecidableEq, Repr

/-- A refusal in words. -/
def Refusal.message : Refusal → Text
  | .invalidName name =>
    "Invalid tag name ".toList ++ Text.quoted name ++
      ": tag names consist of ASCII letters only".toList
  | .duplicate name => "Tag ".toList ++ Text.quoted name ++ " is already registered".toList

/-- What is to be registered. -/
structure Registration where
  name : Text
  handler : Option Handler := none
  requiresParameter : Bool := false
  recursive : Bool := false
  /-- Whether a definition of the same name may be replaced. -/
  replace : Bool := false

namespace Registry

/-- The registry without tags. -/
def empty : Registry := {}

/-- The definition of a name in any letter case. -/
def lookup (registry : Registry) (name : Text) : Option Definition :=
  registry.tags.find? (Text.lower name)

/-- Whether a name in any letter case is registered. -/
def contains (registry : Registry) (name : Text) : Bool := (registry.lookup name).isSome

/-- The number of tags. -/
def size (registry : Registry) : Nat := registry.tags.size

/-- The names in the order in which they came. -/
def keys (registry : Registry) : List Text := registry.tags.keys

/-- The names in increasing order. -/
def names (registry : Registry) : List Text :=
  registry.keys.mergeSort fun first second => !Text.isBefore second first

/-- The definitions in the order of their names. -/
def definitions (registry : Registry) : List Definition :=
  registry.names.filterMap registry.tags.find?

/-- What can be seen of the tags, in the order in which they came. -/
def features (registry : Registry) : List Features :=
  registry.tags.entries.map fun (_, definition) => definition.features

/-- Stores a definition under its name. -/
def store (registry : Registry) (definition : Definition) : Registry :=
  ⟨registry.tags.insert definition.name definition⟩

/-- Registers a tag and gives its definition. -/
def register (registry : Registry) (registration : Registration) :
    Journal Log.Entry Refusal (Registry × Definition) :=
  match canonical? registration.name with
  | none => .fail (.invalidName registration.name)
  | some name =>
    if registry.tags.contains name && !registration.replace then .fail (.duplicate name)
    else
      let definition : Definition := {
        name
        requiresParameter := registration.requiresParameter
        recursive := registration.recursive
        handler := registration.handler }
      let idle : List Log.Entry :=
        if registration.recursive && !registration.requiresParameter then
          [⟨Log.debug, "Tag ".toList ++ Text.quoted name ++
            ": 'recursive' has no effect without 'requires_parameter'".toList⟩]
        else []
      ⟨idle ++ [⟨Log.trace, "Registered tag ".toList ++ Text.quoted name ++ " (".toList ++
        definition.options ++ [')']⟩], .ok (registry.store definition, definition)⟩

/-- Registers a handler, and gives the handler back. -/
def tag (registry : Registry) (registration : Registration) :
    Journal Log.Entry Refusal (Registry × Option Handler) :=
  (registry.register registration).map fun (registry, _) => (registry, registration.handler)

/-- Registers several tags one after the other. -/
def registerAll (registry : Registry) :
    List Registration → Journal Log.Entry Refusal Registry
  | [] => .done registry
  | registration :: others => do
    let (registry, _) ← registry.register registration
    registry.registerAll others

/-- Takes a name in any letter case out. -/
def unregister (registry : Registry) (name : Text) : Registry :=
  ⟨registry.tags.erase (Text.lower name)⟩

/-- Takes a name in any letter case out, and tells whether it was registered. -/
def withdraw (registry : Registry) (name : Text) : Registry × Bool :=
  (registry.unregister name, (registry.tags.find? (Text.lower name)).isSome)

/-- Stores definitions one by one, up to the first name that is taken. -/
def storeAll (registry : Registry) (replace : Bool) :
    List Definition → Registry × Except Refusal Unit
  | [] => (registry, .ok ())
  | definition :: others =>
    if registry.tags.contains definition.name && !replace then
      (registry, .error (.duplicate definition.name))
    else (registry.store definition).storeAll replace others

/-- Takes over the definitions of another registry in the order of their names. -/
def update (registry other : Registry) (replace : Bool) : Registry × Except Refusal Unit :=
  registry.storeAll replace other.definitions

/-- A copy for further registrations, made by taking over the definitions in the order of their
names. -/
def thaw (registry : Registry) : Except Refusal Registry :=
  match empty.update registry false with
  | (copy, .ok ()) => .ok copy
  | (_, .error refusal) => .error refusal

end Registry

end TagExpansion.Tag
