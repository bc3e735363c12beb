/-
This file has maps that remember the order in which their keys came.

A new key goes to the end, and a key that gets a new value keeps its place. So no
key ever stands twice, and a map carries the proof of that. The view of a map is its
list of entries, and every operation is described by what it does to the look-up of a
key and to the list of keys.
-/

namespace TagExpansion

/-- A map as the list of its entries, in the order in which the keys came. -/
structure OrderedMap (κ α : Type) where
  entries : List (κ × α) := []
  distinct : (entries.map Prod.fst).Nodup := by exact List.nodup_nil
  deriving Repr

namespace OrderedMap

variable {κ α : Type}

/-- The map without entries. -/
def empty : OrderedMap κ α := {}

/-- The keys of a map in order. -/
def keys (map : OrderedMap κ α) : List κ := map.entries.map Prod.fst

/-- The number of entries. -/
def size (map : OrderedMap κ α) : Nat := map.entries.length

variable [DecidableEq κ]

/-- The value of a key in a list of entries. -/
def findIn (key : κ) : List (κ × α) → Option α
  | [] => none
  | (other, value) :: rest => if other = key then some value else findIn key rest

/-- A list of entries with a new value for a key. -/
def insertIn (key : κ) (value : α) : List (κ × α) → List (κ × α)
  | [] => [(key, value)]
  | (other, old) :: rest =>
    if other = key then (other, value) :: rest else (other, old) :: insertIn key value rest

/-- A new key goes to the end of the keys, and a known one changes nothing. -/
theorem map_fst_insertIn (key : κ) (value : α) (entries : List (κ × α)) :
    (insertIn key value entries).map Prod.fst =
      if key ∈ entries.map Prod.fst then entries.map Prod.fst
      else entries.map Prod.fst ++ [key] := by
  induction entries with
  | nil => simp [insertIn]
  | cons entry rest ih =>
    obtain ⟨known, old⟩ := entry
    by_cases same : known = key
    · simp [insertIn, same]
    · have different : key ≠ known := fun h => same h.symm
      by_cases member : key ∈ rest.map Prod.fst <;> simp_all [insertIn]

/-- No key stands twice after an insertion. -/
theorem nodup_insertIn {key : κ} {value : α} {entries : List (κ × α)}
    (distinct : (entries.map Prod.fst).Nodup) :
    ((insertIn key value entries).map Prod.fst).Nodup := by
  rw [map_fst_insertIn]
  split
  · exact distinct
  · rename_i fresh
    rw [List.nodup_append]
    refine ⟨distinct, List.nodup_cons.2 ⟨List.not_mem_nil, List.nodup_nil⟩, ?_⟩
    intro known member other isKey same
    rw [List.mem_singleton] at isKey
    exact fresh (isKey ▸ same ▸ member)

/-- The value of a key. -/
def find? (map : OrderedMap κ α) (key : κ) : Option α := findIn key map.entries

/-- Whether a key has a value. -/
def contains (map : OrderedMap κ α) (key : κ) : Bool := (map.find? key).isSome

/-- Gives a key a value: a new key goes to the end, a known one keeps its place. -/
def insert (map : OrderedMap κ α) (key : κ) (value : α) : OrderedMap κ α :=
  ⟨insertIn key value map.entries, nodup_insertIn map.distinct⟩

/-- Takes a key out. -/
def erase (map : OrderedMap κ α) (key : κ) : OrderedMap κ α :=
  ⟨map.entries.filter fun entry => entry.1 ≠ key,
    map.distinct.sublist ((List.filter_sublist).map Prod.fst)⟩

/-- Gives several keys values, one after the other. -/
def insertAll (map : OrderedMap κ α) (entries : List (κ × α)) : OrderedMap κ α :=
  entries.foldl (fun map (key, value) => map.insert key value) map

/-- The map made of a list of entries: of several values of one key the last counts. -/
def ofList (entries : List (κ × α)) : OrderedMap κ α := empty.insertAll entries

/-- One map laid over another. -/
def merge (lower upper : OrderedMap κ α) : OrderedMap κ α := lower.insertAll upper.entries

/-! ### Look-up and keys -/

theorem findIn_insertIn (key other : κ) (value : α) (entries : List (κ × α)) :
    findIn other (insertIn key value entries) =
      if key = other then some value else findIn other entries := by
  induction entries with
  | nil => simp [insertIn, findIn]
  | cons entry rest ih =>
    obtain ⟨known, old⟩ := entry
    grind [insertIn, findIn]

/-- A look-up after an insertion. -/
theorem find?_insert (map : OrderedMap κ α) (key other : κ) (value : α) :
    (map.insert key value).find? other = if key = other then some value else map.find? other :=
  findIn_insertIn key other value map.entries

theorem findIn_filter (key other : κ) (entries : List (κ × α)) :
    findIn other (entries.filter fun entry => entry.1 ≠ key) =
      if key = other then none else findIn other entries := by
  induction entries with
  | nil => simp [findIn]
  | cons entry rest ih =>
    obtain ⟨known, old⟩ := entry
    grind [findIn]

/-- A look-up after a removal. -/
theorem find?_erase (map : OrderedMap κ α) (key other : κ) :
    (map.erase key).find? other = if key = other then none else map.find? other :=
  findIn_filter key other map.entries

/-- The keys after an insertion. -/
theorem keys_insert (map : OrderedMap κ α) (key : κ) (value : α) :
    (map.insert key value).keys = if key ∈ map.keys then map.keys else map.keys ++ [key] :=
  map_fst_insertIn key value map.entries

end OrderedMap

end TagExpansion
