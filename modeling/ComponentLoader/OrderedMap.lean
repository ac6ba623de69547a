set_option autoImplicit false

/-!
# Ordered maps (SPEC §3)

A map as the list of its entries in the order of their keys.  Which keys are the same is decided by
their order alone, so two keys that compare equal share an entry; the entry keeps the spelling of
the key under which it was first put.
-/

namespace ComponentLoader

/-- A map from keys to values, its entries in the order of the keys. -/
structure OrderedMap (κ ν : Type) where
  entries : List (κ × ν)
  deriving Repr, Inhabited

namespace OrderedMap

variable {κ ν : Type} [Ord κ]

/-- The map without entries. -/
def empty : OrderedMap κ ν := ⟨[]⟩

/-- Puts an entry into its place in a list; an entry with an equal key keeps its key. -/
def insertEntry (key : κ) (value : ν) : List (κ × ν) → List (κ × ν)
  | [] => [(key, value)]
  | (k, v) :: rest =>
    match compare key k with
    | .lt => (key, value) :: (k, v) :: rest
    | .eq => (k, value) :: rest
    | .gt => (k, v) :: insertEntry key value rest

/-- The map in which `key` has `value`. -/
def insert (map : OrderedMap κ ν) (key : κ) (value : ν) : OrderedMap κ ν :=
  ⟨insertEntry key value map.entries⟩

/-- The value of a key. -/
def get? (map : OrderedMap κ ν) (key : κ) : Option ν :=
  (map.entries.find? fun entry => compare key entry.1 == .eq).map (·.2)

/-- The keys in order. -/
def keys (map : OrderedMap κ ν) : List κ :=
  map.entries.map (·.1)

/-- The number of entries. -/
def size (map : OrderedMap κ ν) : Nat :=
  map.entries.length

end OrderedMap

end ComponentLoader
