import ClientScript.Batch.Cache

/-!
A store of limited size that keeps what was used most recently.
-/

namespace ClientScript

/-- The entries are in the order of their use, the latest first. -/
structure Recent (κ α : Type) where
  capacity : Nat
  entries : List (κ × α) := []
deriving Repr

namespace Recent

variable {κ α : Type} [DecidableEq κ]

def others (key : κ) (entries : List (κ × α)) : List (κ × α) :=
  entries.filter fun entry => entry.1 ≠ key

def get? (key : κ) (store : Recent κ α) : Option α × Recent κ α :=
  match store.entries.lookup key with
  | some value => (some value, { store with entries := (key, value) :: others key store.entries })
  | none => (none, store)

/-- Gives a key its value. The key used longest ago makes room for a new one. -/
def add (key : κ) (value : α) (store : Recent κ α) : Recent κ α :=
  { store with entries := ((key, value) :: others key store.entries).take store.capacity }

def keys (store : Recent κ α) : List κ := store.entries.map (·.1)

def cache : Cache κ α where
  Store := Recent κ α
  new capacity := ⟨capacity, []⟩
  get? := get?
  add := add

end Recent

end ClientScript
