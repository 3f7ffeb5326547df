/-!
Stores of limited size. What may be forgotten is kept in one, under a key.
-/

namespace ClientScript

/-- A kind of store. Looking a key up counts as a use of it, so it may change the store. -/
structure Cache (κ α : Type) where
  Store : Type
  /-- A store with room for so many keys. -/
  new : Nat → Store
  get? : κ → Store → Option α × Store
  add : κ → α → Store → Store

end ClientScript
