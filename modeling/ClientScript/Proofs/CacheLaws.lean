import Mathlib.Data.List.Induction
import ClientScript.Batch.Recent

/-!
What a store is relied on for. A store is known by its history, the uses it was put to since it was new. A cache returns
what was last added if a value that is found is the last one added under its key. It is a cache of the keys used most
recently if a use makes a key the latest and the key used longest ago makes room. `Recent` is both.
-/

namespace ClientScript

variable {κ α : Type}

inductive Access (κ α : Type) where
  | get (key : κ)
  | add (key : κ) (value : α)

/-- The value that a key had last in a history. -/
def lastAdded? [DecidableEq κ] (key : κ) (history : List (Access κ α)) : Option α :=
  history.reverse.findSome? fun
    | .get _ => none
    | .add other value => if other = key then some value else none

section

variable [DecidableEq κ] {key other : κ} {value : α} (history : List (Access κ α))

theorem lastAdded_get : lastAdded? key (history ++ [.get other]) = lastAdded? key history := by
  simp [lastAdded?]

theorem lastAdded_add : lastAdded? key (history ++ [.add other value]) =
    if other = key then some value else lastAdded? key history := by
  by_cases same : other = key
  · simp [lastAdded?, same]
  · simp [lastAdded?, same]

theorem mem_of_lastAdded {history : List (Access κ α)} (last : lastAdded? key history = some value) :
    .add key value ∈ history := by
  obtain ⟨access, used, added⟩ := List.exists_of_findSome?_eq_some last
  cases access with
  | get other => cases added
  | add other given =>
    obtain ⟨rfl, rfl⟩ : other = key ∧ given = value := by simpa using added
    exact List.mem_reverse.1 used

end

namespace Cache

variable (cache : Cache κ α)

def access (store : cache.Store) : Access κ α → cache.Store
  | .get key => (cache.get? key store).2
  | .add key value => cache.add key value store

def after (size : Nat) (history : List (Access κ α)) : cache.Store :=
  history.foldl cache.access (cache.new size)

theorem after_concat (size : Nat) (history : List (Access κ α)) (access : Access κ α) :
    cache.after size (history ++ [access]) = cache.access (cache.after size history) access := by
  rw [after, List.foldl_append]
  rfl

/-- A value that is found is the one that was last added under the key. -/
def ReturnsLastAdded [DecidableEq κ] : Prop :=
  ∀ size history key value, 0 < size → (cache.get? key (cache.after size history)).1 = some value →
    lastAdded? key history = some value

/-- The keys at hand are in the order of their last use, the latest first. A key that is found or added becomes the
latest, and beyond the room of the store the last one goes. -/
structure IsLru [DecidableEq κ] (keys : cache.Store → List κ) : Prop where
  new : ∀ size, 0 < size → keys (cache.new size) = []
  found : ∀ size history key, 0 < size →
    ((cache.get? key (cache.after size history)).1.isSome ↔ key ∈ keys (cache.after size history))
  hit : ∀ size history key, 0 < size → key ∈ keys (cache.after size history) →
    keys (cache.get? key (cache.after size history)).2 = key :: (keys (cache.after size history)).filter (· ≠ key)
  miss : ∀ size history key, 0 < size → key ∉ keys (cache.after size history) →
    keys (cache.get? key (cache.after size history)).2 = keys (cache.after size history)
  add : ∀ size history key value, 0 < size → keys (cache.add key value (cache.after size history)) =
    (key :: (keys (cache.after size history)).filter (· ≠ key)).take size

variable {cache}

/-- The store was new once, and something holds of every key and value that was added to it since. -/
def Holds (cache : Cache κ α) (holds : κ → α → Prop) (store : cache.Store) : Prop :=
  ∃ size history, 0 < size ∧ store = cache.after size history ∧
    ∀ key value, .add key value ∈ history → holds key value

namespace Holds

variable {holds : κ → α → Prop} {store : cache.Store}

theorem new {size : Nat} (room : 0 < size) : cache.Holds holds (cache.new size) :=
  ⟨size, [], room, rfl, nofun⟩

theorem access (kept : cache.Holds holds store) (access : Access κ α)
    (held : ∀ key value, access = .add key value → holds key value) :
    cache.Holds holds (cache.access store access) := by
  obtain ⟨size, history, room, rfl, added⟩ := kept
  refine ⟨size, history ++ [access], room, (cache.after_concat size history access).symm, fun key value used => ?_⟩
  rcases List.mem_append.1 used with earlier | last
  · exact added key value earlier
  · exact held key value (List.mem_singleton.1 last).symm

theorem get (kept : cache.Holds holds store) (key : κ) : cache.Holds holds (cache.get? key store).2 :=
  kept.access (.get key) nofun

theorem add {key : κ} {value : α} (kept : cache.Holds holds store) (held : holds key value) :
    cache.Holds holds (cache.add key value store) := by
  refine kept.access (.add key value) fun other given same => ?_
  cases same
  exact held

theorem of_found [DecidableEq κ] (lawful : cache.ReturnsLastAdded) (kept : cache.Holds holds store) {key : κ}
    {value : α} (found : (cache.get? key store).1 = some value) : holds key value := by
  obtain ⟨size, history, room, rfl, added⟩ := kept
  exact added key value (mem_of_lastAdded (lawful size history key value room found))

end Holds

end Cache

namespace Recent

variable [DecidableEq κ] {key other : κ} {value : α} {store : Recent κ α}

theorem get_of_hit (known : store.entries.lookup key = some value) :
    store.get? key = (some value, { store with entries := (key, value) :: others key store.entries }) := by
  rw [get?, known]

theorem get_of_miss (unknown : store.entries.lookup key = none) : store.get? key = (none, store) := by
  rw [get?, unknown]

theorem get_fst (key : κ) (store : Recent κ α) : (store.get? key).1 = store.entries.lookup key := by
  cases known : store.entries.lookup key with
  | none => rw [get_of_miss known]
  | some value => rw [get_of_hit known]

theorem capacity_get (key : κ) (store : Recent κ α) : (store.get? key).2.capacity = store.capacity := by
  cases known : store.entries.lookup key with
  | none => rw [get_of_miss known]
  | some value => rw [get_of_hit known]

theorem mem_keys_iff : key ∈ store.keys ↔ (store.entries.lookup key).isSome := by
  rw [keys, List.mem_map, List.lookup_isSome_iff]
  constructor
  · intro parts
    rcases parts with ⟨entry, listed, same⟩
    exact ⟨entry, listed, beq_iff_eq.2 same.symm⟩
  · intro parts
    rcases parts with ⟨entry, listed, same⟩
    exact ⟨entry, listed, (beq_iff_eq.1 same).symm⟩

theorem keys_others (key : κ) (entries : List (κ × α)) :
    (others key entries).map (·.1) = (entries.map (·.1)).filter (· ≠ key) := by
  rw [List.filter_map]
  rfl

theorem keys_get_of_mem (listed : key ∈ store.keys) :
    (store.get? key).2.keys = key :: store.keys.filter (· ≠ key) := by
  obtain ⟨value, known⟩ := Option.isSome_iff_exists.1 (mem_keys_iff.1 listed)
  rw [get_of_hit known]
  exact congrArg (key :: ·) (keys_others key store.entries)

theorem get_of_not_mem (absent : key ∉ store.keys) : (store.get? key).2 = store := by
  rw [mem_keys_iff, Option.not_isSome_iff_eq_none] at absent
  rw [get_of_miss absent]

theorem keys_add (key : κ) (value : α) (store : Recent κ α) :
    (store.add key value).keys = (key :: store.keys.filter (· ≠ key)).take store.capacity := by
  unfold keys add
  rw [List.map_take, List.map_cons, keys_others]

theorem lookup_others (apart : other ≠ key) (entries : List (κ × α)) :
    (others other entries).lookup key = entries.lookup key := by
  induction entries with
  | nil => rfl
  | cons entry rest ih =>
    unfold others at ih ⊢
    by_cases same : entry.1 = other
    · have skipped : (key == entry.1) = false := by simpa [same] using apart.symm
      rw [List.filter_cons_of_neg (by simpa using same), ih, List.lookup_cons, skipped]
    · rw [List.filter_cons_of_pos (by simpa using same), List.lookup_cons, List.lookup_cons, ih]

theorem lookup_front (entries : List (κ × α)) :
    ((other, value) :: others other entries).lookup key = if other = key then some value else entries.lookup key := by
  by_cases same : other = key
  · rw [if_pos same, List.lookup_cons, beq_iff_eq.2 same.symm]
  · rw [if_neg same, List.lookup_cons, beq_false_of_ne (Ne.symm same), lookup_others same]

theorem lookup_get (store : Recent κ α) : (store.get? other).2.entries.lookup key = store.entries.lookup key := by
  cases known : store.entries.lookup other with
  | none => rw [get_of_miss known]
  | some value =>
    rw [get_of_hit known, lookup_front]
    split
    next same => rw [← same, known]
    next => rfl

theorem lookup_of_add {given : α} (found : (store.add other given).entries.lookup key = some value) :
    (if other = key then some given else store.entries.lookup key) = some value := by
  have whole := List.take_append_drop store.capacity ((other, given) :: others other store.entries)
  rw [← lookup_front, ← whole, List.lookup_append]
  exact congrArg (Option.or · _) found

structure Follows (size : Nat) (history : List (Access κ α)) (store : Recent κ α) : Prop where
  capacity : store.capacity = size
  last : ∀ key value, store.entries.lookup key = some value → lastAdded? key history = some value

theorem follows_after (size : Nat) (history : List (Access κ α)) : Follows size history (cache.after size history) := by
  induction history using List.reverseRecOn with
  | nil => exact ⟨rfl, nofun⟩
  | append_singleton history access ih =>
    rw [Cache.after_concat]
    cases access with
    | get other =>
      refine ⟨(capacity_get other _).trans ih.capacity, fun key value found => ?_⟩
      rw [lastAdded_get]
      exact ih.last key value ((lookup_get _).symm.trans found)
    | add other given =>
      refine ⟨ih.capacity, fun key value found => ?_⟩
      have added := lookup_of_add found
      rw [lastAdded_add]
      split
      next same => rwa [if_pos same] at added
      next apart =>
        rw [if_neg apart] at added
        exact ih.last key value added

theorem returnsLastAdded : (cache : Cache κ α).ReturnsLastAdded := fun size history key value _ found =>
  (follows_after size history).last key value ((get_fst key _).symm.trans found)

theorem isLru : (cache : Cache κ α).IsLru keys where
  new _ _ := rfl
  found _ _ key _ := (Eq.congr_left (congrArg Option.isSome (get_fst key _))).trans mem_keys_iff.symm
  hit _ _ _ _ listed := keys_get_of_mem listed
  miss _ _ _ _ absent := congrArg keys (get_of_not_mem absent)
  add size history key value _ := by
    have kept := keys_add key value (cache.after size history : Recent κ α)
    rwa [(follows_after size history).capacity] at kept

end Recent

end ClientScript
