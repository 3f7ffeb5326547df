import Mathlib.Data.List.Dedup
import Mathlib.Data.List.Forall2
import Mathlib.Data.Set.Function
import Mathlib.Order.Nat

/-!
Lists and outcomes. What stands here is about neither code nor scripts: steps that may fail, one after the other or for
each item of a list, lists whose items are related in pairs, the places of items, and lists without repetitions.
-/

namespace ClientScript

section

variable {ε α β : Type}

theorem map_eq_ok_iff {outcome : Except ε α} {make : α → β} {result : β} :
    outcome.map make = .ok result ↔ ∃ value, outcome = .ok value ∧ make value = result := by
  cases outcome <;> simp [Except.map]

theorem bind_eq_ok_iff {outcome : Except ε α} {next : α → Except ε β} {result : β} :
    (outcome >>= next) = .ok result ↔ ∃ value, outcome = .ok value ∧ next value = .ok result := by
  cases outcome <;> simp [bind, Except.bind]

theorem mapM_eq_ok_iff {f : α → Except ε β} {items : List α} {results : List β} :
    items.mapM f = .ok results ↔ List.Forall₂ (fun item result => f item = .ok result) items results := by
  induction items generalizing results with
  | nil =>
    rw [List.forall₂_nil_left_iff]
    exact ⟨fun success => (Except.ok.inj success).symm, fun none => congrArg Except.ok none.symm⟩
  | cons item rest ih =>
    rw [List.mapM_cons, bind_eq_ok_iff, List.forall₂_cons_left_iff]
    simp only [bind_eq_ok_iff, ih]
    constructor
    · intro parts
      rcases parts with ⟨head, first, more, others, ⟨⟩⟩
      exact ⟨head, more, first, others, rfl⟩
    · intro parts
      rcases parts with ⟨head, more, first, others, rfl⟩
      exact ⟨head, first, more, others, rfl⟩

theorem mapM_eq_ok_iff_filterMap {look : α → Except ε β} {find : α → Option β}
    (same : ∀ item result, look item = .ok result ↔ find item = some result) (items : List α) (results : List β) :
    items.mapM look = .ok results ↔
      (∀ item ∈ items, (find item).isSome = true) ∧ items.filterMap find = results := by
  rw [mapM_eq_ok_iff]
  simp only [same]
  constructor
  · intro found
    induction found with
    | nil => exact ⟨List.forall_mem_nil _, rfl⟩
    | cons first later ih =>
      obtain ⟨all, listed⟩ := ih
      refine ⟨List.forall_mem_cons.2 ⟨Option.isSome_of_eq_some first, all⟩, ?_⟩
      rw [List.filterMap_cons_some first, listed]
  · intro parts
    rcases parts with ⟨all, rfl⟩
    induction items with
    | nil => exact .nil
    | cons item rest ih =>
      obtain ⟨present, all⟩ := List.forall_mem_cons.1 all
      obtain ⟨result, found⟩ := Option.isSome_iff_exists.1 present
      rw [List.filterMap_cons_some found]
      exact .cons found (ih all)

end

section

variable {α β γ : Type} {related : α → β → Prop} {items : List α} {images : List β}

theorem exists_forall₂ (each : ∀ item ∈ items, ∃ result, related item result) :
    ∃ results, List.Forall₂ related items results := by
  induction items with
  | nil => exact ⟨[], .nil⟩
  | cons item rest ih =>
    obtain ⟨⟨result, first⟩, later⟩ := List.forall_mem_cons.1 each
    obtain ⟨results, others⟩ := ih later
    exact ⟨result :: results, .cons first others⟩

theorem exists_getElem_of_forall₂ (pairs : List.Forall₂ related items images) {place : Nat} {item : α}
    (found : items[place]? = some item) :
    ∃ image, images[place]? = some image ∧ related item image := by
  induction pairs generalizing place with
  | nil => cases found
  | @cons head image rest images pair pairs ih =>
    cases place with
    | zero =>
      cases found
      exact ⟨image, rfl, pair⟩
    | succ place => exact ih found

theorem exists_mem_of_forall₂ (pairs : List.Forall₂ related items images) {item : α}
    (member : item ∈ items) : ∃ image ∈ images, related item image := by
  obtain ⟨place, found⟩ := List.getElem?_of_mem member
  obtain ⟨image, located, pair⟩ := exists_getElem_of_forall₂ pairs found
  exact ⟨image, List.mem_of_getElem? located, pair⟩

theorem forall₂_trans {one : α → β → Prop} {other : β → γ → Prop} {both : α → γ → Prop}
    (step : ∀ item next last, one item next → other next last → both item last) {nexts : List β}
    {lasts : List γ} (ones : List.Forall₂ one items nexts) (others : List.Forall₂ other nexts lasts) :
    List.Forall₂ both items lasts := by
  induction ones generalizing lasts with
  | nil =>
    cases others
    exact .nil
  | cons first _ ih =>
    cases others with
    | cons second later => exact .cons (step _ _ _ first second) (ih later)

theorem forall₂_range'_drop (items : List α) (first count : Nat) (bound : first + count ≤ items.length) :
    List.Forall₂ (fun index item => items[index]? = some item) (List.range' first count)
      ((items.drop first).take count) := by
  induction count generalizing first with
  | zero => exact .nil
  | succ count ih =>
    have inside : first < items.length := by omega
    rw [List.range'_succ, List.drop_eq_getElem_cons inside, List.take_succ_cons]
    exact .cons (List.getElem?_eq_getElem inside) (ih (first + 1) (by omega))

theorem pairwise_filterMap_zipIdx [Preorder β] {number : Nat → β} (ascends : StrictMono number)
    {choose : α × Nat → Option β} (numbers : ∀ entry value, choose entry = some value → value = number entry.2)
    (items : List α) : (items.zipIdx.filterMap choose).Pairwise (· < ·) := by
  have ordered : items.zipIdx.Pairwise fun one other => one.2 < other.2 := by
    apply List.pairwise_map.1
    rw [List.zipIdx_map_snd]
    exact List.pairwise_lt_range' 1
  refine List.pairwise_filterMap.2 (ordered.imp ?_)
  intro one other before low isLow high isHigh
  rw [numbers one low isLow, numbers other high isHigh]
  exact ascends before

theorem le_foldl_max (size : α → Nat) (items : List α) (least : Nat) :
    least ≤ items.foldl (fun most item => max most (size item)) least ∧
      ∀ item ∈ items, size item ≤ items.foldl (fun most item => max most (size item)) least := by
  induction items generalizing least with
  | nil => exact ⟨le_refl least, fun item member => by cases member⟩
  | cons first items ih =>
    obtain ⟨grown, others⟩ := ih (max least (size first))
    rw [List.foldl_cons]
    refine ⟨by omega, ?_⟩
    intro item member
    rcases List.mem_cons.1 member with rfl | later
    · omega
    · exact others item later

theorem drop_append_eq_iff (front back : List α) (count : Nat) :
    count ≤ (front ++ back).length ∧ back = (front ++ back).drop count ↔ count = front.length := by
  constructor
  · intro dropped
    have length := congrArg List.length dropped.2
    have bound := dropped.1
    rw [List.length_drop, List.length_append] at length
    rw [List.length_append] at bound
    omega
  · intro exact
    subst exact
    simp

theorem intercalate_cons (separator first : List α) (more : List (List α)) :
    separator.intercalate (first :: more) = first ++ more.flatMap (separator ++ ·) := by
  induction more generalizing first with
  | nil => simp
  | cons next more ih => rw [List.intercalate_cons_cons, ih, List.flatMap_cons, List.append_assoc, List.append_assoc]

end

section

variable {α β : Type} [BEq α] [LawfulBEq α] [BEq β] [LawfulBEq β] {change : α → β} {items : List α}

theorem idxOf_map {item : α} (apart : ∀ other ∈ items, change other = change item → other = item) :
    (items.map change).idxOf (change item) = items.idxOf item := by
  induction items with
  | nil => rfl
  | cons head rest ih =>
    obtain ⟨first, others⟩ := List.forall_mem_cons.1 apart
    by_cases here : head = item
    · rw [here, List.map_cons, List.idxOf_cons_self, List.idxOf_cons_self]
    · have elsewhere : change head ≠ change item := fun same => here (first same)
      rw [List.map_cons, List.idxOf_cons_ne _ elsewhere, List.idxOf_cons_ne _ here, ih others]

theorem idxOf_lt_of_filter {keeps : α → Bool} {one other : α} (keepsOne : keeps one = true)
    (keepsOther : keeps other = true)
    (earlier : (items.filter keeps).idxOf one < (items.filter keeps).idxOf other) :
    items.idxOf one < items.idxOf other := by
  induction items with
  | nil => exact earlier
  | cons item rest ih =>
    by_cases kept : keeps item = true
    · rw [List.filter_cons_of_pos kept] at earlier
      by_cases isOne : item = one
      · subst one
        have apart : item ≠ other := by
          intro same
          rw [same] at earlier
          exact absurd earlier (Nat.lt_irrefl _)
        rw [List.idxOf_cons_self, List.idxOf_cons_ne rest apart]
        exact Nat.succ_pos _
      · by_cases isOther : item = other
        · subst other
          rw [List.idxOf_cons_self] at earlier
          exact absurd earlier (Nat.not_lt_zero _)
        · rw [List.idxOf_cons_ne _ isOne, List.idxOf_cons_ne _ isOther] at earlier ⊢
          exact Nat.succ_lt_succ (ih (Nat.lt_of_succ_lt_succ earlier))
    · have apartOne : item ≠ one := fun same => kept (same ▸ keepsOne)
      have apartOther : item ≠ other := fun same => kept (same ▸ keepsOther)
      rw [List.filter_cons_of_neg kept] at earlier
      rw [List.idxOf_cons_ne rest apartOne, List.idxOf_cons_ne rest apartOther]
      exact Nat.succ_lt_succ (ih earlier)

end

section

variable {κ ι : Type} [DecidableEq κ] [DecidableEq ι]

theorem dedup_concat (used : List κ) (key : κ) : (used ++ [key]).dedup = used.dedup.filter (· ≠ key) ++ [key] := by
  induction used with
  | nil => rfl
  | cons first rest ih =>
    rw [List.cons_append]
    by_cases again : first ∈ rest
    · rw [List.dedup_cons_of_mem again, List.dedup_cons_of_mem (List.mem_append_left _ again), ih]
    · rw [List.dedup_cons_of_notMem again]
      by_cases same : first = key
      · rw [List.dedup_cons_of_mem (by simp [same]), ih, List.filter_cons_of_neg (by simp [same])]
      · rw [List.dedup_cons_of_notMem (by simp [again, same]), ih, List.filter_cons_of_pos (by simp [same])]
        rfl

theorem dedup_map_of_injOn {name : κ → ι} {used : List κ} (distinct : Set.InjOn name {key | key ∈ used}) :
    (used.map name).dedup = used.dedup.map name := by
  induction used with
  | nil => rfl
  | cons first rest ih =>
    have later : Set.InjOn name {key | key ∈ rest} := distinct.mono fun _ listed => List.mem_cons_of_mem first listed
    rw [List.map_cons]
    by_cases again : first ∈ rest
    · rw [List.dedup_cons_of_mem (List.mem_map_of_mem again), List.dedup_cons_of_mem again, ih later]
    · have apart : name first ∉ rest.map name := by
        intro listed
        obtain ⟨other, inside, same⟩ := List.mem_map.1 listed
        obtain rfl := distinct (List.mem_cons_of_mem first inside) List.mem_cons_self same
        exact again inside
      rw [List.dedup_cons_of_notMem apart, List.dedup_cons_of_notMem again, List.map_cons, ih later]

/-- Of distinct keys no more than one goes, so one more of them is enough to have as many left. -/
theorem take_filter_take {keys : List κ} (distinct : keys.Nodup) (key : κ) (count : Nat) :
    ((keys.take (count + 1)).filter (· ≠ key)).take count = (keys.filter (· ≠ key)).take count := by
  induction keys generalizing count with
  | nil => rfl
  | cons first rest ih =>
    obtain ⟨apart, distinct⟩ := List.nodup_cons.1 distinct
    rw [List.take_succ_cons]
    by_cases same : first = key
    · subst same
      have others {keys : List κ} (inside : keys ⊆ rest) : keys.filter (· ≠ first) = keys :=
        List.filter_eq_self.2 fun other listed => decide_eq_true fun same => apart (same ▸ inside listed)
      rw [List.filter_cons_of_neg (by simp), List.filter_cons_of_neg (by simp), others (List.take_subset count rest),
        others (List.Subset.refl rest), List.take_take, Nat.min_self]
    · rw [List.filter_cons_of_pos (by simpa using same), List.filter_cons_of_pos (by simpa using same)]
      cases count with
      | zero => rfl
      | succ count => rw [List.take_succ_cons, List.take_succ_cons, ih distinct]

end

end ClientScript
