import ClientScript.Flow.Resolve
import ClientScript.Proofs.StoredForm

/-!
The labels of case groups. A group is divided before every `or`, a run between two of them stands for a range
of labels, and the group for the labels of all its ranges. Expanding a group adds a case for each of these
labels, and fails exactly if the group stands for none or if a label would be there twice.
-/

namespace ClientScript

/-- A run of labels stands for a range: one label for itself, two for all from the one to the other. -/
inductive Spans : List Term → LabelRange → Prop where
  | one (term : Term) : Spans [term] ⟨term.label, term.label⟩
  | two (low high : Term) : Spans [low, high] ⟨low.label, high.label⟩

namespace CaseGroup

/-- The labels of a group, divided before every `or`. -/
def runs (group : CaseGroup) : List (List Term) :=
  group.terms.splitBy fun _ term => term.join ≠ .or

structure Offers (group : CaseGroup) (ranges : List LabelRange) : Prop where
  some_term : group.terms ≠ []
  joined : ∀ term ∈ group.terms.tail, term.IsJoined
  spans : List.Forall₂ Spans group.runs ranges

/-- The labels that a group stands for, if none of its ranges is empty or has more than so many labels. -/
def Labels (most : Int) (group : CaseGroup) (labels : List Int32) : Prop :=
  ∃ ranges, group.Offers ranges ∧
    (∀ range ∈ ranges, range.low ≤ range.high ∧ range.high.toInt - range.low.toInt < most) ∧
    labels = ranges.flatMap LabelRange.labels

theorem closeRun_eq_ok_iff (run : List Term) (range : LabelRange) :
    closeRun (run.map Term.label) = .ok range ↔ Spans run range := by
  constructor
  · intro closes
    match run with
    | [] => cases closes
    | [term] =>
      cases closes
      exact .one term
    | [low, high] =>
      cases closes
      exact .two low high
    | _ :: _ :: _ :: _ => cases closes
  · intro spans
    cases spans <;> rfl

theorem splitBy_run {run : List Term} (started : run ≠ []) (whole : run.IsChain fun _ term => term.join ≠ .or) :
    (run.splitBy fun _ term => term.join ≠ .or) = [run] :=
  List.splitBy_of_isChain started (whole.imp fun _ _ apart => decide_eq_true apart)

/-- The labels at hand are the run that goes on; what follows divides where it says `or`. -/
theorem alternativesFrom_eq_ok_iff {run : List Term} (started : run ≠ [])
    (whole : run.IsChain fun _ term => term.join ≠ .or) (rest : List Term) (ranges : List LabelRange) :
    alternativesFrom (run.map Term.label) rest = .ok ranges ↔
      (∀ term ∈ rest, term.IsJoined) ∧
        List.Forall₂ Spans ((run ++ rest).splitBy fun _ term => term.join ≠ .or) ranges := by
  induction rest generalizing run ranges with
  | nil =>
    rw [alternativesFrom, List.append_nil, splitBy_run started whole, map_eq_ok_iff]
    simp only [closeRun_eq_ok_iff]
    constructor
    · intro parts
      rcases parts with ⟨range, spans, rfl⟩
      exact ⟨List.forall_mem_nil _, .cons spans .nil⟩
    · intro parts
      rcases parts with ⟨-, _ | ⟨spans, ⟨⟩⟩⟩
      exact ⟨_, spans, rfl⟩
  | cons term rest ih =>
    rw [alternativesFrom, List.forall_mem_cons]
    by_cases or : term.join = .or
    · have divided : ((run ++ term :: rest).splitBy fun _ term => term.join ≠ .or) =
          run :: ([term] ++ rest).splitBy fun _ term => term.join ≠ .or := by
        rw [List.splitBy_append_cons rest (by simp [or]), splitBy_run started whole]
        rfl
      have tail := ih (List.cons_ne_nil term []) (.singleton term)
      rw [if_pos or, divided, List.forall₂_cons_left_iff]
      constructor
      · intro success
        cases closes : closeRun (run.map Term.label) with
        | error fault =>
          rw [closes] at success
          cases success
        | ok range =>
          rw [closes] at success
          obtain ⟨more, later, rfl⟩ := map_eq_ok_iff.1 success
          obtain ⟨joined, spans⟩ := (tail more).1 later
          exact ⟨⟨.inl or, joined⟩, range, more, (closeRun_eq_ok_iff run range).1 closes, spans, rfl⟩
      · intro parts
        rcases parts with ⟨⟨-, joined⟩, range, more, spans, later, rfl⟩
        rw [(closeRun_eq_ok_iff run range).2 spans]
        exact map_eq_ok_iff.2 ⟨more, (tail more).2 ⟨joined, later⟩, rfl⟩
    · by_cases and : term.join = .and
      · have longer : (run ++ [term]).IsChain fun _ term => term.join ≠ .or :=
          List.isChain_append.2 ⟨whole, .singleton term, by simp [or]⟩
        have tail := ih (List.append_ne_nil_of_right_ne_nil run (List.cons_ne_nil term [])) longer ranges
        rw [List.map_append, List.append_assoc] at tail
        rw [if_neg or, if_pos and, and_iff_right (show term.IsJoined from .inr and)]
        exact tail
      · rw [if_neg or, if_neg and]
        constructor
        · intro success
          cases success
        · intro parts
          rcases parts with ⟨⟨isOr | isAnd, -⟩, -⟩
          · exact absurd isOr or
          · exact absurd isAnd and

theorem alternatives_eq_ok_iff (group : CaseGroup) (ranges : List LabelRange) :
    group.alternatives = .ok ranges ↔ group.Offers ranges := by
  obtain ⟨terms, disp⟩ := group
  cases terms with
  | nil =>
    constructor
    · intro success
      cases success
    · intro offers
      exact absurd rfl offers.some_term
  | cons first more =>
    have reading := alternativesFrom_eq_ok_iff (List.cons_ne_nil first []) (.singleton first) more ranges
    constructor
    · intro success
      obtain ⟨joined, spans⟩ := reading.1 success
      exact ⟨List.cons_ne_nil _ _, joined, spans⟩
    · intro offers
      exact reading.2 ⟨offers.joined, offers.spans⟩

end CaseGroup

theorem LabelRange.isValid_iff (range : LabelRange) (most : Int) :
    range.isValid most = true ↔ range.low ≤ range.high ∧ range.high.toInt - range.low.toInt < most := by
  simp [isValid]

namespace Expansion

variable {ε α : Type}

structure IsConsistent (expansion : Expansion) : Prop where
  distinct : (expansion.cases.map CaseTarget.label).Nodup
  labels : ∀ label, label ∈ expansion.labels ↔ label ∈ expansion.cases.map CaseTarget.label

structure Grows (rows : List CaseTarget) (expansion result : Expansion) : Prop where
  cases : result.cases = rows.reverse ++ expansion.cases
  consistent : result.IsConsistent

/-- The step adds cases that have this form, and fails only if there are none or if a label would be there
twice. -/
def Adds (step : Expansion → Except ε Expansion) (form : List CaseTarget → Prop) : Prop :=
  ∀ expansion : Expansion, expansion.IsConsistent →
    (∀ result, step expansion = .ok result → ∃ rows, form rows ∧ Grows rows expansion result) ∧
      ∀ rows, form rows → ((rows.reverse ++ expansion.cases).map CaseTarget.label).Nodup →
        ∃ result, step expansion = .ok result ∧ Grows rows expansion result

namespace Adds

theorem congr {step : Expansion → Except ε Expansion} {form form' : List CaseTarget → Prop} (adds : Adds step form)
    (same : ∀ rows, form rows ↔ form' rows) : Adds step form' := by
  rwa [← funext fun rows => propext (same rows)]

theorem mapError {ε' : Type} {step : Expansion → Except ε Expansion} {form : List CaseTarget → Prop}
    (adds : Adds step form) (change : ε → ε') : Adds (fun expansion => (step expansion).mapError change) form := by
  have same (expansion result : Expansion) :
      (step expansion).mapError change = .ok result ↔ step expansion = .ok result := by
    cases step expansion <;> simp [Except.mapError]
  intro expansion consistent
  simp only [same]
  exact adds expansion consistent

theorem nothing : Adds (fun expansion => (.ok expansion : Except ε Expansion)) fun rows => rows = [] := by
  intro expansion consistent
  have unchanged : Grows [] expansion expansion := ⟨rfl, consistent⟩
  constructor
  · intro result success
    cases success
    exact ⟨[], rfl, unchanged⟩
  · intro rows none distinct
    subst rows
    exact ⟨expansion, rfl, unchanged⟩

theorem fail (error : ε) : Adds (fun _ => .error error) fun _ => False := by
  intro expansion consistent
  constructor
  · intro result success
    cases success
  · intro rows none
    exact none.elim

theorem guard {condition : Prop} [Decidable condition] {step : Expansion → Except ε Expansion} {error : ε}
    {form : List CaseTarget → Prop} (adds : Adds step form) :
    Adds (fun expansion => if condition then step expansion else .error error) fun rows =>
      condition ∧ form rows := by
  by_cases holds : condition
  · simpa only [holds, ↓reduceIte, true_and] using adds
  · simpa only [holds, ↓reduceIte, false_and] using fail error

theorem bind {first second : Expansion → Except ε Expansion} {form form' : List CaseTarget → Prop}
    (adds : Adds first form) (addsMore : Adds second form') :
    Adds (fun expansion => first expansion >>= second) fun rows =>
      ∃ front back, rows = front ++ back ∧ form front ∧ form' back := by
  have joined {front back : List CaseTarget} {expansion middle result : Expansion}
      (grows : Grows front expansion middle) (growsMore : Grows back middle result) :
      Grows (front ++ back) expansion result := by
    refine ⟨?_, growsMore.consistent⟩
    rw [growsMore.cases, grows.cases, List.reverse_append, List.append_assoc]
  intro expansion consistent
  constructor
  · intro result success
    obtain ⟨middle, start, finish⟩ := bind_eq_ok_iff.1 success
    obtain ⟨front, formed, grows⟩ := (adds expansion consistent).1 middle start
    obtain ⟨back, formedMore, growsMore⟩ := (addsMore middle grows.consistent).1 result finish
    exact ⟨_, ⟨front, back, rfl, formed, formedMore⟩, joined grows growsMore⟩
  · intro rows parts distinct
    obtain ⟨front, back, rfl, formed, formedMore⟩ := parts
    rw [List.reverse_append, List.append_assoc] at distinct
    -- The first step finds fewer labels than there are in the end.
    have fewer : ((front.reverse ++ expansion.cases).map CaseTarget.label).Nodup := by
      rw [List.map_append] at distinct
      exact (List.nodup_append.1 distinct).2.1
    obtain ⟨middle, start, grows⟩ := (adds expansion consistent).2 front formed fewer
    rw [← grows.cases] at distinct
    obtain ⟨result, finish, growsMore⟩ := (addsMore middle grows.consistent).2 back formedMore distinct
    exact ⟨result, bind_eq_ok_iff.2 ⟨middle, start, finish⟩, joined grows growsMore⟩

theorem foldlM {step : Expansion → α → Except ε Expansion} {allowed : α → Prop} {rows : α → List CaseTarget}
    (each : ∀ item, Adds (fun expansion => step expansion item) fun added => allowed item ∧ added = rows item)
    (items : List α) :
    Adds (fun expansion => items.foldlM step expansion) fun added =>
      (∀ item ∈ items, allowed item) ∧ added = items.flatMap rows := by
  induction items with
  | nil => exact nothing.congr fun added => (and_iff_right (List.forall_mem_nil _)).symm
  | cons item rest ih =>
    refine ((each item).bind ih).congr fun added => ?_
    rw [List.forall_mem_cons, List.flatMap_cons]
    constructor
    · intro parts
      rcases parts with ⟨front, back, rfl, ⟨head, rfl⟩, tail, rfl⟩
      exact ⟨⟨head, tail⟩, rfl⟩
    · intro parts
      rcases parts with ⟨⟨head, tail⟩, rfl⟩
      exact ⟨_, _, rfl, ⟨head, rfl⟩, tail, rfl⟩

end Adds

theorem adds_add (target : Int) (label : Int32) :
    Adds (fun expansion => expansion.add target label) fun added => True ∧ added = [⟨label, target⟩] := by
  intro expansion consistent
  have present : expansion.labels.contains label = true ↔ label ∈ expansion.cases.map CaseTarget.label :=
    Std.TreeSet.contains_iff_mem.trans (consistent.labels label)
  have grows (new : label ∉ expansion.cases.map CaseTarget.label) :
      Grows [⟨label, target⟩] expansion ⟨⟨label, target⟩ :: expansion.cases, expansion.labels.insert label⟩ := by
    refine ⟨rfl, List.nodup_cons.2 ⟨new, consistent.distinct⟩, fun other => ?_⟩
    rw [Std.TreeSet.mem_insert, Std.LawfulEqCmp.compare_eq_iff_eq, consistent.labels, List.map_cons, List.mem_cons,
      eq_comm]
  constructor
  · intro result success
    change expansion.add target label = _ at success
    unfold add at success
    split at success
    next => cases success
    next absent =>
      cases success
      exact ⟨_, ⟨trivial, rfl⟩, grows fun member => absent (present.2 member)⟩
  · intro rows form distinct
    obtain ⟨-, rfl⟩ := form
    have new := (List.nodup_cons.1 distinct).1
    exact ⟨_, if_neg fun contained => new (present.1 contained), grows new⟩

def rowsTo (target : Int) (labels : List Int32) : List CaseTarget :=
  labels.map fun label => ⟨label, target⟩

theorem adds_addRange (most target : Int) (range : LabelRange) :
    Adds (fun expansion => expansion.addRange most target range) fun added =>
      (range.low ≤ range.high ∧ range.high.toInt - range.low.toInt < most) ∧
        added = rowsTo target range.labels := by
  refine (Adds.guard (Adds.foldlM (adds_add target) range.labels)).congr fun added => ?_
  rw [range.isValid_iff, rowsTo, List.map_eq_flatMap, and_iff_right fun label _ => trivial]

theorem adds_addGroup (most target : Int) (number : Nat) (group : CaseGroup) :
    Adds (fun expansion => expansion.addGroup most target number group) fun added =>
      ∃ labels, group.Labels most labels ∧ added = rowsTo target labels := by
  unfold addGroup
  cases reading : group.alternatives with
  | error fault =>
    refine (Adds.fail _).congr fun added => (iff_false_left id).2 ?_
    intro parts
    rcases parts with ⟨labels, ⟨ranges, offers, -⟩, -⟩
    rw [(group.alternatives_eq_ok_iff ranges).2 offers] at reading
    cases reading
  | ok ranges =>
    refine (Adds.foldlM (adds_addRange most target) ranges).congr fun added => ?_
    have offers := (group.alternatives_eq_ok_iff ranges).1 reading
    constructor
    · intro parts
      rcases parts with ⟨valid, rfl⟩
      refine ⟨_, ⟨ranges, offers, valid, rfl⟩, ?_⟩
      rw [rowsTo, List.map_flatMap]
      rfl
    · intro parts
      rcases parts with ⟨labels, ⟨others, otherOffers, valid, rfl⟩, rfl⟩
      cases ((group.alternatives_eq_ok_iff others).2 otherOffers).symm.trans reading
      refine ⟨valid, ?_⟩
      rw [rowsTo, List.map_flatMap]
      rfl

end Expansion

end ClientScript
