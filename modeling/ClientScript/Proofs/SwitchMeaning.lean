import ClientScript.Proofs.SwitchForms

/-!
What a switch means. The labels of a group between two `or`s are an alternative. It denotes its one label, or every
value from the lower of its two labels to the upper one. A switch that was resolved goes on a value to where
the group leads that has an alternative for it, and to the next instruction if none has. There is never more than one,
and the cases of the switch are the denoted values in the order in which the alternatives are written.
-/

namespace ClientScript

/-- The values that labels without an `or` between them stand for. -/
inductive Denotes : List Term → Int32 → Prop where
  | one (term : Term) : Denotes [term] term.label
  | two {low high : Term} {value : Int32} (joined : high.join = .and) (above : low.label ≤ value)
      (below : value ≤ high.label) : Denotes [low, high] value

structure Alternative where
  group : CaseGroup
  run : List Term

def alternatives (groups : List CaseGroup) : List Alternative :=
  groups.flatMap fun group => group.runs.map (Alternative.mk group)

namespace LabelRange

variable (range : LabelRange)

/-- No label of a range runs over the largest number. -/
theorem toInt_label {step : Nat} (bound : step < (range.high.toInt - range.low.toInt + 1).toNat) :
    (Int32.ofInt (range.low.toInt + step)).toInt = range.low.toInt + step := by
  have floor := range.low.le_toInt
  have ceiling := range.high.toInt_lt
  exact Int32.toInt_ofInt_of_le (by omega) (by omega)

theorem mem_labels_iff (value : Int32) : value ∈ range.labels ↔ range.low ≤ value ∧ value ≤ range.high := by
  rw [labels, List.mem_map, Int32.le_iff_toInt_le, Int32.le_iff_toInt_le]
  constructor
  · intro parts
    rcases parts with ⟨step, bound, rfl⟩
    rw [List.mem_range] at bound
    rw [range.toInt_label bound]
    omega
  · intro between
    refine ⟨(value.toInt - range.low.toInt).toNat, List.mem_range.2 (by omega), ?_⟩
    rw [Int.toNat_of_nonneg (by omega), add_sub_cancel, Int32.ofInt_toInt]

theorem ascending_labels : range.labels.Pairwise (· < ·) := by
  rw [labels, List.pairwise_map]
  apply List.pairwise_lt_range.imp_of_mem
  intro step other bound otherBound less
  rw [List.mem_range] at bound otherBound
  rw [Int32.lt_iff_toInt_lt, range.toInt_label bound, range.toInt_label otherBound]
  omega

end LabelRange

theorem CaseGroup.Offers.join_eq_and {group : CaseGroup} {ranges : List LabelRange} (offers : group.Offers ranges)
    {low high : Term} (member : [low, high] ∈ group.runs) : high.join = .and := by
  have within := (List.sublist_flatten_of_mem member).tail
  rw [runs, List.flatten_splitBy] at within
  have notOr : high.join ≠ .or := by
    simpa using List.isChain_pair.1 (List.isChain_of_mem_splitBy member)
  exact (offers.joined high (within.subset List.mem_cons_self)).resolve_left notOr

theorem CaseGroup.Offers.mem_labels_iff {group : CaseGroup} {ranges : List LabelRange} (offers : group.Offers ranges)
    {run : List Term} {range : LabelRange} (member : run ∈ group.runs) (spans : Spans run range) (value : Int32) :
    value ∈ range.labels ↔ Denotes run value := by
  rw [range.mem_labels_iff]
  cases spans with
  | one term =>
    constructor
    · intro between
      cases Int32.le_antisymm between.1 between.2
      exact .one term
    · intro denotes
      cases denotes
      exact ⟨Int32.le_refl _, Int32.le_refl _⟩
  | two low high =>
    constructor
    · intro between
      exact .two (offers.join_eq_and member) between.1 between.2
    · intro denotes
      cases denotes with
      | two joined above below => exact ⟨above, below⟩

def DenotedAt (groups : List CaseGroup) (number : Nat) (value : Int32) : Prop :=
  ∃ alternative, (alternatives groups)[number]? = some alternative ∧ Denotes alternative.run value

namespace Resolver

variable {resolver : Resolver} {inst : Instruction} {groups : List CaseGroup}

/-- The cases of an alternative: what it denotes, in ascending order, with the target of its group. -/
def Lists (resolver : Resolver) (inst : Instruction) (alternative : Alternative) (rows : List CaseTarget) : Prop :=
  ∃ target, resolver.Reaches inst alternative.group.disp target ∧
    (∀ row, row ∈ rows ↔ Denotes alternative.run row.label ∧ row.target = target.offset) ∧
    rows.Pairwise fun one other => one.label < other.label

theorem lists_of_offers {group : CaseGroup} {ranges : List LabelRange} (offers : group.Offers ranges)
    {target : Instruction} (reaches : resolver.Reaches inst group.disp target) {run : List Term} {range : LabelRange}
    (member : run ∈ group.runs) (spans : Spans run range) :
    resolver.Lists inst ⟨group, run⟩ (Expansion.rowsTo target.offset range.labels) := by
  refine ⟨target, reaches, fun row => ?_, List.pairwise_map.2 range.ascending_labels⟩
  rw [← offers.mem_labels_iff member spans, Expansion.rowsTo, List.mem_map]
  constructor
  · intro listed
    obtain ⟨label, inside, rfl⟩ := listed
    exact ⟨inside, rfl⟩
  · intro parts
    obtain ⟨inside, same⟩ := parts
    exact ⟨row.label, inside, by rw [← same]⟩

theorem Unfolds.exists_lists {cases : List CaseTarget} (unfolds : resolver.Unfolds inst groups cases) :
    ∃ pieces, pieces.flatten = cases ∧ List.Forall₂ (resolver.Lists inst) (alternatives groups) pieces := by
  induction unfolds with
  | nil => exact ⟨[], rfl, .nil⟩
  | @cons group rest target labels cases reaches stands later ih =>
    obtain ⟨pieces, rfl, listed⟩ := ih
    obtain ⟨ranges, offers, -, rfl⟩ := stands
    refine ⟨ranges.map (fun range => Expansion.rowsTo target.offset range.labels) ++ pieces, ?_, ?_⟩
    · rw [List.flatten_append, ← List.flatMap_def, Expansion.rowsTo, List.map_flatMap]
      rfl
    · rw [alternatives, List.flatMap_cons]
      apply List.rel_append _ listed
      rw [List.forall₂_map_left_iff, List.forall₂_map_right_iff]
      have inside := (List.forall₂_and_left group.runs ranges).2 ⟨fun run member => member, offers.spans⟩
      exact inside.imp fun run range pair => lists_of_offers offers reaches pair.1 pair.2

section

variable {pieces : List (List CaseTarget)} (listed : List.Forall₂ (resolver.Lists inst) (alternatives groups) pieces)

include listed

theorem denotedAt_iff (number : Nat) (value : Int32) :
    DenotedAt groups number value ↔
      ∃ rows, pieces[number]? = some rows ∧ value ∈ rows.map CaseTarget.label := by
  constructor
  · intro denoted
    obtain ⟨alternative, found, denotes⟩ := denoted
    obtain ⟨rows, located, target, -, mem_iff, -⟩ := exists_getElem_of_forall₂ listed found
    exact ⟨rows, located, List.mem_map.2 ⟨⟨value, target.offset⟩, (mem_iff _).2 ⟨denotes, rfl⟩, rfl⟩⟩
  · intro parts
    obtain ⟨rows, located, member⟩ := parts
    obtain ⟨alternative, found, target, -, mem_iff, -⟩ := exists_getElem_of_forall₂ listed.flip located
    obtain ⟨row, present, rfl⟩ := List.mem_map.1 member
    exact ⟨alternative, found, ((mem_iff row).1 present).1⟩

theorem mem_labels_iff (value : Int32) :
    value ∈ pieces.flatten.map CaseTarget.label ↔ ∃ number, DenotedAt groups number value := by
  simp only [denotedAt_iff listed]
  constructor
  · intro member
    obtain ⟨row, present, rfl⟩ := List.mem_map.1 member
    obtain ⟨rows, piece, inside⟩ := List.mem_flatten.1 present
    obtain ⟨number, located⟩ := List.getElem?_of_mem piece
    exact ⟨number, rows, located, List.mem_map_of_mem inside⟩
  · intro parts
    obtain ⟨number, rows, located, member⟩ := parts
    obtain ⟨row, inside, rfl⟩ := List.mem_map.1 member
    exact List.mem_map_of_mem (List.mem_flatten.2 ⟨rows, List.mem_of_getElem? located, inside⟩)

theorem denotedAt_unique (distinct : (pieces.flatten.map CaseTarget.label).Nodup) {number other : Nat}
    {value : Int32} (denoted : DenotedAt groups number value) (again : DenotedAt groups other value) :
    number = other := by
  have apart {low high : Nat} (inLow : DenotedAt groups low value) (inHigh : DenotedAt groups high value) :
      ¬low < high := by
    intro less
    obtain ⟨rows, located, member⟩ := (denotedAt_iff listed low value).1 inLow
    obtain ⟨rows', located', member'⟩ := (denotedAt_iff listed high value).1 inHigh
    obtain ⟨bound, rfl⟩ := List.getElem?_eq_some_iff.1 located
    obtain ⟨bound', rfl⟩ := List.getElem?_eq_some_iff.1 located'
    obtain ⟨row, inside, same⟩ := List.mem_map.1 member
    obtain ⟨row', inside', same'⟩ := List.mem_map.1 member'
    have disjoint := (List.pairwise_flatten.1 (List.pairwise_map.1 distinct)).2
    exact List.pairwise_iff_getElem.1 disjoint low high bound bound' less row inside row' inside'
      (same.trans same'.symm)
  have notLess := apart denoted again
  have notGreater := apart again denoted
  omega

/-- Cases come in the order of the alternatives, and those of one alternative in ascending order. -/
theorem ordered_cases (distinct : (pieces.flatten.map CaseTarget.label).Nodup) :
    pieces.flatten.Pairwise fun one other => ∀ number number', DenotedAt groups number one.label →
      DenotedAt groups number' other.label → number < number' ∨ number = number' ∧ one.label < other.label := by
  -- A case of the piece at a place is denoted at that place and nowhere else.
  have place {index number : Nat} {rows : List CaseTarget} {row : CaseTarget} (located : pieces[index]? = some rows)
      (inside : row ∈ rows) (denoted : DenotedAt groups number row.label) : number = index :=
    denotedAt_unique listed distinct denoted
      ((denotedAt_iff listed index row.label).2 ⟨rows, located, List.mem_map_of_mem inside⟩)
  rw [List.pairwise_flatten]
  constructor
  · intro rows piece
    obtain ⟨index, located⟩ := List.getElem?_of_mem piece
    obtain ⟨alternative, -, target, -, -, ascending⟩ := exists_getElem_of_forall₂ listed.flip located
    apply ascending.imp_of_mem
    intro one other inside inside' less number number' denoted denoted'
    rw [place located inside denoted, place located inside' denoted']
    exact .inr ⟨rfl, less⟩
  · rw [List.pairwise_iff_getElem]
    intro low high bound bound' less one inside other inside' number number' denoted denoted'
    rw [place (List.getElem?_eq_getElem bound) inside denoted,
      place (List.getElem?_eq_getElem bound') inside' denoted']
    exact .inl less

end

end Resolver

namespace SwitchTable

theorem target_of_mem (table : SwitchTable) (distinct : (table.cases.map CaseTarget.label).Nodup) {row : CaseTarget}
    (member : row ∈ table.cases) : table.target row.label = row.target := by
  have found : table.cases.find? (fun other => other.label = row.label) = some row := by
    cases search : table.cases.find? fun other => other.label = row.label with
    | none => simpa using List.find?_eq_none.1 search row member
    | some other =>
      have same : other.label = row.label := by simpa using List.find?_some search
      rw [List.inj_on_of_nodup_map distinct (List.mem_of_find?_eq_some search) member same]
  rw [target, found, Option.map_some, Option.getD_some]

theorem target_of_absent {table : SwitchTable} {value : Int32} (absent : value ∉ table.cases.map CaseTarget.label) :
    table.target value = table.otherwise := by
  have none : table.cases.find? (fun row => row.label = value) = none := by
    rw [List.find?_eq_none]
    intro row member same
    exact absent (List.mem_map.2 ⟨row, member, by simpa using same⟩)
  rw [target, none, Option.map_none, Option.getD_none]

/-- The table says of every value what the groups of the switch say of it. -/
structure Means (resolver : Resolver) (inst : Instruction) (groups : List CaseGroup) (next : Instruction)
    (table : SwitchTable) : Prop where
  /-- A value goes to where the group of an alternative leads that denotes it. -/
  chosen : ∀ (number : Nat) (alternative : Alternative) (value : Int32),
    (alternatives groups)[number]? = some alternative → Denotes alternative.run value →
    ∃ target, resolver.Reaches inst alternative.group.disp target ∧ table.target value = target.offset
  /-- A value that no alternative denotes goes to the next instruction. -/
  otherwise : ∀ value, (∀ number, ¬DenotedAt groups number value) → table.target value = next.offset
  unique : ∀ (value : Int32) (number number' : Nat), DenotedAt groups number value → DenotedAt groups number' value →
    number = number'
  nodup : (table.cases.map CaseTarget.label).Nodup
  mem_iff : ∀ value, value ∈ table.cases.map CaseTarget.label ↔ ∃ number, DenotedAt groups number value
  ordered : table.cases.Pairwise fun one other => ∀ number number', DenotedAt groups number one.label →
    DenotedAt groups number' other.label → number < number' ∨ number = number' ∧ one.label < other.label

theorem means_of_unfolds {resolver : Resolver} {inst next : Instruction} {groups : List CaseGroup}
    {cases : List CaseTarget} (unfolds : resolver.Unfolds inst groups cases)
    (distinct : (cases.map CaseTarget.label).Nodup) : Means resolver inst groups next ⟨cases, next.offset⟩ := by
  obtain ⟨pieces, rfl, listed⟩ := unfolds.exists_lists
  have mem_iff := Resolver.mem_labels_iff listed
  refine ⟨fun number alternative value found denotes => ?_, fun value none => ?_, fun value number number' => ?_,
    distinct, mem_iff, Resolver.ordered_cases listed distinct⟩
  · obtain ⟨rows, located, target, reaches, row_iff, -⟩ := exists_getElem_of_forall₂ listed found
    refine ⟨target, reaches, ?_⟩
    have inside : ⟨value, target.offset⟩ ∈ rows := (row_iff _).2 ⟨denotes, rfl⟩
    exact target_of_mem ⟨_, _⟩ distinct (List.mem_flatten.2 ⟨rows, List.mem_of_getElem? located, inside⟩)
  · apply target_of_absent
    rw [mem_iff]
    intro denoted
    obtain ⟨number, denoted⟩ := denoted
    exact none number denoted
  · exact Resolver.denotedAt_unique listed distinct

end SwitchTable

/-- A switch of a resolved program goes on every value to where the one alternative for it says, and to the next
instruction if there is none. Its cases are the values with an alternative, each once and in the order written. -/
theorem switch_means_groups (options : FlowOptions) (insts : List Instruction) (program : Program)
    (resolved : resolve options insts = .ok program) (place : Nat) (inst : Instruction)
    (found : insts[place]? = some inst) (isSwitch : inst.desc.flow = .switch) :
    ∃ operand table next, inst.operand.switch? = some operand ∧ program.switch? place = some table ∧
      insts[inst.index + 1]? = some next ∧ table.otherwise = next.offset ∧
      table.Means ⟨options, insts⟩ inst operand.groups next := by
  obtain ⟨-, -, long, exits⟩ := exits_of_resolve resolved
  obtain ⟨bound, -⟩ := List.getElem?_eq_some_iff.1 found
  obtain ⟨edges, located⟩ : ∃ edges, program.edges[place]? = some edges :=
    ⟨_, List.getElem?_eq_getElem (long.symm ▸ bound)⟩
  have ways := exits place inst edges found located
  generalize program.switch? place = table at ways ⊢
  cases ways with
  | ret flow | branch flow | condBranch flow => simp [flow] at isSwitch
  | plain flow => rcases flow with flow | flow <;> simp [flow] at isSwitch
  | @switch operand next cases targets flow given follows unfolds distinct chosen =>
    exact ⟨operand, _, next, given, rfl, follows, rfl, SwitchTable.means_of_unfolds unfolds distinct⟩

/-- A group for two ranges, one of them up to the largest number, and a group for one label. -/
def rangedSwitch : List Instruction :=
  [{ offset := 0, index := 0, desc := Registry.standard.lookup .switch, size := 48, operand := .switch ⟨-1,
      [⟨[⟨.none, 2147483646⟩, ⟨.and, 2147483647⟩, ⟨.or, -3⟩, ⟨.and, -1⟩], 1⟩, ⟨[⟨.none, 7⟩], 2⟩]⟩ },
   { offset := 48, index := 1, desc := Registry.standard.lookup .ret, operand := .byte 0, size := 3 },
   { offset := 51, index := 2, desc := Registry.standard.lookup .ret, operand := .byte 0, size := 3 },
   { offset := 54, index := 3, desc := Registry.standard.lookup .ret, operand := .byte 0, size := 3 }]

theorem switch_means_groups_ranged :
    ∃ program table inst next groups, resolve {} rangedSwitch = .ok program ∧ program.switch? 0 = some table ∧
      table.cases.map CaseTarget.label = [2147483646, 2147483647, -3, -2, -1, 7] ∧
      table.Means ⟨{}, rangedSwitch⟩ inst groups next ∧
      DenotedAt groups 0 2147483647 ∧ table.target 2147483647 = 51 ∧
      DenotedAt groups 1 (-2) ∧ table.target (-2) = 51 ∧ DenotedAt groups 2 7 ∧ table.target 7 = 54 ∧
      (∀ number, ¬DenotedAt groups number 0) ∧ table.target 0 = 48 := by
  obtain ⟨operand, table, next, given, located, follows, otherwise, means⟩ :=
    switch_means_groups {} rangedSwitch _ rfl 0 _ rfl rfl
  cases given
  cases located
  cases follows
  have absent : ∀ number, ¬DenotedAt _ number 0 := fun number denoted =>
    absurd ((means.mem_iff 0).2 ⟨number, denoted⟩) (by decide)
  exact ⟨_, _, _, _, _, rfl, rfl, by decide, means, ⟨_, rfl, .two rfl (by decide) (by decide)⟩, by decide,
    ⟨_, rfl, .two rfl (by decide) (by decide)⟩, by decide, ⟨_, rfl, .one _⟩, by decide, absent,
    means.otherwise 0 absent⟩

end ClientScript
