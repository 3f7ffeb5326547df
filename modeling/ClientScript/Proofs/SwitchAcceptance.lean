import ClientScript.Proofs.SwitchMeaning

/-!
Which switches are refused. A group has to have labels, and what joins them has to be `or` or `and`; no more than two
may be joined by `and`, and two of them have to stand for a range that is not empty and not too long; and no label may
be in two alternatives. A switch that leads to instructions only is refused for one of these faults and for nothing
else. Without them it has as many cases as its alternatives have labels.
-/

namespace ClientScript

/-- What can be wrong with the groups of a switch whose ranges have so many labels at most. -/
inductive IsFaulty (most : Int) (groups : List CaseGroup) : Prop where
  | unlabelled {group : CaseGroup} (member : group ∈ groups) (none : group.terms = [])
  | unjoined {group : CaseGroup} {term : Term} (member : group ∈ groups) (later : term ∈ group.terms.tail)
      (notOr : term.join ≠ .or) (notAnd : term.join ≠ .and)
  | crowded {group : CaseGroup} {run : List Term} (member : group ∈ groups) (listed : run ∈ group.runs)
      (many : 2 < run.length)
  | misranged {group : CaseGroup} {low high : Term} (member : group ∈ groups) (listed : [low, high] ∈ group.runs)
      (bad : high.label < low.label ∨ most < high.label.toInt - low.label.toInt + 1)
  | shared {one other : Nat} {value : Int32} (apart : one ≠ other) (denoted : DenotedAt groups one value)
      (again : DenotedAt groups other value)

def Alternative.size (alternative : Alternative) : Nat :=
  match alternative.run with
  | [_] => 1
  | [low, high] => (high.label.toInt - low.label.toInt + 1).toNat
  | _ => 0

theorem alternatives_cons (group : CaseGroup) (rest : List CaseGroup) :
    alternatives (group :: rest) = group.runs.map (Alternative.mk group) ++ alternatives rest :=
  List.flatMap_cons

theorem FlowOptions.switchRange_pos (options : FlowOptions) : 0 < options.switchRange := by
  unfold switchRange
  split
  next positive => exact positive
  next => decide

namespace LabelRange

def Fits (most : Int) (range : LabelRange) : Prop :=
  range.low ≤ range.high ∧ range.high.toInt - range.low.toInt < most

theorem length_labels (range : LabelRange) :
    range.labels.length = (range.high.toInt - range.low.toInt + 1).toNat := by
  rw [labels, List.length_map, List.length_range]

end LabelRange

theorem exists_spans_iff {most : Int} (positive : 0 < most) {run : List Term} (started : run ≠ []) :
    (∃ range, Spans run range ∧ range.Fits most) ↔
      run.length ≤ 2 ∧ ∀ low high, run = [low, high] → LabelRange.Fits most ⟨low.label, high.label⟩ := by
  constructor
  · intro parts
    obtain ⟨range, spans, fits⟩ := parts
    cases spans with
    | one term => exact ⟨Nat.le_succ 1, fun low high same => by cases same⟩
    | two low high =>
      refine ⟨le_rfl, fun low high same => ?_⟩
      cases same
      exact fits
  · intro parts
    obtain ⟨few, fits⟩ := parts
    rcases run with _ | ⟨low, _ | ⟨high, _ | ⟨more, rest⟩⟩⟩
    · exact absurd rfl started
    · exact ⟨_, .one low, Int32.le_refl _, by simpa using positive⟩
    · exact ⟨_, .two low high, fits low high rfl⟩
    · exact absurd few (by simp)

theorem length_of_spans (group : CaseGroup) {runs : List (List Term)} {ranges : List LabelRange}
    (spans : List.Forall₂ Spans runs ranges) :
    (ranges.flatMap LabelRange.labels).length = ((runs.map (Alternative.mk group)).map Alternative.size).sum := by
  induction spans with
  | nil => rfl
  | @cons run range runs ranges pair pairs ih =>
    have size : range.labels.length = Alternative.size ⟨group, run⟩ := by
      rw [range.length_labels]
      cases pair with
      | one term => simp [Alternative.size]
      | two low high => rfl
    rw [List.flatMap_cons, List.length_append, ih, size, List.map_cons, List.map_cons, List.sum_cons]

theorem CaseGroup.exists_labels_iff (most : Int) (group : CaseGroup) :
    (∃ labels, group.Labels most labels) ↔
      group.terms ≠ [] ∧ (∀ term ∈ group.terms.tail, term.IsJoined) ∧
        ∀ run ∈ group.runs, ∃ range, Spans run range ∧ range.Fits most := by
  constructor
  · intro stands
    obtain ⟨labels, ranges, offers, fit, -⟩ := stands
    refine ⟨offers.some_term, offers.joined, fun run listed => ?_⟩
    obtain ⟨range, member, spans⟩ := exists_mem_of_forall₂ offers.spans listed
    exact ⟨range, spans, fit range member⟩
  · intro parts
    obtain ⟨some, joined, each⟩ := parts
    obtain ⟨ranges, spanned⟩ := exists_forall₂ each
    refine ⟨_, ranges, ⟨some, joined, spanned.imp fun run range pair => pair.1⟩, fun range member => ?_, rfl⟩
    obtain ⟨run, -, -, fits⟩ := exists_mem_of_forall₂ spanned.flip member
    exact fits

/-- Groups are without fault exactly if each of them stands for labels and no label comes from two alternatives. -/
theorem not_isFaulty_iff {most : Int} (positive : 0 < most) (groups : List CaseGroup) :
    ¬IsFaulty most groups ↔
      (∀ group ∈ groups, ∃ labels, group.Labels most labels) ∧
        ∀ one other value, DenotedAt groups one value → DenotedAt groups other value → one = other := by
  simp only [CaseGroup.exists_labels_iff]
  constructor
  · intro sound
    refine ⟨fun group member => ⟨fun none => sound (.unlabelled member none), fun term later => ?_,
      fun run listed => ?_⟩, fun one other value denoted again => ?_⟩
    · by_contra unjoined
      obtain ⟨notOr, notAnd⟩ := not_or.1 unjoined
      exact sound (.unjoined member later notOr notAnd)
    · rw [exists_spans_iff positive (List.ne_nil_of_mem_splitBy listed)]
      constructor
      · by_contra many
        exact sound (.crowded member listed (Nat.lt_of_not_le many))
      · intro low high same
        subst run
        by_contra unfit
        rw [LabelRange.Fits, not_and_or, Int32.not_le, Int.not_lt] at unfit
        exact sound (.misranged member listed (unfit.imp_right Int.lt_add_one_iff.2))
    · by_contra apart
      exact sound (.shared apart denoted again)
  · intro parts faulty
    obtain ⟨stand, unique⟩ := parts
    have fits {group run} (member : group ∈ groups) (listed : run ∈ group.runs) :=
      (exists_spans_iff positive (List.ne_nil_of_mem_splitBy listed)).1 ((stand group member).2.2 run listed)
    cases faulty with
    | unlabelled member none => exact (stand _ member).1 none
    | unjoined member later notOr notAnd => exact not_or.2 ⟨notOr, notAnd⟩ ((stand _ member).2.1 _ later)
    | crowded member listed many => exact Nat.not_le.2 many (fits member listed).1
    | misranged member listed bad =>
      obtain ⟨ordered, few⟩ := (fits member listed).2 _ _ rfl
      rcases bad with reversed | many
      · exact Int32.not_le.2 reversed ordered
      · dsimp only at few
        omega
    | shared apart denoted again => exact apart (unique _ _ _ denoted again)

namespace Resolver

variable {resolver : Resolver} {inst : Instruction} {groups : List CaseGroup}

theorem nodup_labels_iff {pieces : List (List CaseTarget)}
    (listed : List.Forall₂ (resolver.Lists inst) (alternatives groups) pieces) :
    (pieces.flatten.map CaseTarget.label).Nodup ↔
      ∀ one other value, DenotedAt groups one value → DenotedAt groups other value → one = other := by
  constructor
  · intro distinct one other value denoted again
    exact denotedAt_unique listed distinct denoted again
  · intro unique
    rw [List.Nodup, List.pairwise_map, List.pairwise_flatten]
    constructor
    · intro rows piece
      obtain ⟨alternative, -, target, -, -, ascending⟩ := exists_mem_of_forall₂ listed.flip piece
      exact ascending.imp fun less => Int32.ne_of_lt less
    · rw [List.pairwise_iff_getElem]
      intro low high bound bound' less row inside row' inside' same
      have denoted := (denotedAt_iff listed low row.label).2
        ⟨_, List.getElem?_eq_getElem bound, List.mem_map_of_mem inside⟩
      have again := (denotedAt_iff listed high row'.label).2
        ⟨_, List.getElem?_eq_getElem bound', List.mem_map_of_mem inside'⟩
      rw [← same] at again
      exact Nat.ne_of_lt less (unique low high row.label denoted again)

theorem expandGroups_cases (leads : ∀ group ∈ groups, ∃ target, resolver.Reaches inst group.disp target) (number : Nat)
    (expansion : Expansion) :
    (∃ result, resolver.expandGroups inst number expansion groups = .ok result) ∨
      ∃ fault, resolver.expandGroups inst number expansion groups = .error (.badSwitch inst.offset inst.op fault) := by
  induction groups generalizing number expansion with
  | nil => exact .inl ⟨expansion, rfl⟩
  | cons group rest ih =>
    obtain ⟨⟨target, reaches⟩, others⟩ := List.forall_mem_cons.1 leads
    rw [expandGroups_cons ((resolver.jumpTarget_eq_ok_iff inst _ _).2 ⟨target, reaches, rfl⟩)]
    cases expansion.addGroup resolver.options.switchRange target.offset number group with
    | error fault => exact .inr ⟨fault, rfl⟩
    | ok larger => exact ih others (number + 1) larger

theorem Unfolds.length_eq {cases : List CaseTarget} (unfolds : resolver.Unfolds inst groups cases) :
    cases.length = ((alternatives groups).map Alternative.size).sum := by
  induction unfolds with
  | nil => rfl
  | @cons group rest target labels cases reaches stands later ih =>
    obtain ⟨ranges, offers, -, rfl⟩ := stands
    rw [List.length_append, Expansion.rowsTo, List.length_map, length_of_spans group offers.spans, ih,
      alternatives_cons, List.map_append, List.sum_append]

theorem exists_unfolds_iff_not_isFaulty
    (leads : ∀ group ∈ groups, ∃ target, resolver.Reaches inst group.disp target) :
    (∃ cases, resolver.Unfolds inst groups cases ∧ (cases.map CaseTarget.label).Nodup) ↔
      ¬IsFaulty resolver.options.switchRange groups := by
  rw [not_isFaulty_iff resolver.options.switchRange_pos]
  constructor
  · intro parts
    obtain ⟨cases, unfolds, distinct⟩ := parts
    obtain ⟨pieces, rfl, listed⟩ := unfolds.exists_lists
    refine ⟨fun group member => ?_, (nodup_labels_iff listed).1 distinct⟩
    obtain ⟨-, parts, stand, -⟩ := (exists_unfolds_iff groups _).1 ⟨_, unfolds, rfl⟩
    obtain ⟨labels, -, stands⟩ := exists_mem_of_forall₂ stand member
    exact ⟨labels, stands⟩
  · intro parts
    obtain ⟨each, unique⟩ := parts
    obtain ⟨labels, stand⟩ := exists_forall₂ each
    obtain ⟨cases, unfolds, -⟩ := (exists_unfolds_iff groups _).2 ⟨leads, labels, stand, rfl⟩
    obtain ⟨pieces, rfl, listed⟩ := unfolds.exists_lists
    exact ⟨_, unfolds, (nodup_labels_iff listed).2 unique⟩

theorem resolveInst_switch_cases {operand : SwitchOperand} {next : Instruction} (isSwitch : inst.desc.flow = .switch)
    (given : inst.operand.switch? = some operand) (follows : resolver.insts[inst.index + 1]? = some next)
    (leads : ∀ group ∈ operand.groups, ∃ target, resolver.Reaches inst group.disp target) :
    (∃ edges table, resolver.resolveInst inst = .ok (edges, some table)) ∨
      ∃ fault, resolver.resolveInst inst = .error (.badSwitch inst.offset inst.op fault) := by
  have goesOn := (resolver.nextTarget_eq_ok_iff inst next.offset).2 ⟨next, follows, rfl⟩
  simp only [resolveInst, isSwitch, expand, given, goesOn]
  rcases expandGroups_cases leads 0 {} with ⟨expansion, expands⟩ | ⟨fault, refuses⟩
  · rw [expands]
    exact .inl ⟨_, _, rfl⟩
  · rw [refuses]
    exact .inr ⟨fault, rfl⟩

end Resolver

/-- A switch that has a table, a next instruction and displacements that lead to instructions is refused as a switch
exactly if something is wrong with its groups. Otherwise it is resolved, and has a case for every label of an
alternative. -/
theorem switch_refused_iff (options : FlowOptions) (insts : List Instruction) (inst next : Instruction)
    (operand : SwitchOperand) (isSwitch : inst.desc.flow = .switch) (given : inst.operand.switch? = some operand)
    (follows : insts[inst.index + 1]? = some next)
    (leads : ∀ group ∈ operand.groups, ∃ target, Resolver.Reaches ⟨options, insts⟩ inst group.disp target) :
    let most := if 0 < options.maxSwitchRange then options.maxSwitchRange else 4096
    ((∃ fault, Resolver.resolveInst ⟨options, insts⟩ inst = .error (.badSwitch inst.offset inst.op fault)) ↔
        IsFaulty most operand.groups) ∧
      (¬IsFaulty most operand.groups → ∃ edges table,
        Resolver.resolveInst ⟨options, insts⟩ inst = .ok (edges, some table) ∧
          table.cases.length = ((alternatives operand.groups).map Alternative.size).sum) := by
  intro most
  have sound : _ ↔ ¬IsFaulty most operand.groups := Resolver.exists_unfolds_iff_not_isFaulty leads
  have resolves (faultless : ¬IsFaulty most operand.groups) : ∃ edges table,
      Resolver.resolveInst ⟨options, insts⟩ inst = .ok (edges, some table) ∧
        table.cases.length = ((alternatives operand.groups).map Alternative.size).sum := by
    obtain ⟨cases, unfolds, distinct⟩ := sound.2 faultless
    exact ⟨_, _, Resolver.resolveInst_of_exits
      (.switch isSwitch given follows unfolds distinct (isFirstOccurrences_eraseDups _)), unfolds.length_eq⟩
  refine ⟨⟨fun refused => ?_, fun faulty => ?_⟩, resolves⟩
  · by_contra faultless
    obtain ⟨fault, refused⟩ := refused
    obtain ⟨edges, table, resolved, -⟩ := resolves faultless
    cases refused.symm.trans resolved
  · rcases Resolver.resolveInst_switch_cases isSwitch given follows leads with ⟨edges, table, resolved⟩ | refused
    · cases Resolver.exits_of_resolveInst resolved with
      | switch flow same behind unfolds distinct chosen =>
        cases given.symm.trans same
        exact absurd faulty (sound.1 ⟨_, unfolds, distinct⟩)
    · exact refused

/-- A range of two labels up to the largest number, one of three labels, and a single label. -/
def threeRanges : SwitchOperand :=
  ⟨-1, [⟨[⟨.none, 2147483646⟩, ⟨.and, 2147483647⟩, ⟨.or, -3⟩, ⟨.and, -1⟩], 0⟩, ⟨[⟨.none, 7⟩], 0⟩]⟩

def rangesSwitch : Instruction :=
  { offset := 0, index := 0, desc := Registry.standard.lookup .switch, operand := .switch threeRanges, size := 48 }

def rangesScript : List Instruction :=
  [rangesSwitch, { offset := 48, index := 1, desc := Registry.standard.lookup .ret, operand := .byte 0, size := 3 }]

/-- The longest range has three labels: the switch is resolved if so many are allowed, and refused if two are. -/
theorem switch_refused_iff_ranged :
    ¬IsFaulty 3 threeRanges.groups ∧
      (∃ edges table, Resolver.resolveInst ⟨{ maxSwitchRange := 3 }, rangesScript⟩ rangesSwitch =
        .ok (edges, some table) ∧ table.cases.length = 6) ∧
      IsFaulty 2 threeRanges.groups ∧
      ∃ fault, Resolver.resolveInst ⟨{ maxSwitchRange := 2 }, rangesScript⟩ rangesSwitch =
        .error (.badSwitch 0 .switch fault) := by
  have settled (most : Int) := switch_refused_iff { maxSwitchRange := most } rangesScript rangesSwitch _ threeRanges
    rfl rfl rfl (List.forall_mem_cons.2 ⟨⟨_, 1, rfl, rfl⟩, List.forall_mem_singleton.2 ⟨_, 1, rfl, rfl⟩⟩)
  have faulty : IsFaulty 2 threeRanges.groups :=
    .misranged List.mem_cons_self (show [⟨.or, -3⟩, ⟨.and, -1⟩] ∈ _ by decide) (.inr (by decide))
  have faultless : ¬IsFaulty 3 threeRanges.groups := by
    intro faulty
    obtain ⟨fault, refused⟩ := (settled 3).1.2 faulty
    cases refused
  exact ⟨faultless, (settled 3).2 faultless, faulty, (settled 2).1.2 faulty⟩

end ClientScript
