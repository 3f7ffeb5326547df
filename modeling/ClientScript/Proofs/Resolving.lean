import ClientScript.Proofs.CaseLabels
import ClientScript.Proofs.Decoding

/-!
Resolved control flow. A displacement leads to the instruction that it counts to, and the cases of a switch are
the labels of its groups, each with the instruction that its group leads to. From these readings come the ways
out of an instruction: all of them at once, as `Exits`, and each for itself, as `WayOut`. Resolving succeeds
exactly if every instruction has its ways out, and gives them. In decoded code the offset of an instruction
tells its number.
-/

namespace ClientScript

theorem lastAt_of_absent {offset : Int} {insts : List Instruction}
    (absent : ∀ inst ∈ insts, inst.offset ≠ offset) (number : Nat) (found : Option Nat) :
    lastAt offset number found insts = found := by
  induction insts generalizing number with
  | nil => rfl
  | cons inst rest ih =>
    obtain ⟨head, tail⟩ := List.forall_mem_cons.1 absent
    rw [lastAt, if_neg head, ih tail]

theorem lastAt_of_getElem {insts : List Instruction}
    (ascending : insts.Pairwise fun one other => one.offset < other.offset) {place : Nat} {inst : Instruction}
    (found : insts[place]? = some inst) (number : Nat) (before : Option Nat) :
    lastAt inst.offset number before insts = some (number + place) := by
  induction insts generalizing place number before with
  | nil => cases found
  | cons head rest ih =>
    obtain ⟨above, ascending⟩ := List.pairwise_cons.1 ascending
    cases place with
    | zero =>
      cases found
      -- What comes later stands at other offsets and does not replace what is found here.
      have absent : ∀ other ∈ rest, other.offset ≠ inst.offset := by
        intro other member
        have later := above other member
        omega
      rw [lastAt, if_pos rfl, lastAt_of_absent absent, Nat.add_zero]
    | succ place =>
      rw [lastAt, ih ascending found (number + 1), Nat.add_right_comm, Nat.add_assoc]

theorem exists_of_lastAt {offset : Int} {insts : List Instruction} {place : Nat}
    (found : lastAt offset 0 none insts = some place) : ∃ inst ∈ insts, inst.offset = offset := by
  by_contra none
  have absent : ∀ inst ∈ insts, inst.offset ≠ offset := fun inst member same => none ⟨inst, member, same⟩
  rw [lastAt_of_absent absent] at found
  cases found

theorem lastAt_ne_none {offset : Int} {insts : List Instruction} (number : Nat) {found : Option Nat}
    (present : found ≠ none ∨ ∃ inst ∈ insts, inst.offset = offset) : lastAt offset number found insts ≠ none := by
  induction insts generalizing number found with
  | nil => simpa [lastAt] using present
  | cons inst rest ih =>
    rw [lastAt]
    apply ih
    by_cases here : inst.offset = offset
    · simp [here]
    · simpa [here] using present

theorem indexAt_of_getElem {program : Program}
    (ascending : program.insts.Pairwise fun one other => one.offset < other.offset) {place : Nat}
    {inst : Instruction} (found : program.insts[place]? = some inst) :
    program.indexAt inst.offset = some place := by
  rw [Program.indexAt, lastAt_of_getElem ascending found, Nat.zero_add]

/-- The items of the list in the order in which they first occur, each of them once. -/
structure IsFirstOccurrences {α : Type} [BEq α] (items chosen : List α) : Prop where
  mem_iff : ∀ item, item ∈ chosen ↔ item ∈ items
  ordered : chosen.Pairwise fun one other => items.idxOf one < items.idxOf other

theorem isFirstOccurrences_eraseDups {α : Type} [BEq α] [LawfulBEq α] (items : List α) :
    IsFirstOccurrences items items.eraseDups := by
  refine ⟨fun item => List.mem_eraseDups, ?_⟩
  induction size : items.length using Nat.strongRecOn generalizing items with
  | _ count ih =>
    cases items with
    | nil => exact .nil
    | cons item rest =>
      rw [List.eraseDups_cons]
      have shorter : (rest.filter fun other => !other == item).length < count := by
        have fewer := List.length_filter_le (fun other => !other == item) rest
        rw [List.length_cons] at size
        omega
      have apart : ∀ other ∈ (rest.filter fun other => !other == item).eraseDups, other ≠ item := by
        intro other member
        simpa using (List.mem_filter.1 (List.mem_eraseDups.1 member)).2
      refine .cons (fun other member => ?_) ?_
      · rw [List.idxOf_cons_self, List.idxOf_cons_ne rest (apart other member).symm]
        exact Nat.succ_pos _
      · refine (ih _ shorter _ rfl).imp_of_mem fun {one other} oneMember otherMember earlier => ?_
        rw [List.idxOf_cons_ne rest (apart one oneMember).symm,
          List.idxOf_cons_ne rest (apart other otherMember).symm]
        refine Nat.succ_lt_succ (idxOf_lt_of_filter ?_ ?_ earlier)
        · simpa using apart one oneMember
        · simpa using apart other otherMember

theorem IsFirstOccurrences.eq_eraseDups {α : Type} [BEq α] [LawfulBEq α] {items chosen : List α}
    (first : IsFirstOccurrences items chosen) : chosen = items.eraseDups := by
  have erased := isFirstOccurrences_eraseDups items
  have irreflexive : Std.Irrefl fun one other : α => items.idxOf one < items.idxOf other :=
    ⟨fun _ => Nat.lt_irrefl _⟩
  have antisymmetric : Std.Antisymm fun one other : α => items.idxOf one < items.idxOf other :=
    ⟨fun _ _ before after => absurd after (Nat.lt_asymm before)⟩
  exact first.ordered.eq_of_mem_iff erased.ordered fun item => (first.mem_iff item).trans (erased.mem_iff item).symm

namespace Resolver

variable {resolver : Resolver} {inst : Instruction}

/-- The displacement of an instruction leads to a target: by numbers to the one that it counts to from the next
instruction on, otherwise to the one at the offset that it gives. -/
def Reaches (resolver : Resolver) (inst : Instruction) (disp : Int32) (target : Instruction) : Prop :=
  ∃ place : Nat, resolver.insts[place]? = some target ∧
    if resolver.options.addressing = .byIndex then (place : Int) = inst.index + disp.toInt + 1
    else target.offset = inst.offset + disp.toInt

theorem jumpTarget_eq_ok_iff (resolver : Resolver) (inst : Instruction) (disp : Int32) (offset : Int) :
    resolver.jumpTarget inst disp = .ok offset ↔
      ∃ target, resolver.Reaches inst disp target ∧ target.offset = offset := by
  unfold jumpTarget Reaches
  by_cases numbered : resolver.options.addressing = .byIndex
  · simp only [if_pos numbered]
    constructor
    · intro success
      split at success
      next target found =>
        cases success
        split at found
        next => cases found
        next notNegative => exact ⟨target, ⟨_, found, Int.toNat_of_nonneg (Int.not_lt.1 notNegative)⟩, rfl⟩
      next => cases success
    · intro parts
      rcases parts with ⟨target, ⟨place, found, number⟩, rfl⟩
      rw [← number, if_neg (Int.not_lt.2 (Int.natCast_nonneg place)), Int.toNat_natCast, found]
  · simp only [if_neg numbered]
    constructor
    · intro success
      split at success
      next place found =>
        cases success
        obtain ⟨target, member, same⟩ := exists_of_lastAt found
        obtain ⟨place, location⟩ := List.getElem?_of_mem member
        exact ⟨target, ⟨place, location, same⟩, same⟩
      next => cases success
    · intro parts
      rcases parts with ⟨target, ⟨place, found, same⟩, rfl⟩
      split
      next => rw [same]
      next absent => exact absurd absent (lastAt_ne_none 0 (.inr ⟨target, List.mem_of_getElem? found, same⟩))

theorem nextTarget_eq_ok_iff (resolver : Resolver) (inst : Instruction) (offset : Int) :
    resolver.nextTarget inst = .ok offset ↔
      ∃ next, resolver.insts[inst.index + 1]? = some next ∧ next.offset = offset := by
  unfold nextTarget
  cases resolver.insts[inst.index + 1]? with
  | none => simp
  | some next => simp

/-- The cases of groups: every label of a group with the target of the group. -/
inductive Unfolds (resolver : Resolver) (inst : Instruction) : List CaseGroup → List CaseTarget → Prop where
  | nil : Unfolds resolver inst [] []
  | cons {group : CaseGroup} {rest : List CaseGroup} {target : Instruction} {labels : List Int32}
      {cases : List CaseTarget} (reaches : resolver.Reaches inst group.disp target)
      (stands : group.Labels resolver.options.switchRange labels) (later : Unfolds resolver inst rest cases) :
      Unfolds resolver inst (group :: rest) (Expansion.rowsTo target.offset labels ++ cases)

theorem expandGroups_cons {group : CaseGroup} {offset : Int}
    (jumps : resolver.jumpTarget inst group.disp = .ok offset) (number : Nat) (expansion : Expansion)
    (rest : List CaseGroup) :
    resolver.expandGroups inst number expansion (group :: rest) =
      (expansion.addGroup resolver.options.switchRange offset number group).mapError
          (FlowError.badSwitch inst.offset inst.op) >>=
        fun expansion => resolver.expandGroups inst (number + 1) expansion rest := by
  rw [expandGroups, jumps]
  dsimp only
  cases expansion.addGroup resolver.options.switchRange offset number group <;> rfl

theorem adds_expandGroups (resolver : Resolver) (inst : Instruction) (number : Nat) (groups : List CaseGroup) :
    Expansion.Adds (fun expansion => resolver.expandGroups inst number expansion groups)
      (resolver.Unfolds inst groups) := by
  induction groups generalizing number with
  | nil =>
    refine Expansion.Adds.nothing.congr fun rows => ⟨?_, ?_⟩
    · intro none
      subst rows
      exact .nil
    · intro unfolds
      cases unfolds
      rfl
  | cons group rest ih =>
    cases jumps : resolver.jumpTarget inst group.disp with
    | error error =>
      simp only [expandGroups, jumps]
      refine (Expansion.Adds.fail _).congr fun rows => (iff_false_left id).2 ?_
      intro unfolds
      cases unfolds with
      | cons reaches stands later =>
        rw [(resolver.jumpTarget_eq_ok_iff inst _ _).2 ⟨_, reaches, rfl⟩] at jumps
        cases jumps
    | ok offset =>
      obtain ⟨target, reaches, rfl⟩ := (resolver.jumpTarget_eq_ok_iff inst _ _).1 jumps
      simp only [expandGroups_cons jumps]
      refine (((Expansion.adds_addGroup _ _ number group).mapError _).bind (ih (number + 1))).congr fun rows => ?_
      constructor
      · intro parts
        rcases parts with ⟨_, back, rfl, ⟨labels, stands, rfl⟩, later⟩
        exact .cons reaches stands later
      · intro unfolds
        cases unfolds with
        | cons otherReaches stands later =>
          -- The displacement leads to one offset only.
          have same := (resolver.jumpTarget_eq_ok_iff inst _ _).2 ⟨_, otherReaches, rfl⟩
          rw [jumps, Except.ok.injEq] at same
          exact ⟨_, _, rfl, ⟨_, stands, by rw [same]⟩, later⟩

theorem expand_eq_ok_iff (resolver : Resolver) (inst : Instruction) (table : SwitchTable) :
    resolver.expand inst = .ok table ↔
      ∃ operand next, inst.operand.switch? = some operand ∧ resolver.insts[inst.index + 1]? = some next ∧
        table.otherwise = next.offset ∧ resolver.Unfolds inst operand.groups table.cases ∧
        (table.cases.map CaseTarget.label).Nodup := by
  have fresh : Expansion.IsConsistent {} := ⟨.nil, fun label => by simp⟩
  unfold expand
  constructor
  · intro success
    split at success
    next => cases success
    next operand given =>
      split at success
      next => cases success
      next otherwise goesOn =>
        split at success
        next => cases success
        next expansion expands =>
          cases success
          obtain ⟨next, follows, same⟩ := (resolver.nextTarget_eq_ok_iff inst otherwise).1 goesOn
          obtain ⟨rows, unfolds, grows⟩ := (resolver.adds_expandGroups inst 0 operand.groups _ fresh).1 _ expands
          have listed : expansion.cases.reverse = rows := by
            rw [grows.cases, List.append_nil, List.reverse_reverse]
          refine ⟨operand, next, given, follows, same.symm, ?_, ?_⟩
          · rwa [listed]
          · rw [List.map_reverse, List.nodup_reverse]
            exact grows.consistent.distinct
  · intro parts
    rcases parts with ⟨operand, next, given, follows, otherwise, unfolds, distinct⟩
    have backwards : ((table.cases.reverse ++ []).map CaseTarget.label).Nodup := by
      rwa [List.append_nil, List.map_reverse, List.nodup_reverse]
    obtain ⟨result, expands, grows⟩ :=
      (resolver.adds_expandGroups inst 0 operand.groups _ fresh).2 table.cases unfolds backwards
    have goesOn := (resolver.nextTarget_eq_ok_iff inst _).2 ⟨next, follows, rfl⟩
    simp only [given, goesOn, expands, grows.cases, List.append_nil, List.reverse_reverse, ← otherwise]

/-- All ways out of an instruction, and its table if it is a switch. -/
inductive Exits (resolver : Resolver) (inst : Instruction) : List Edge → Option SwitchTable → Prop where
  | ret (flow : inst.desc.flow = .ret) : Exits resolver inst [] none
  | branch {target : Instruction} (flow : inst.desc.flow = .branch)
      (jump : resolver.Reaches inst inst.operand.toInt target) :
      Exits resolver inst [⟨.jump, target.offset⟩] none
  | condBranch {target next : Instruction} (flow : inst.desc.flow = .condBranch)
      (jump : resolver.Reaches inst inst.operand.toInt target)
      (follows : resolver.insts[inst.index + 1]? = some next) :
      Exits resolver inst [⟨.jump, target.offset⟩, ⟨.fallThrough, next.offset⟩] none
  | switch {operand : SwitchOperand} {next : Instruction} {cases : List CaseTarget} {targets : List Int}
      (flow : inst.desc.flow = .switch) (given : inst.operand.switch? = some operand)
      (follows : resolver.insts[inst.index + 1]? = some next) (unfolds : resolver.Unfolds inst operand.groups cases)
      (distinct : (cases.map CaseTarget.label).Nodup)
      (chosen : IsFirstOccurrences (cases.map CaseTarget.target) targets) :
      Exits resolver inst (targets.map (Edge.mk .choice) ++ [⟨.otherwise, next.offset⟩])
        (some ⟨cases, next.offset⟩)
  | plain {next : Instruction} (flow : inst.desc.flow = .sequential ∨ inst.desc.flow = .call)
      (follows : resolver.insts[inst.index + 1]? = some next) :
      Exits resolver inst [⟨.fallThrough, next.offset⟩] none

theorem exits_of_resolveInst {edges : List Edge} {table : Option SwitchTable}
    (success : resolver.resolveInst inst = .ok (edges, table)) : resolver.Exits inst edges table := by
  unfold resolveInst at success
  cases flow : inst.desc.flow with
  | ret =>
    simp only [flow] at success
    cases success
    exact .ret flow
  | branch =>
    simp only [flow] at success
    split at success
    next => cases success
    next target jumps =>
      cases success
      obtain ⟨target, reaches, rfl⟩ := (resolver.jumpTarget_eq_ok_iff inst _ _).1 jumps
      exact .branch flow reaches
  | condBranch =>
    simp only [flow] at success
    split at success
    next => cases success
    next => cases success
    next target next jumps goesOn =>
      cases success
      obtain ⟨target, reaches, rfl⟩ := (resolver.jumpTarget_eq_ok_iff inst _ _).1 jumps
      obtain ⟨next, follows, rfl⟩ := (resolver.nextTarget_eq_ok_iff inst _).1 goesOn
      exact .condBranch flow reaches follows
  | switch =>
    simp only [flow] at success
    split at success
    next => cases success
    next table expands =>
      cases success
      obtain ⟨operand, next, given, follows, otherwise, unfolds, distinct⟩ :=
        (resolver.expand_eq_ok_iff inst table).1 expands
      obtain ⟨cases, _⟩ := table
      subst otherwise
      exact .switch flow given follows unfolds distinct (isFirstOccurrences_eraseDups _)
  | sequential | call =>
    simp only [flow] at success
    split at success
    next => cases success
    next next goesOn =>
      cases success
      obtain ⟨next, follows, rfl⟩ := (resolver.nextTarget_eq_ok_iff inst _).1 goesOn
      exact .plain (by simp [flow]) follows

theorem resolveInst_of_exits {edges : List Edge} {table : Option SwitchTable}
    (exits : resolver.Exits inst edges table) : resolver.resolveInst inst = .ok (edges, table) := by
  unfold resolveInst
  cases exits with
  | ret flow => simp only [flow]
  | branch flow jump => simp only [flow, (resolver.jumpTarget_eq_ok_iff inst _ _).2 ⟨_, jump, rfl⟩]
  | condBranch flow jump follows =>
    simp only [flow, (resolver.jumpTarget_eq_ok_iff inst _ _).2 ⟨_, jump, rfl⟩,
      (resolver.nextTarget_eq_ok_iff inst _).2 ⟨_, follows, rfl⟩]
  | @switch operand next cases targets flow given follows unfolds distinct chosen =>
    have expands := (resolver.expand_eq_ok_iff inst ⟨cases, next.offset⟩).2
      ⟨operand, next, given, follows, rfl, unfolds, distinct⟩
    simp only [flow, expands, switchEdges, chosen.eq_eraseDups]
  | plain flow follows =>
    have goesOn := (resolver.nextTarget_eq_ok_iff inst _).2 ⟨_, follows, rfl⟩
    rcases flow with flow | flow
    · simp only [flow, goesOn]
    · simp only [flow, goesOn]

theorem resolveInst_eq_ok_iff (resolver : Resolver) (inst : Instruction) (part : List Edge × Option SwitchTable) :
    resolver.resolveInst inst = .ok part ↔ resolver.Exits inst part.1 part.2 :=
  ⟨exits_of_resolveInst, resolveInst_of_exits⟩

def Leads (resolver : Resolver) (target : Int) : Prop :=
  ∃ inst ∈ resolver.insts, inst.offset = target

theorem Reaches.leads {disp : Int32} {target : Instruction} (reaches : resolver.Reaches inst disp target) :
    resolver.Leads target.offset := by
  obtain ⟨place, found, -⟩ := reaches
  exact ⟨target, List.mem_of_getElem? found, rfl⟩

theorem Unfolds.leads {groups : List CaseGroup} {cases : List CaseTarget}
    (unfolds : resolver.Unfolds inst groups cases) : ∀ row ∈ cases, resolver.Leads row.target := by
  induction unfolds with
  | nil => exact List.forall_mem_nil _
  | @cons group rest target labels cases reaches stands later ih =>
    rw [List.forall_mem_append]
    refine ⟨fun row member => ?_, ih⟩
    obtain ⟨label, -, rfl⟩ := List.mem_map.1 member
    exact reaches.leads

/-- A way out of an instruction: to the next one, or from the end of a block to any one. -/
inductive WayOut (resolver : Resolver) (inst : Instruction) (edge : Edge) : Prop where
  | next (kind : edge.kind = .fallThrough ∨ edge.kind = .otherwise)
      (follows : resolver.nextTarget inst = .ok edge.target)
  | leap (kind : edge.kind = .jump ∨ edge.kind = .choice) (terminates : inst.terminates = true)
      (leads : resolver.Leads edge.target)

theorem Exits.wayOut {edges : List Edge} {table : Option SwitchTable} (exits : resolver.Exits inst edges table) :
    ∀ edge ∈ edges, resolver.WayOut inst edge := by
  have ends {flow : Flow} (same : inst.desc.flow = flow) (terminates : flow.terminates = true) :
      inst.terminates = true := by
    rwa [Instruction.terminates, same]
  have goesOn {next : Instruction} (follows : resolver.insts[inst.index + 1]? = some next) :=
    (resolver.nextTarget_eq_ok_iff inst next.offset).2 ⟨next, follows, rfl⟩
  cases exits with
  | ret flow => exact List.forall_mem_nil _
  | branch flow jump =>
    rw [List.forall_mem_singleton]
    exact .leap (.inl rfl) (ends flow rfl) jump.leads
  | condBranch flow jump follows =>
    rw [List.forall_mem_cons, List.forall_mem_singleton]
    exact ⟨.leap (.inl rfl) (ends flow rfl) jump.leads, .next (.inl rfl) (goesOn follows)⟩
  | switch flow given follows unfolds distinct chosen =>
    rw [List.forall_mem_append, List.forall_mem_singleton]
    refine ⟨fun edge member => ?_, .next (.inr rfl) (goesOn follows)⟩
    obtain ⟨target, occurs, rfl⟩ := List.mem_map.1 member
    obtain ⟨row, given, rfl⟩ := List.mem_map.1 ((chosen.mem_iff target).1 occurs)
    exact .leap (.inr rfl) (ends flow rfl) (unfolds.leads row given)
  | plain flow follows =>
    rw [List.forall_mem_singleton]
    exact .next (.inl rfl) (goesOn follows)

end Resolver

theorem resolve_eq_ok_iff (options : FlowOptions) (insts : List Instruction) (program : Program) :
    resolve options insts = .ok program ↔
      ∃ parts : List (List Edge × Option SwitchTable),
        List.Forall₂ (fun inst part => Resolver.Exits ⟨options, insts⟩ inst part.1 part.2) insts parts ∧
        program = ⟨insts, parts.map (·.1),
          parts.zipIdx.filterMap fun part => part.1.2.map fun table => (part.2, table), callSites insts⟩ := by
  unfold resolve
  simp only [← Resolver.resolveInst_eq_ok_iff, ← mapM_eq_ok_iff]
  cases insts.mapM (Resolver.resolveInst ⟨options, insts⟩) with
  | error error => simp
  | ok parts => simp [eq_comm]

theorem lookup_tables (parts : List (List Edge × Option SwitchTable)) (start key : Nat) :
    ((parts.zipIdx start).filterMap fun part => part.1.2.map fun table => (part.2, table)).lookup key =
      if key < start then none else parts[key - start]?.bind (·.2) := by
  induction parts generalizing start with
  | nil => simp
  | cons part rest ih =>
    obtain ⟨edges, table⟩ := part
    rw [List.zipIdx_cons, List.filterMap_cons]
    by_cases here : key = start
    · subst start
      rw [if_neg (Nat.lt_irrefl key), Nat.sub_self]
      cases table with
      | none => simp [ih]
      | some table => simp
    · have later : (if key < start + 1 then none else rest[key - (start + 1)]?.bind (·.2)) =
          if key < start then none else ((edges, table) :: rest)[key - start]?.bind (·.2) := by
        by_cases before : key < start
        · rw [if_pos before, if_pos (Nat.lt_succ_of_lt before)]
        · have number : key - start = key - (start + 1) + 1 := by omega
          rw [if_neg before, if_neg (by omega), number, List.getElem?_cons_succ]
      rw [← later, ← ih]
      cases table with
      | none => rfl
      | some table => simp [List.lookup_cons, beq_false_of_ne here]

theorem exits_of_resolve {options : FlowOptions} {insts : List Instruction} {program : Program}
    (resolved : resolve options insts = .ok program) :
    program.insts = insts ∧ program.calls = callSites insts ∧ program.edges.length = insts.length ∧
      ∀ (place : Nat) (inst : Instruction) (edges : List Edge), insts[place]? = some inst →
        program.edges[place]? = some edges →
        Resolver.Exits ⟨options, insts⟩ inst edges (program.switch? place) := by
  obtain ⟨parts, exits, rfl⟩ := (resolve_eq_ok_iff options insts program).1 resolved
  refine ⟨rfl, rfl, ?_, fun place inst edges found given => ?_⟩
  · rw [List.length_map, exits.length_eq]
  · rw [List.getElem?_map] at given
    obtain ⟨part, located, rfl⟩ := Option.map_eq_some_iff.1 given
    rw [Program.switch?, lookup_tables, if_neg (Nat.not_lt_zero place), Nat.sub_zero, located]
    obtain ⟨bound, rfl⟩ := List.getElem?_eq_some_iff.1 found
    obtain ⟨bound', rfl⟩ := List.getElem?_eq_some_iff.1 located
    exact exits.get bound bound'

theorem wayOut_of_resolve {options : FlowOptions} {insts : List Instruction} {program : Program}
    (resolved : resolve options insts = .ok program) :
    program.insts = insts ∧ ∀ (index : Nat) (edges : List Edge), program.edges[index]? = some edges →
      ∃ inst, insts[index]? = some inst ∧ ∀ edge ∈ edges, Resolver.WayOut ⟨options, insts⟩ inst edge := by
  obtain ⟨same, -, long, exits⟩ := exits_of_resolve resolved
  refine ⟨same, fun index edges given => ?_⟩
  obtain ⟨bound, -⟩ := List.getElem?_eq_some_iff.1 given
  have found : insts[index]? = some insts[index] := List.getElem?_eq_getElem (long ▸ bound)
  exact ⟨_, found, (exits index _ edges found given).wayOut⟩

end ClientScript
