import ClientScript.Proofs.Resolving
import ClientScript.Proofs.Tiling

/-!
When control flow can be resolved, and to what. Displacements have to lead to instructions, switches have to
stand for labels that are all different, and only a return or a branch may be the last instruction. Nothing else is
refused. The result is closed: every edge leads to an instruction that is found by its offset.
-/

namespace ClientScript

def SwitchOperand.IsExpandable (most : Int) (table : SwitchOperand) : Prop :=
  ∃ labels, List.Forall₂ (CaseGroup.Labels most) table.groups labels ∧ labels.flatten.Nodup

theorem Expansion.map_label_rowsTo (target : Int) (labels : List Int32) :
    (rowsTo target labels).map CaseTarget.label = labels := by
  rw [rowsTo, List.map_map]
  exact List.map_id labels

namespace Resolver

variable {resolver : Resolver} {inst : Instruction}

/-- Groups unfold into cases with these labels exactly if each group leads to an instruction and the labels are
those that the groups stand for. -/
theorem exists_unfolds_iff (groups : List CaseGroup) (labels : List Int32) :
    (∃ cases, resolver.Unfolds inst groups cases ∧ cases.map CaseTarget.label = labels) ↔
      (∀ group ∈ groups, ∃ target, resolver.Reaches inst group.disp target) ∧
        ∃ parts, List.Forall₂ (CaseGroup.Labels resolver.options.switchRange) groups parts ∧
          parts.flatten = labels := by
  constructor
  · intro sides
    rcases sides with ⟨cases, unfolds, rfl⟩
    induction unfolds with
    | nil => exact ⟨List.forall_mem_nil _, [], .nil, rfl⟩
    | cons reaches stands later ih =>
      obtain ⟨lead, parts, stand, same⟩ := ih
      refine ⟨List.forall_mem_cons.2 ⟨⟨_, reaches⟩, lead⟩, _, .cons stands stand, ?_⟩
      rw [List.map_append, Expansion.map_label_rowsTo, List.flatten_cons, same]
  · intro sides
    rcases sides with ⟨lead, parts, stand, rfl⟩
    -- Along the labels of the groups, since the targets are given for every group on its own.
    induction stand with
    | nil => exact ⟨[], .nil, rfl⟩
    | cons stands stand ih =>
      obtain ⟨⟨target, reaches⟩, lead⟩ := List.forall_mem_cons.1 lead
      obtain ⟨cases, unfolds, same⟩ := ih lead
      refine ⟨_, .cons reaches stands unfolds, ?_⟩
      rw [List.map_append, Expansion.map_label_rowsTo, List.flatten_cons, same]

structure IsResolvable (resolver : Resolver) (inst : Instruction) : Prop where
  jump : inst.desc.flow = .branch ∨ inst.desc.flow = .condBranch →
    ∃ target, resolver.Reaches inst inst.operand.toInt target
  table : inst.desc.flow = .switch →
    ∃ table, inst.operand.switch? = some table ∧ table.IsExpandable resolver.options.switchRange
  cases : inst.desc.flow = .switch → ∀ table, inst.operand.switch? = some table →
    ∀ group ∈ table.groups, ∃ target, resolver.Reaches inst group.disp target
  follows : inst.desc.flow ≠ .ret → inst.desc.flow ≠ .branch → inst.index + 1 < resolver.insts.length

theorem Exits.isResolvable {edges : List Edge} {table : Option SwitchTable}
    (exits : resolver.Exits inst edges table) : resolver.IsResolvable inst := by
  have inside {next : Instruction} (follows : resolver.insts[inst.index + 1]? = some next) :=
    (List.getElem?_eq_some_iff.1 follows).1
  cases exits with
  | ret flow => constructor <;> simp [flow]
  | branch flow jump =>
    refine ⟨fun _ => ⟨_, jump⟩, ?_, ?_, ?_⟩ <;> simp [flow]
  | condBranch flow jump follows =>
    refine ⟨fun _ => ⟨_, jump⟩, ?_, ?_, fun _ _ => inside follows⟩ <;> simp [flow]
  | @switch operand next cases targets flow given follows unfolds distinct chosen =>
    obtain ⟨lead, labels, stand, same⟩ := (exists_unfolds_iff operand.groups _).1 ⟨cases, unfolds, rfl⟩
    rw [← same] at distinct
    refine ⟨?_, fun _ => ⟨operand, given, labels, stand, distinct⟩, ?_, fun _ _ => inside follows⟩
    · simp [flow]
    · intro _ table other
      cases given.symm.trans other
      exact lead
  | plain flow follows =>
    refine ⟨?_, ?_, ?_, fun _ _ => inside follows⟩ <;> rcases flow with flow | flow <;> simp [flow]

theorem IsResolvable.exists_exits (resolvable : resolver.IsResolvable inst) :
    ∃ edges table, resolver.Exits inst edges table := by
  have goesOn (bound : inst.index + 1 < resolver.insts.length) :
      ∃ next, resolver.insts[inst.index + 1]? = some next := ⟨_, List.getElem?_eq_getElem bound⟩
  cases flow : inst.desc.flow with
  | ret => exact ⟨_, _, .ret flow⟩
  | branch =>
    obtain ⟨target, reaches⟩ := resolvable.jump (.inl flow)
    exact ⟨_, _, .branch flow reaches⟩
  | condBranch =>
    obtain ⟨target, reaches⟩ := resolvable.jump (.inr flow)
    obtain ⟨next, follows⟩ := goesOn (resolvable.follows (by simp [flow]) (by simp [flow]))
    exact ⟨_, _, .condBranch flow reaches follows⟩
  | switch =>
    obtain ⟨operand, given, labels, stand, distinct⟩ := resolvable.table flow
    obtain ⟨next, follows⟩ := goesOn (resolvable.follows (by simp [flow]) (by simp [flow]))
    have lead := resolvable.cases flow operand given
    obtain ⟨cases, unfolds, same⟩ := (exists_unfolds_iff operand.groups _).2 ⟨lead, labels, stand, rfl⟩
    rw [← same] at distinct
    exact ⟨_, _, .switch flow given follows unfolds distinct (isFirstOccurrences_eraseDups _)⟩
  | sequential | call =>
    obtain ⟨next, follows⟩ := goesOn (resolvable.follows (by simp [flow]) (by simp [flow]))
    exact ⟨_, _, .plain (by simp [flow]) follows⟩

theorem Exits.eq_nil_iff {edges : List Edge} {table : Option SwitchTable}
    (exits : resolver.Exits inst edges table) : edges = [] ↔ inst.desc.flow = .ret := by
  cases exits with
  | ret flow => exact iff_of_true rfl flow
  | branch flow | condBranch flow | switch flow => simp [flow]
  | plain flow => rcases flow with flow | flow <;> simp [flow]

theorem WayOut.leads {edge : Edge} (way : resolver.WayOut inst edge) : resolver.Leads edge.target := by
  cases way with
  | next kind follows =>
    obtain ⟨next, found, same⟩ := (resolver.nextTarget_eq_ok_iff inst _).1 follows
    exact ⟨next, List.mem_of_getElem? found, same⟩
  | leap kind terminates leads => exact leads

end Resolver

theorem exists_resolve_iff (options : FlowOptions) (insts : List Instruction) :
    (∃ program, resolve options insts = .ok program) ↔
      ∀ inst ∈ insts, Resolver.IsResolvable ⟨options, insts⟩ inst := by
  constructor
  · intro success inst member
    obtain ⟨program, resolved⟩ := success
    obtain ⟨-, -, long, exits⟩ := exits_of_resolve resolved
    obtain ⟨place, found⟩ := List.getElem?_of_mem member
    obtain ⟨bound, -⟩ := List.getElem?_eq_some_iff.1 found
    exact (exits place inst _ found (List.getElem?_eq_getElem (long.symm ▸ bound))).isResolvable
  · intro resolvable
    have each : ∀ inst ∈ insts, ∃ part : List Edge × Option SwitchTable,
        Resolver.Exits ⟨options, insts⟩ inst part.1 part.2 := by
      intro inst member
      obtain ⟨edges, table, exits⟩ := (resolvable inst member).exists_exits
      exact ⟨(edges, table), exits⟩
    obtain ⟨parts, exits⟩ := exists_forall₂ each
    exact ⟨_, (resolve_eq_ok_iff options insts _).2 ⟨parts, exits, rfl⟩⟩

theorem Registry.shape_of_switch {registry : Registry} (known : registry = .standard ∨ registry = .empty)
    (op : Opcode) (flow : (registry.lookup op).flow = .switch) : (registry.lookup op).shape = .switch := by
  have rows : ∀ row ∈ registry.rows, row.flow = .switch → row.shape = .switch := by
    rcases known with rfl | rfl
    · decide +kernel
    · exact List.forall_mem_nil _
  exact lookup_of_rows rows (fun _ => nofun) op flow

theorem Cut.exists_table {decoder : Decoder} {offset index : Nat} {bytes : List UInt8} {insts : List Instruction}
    (cut : Cut decoder offset index bytes insts) (known : decoder.registry = .standard ∨ decoder.registry = .empty) :
    ∀ inst ∈ insts, inst.desc.flow = .switch → ∃ table, inst.operand.switch? = some table := by
  intro inst member flow
  obtain ⟨word, raw, described, stored, -⟩ := cut.exists_stored inst member
  rw [described] at flow stored
  rw [Decoder.Stores, Registry.shape_of_switch known _ flow] at stored
  obtain ⟨table, given, -⟩ := stored
  exact ⟨table, congrArg Operand.switch? given⟩

/-- The control flow of a program: every instruction has its ways out, and each of them leads to an instruction
that is found by its offset. -/
structure IsFlowOf (options : FlowOptions) (insts : List Instruction) (program : Program) : Prop where
  insts_eq : program.insts = insts
  length_edges : program.edges.length = insts.length
  exits : ∀ (place : Nat) (inst : Instruction) (edges : List Edge), insts[place]? = some inst →
    program.edges[place]? = some edges →
    Resolver.Exits ⟨options, insts⟩ inst edges (program.switch? place) ∧ (edges = [] ↔ inst.desc.flow = .ret)
  leads : ∀ edges ∈ program.edges, ∀ edge ∈ edges, ∃ place target, program.indexAt edge.target = some place ∧
    insts[place]? = some target ∧ target.offset = edge.target
  calls_eq : program.calls =
    (insts.filter fun inst => inst.desc.flow = .call).map fun inst => ⟨inst.offset, inst.operand.toInt⟩

theorem isFlowOf_of_resolve {options : FlowOptions} {insts : List Instruction} {program : Program}
    (ascending : insts.Pairwise fun one other => one.offset < other.offset)
    (resolved : resolve options insts = .ok program) : IsFlowOf options insts program := by
  obtain ⟨rfl, calls, long, exits⟩ := exits_of_resolve resolved
  refine ⟨rfl, long, fun place inst edges found given => ?_, fun edges listed edge member => ?_, calls⟩
  · have ways := exits place inst edges found given
    exact ⟨ways, ways.eq_nil_iff⟩
  · obtain ⟨index, given⟩ := List.getElem?_of_mem listed
    obtain ⟨inst, -, ways⟩ := (wayOut_of_resolve resolved).2 index edges given
    obtain ⟨target, occurs, same⟩ := (ways edge member).leads
    obtain ⟨place, found⟩ := List.getElem?_of_mem occurs
    exact ⟨place, target, same ▸ indexAt_of_getElem ascending found, found, same⟩

/-- Decoded code is resolved exactly if every displacement leads to an instruction, nothing runs off the end and
every switch can be expanded. The result is its control flow. -/
theorem resolve_decoded (callee : Int32 → Option Signature) (decoder : Decoder) (code : List UInt8) (start : Int)
    (insts : List Instruction) (options : FlowOptions)
    (decoded : decoder.decode callee code start = .ok insts) :
    (∀ (place : Nat) (inst : Instruction), insts[place]? = some inst → inst.index = place) ∧
      (decoder.registry = .standard ∨ decoder.registry = .empty →
        ∀ inst ∈ insts, inst.desc.flow = .switch → ∃ table, inst.operand.switch? = some table) ∧
      ((∃ program, resolve options insts = .ok program) ↔
        ∀ inst ∈ insts, Resolver.IsResolvable ⟨options, insts⟩ inst) ∧
      ∀ program, resolve options insts = .ok program → IsFlowOf options insts program := by
  obtain ⟨-, -, cut, falls, traced⟩ := (decoder.decode_eq_ok_iff callee code start insts).1 decoded
  have row := falls.tiles.traced traced
  have ascending := traced.ascending falls.ascending
  refine ⟨row.index, fun known => ?_, exists_resolve_iff options insts, fun program resolved => ?_⟩
  · exact (traced.forall_mem_iff fun _ _ _ => Iff.rfl).2 (falls.exists_table known)
  · exact isFlowOf_of_resolve ascending resolved

/-- A switch whose two groups share a target. By offsets its displacements lead into the middle of it. -/
theorem resolve_decoded_switch :
    ∃ insts program,
      Decoder.decode (fun _ => none) {} [0, 60, 0, 2, 1, 0, 0, 0, 7, 0, 0, 0, 1,
        2, 0, 0, 0, 8, 0xff, 0xfe, 0, 0, 0, 9, 0, 0, 0, 1, 0, 21, 0, 0, 21, 0] 0 = .ok insts ∧
      resolve {} insts = .ok program ∧ program.edges = [[⟨.choice, 31⟩, ⟨.otherwise, 28⟩], [], []] ∧
      (∀ inst ∈ insts, Resolver.IsResolvable ⟨{}, insts⟩ inst) ∧ IsFlowOf {} insts program ∧
      ¬∀ inst ∈ insts, Resolver.IsResolvable ⟨{ addressing := .byOffset }, insts⟩ inst := by
  have decoded : Decoder.decode (fun _ => none) {} [0, 60, 0, 2, 1, 0, 0, 0, 7, 0, 0, 0, 1,
      2, 0, 0, 0, 8, 0xff, 0xfe, 0, 0, 0, 9, 0, 0, 0, 1, 0, 21, 0, 0, 21, 0] 0 = .ok _ :=
    Decoder.decode_of_within 3 (by decide) rfl rfl
  obtain ⟨-, -, accepted, flow⟩ := resolve_decoded (fun _ => none) {} _ 0 _ {} decoded
  obtain ⟨-, -, refused, -⟩ := resolve_decoded (fun _ => none) {} _ 0 _ { addressing := .byOffset } decoded
  refine ⟨_, _, decoded, rfl, rfl, accepted.1 ⟨_, rfl⟩, flow _ rfl, fun resolvable => ?_⟩
  obtain ⟨program, resolved⟩ := refused.2 resolvable
  cases resolved

end ClientScript
