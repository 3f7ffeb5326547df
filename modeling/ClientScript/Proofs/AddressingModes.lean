import ClientScript.Proofs.Building
import ClientScript.Proofs.Relocation

/-!
The two ways of addressing. A displacement counts instructions, or it measures bytes. Instructions whose displacements
count can be given displacements that measure the distance to the same targets, as long as the distances are
32-bit numbers; they are then resolved by offsets to the control flow that they had by numbers.
-/

namespace ClientScript

/-- How many bytes from an instruction the one stands that a displacement counts to. -/
def distance (insts : List Instruction) (inst : Instruction) (disp : Int32) : Int :=
  insts[(inst.index + disp.toInt + 1).toNat]?.elim 0 fun target => target.offset - inst.offset

namespace SwitchOperand

def mapDisplacements (change : Int32 → Int32) (table : SwitchOperand) : SwitchOperand :=
  { table with groups := table.groups.map fun group => { group with disp := change group.disp } }

end SwitchOperand

namespace Instruction

/-- The displacements of an instruction: a branch has one, a switch one for each group of cases. -/
def displacements (inst : Instruction) : List Int32 :=
  match inst.desc.flow with
  | .branch | .condBranch => [inst.operand.toInt]
  | .switch => inst.operand.switch?.elim [] fun table => table.groups.map CaseGroup.disp
  | .sequential | .call | .ret => []

def mapDisplacements (change : Int32 → Int32) (inst : Instruction) : Instruction :=
  match inst.desc.flow with
  | .branch | .condBranch => { inst with operand := .int (change inst.operand.toInt) }
  | .switch =>
    { inst with
      operand := inst.operand.switch?.elim inst.operand fun table => .switch (table.mapDisplacements change) }
  | .sequential | .call | .ret => inst

/-- The instruction with displacements that measure what they counted before. -/
def byDistance (insts : List Instruction) (inst : Instruction) : Instruction :=
  inst.mapDisplacements fun disp => Int32.ofInt (distance insts inst disp)

variable (change : Int32 → Int32) (inst : Instruction)

theorem mapDisplacements_offset : (inst.mapDisplacements change).offset = inst.offset := by
  unfold mapDisplacements
  split <;> rfl

theorem mapDisplacements_index : (inst.mapDisplacements change).index = inst.index := by
  unfold mapDisplacements
  split <;> rfl

theorem mapDisplacements_desc : (inst.mapDisplacements change).desc = inst.desc := by
  unfold mapDisplacements
  split <;> rfl

theorem mapDisplacements_of_call (call : inst.desc.flow = .call) : inst.mapDisplacements change = inst := by
  simp only [mapDisplacements, call]

end Instruction

theorem callSites_byDistance (insts : List Instruction) :
    callSites (insts.map (Instruction.byDistance insts)) = callSites insts := by
  have kept : (fun inst : Instruction => decide (inst.desc.flow = .call)) ∘ Instruction.byDistance insts =
      fun inst => decide (inst.desc.flow = .call) := by
    funext inst
    simp only [Function.comp_apply, Instruction.byDistance, Instruction.mapDisplacements_desc]
  rw [callSites, List.filter_map, kept, List.map_map, callSites]
  refine List.map_congr_left fun inst member => ?_
  have call : inst.desc.flow = .call := of_decide_eq_true (List.mem_filter.1 member).2
  rw [Function.comp_apply, Instruction.byDistance, Instruction.mapDisplacements_of_call _ inst call]

namespace Resolver

variable {most : Int} {insts : List Instruction} {inst : Instruction}

theorem reaches_byIndex_iff {disp : Int32} {target : Instruction} :
    Resolver.Reaches ⟨⟨.byIndex, most⟩, insts⟩ inst disp target ↔
      ∃ place : Nat, insts[place]? = some target ∧ (place : Int) = inst.index + disp.toInt + 1 := by
  simp only [Reaches, if_pos]

theorem distance_of_reaches {disp : Int32} {target : Instruction}
    (reaches : Resolver.Reaches ⟨⟨.byIndex, most⟩, insts⟩ inst disp target) :
    distance insts inst disp = target.offset - inst.offset := by
  obtain ⟨place, found, counts⟩ := reaches_byIndex_iff.1 reaches
  rw [distance, ← counts, Int.toNat_natCast, found]
  rfl

theorem carries_distance {disp : Int32} (fits : -2147483648 ≤ distance insts inst disp ∧
      distance insts inst disp ≤ 2147483647) :
    Resolver.Carries ⟨⟨.byIndex, most⟩, insts⟩ ⟨⟨.byOffset, most⟩, insts.map (Instruction.byDistance insts)⟩ id inst
      (inst.byDistance insts) disp (Int32.ofInt (distance insts inst disp)) := by
  intro target reaches
  obtain ⟨place, found, -⟩ := reaches_byIndex_iff.1 reaches
  have measured : (Int32.ofInt (distance insts inst disp)).toInt = target.offset - inst.offset := by
    rw [Int32.toInt_ofInt_of_le (by omega) (by omega), distance_of_reaches reaches]
  have stays : (target.byDistance insts).offset = target.offset := Instruction.mapDisplacements_offset _ target
  refine ⟨target.byDistance insts, ⟨place, ?_, ?_⟩, stays⟩
  · rw [List.getElem?_map, found, Option.map_some]
  · rw [if_neg (by simp), stays, measured, Instruction.byDistance, Instruction.mapDisplacements_offset]
    omega

theorem mirrors_byDistance (fits : ∀ disp ∈ inst.displacements,
      -2147483648 ≤ distance insts inst disp ∧ distance insts inst disp ≤ 2147483647) :
    Resolver.Mirrors ⟨⟨.byIndex, most⟩, insts⟩ ⟨⟨.byOffset, most⟩, insts.map (Instruction.byDistance insts)⟩ id inst
      (inst.byDistance insts) where
  flow := by rw [Instruction.byDistance, Instruction.mapDisplacements_desc]
  next next follows := by
    refine ⟨next.byDistance insts, ?_, Instruction.mapDisplacements_offset _ next⟩
    rw [Instruction.byDistance, Instruction.mapDisplacements_index, List.getElem?_map, follows, Option.map_some]
  jump flow := by
    have listed : inst.operand.toInt ∈ inst.displacements := by
      rcases flow with flow | flow <;> simp [Instruction.displacements, flow]
    have given : (inst.byDistance insts).operand.toInt = Int32.ofInt (distance insts inst inst.operand.toInt) := by
      rcases flow with flow | flow <;> simp [Instruction.byDistance, Instruction.mapDisplacements, flow, Operand.toInt]
    rw [given]
    exact carries_distance (fits _ listed)
  table flow table given := by
    have listed : inst.displacements = table.groups.map CaseGroup.disp := by
      simp only [Instruction.displacements, flow, given, Option.elim_some]
    refine ⟨table.mapDisplacements fun disp => Int32.ofInt (distance insts inst disp), ?_, ?_⟩
    · simp only [Instruction.byDistance, Instruction.mapDisplacements, flow, given, Option.elim_some]
      rfl
    · rw [SwitchOperand.mapDisplacements, List.forall₂_map_right_iff, List.forall₂_same]
      intro group member
      refine ⟨rfl, carries_distance (fits _ ?_)⟩
      rw [listed]
      exact List.mem_map_of_mem member

theorem IsResolvable.exists_reaches {resolver : Resolver} (resolvable : resolver.IsResolvable inst) :
    ∀ disp ∈ inst.displacements, ∃ target, resolver.Reaches inst disp target := by
  intro disp member
  cases flow : inst.desc.flow with
  | branch =>
    simp only [Instruction.displacements, flow, List.mem_singleton] at member
    rw [member]
    exact resolvable.jump (.inl flow)
  | condBranch =>
    simp only [Instruction.displacements, flow, List.mem_singleton] at member
    rw [member]
    exact resolvable.jump (.inr flow)
  | switch =>
    obtain ⟨table, given, -⟩ := resolvable.table flow
    simp only [Instruction.displacements, flow, given, Option.elim_some] at member
    obtain ⟨group, listed, rfl⟩ := List.mem_map.1 member
    exact resolvable.cases flow table given group listed
  | sequential | call | ret => simp [Instruction.displacements, flow] at member

end Resolver

/-- Decoded instructions that are resolved by numbers count to instructions only. If all distances to these are 32-bit
numbers, the instructions with the distances in place of the counts are resolved by offsets to the same control flow. -/
theorem resolve_byDistance (callee : Int32 → Option Signature) (decoder : Decoder) (code : List UInt8) (start : Int)
    (insts : List Instruction) (most : Int) (program : Program)
    (decoded : decoder.decode callee code start = .ok insts)
    (resolved : resolve ⟨.byIndex, most⟩ insts = .ok program) :
    (∀ (place : Nat) (inst : Instruction), insts[place]? = some inst → ∀ disp ∈ inst.displacements,
      ∃ (goal : Nat) (target : Instruction), insts[goal]? = some target ∧ (goal : Int) = place + disp.toInt + 1 ∧
        distance insts inst disp = target.offset - inst.offset) ∧
    ((∀ inst ∈ insts, ∀ disp ∈ inst.displacements,
        -2147483648 ≤ distance insts inst disp ∧ distance insts inst disp ≤ 2147483647) →
      ∃ other, resolve ⟨.byOffset, most⟩ (insts.map (Instruction.byDistance insts)) = .ok other ∧
        other.edges = program.edges ∧ other.switches = program.switches ∧ other.calls = program.calls) := by
  constructor
  · intro place inst found disp member
    have resolvable := (exists_resolve_iff _ insts).1 ⟨program, resolved⟩ inst (List.mem_of_getElem? found)
    obtain ⟨target, reaches⟩ := resolvable.exists_reaches disp member
    obtain ⟨goal, located, counts⟩ := Resolver.reaches_byIndex_iff.1 reaches
    rw [(inOrder_of_decode decoded).index_eq place inst found] at counts
    exact ⟨goal, target, located, counts, Resolver.distance_of_reaches reaches⟩
  · intro fits
    have relocates : Resolver.Relocates ⟨⟨.byIndex, most⟩, insts⟩
        ⟨⟨.byOffset, most⟩, insts.map (Instruction.byDistance insts)⟩ id := by
      refine ⟨rfl, fun _ _ _ _ same => same, ?_⟩
      rw [List.forall₂_map_right_iff, List.forall₂_same]
      exact fun inst member => Resolver.mirrors_byDistance (fits inst member)
    obtain ⟨-, calls, -⟩ := exits_of_resolve resolved
    refine ⟨_, resolve_of_relocates relocates resolved, ?_, ?_, ?_⟩
    · rw [Edge.moved_id, List.map_id_fun, List.map_id]
    · rw [SwitchTable.moved_id, Prod.map_id, List.map_id]
    · rw [callSites_byDistance, calls]

/-- A switch over a branch that leads back to it, after a first byte that is left out. -/
theorem resolve_byDistance_switch :
    ∃ insts program other,
      Decoder.decode (fun _ => none) {} [0xff, 0, 60, 0, 1, 1, 0, 0, 0, 7, 0, 0, 0, 1,
        0, 6, 0xff, 0xff, 0xff, 0xfe, 0, 21, 0] 1 = .ok insts ∧
      resolve ⟨.byIndex, 0⟩ insts = .ok program ∧
      resolve ⟨.byOffset, 0⟩ (insts.map (Instruction.byDistance insts)) = .ok other ∧
      other.edges = [[⟨.choice, 20⟩, ⟨.otherwise, 14⟩], [⟨.jump, 1⟩], []] ∧
      other.switches = [(0, ⟨[⟨7, 20⟩], 14⟩)] := by
  have decoded : Decoder.decode (fun _ => none) {}
      [0xff, 0, 60, 0, 1, 1, 0, 0, 0, 7, 0, 0, 0, 1, 0, 6, 0xff, 0xff, 0xff, 0xfe, 0, 21, 0] 1 = .ok _ :=
    Decoder.decode_of_within 3 (by decide) rfl rfl
  obtain ⟨-, measures⟩ := resolve_byDistance (fun _ => none) {} _ 1 _ 0 _ decoded rfl
  obtain ⟨other, resolved, edges, switches, -⟩ := measures
    (List.forall_mem_cons.2 ⟨List.forall_mem_singleton.2 ⟨by decide, by decide⟩, List.forall_mem_cons.2
      ⟨List.forall_mem_singleton.2 ⟨by decide, by decide⟩, List.forall_mem_singleton.2 (List.forall_mem_nil _)⟩⟩)
  exact ⟨_, _, other, decoded, rfl, resolved, edges, switches⟩

end ClientScript
