import ClientScript.Proofs.Resolving

/-!
The heights of the stacks along the edges of decoded code. The trace goes through the code from front to back and knows
of no jumps: it starts anew after an instruction that ends a block. So heights agree along an edge to the next
instruction, and along any other edge just when the target finds both stacks empty. Strict decoding adds that nothing is
left behind at the end of a block, and checks it nowhere else.
-/

namespace ClientScript

namespace StackState

theorem applied_of_step {strict : Bool} {callee : Option Signature} {inst : Instruction}
    {state next : StackState} (moved : state.step strict callee inst = .ok next) :
    ∃ left, state.applied strict callee inst = .ok left ∧ closed strict inst left = .ok next := by
  unfold step at moved
  cases effect : state.applied strict callee inst with
  | error error => simp [effect] at moved
  | ok left =>
    simp only [effect] at moved
    exact ⟨left, rfl, moved⟩

theorem eq_empty_of_closed {strict : Bool} {inst : Instruction} {left next : StackState}
    (terminates : inst.terminates = true) (closes : closed strict inst left = .ok next) : next = some {} := by
  unfold closed at closes
  rw [if_pos terminates] at closes
  split at closes
  next =>
    cases closes
    rfl
  next => cases closes
  next =>
    cases closes
    rfl

/-- Strictly, a block ends with nothing left on the stacks, unless nothing is known of them. -/
theorem left_of_closed {inst : Instruction} {left next : StackState} (terminates : inst.terminates = true)
    (closes : closed true inst left = .ok next) : left = none ∨ left = some {} := by
  unfold closed at closes
  rw [if_pos terminates] at closes
  cases left with
  | none => exact .inl rfl
  | some frame =>
    split at closes
    next empty => exact .inr empty
    next => cases closes
    next unmatched => exact (unmatched frame rfl rfl).elim

end StackState

theorem Registry.rule_of_terminates (op : Opcode) (terminates : (standard.lookup op).flow.terminates = true) :
    (standard.lookup op).stack.rule = .fixed ∨ (standard.lookup op).stack.rule = .popAll := by
  have rows : ∀ row ∈ standard.rows, row.flow.terminates = true →
      row.stack.rule = .fixed ∨ row.stack.rule = .popAll := by decide +kernel
  exact lookup_of_rows rows (fun _ => nofun) op terminates

theorem StackState.applied_ne_none {callee : Option Signature} {inst : Instruction} {state left : StackState}
    (rule : inst.desc.stack.rule = .fixed ∨ inst.desc.stack.rule = .popAll) (known : state.depth ≠ .unknown)
    (effect : state.applied true callee inst = .ok left) : left ≠ none := by
  rintro rfl
  cases state with
  | none => exact known rfl
  | some frame =>
    have told : frame.apply callee inst ≠ .ok none := by
      unfold Frame.apply
      rcases rule with fixed | popAll
      · rw [fixed]
        dsimp only
        split <;> simp
      · rw [popAll]
        simp
    unfold applied at effect
    cases outcome : frame.apply callee inst with
    | error error =>
      simp only [outcome] at effect
      cases effect
    | ok next =>
      simp only [outcome] at effect
      cases effect
      exact told outcome

namespace Traced

variable {callee : Int32 → Option Signature} {strict : Bool} {state : StackState} {cut insts : List Instruction}
  {place : Nat} {inst : Instruction}

theorem after_of_terminates (traced : Traced callee strict state cut insts) (found : insts[place]? = some inst)
    (terminates : inst.terminates = true) : inst.after = .known 0 0 := by
  obtain ⟨-, -, -, moved⟩ := traced.of_getElem found
  obtain ⟨left, -, closes⟩ := StackState.applied_of_step moved
  rw [traced.after_eq found, StackState.eq_empty_of_closed terminates closes]
  rfl

theorem left_of_terminates (traced : Traced callee true state cut insts) (found : insts[place]? = some inst)
    (terminates : inst.terminates = true) :
    ∃ left, (stackBefore state insts place).applied true (callee inst.operand.toInt) inst = .ok left ∧
      (left = none ∨ left = some {}) := by
  obtain ⟨-, -, -, moved⟩ := traced.of_getElem found
  obtain ⟨left, effect, closes⟩ := StackState.applied_of_step moved
  exact ⟨left, effect, StackState.left_of_closed terminates closes⟩

theorem before_eq_empty_iff (traced : Traced callee strict (some {}) cut insts)
    (found : insts[place]? = some inst) :
    inst.before = .known 0 0 ↔ place = 0 ∨ ∃ prev, insts[place - 1]? = some prev ∧ prev.after = .known 0 0 := by
  cases place with
  | zero => exact iff_of_true (traced.before_eq found) (.inl rfl)
  | succ place =>
    obtain ⟨bound, -⟩ := List.getElem?_eq_some_iff.1 found
    have previous : insts[place]? = some insts[place] := List.getElem?_eq_getElem (Nat.lt_of_succ_lt bound)
    rw [traced.before_succ previous found, Nat.add_sub_cancel, previous]
    simp

theorem depth_wayOut (traced : Traced callee strict (some {}) cut insts) {options : FlowOptions} {edge : Edge}
    (found : insts[inst.index]? = some inst) (way : Resolver.WayOut ⟨options, insts⟩ inst edge) :
    ∃ place target, insts[place]? = some target ∧ target.offset = edge.target ∧
      (inst.after = target.before ↔ edge.kind = .fallThrough ∨ edge.kind = .otherwise ∨ place = 0 ∨
        ∃ prev, insts[place - 1]? = some prev ∧ prev.after = .known 0 0) := by
  cases way with
  | next kind follows =>
    obtain ⟨target, following, offset⟩ := (Resolver.nextTarget_eq_ok_iff _ inst _).1 follows
    refine ⟨inst.index + 1, target, following, offset, ?_⟩
    have agree := (traced.before_succ found following).symm
    exact iff_of_true agree (or_assoc.1 (.inl kind))
  | leap kind terminates leads =>
    obtain ⟨target, member, offset⟩ := leads
    obtain ⟨place, location⟩ := List.getElem?_of_mem member
    refine ⟨place, target, location, offset, ?_⟩
    -- The instruction ends a block, so the trace has started anew after it.
    have empty := traced.after_of_terminates found terminates
    have notNext : ¬(edge.kind = .fallThrough ∨ edge.kind = .otherwise) := by
      rcases kind with jump | choice
      · simp [jump]
      · simp [choice]
    rw [empty, eq_comm, traced.before_eq_empty_iff location, ← or_assoc (a := edge.kind = .fallThrough)]
    exact (or_iff_right notNext).symm

end Traced

theorem edge_depth_iff {callee : Int32 → Option Signature} {decoder : Decoder} {code : List UInt8} {start : Int}
    {insts : List Instruction} {options : FlowOptions} {program : Program}
    (decoded : decoder.decode callee code start = .ok insts) (resolved : resolve options insts = .ok program)
    {index : Nat} {edges : List Edge} {edge : Edge} {source : Instruction} (given : program.edges[index]? = some edges)
    (member : edge ∈ edges) (found : insts[index]? = some source) :
    ∃ place target, program.indexAt edge.target = some place ∧ insts[place]? = some target ∧
      (source.after = target.before ↔ edge.kind = .fallThrough ∨ edge.kind = .otherwise ∨ place = 0 ∨
        ∃ prev, insts[place - 1]? = some prev ∧ prev.after = .known 0 0) := by
  obtain ⟨-, -, cut, falls, traced⟩ := (decoder.decode_eq_ok_iff callee code start insts).1 decoded
  obtain ⟨rfl, waysOut⟩ := wayOut_of_resolve resolved
  obtain ⟨_, location, ways⟩ := waysOut index edges given
  cases found.symm.trans location
  obtain ⟨origin, cutAt, kept, -⟩ := traced.of_getElem found
  have numbered : source.index = index := by
    rw [kept]
    exact (falls.index_eq cutAt).trans (Nat.zero_add index)
  subst numbered
  obtain ⟨place, target, location, offset, agree⟩ := traced.depth_wayOut found (ways edge member)
  refine ⟨place, target, ?_, location, agree⟩
  rw [← offset]
  exact indexAt_of_getElem (traced.ascending falls.ascending) location

/-- Every edge of strictly decoded code leads to an instruction. The heights agree along it if it goes on to
the next one, and else just if nothing is on the stacks right before its target. At the end of a block
known stacks are empty. -/
theorem strict_edge_depth_iff (callee : Int32 → Option Signature) (decoder : Decoder) (code : List UInt8)
    (start : Int) (insts : List Instruction) (options : FlowOptions) (program : Program)
    (strict : decoder.strict = true) (decoded : decoder.decode callee code start = .ok insts)
    (resolved : resolve options insts = .ok program) :
    (∀ (index : Nat) (edges : List Edge) (edge : Edge) (source : Instruction),
      program.edges[index]? = some edges → edge ∈ edges → insts[index]? = some source →
      ∃ place target, program.indexAt edge.target = some place ∧ insts[place]? = some target ∧
        (source.after = target.before ↔ edge.kind = .fallThrough ∨ edge.kind = .otherwise ∨ place = 0 ∨
          ∃ prev, insts[place - 1]? = some prev ∧ prev.after = .known 0 0)) ∧
    ∀ (place : Nat) (inst : Instruction), insts[place]? = some inst → inst.terminates = true →
      inst.after = .known 0 0 ∧
      ∃ left, (stackBefore (some {}) insts place).applied true (callee inst.operand.toInt) inst = .ok left ∧
        (left = none ∨ left = some {}) ∧
        (decoder.registry = .standard → inst.before ≠ .unknown → left = some {}) := by
  constructor
  · intro index edges edge source given member found
    exact edge_depth_iff decoded resolved given member found
  · intro place inst found terminates
    obtain ⟨-, -, cut, falls, traced⟩ := (decoder.decode_eq_ok_iff callee code start insts).1 decoded
    rw [strict] at traced
    obtain ⟨left, effect, nothing⟩ := traced.left_of_terminates found terminates
    refine ⟨traced.after_of_terminates found terminates, left, effect, nothing, fun standard known => ?_⟩
    obtain ⟨origin, cutAt, kept, -⟩ := traced.of_getElem found
    obtain ⟨op, described⟩ := falls.exists_desc origin (List.mem_of_getElem? cutAt)
    have desc : inst.desc = Registry.standard.lookup op := by
      rw [kept, ← standard]
      exact described
    have rule := Registry.rule_of_terminates op (desc ▸ terminates)
    rw [← desc] at rule
    rw [traced.before_eq found] at known
    exact nothing.resolve_left (StackState.applied_ne_none rule known effect)

/-- A switch whose case goes past a return: the heights agree there, and nothing is left at the switch. -/
theorem strict_edge_depth_iff_switch :
    ∃ insts program source target,
      Decoder.decode (fun _ => none) { strict := true }
        [0, 0, 0, 0, 0, 7, 0, 60, 0, 1, 1, 0, 0, 0, 7, 0, 0, 0, 1, 0, 21, 0, 0, 21, 0] 0 = .ok insts ∧
      resolve {} insts = .ok program ∧ program.edges[1]? = some [⟨.choice, 22⟩, ⟨.otherwise, 19⟩] ∧
      insts[1]? = some source ∧ program.indexAt 22 = some 3 ∧ insts[3]? = some target ∧
      source.after = target.before ∧
      (stackBefore (some {}) insts 1).applied true none source = .ok (some {}) := by
  have decoded : Decoder.decode (fun _ => none) { strict := true }
      [0, 0, 0, 0, 0, 7, 0, 60, 0, 1, 1, 0, 0, 0, 7, 0, 0, 0, 1, 0, 21, 0, 0, 21, 0] 0 = .ok _ :=
    Decoder.decode_of_within 4 (by decide) rfl rfl
  obtain ⟨agree, empty⟩ := strict_edge_depth_iff (fun _ => none) _ _ 0 _ {} _ rfl decoded rfl
  obtain ⟨place, target, number, found, same⟩ :=
    agree 1 [⟨.choice, 22⟩, ⟨.otherwise, 19⟩] ⟨.choice, 22⟩ _ rfl List.mem_cons_self rfl
  cases number.symm.trans (rfl : _ = some 3)
  obtain ⟨-, left, effect, -, nothing⟩ := empty 1 _ rfl rfl
  cases nothing rfl nofun
  have equal := same.2 (.inr (.inr (.inr ⟨_, rfl, rfl⟩)))
  exact ⟨_, _, _, target, decoded, rfl, rfl, rfl, number, found, equal, effect⟩

/-- A constant is pushed, dropped by the next instruction, and a branch goes back to that one. -/
theorem strict_edge_depth_differs :
    ∃ insts program source target,
      Decoder.decode (fun _ => none) { strict := true }
        [0, 0, 0, 0, 0, 1, 0, 38, 0, 0, 6, 0xff, 0xff, 0xff, 0xfe] 0 = .ok insts ∧
      (∀ inst ∈ insts, inst.before ≠ .unknown ∧ inst.after ≠ .unknown) ∧ resolve {} insts = .ok program ∧
      program.edges[2]? = some [⟨.jump, 6⟩] ∧ program.indexAt 6 = some 1 ∧ insts[2]? = some source ∧
      insts[1]? = some target ∧ source.after = .known 0 0 ∧ target.before = .known 1 0 := by
  have decoded : Decoder.decode (fun _ => none) { strict := true }
      [0, 0, 0, 0, 0, 1, 0, 38, 0, 0, 6, 0xff, 0xff, 0xff, 0xfe] 0 = .ok _ :=
    Decoder.decode_of_within 3 (by decide) rfl rfl
  refine ⟨_, _, _, _, decoded, ?_, rfl, rfl, rfl, rfl, rfl, rfl, rfl⟩
  rw [List.forall_mem_cons, List.forall_mem_cons, List.forall_mem_singleton]
  exact ⟨⟨nofun, nofun⟩, ⟨nofun, nofun⟩, nofun, nofun⟩

end ClientScript
