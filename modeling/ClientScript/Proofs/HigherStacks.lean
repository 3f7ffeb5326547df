import ClientScript.Proofs.HandlerSetters

/-!
Higher stacks. An instruction that ends no block sees no more of the stacks than what it pops. So instructions that get
along with the values on the stacks get along with any other values below them, do the same to the upper ones, and leave
the lower ones where they are.
-/

namespace ClientScript

open OpcodeTable

namespace Frame

variable {kind : Kind} {value : Value} {values : List Value} {kinds : List Kind} {frame rest next : Frame}

theorem pop_atop (popped : frame.pop kind = .ok (value, rest)) (under : Frame) :
    (frame.atop under).pop kind = .ok (value, rest.atop under) := by
  rw [pop_eq_ok_iff] at popped ⊢
  subst popped
  cases kind <;> rfl

theorem popKinds_atop (popped : frame.popKinds kinds = .ok (values, rest)) (under : Frame) :
    (frame.atop under).popKinds kinds = .ok (values, rest.atop under) := by
  induction kinds generalizing values rest with
  | nil =>
    cases popped
    rfl
  | cons kind above ih =>
    rw [popKinds_cons, bind_eq_ok_iff] at popped
    obtain ⟨tops, first, later⟩ := popped
    obtain ⟨last, second, result⟩ := bind_eq_ok_iff.1 later
    cases result
    rw [popKinds_cons, ih first]
    simp only [bind, Except.bind, pop_atop second]

theorem pushAll_atop (values : List Value) (frame under : Frame) :
    (frame.atop under).pushAll values = (frame.pushAll values).atop under := by
  simp only [pushAll_eq, atop, List.append_assoc]

theorem Asks.atop (asks : frame.Asks kinds) (under : Frame) : (frame.atop under).Asks kinds := by
  cases asks with
  | plain described split => exact .plain (by rw [Frame.atop, described]; rfl) split
  | counted described split number natural =>
    exact .counted (by rw [Frame.atop, described]; rfl) split (by rw [Frame.atop, number]; rfl) natural

theorem hookArgs_atop (known : frame.hookArgs = .ok (some next)) (under : Frame) :
    (frame.atop under).hookArgs = .ok (some (next.atop under)) := by
  obtain ⟨kinds, asks⟩ := exists_asks known
  rw [asks.hookArgs_eq, map_eq_ok_iff] at known
  obtain ⟨⟨values, rest⟩, popped, same⟩ := known
  cases same
  rw [(asks.atop under).hookArgs_eq, popKinds_atop popped]
  rfl

theorem hook_atop {referent : Referent} (known : frame.hook referent = .ok (some next)) (under : Frame) :
    (frame.atop under).hook referent = .ok (some (next.atop under)) := by
  unfold hook at known ⊢
  split at known
  next passed =>
    split at known
    next => cases known
    next component rest popped =>
      rw [if_pos passed, pop_atop popped]
      exact hookArgs_atop known under
  next selected =>
    rw [if_neg selected]
    exact hookArgs_atop known under

theorem enum_atop (known : frame.enum = .ok (some next)) (under : Frame) :
    (frame.atop under).enum = .ok (some (next.atop under)) := by
  unfold enum at known ⊢
  split at known
  next => cases known
  next values rest popped =>
    rw [popKinds_atop popped]
    dsimp only
    split at known
    next => cases known
    next type constant =>
      cases known
      rw [push_eq, push_eq, pushAll_atop]

end Frame

namespace Instruction

variable {callee : Option Signature} {inst : Instruction} {frame next : Frame} {pops pushes : List Kind}

theorem Exchanges.apply_atop (exchanges : inst.Exchanges callee pops pushes) (lists : inst.desc.ListsResults)
    (known : frame.apply callee inst = .ok (some next)) (under : Frame) :
    (frame.atop under).apply callee inst = .ok (some (next.atop under)) := by
  obtain ⟨results, -, applies⟩ := exchanges.exists_results lists
  rw [applies, bind_eq_ok_iff] at known
  obtain ⟨⟨args, rest⟩, popped, pushed⟩ := known
  cases pushed
  rw [applies, Frame.popKinds_atop popped, ← Frame.pushAll_atop]
  rfl

theorem exists_count_of_join (lists : inst.desc.ListsResults) (rule : inst.desc.stack.rule = .operandCount)
    (known : frame.apply callee inst = .ok (some next)) : ∃ count : Nat, inst.operand.toInt.toInt = count := by
  obtain ⟨popped, -⟩ := lists.join rule
  by_cases negative : inst.operand.toInt < 0
  · simp [Frame.apply, rule, popped, negative] at known
  · rw [Int32.not_lt, Int32.le_iff_toInt_le] at negative
    exact ⟨_, (Int.toNat_of_nonneg negative).symm⟩

/-- Where the effect of an instruction can be told, it does the same to the tops of higher stacks, unless it empties
them. -/
theorem apply_atop (lists : inst.desc.ListsResults) (keeps : inst.desc.stack.rule ≠ .popAll)
    (known : frame.apply callee inst = .ok (some next)) (under : Frame) :
    (frame.atop under).apply callee inst = .ok (some (next.atop under)) := by
  cases rule : inst.desc.stack.rule with
  | fixed => exact (Exchanges.fixed rule).apply_atop lists known under
  | operandCount =>
    obtain ⟨count, number⟩ := exists_count_of_join lists rule known
    exact (Exchanges.join rule number).apply_atop lists known under
  | call =>
    cases signed : callee with
    | none => simp [Frame.apply, rule, signed] at known
    | some signature => exact signed ▸ (Exchanges.call rule signed).apply_atop lists known under
  | popAll => exact absurd rule keeps
  | hook =>
    simp only [Frame.apply, rule] at known ⊢
    exact Frame.hook_atop known under
  | enum =>
    simp only [Frame.apply, rule] at known ⊢
    exact Frame.enum_atop known under
  | unknown => simp [Frame.apply, rule] at known

end Instruction

theorem Registry.terminates_of_popAll (op : Opcode) (empties : (standard.lookup op).stack.rule = .popAll) :
    (standard.lookup op).flow.terminates = true := by
  have rows : ∀ row ∈ standard.rows, row.stack.rule = .popAll → row.flow.terminates = true := by decide +kernel
  have unknown (other : Opcode) (rule : (Descriptor.opaqueOf other).stack.rule = .popAll) :
      (Descriptor.opaqueOf other).flow.terminates = true := by
    rcases Descriptor.stack_opaqueOf other with unknown | ⟨row, member, -, observed⟩
    · rw [unknown] at rule
      cases rule
    · rw [observed, (observed_plain row member).1] at rule
      cases rule
  exact lookup_of_rows rows unknown op empties

structure Instruction.IsInside (inst : Instruction) : Prop where
  described : inst.desc = Registry.standard.lookup inst.op
  goesOn : inst.terminates = false

namespace StackState

theorem step_atop {strict : Bool} {callee : Option Signature} {inst : Instruction} {frame next : Frame}
    (inside : inst.IsInside) (moved : step strict callee inst (some frame) = .ok (some next)) (under : Frame) :
    step strict callee inst (some (frame.atop under)) = .ok (some (next.atop under)) := by
  rw [step_eq_ok_some_iff inside.goesOn] at moved ⊢
  refine Instruction.apply_atop ?_ (fun empties => ?_) moved under
  · rw [inside.described]
    exact Registry.listsResults_standard inst.op
  · have ends := inside.goesOn
    rw [inside.described] at empties
    rw [Instruction.terminates, inside.described, Registry.terminates_of_popAll inst.op empties] at ends
    cases ends

def raised (under : Frame) (state : StackState) : StackState := state.map (·.atop under)

end StackState

def Depth.raised (under : Frame) : Depth → Depth
  | .unknown => .unknown
  | .known ints strings => .known (ints + under.ints.length) (strings + under.strings.length)

theorem StackState.depth_raised (under : Frame) (state : StackState) :
    (state.raised under).depth = state.depth.raised under := by
  cases state <;> simp [raised, depth, Depth.raised, Frame.atop]

namespace Instruction

def raised (under : Frame) (inst : Instruction) : Instruction :=
  { inst with
    before := inst.before.raised under
    after := inst.after.raised under
    stack := inst.stack.raised under }

theorem raised_traced (under : Frame) (inst : Instruction) (before after : StackState) :
    (inst.traced before after).raised under = inst.traced (before.raised under) (after.raised under) := by
  simp only [raised, traced, StackState.depth_raised]

end Instruction

theorem stackBefore_raised (under : Frame) (state : StackState) (insts : List Instruction) (place : Nat) :
    stackBefore (state.raised under) (insts.map (·.raised under)) place =
      (stackBefore state insts place).raised under := by
  cases place with
  | zero => rfl
  | succ place =>
    simp only [stackBefore, List.getElem?_map]
    cases insts[place]? <;> rfl

namespace Traced

variable {callee : Int32 → Option Signature} {strict : Bool} {frame : Frame} {cut insts : List Instruction}

theorem raised (traced : Traced callee strict (some frame) cut insts) (inside : ∀ inst ∈ cut, inst.IsInside)
    (known : ∀ inst ∈ insts, inst.after ≠ .unknown) (under : Frame) :
    Traced callee strict (some (frame.atop under)) cut (insts.map (·.raised under)) := by
  generalize start : (some frame : StackState) = state at traced
  induction traced generalizing frame with
  | done => exact .done _
  | @step state next inst rest insts moved later ih =>
    subst start
    rw [List.forall_mem_cons] at inside known
    cases next with
    | none => exact absurd rfl known.1
    | some next =>
      rw [List.map_cons, Instruction.raised_traced]
      exact .step (StackState.step_atop inside.1 moved under) (ih inside.2 known.2 rfl)

theorem exists_stackBefore (traced : Traced callee strict (some frame) cut insts)
    (known : ∀ inst ∈ insts, inst.after ≠ .unknown) {place : Nat} (bound : place ≤ insts.length) :
    ∃ middle, stackBefore (some frame) insts place = some middle := by
  cases place with
  | zero => exact ⟨frame, rfl⟩
  | succ place =>
    have found : insts[place]? = some insts[place] := List.getElem?_eq_getElem bound
    have depth := known insts[place] (List.getElem_mem bound)
    rw [traced.after_eq found, Ne, StackState.depth_eq_unknown_iff] at depth
    rw [stackBefore, found]
    exact Option.ne_none_iff_exists'.1 depth

end Traced

/-- Instructions inside a block under which the stacks stay known do the same on higher stacks: each of them keeps its
own values above the lower ones, and the lower ones are left at the end. -/
theorem trace_atop (callee : Int32 → Option Signature) (strict : Bool) (insts traced : List Instruction)
    (frame under : Frame) (inside : ∀ inst ∈ insts, inst.IsInside)
    (found : trace callee strict (some frame) insts = .ok traced) (known : ∀ inst ∈ traced, inst.after ≠ .unknown) :
    trace callee strict (some (frame.atop under)) insts = .ok (traced.map (·.raised under)) ∧
      ∀ place ≤ traced.length, ∃ middle, stackBefore (some frame) traced place = some middle ∧
        stackBefore (some (frame.atop under)) (traced.map (·.raised under)) place = some (middle.atop under) := by
  have steps := (trace_eq_ok_iff callee strict (some frame) insts traced).1 found
  refine ⟨(trace_eq_ok_iff _ _ _ _ _).2 (steps.raised inside known under), fun place bound => ?_⟩
  obtain ⟨middle, before⟩ := steps.exists_stackBefore known bound
  refine ⟨middle, before, ?_⟩
  have higher := stackBefore_raised under (some frame) traced place
  rw [before] at higher
  exact higher

/-- A handler without arguments is set, two strings are joined, and script 9 is called. -/
def setJoinCall : List Instruction :=
  [⟨0, 0, Registry.standard.lookup ⟨3⟩, .text "", 3, .unknown, .unknown, none⟩,
   ⟨3, 1, Registry.standard.lookup ⟨1400⟩, .byte 0, 3, .unknown, .unknown, none⟩,
   ⟨6, 2, Registry.standard.lookup ⟨37⟩, .int 2, 6, .unknown, .unknown, none⟩,
   ⟨12, 3, Registry.standard.lookup ⟨40⟩, .int 9, 6, .unknown, .unknown, none⟩]

/-- The script of the handler and both strings are on the stacks, and with them values that nothing touches. -/
theorem trace_atop_call :
    ∃ traced last,
      trace (fun id => if id = 9 then some ⟨0, 1, [.string, .int]⟩ else none) true
        (some ⟨[.int (some 500), .int (some 7)], [.string none, .string none, .string (some "below")]⟩) setJoinCall =
        .ok traced ∧
      traced.getLast? = some last ∧
      last.stack = some ⟨[.int none, .int (some 7)], [.string none, .string (some "below")]⟩ := by
  have found := (trace_eq_ok_iff (fun id => if id = 9 then some ⟨0, 1, [.string, .int]⟩ else none) true
    (some ⟨[.int (some 500)], [.string none, .string none]⟩) setJoinCall _).2
    (.step rfl (.step rfl (.step rfl (.step rfl (.done _)))))
  have inside : ∀ inst ∈ setJoinCall, inst.desc = Registry.standard.lookup inst.op ∧ inst.terminates = false := by
    decide +kernel
  obtain ⟨higher, -⟩ := trace_atop _ true setJoinCall _ _ ⟨[.int (some 7)], [.string (some "below")]⟩
    (fun inst member => ⟨(inside inst member).1, (inside inst member).2⟩) found (by decide +kernel)
  exact ⟨_, _, higher, rfl, rfl⟩

end ClientScript
