import ClientScript.Proofs.Classification
import ClientScript.Proofs.DepthArithmetic
import ClientScript.Script.Analysis

/-!
The results that a script declares. They are read backwards off the constants that are pushed right before the last
instruction, and the stacks are followed forwards. Where the stacks are known both agree: what is declared lies on top
of the stacks, with the operands of the pushes as its constants.
-/

namespace ClientScript

def Kind.constantOp : Kind → Opcode
  | .int => .pushConstantInt
  | .string => .pushConstantString

def Kind.constantShape : Kind → Shape
  | .int => .int
  | .string => .string

def Value.ofOperand? : Operand → Option Value
  | .int value => some (.int (some value))
  | .text value => some (.string (some value))
  | _ => none

namespace Instruction

/-- The instruction is a push of the constant that its operand stands for. -/
structure Declares (inst : Instruction) (value : Value) : Prop where
  op : inst.op = value.kind.constantOp
  operand : Value.ofOperand? inst.operand = some value

theorem constantKind_eq_some_iff (inst : Instruction) (kind : Kind) :
    inst.constantKind? = some kind ↔ inst.op = kind.constantOp := by
  unfold constantKind?
  split
  next number =>
    rw [number]
    cases kind <;> decide
  next notNumber =>
    split
    next text =>
      rw [text]
      cases kind <;> decide
    next notText =>
      cases kind with
      | int => simpa [Kind.constantOp] using notNumber
      | string => simpa [Kind.constantOp] using notText

theorem exists_declares {decoder : Decoder} {inst : Instruction} {kind : Kind} {raw : List UInt8}
    (isPush : inst.op = kind.constantOp) (shape : inst.desc.shape = kind.constantShape)
    (stored : decoder.Stores inst.desc inst.operand raw) :
    ∃ value, inst.Declares value ∧ ∀ args, inst.results args = [value] := by
  rw [Decoder.Stores, shape] at stored
  cases kind with
  | int =>
    have number : inst.op = .pushConstantInt := isPush
    obtain ⟨value, operand, -⟩ := stored
    refine ⟨.int (some value), ⟨isPush, by rw [operand]; rfl⟩, fun args => ?_⟩
    rw [results, if_pos number, operand]
    rfl
  | string =>
    have text : inst.op = .pushConstantString := isPush
    obtain ⟨value, operand, -⟩ := stored
    refine ⟨.string (some value), ⟨isPush, by rw [operand]; rfl⟩, fun args => ?_⟩
    rw [results, text, if_neg (by decide), if_pos rfl, operand]
    rfl

end Instruction

theorem Registry.constant_cases {registry : Registry} (known : registry = .standard ∨ registry = .empty) (kind : Kind) :
    (registry.lookup kind.constantOp).flow.terminates = false ∧
      ((registry.lookup kind.constantOp).stack.rule = .unknown ∨
        (registry.lookup kind.constantOp).stack.rule = .fixed ∧ (registry.lookup kind.constantOp).stack.pops = [] ∧
          (registry.lookup kind.constantOp).shape = kind.constantShape) := by
  rcases known with rfl | rfl <;> cases kind <;> decide +kernel

theorem exists_push_of_follow {decoder : Decoder} (known : decoder.registry = .standard ∨ decoder.registry = .empty)
    {inst : Instruction} {raw : List UInt8} (described : inst.desc = decoder.registry.lookup inst.op)
    (stored : decoder.Stores inst.desc inst.operand raw) {kind : Kind} (pushes : inst.constantKind? = some kind)
    {callee : Option Signature} {state : StackState} {next : Frame} (follows : state.follow callee inst = some next) :
    ∃ frame value, state = some frame ∧ inst.Declares value ∧ next = frame.push value := by
  have op := (inst.constantKind_eq_some_iff kind).1 pushes
  obtain ⟨plain, effect⟩ := Registry.constant_cases known kind
  rw [← op, ← described] at plain effect
  rw [StackState.follow, Instruction.terminates, plain, if_neg Bool.false_ne_true] at follows
  obtain ⟨frame, rfl, applied⟩ := Option.bind_eq_some_iff.1 follows
  rcases effect with unknown | ⟨fixed, pops, shape⟩
  · simp [Frame.apply, unknown, Except.toOption] at applied
  · obtain ⟨value, declares, results⟩ := Instruction.exists_declares op shape stored
    refine ⟨frame, value, rfl, declares, ?_⟩
    simp only [Frame.apply, fixed, pops, Frame.popKinds, Except.toOption, Option.join_some, Option.some.injEq,
      inst.pushResults_eq, results] at applied
    exact applied.symm

theorem exists_pushAll_of_run {decoder : Decoder} (known : decoder.registry = .standard ∨ decoder.registry = .empty)
    {callee : Int32 → Option Signature} {code : List UInt8} {start : Int} {insts : List Instruction}
    (decoded : decoder.decode callee code start = .ok insts) {front pushes : List Instruction} (back : List Instruction)
    (parts : insts = front ++ pushes ++ back) (constants : ∀ inst ∈ pushes, inst.constantKind?.isSome) {frame : Frame}
    (before : stackBefore (some {}) insts (front.length + pushes.length) = some frame) :
    ∃ base values, stackBefore (some {}) insts front.length = some base ∧
      List.Forall₂ Instruction.Declares pushes values ∧ frame = base.pushAll values := by
  obtain ⟨-, -, cut, -, traced⟩ := (decoder.decode_eq_ok_iff callee code start insts).1 decoded
  induction pushes using List.reverseRecOn generalizing back frame with
  | nil => exact ⟨frame, [], before, .nil, rfl⟩
  | append_singleton pushes last ih =>
    have found : insts[front.length + pushes.length]? = some last := by simp [parts]
    obtain ⟨source, -, -, moved⟩ := traced.of_getElem found
    have left : last.stack = some frame := by
      rw [List.length_append, List.length_singleton, ← Nat.add_assoc, stackBefore, found] at before
      exact before
    have follows := StackState.eq_follow_of_step moved
    rw [left] at follows
    obtain ⟨-, described, stored⟩ := Decoder.stores_of_decode decoded last (List.mem_of_getElem? found)
    obtain ⟨kind, pushed⟩ := Option.isSome_iff_exists.1 (constants last (by simp))
    obtain ⟨middle, value, known', declares, rfl⟩ := exists_push_of_follow known described stored pushed follows.symm
    obtain ⟨base, values, start, earlier, rfl⟩ := ih (last :: back) (by simp [parts])
      (fun inst member => constants inst (List.mem_append_left _ member)) known'
    refine ⟨base, values ++ [value], start, List.rel_append earlier (.cons declares .nil), ?_⟩
    rw [Frame.pushAll, Frame.pushAll, List.foldl_append]
    rfl

/-- What is scanned backwards: the constants between the last instruction and the last one of another kind. -/
theorem exists_run_of_returnTypes {insts : List Instruction} {last : Instruction} (ends : insts.getLast? = some last) :
    ∃ front pushes, insts = front ++ pushes ++ [last] ∧
      pushes.map Instruction.constantKind? = (returnTypes insts).map some ∧
      ∀ inst ∈ front.getLast?, inst.constantKind? = none := by
  have constant : ∀ kind ∈ (insts.dropLast.reverse.map Instruction.constantKind?).takeWhile Option.isSome,
      (id kind).map some = some kind := by
    intro kind member
    obtain ⟨value, rfl⟩ := Option.isSome_iff_exists.1 (List.mem_takeWhile_imp member)
    rfl
  refine ⟨(insts.dropLast.reverse.dropWhile fun inst => inst.constantKind?.isSome).reverse,
    (insts.dropLast.reverse.takeWhile fun inst => inst.constantKind?.isSome).reverse, ?_, ?_, ?_⟩
  · rw [← List.reverse_append, List.takeWhile_append_dropWhile, List.reverse_reverse]
    exact (List.dropLast_append_getLast? last ends).symm
  · rw [returnTypes, List.map_reverse, List.map_reverse, List.map_filterMap]
    rw [List.filterMap_congr constant, List.filterMap_some, List.takeWhile_map]
    rfl
  · intro inst member
    rw [List.getLast?_reverse] at member
    have stops := List.head?_dropWhile_not (fun inst : Instruction => inst.constantKind?.isSome) insts.dropLast.reverse
    rw [member] at stops
    simpa using stops

theorem map_filter_of_declares {pushes : List Instruction} {values : List Value}
    (declared : List.Forall₂ Instruction.Declares pushes values) (kind : Kind) :
    (values.filter fun value => value.kind = kind).map some =
      (pushes.filter fun inst => inst.op = kind.constantOp).map fun inst => Value.ofOperand? inst.operand := by
  have apart : ∀ one other : Kind, one.constantOp = other.constantOp ↔ one = other := by
    intro one other
    cases one <;> cases other <;> decide
  induction declared with
  | nil => rfl
  | @cons inst value _ _ first _ ih =>
    by_cases same : value.kind = kind
    · simp [first.op, first.operand, same, ih]
    · simp [first.op, apart, same, ih]

theorem map_kind_of_declares {pushes : List Instruction} {values : List Value}
    (declared : List.Forall₂ Instruction.Declares pushes values) :
    pushes.map Instruction.constantKind? = (values.map Value.kind).map some := by
  induction declared with
  | nil => rfl
  | @cons inst value _ _ first _ ih =>
    rw [List.map_cons, List.map_cons, List.map_cons, (inst.constantKind_eq_some_iff value.kind).2 first.op, ih]

/-- The declared results lie on top of the stacks before the last instruction, if these are known: so many of each kind
as are declared, and in order of the code they are the operands of the pushes between the last instruction and the last
one before it that pushes no constant. -/
theorem returnTypes_on_top {decoder : Decoder} (known : decoder.registry = .standard ∨ decoder.registry = .empty)
    {callee : Int32 → Option Signature} {code : List UInt8} {start : Int} {insts : List Instruction}
    (decoded : decoder.decode callee code start = .ok insts) {last : Instruction} (ends : insts.getLast? = some last)
    {ints strings : Nat} (depth : last.before = .known ints strings) :
    ∃ front pushes frame, insts = front ++ pushes ++ [last] ∧
      pushes.map Instruction.constantKind? = (returnTypes insts).map some ∧
      (∀ inst ∈ front.getLast?, inst.constantKind? = none) ∧
      stackBefore (some {}) insts (insts.length - 1) = some frame ∧
      frame.ints.length = ints ∧ frame.strings.length = strings ∧
      countKind .int (returnTypes insts) ≤ ints ∧ countKind .string (returnTypes insts) ≤ strings ∧
      (frame.ints.take (countKind .int (returnTypes insts))).reverse.map some =
        (pushes.filter fun inst => inst.op = .pushConstantInt).map (fun inst => Value.ofOperand? inst.operand) ∧
      (frame.strings.take (countKind .string (returnTypes insts))).reverse.map some =
        (pushes.filter fun inst => inst.op = .pushConstantString).map (fun inst => Value.ofOperand? inst.operand) := by
  obtain ⟨-, -, cut, -, traced⟩ := (decoder.decode_eq_ok_iff callee code start insts).1 decoded
  obtain ⟨front, pushes, parts, kinds, stops⟩ := exists_run_of_returnTypes ends
  have place : insts.length - 1 = front.length + pushes.length := by
    rw [parts, List.length_append, List.length_append, List.length_singleton, Nat.add_sub_cancel]
  have found : insts[insts.length - 1]? = some last := by rw [← List.getLast?_eq_getElem?, ends]
  have height := traced.before_eq found
  rw [depth] at height
  cases state : stackBefore (some {}) insts (insts.length - 1) with
  | none =>
    rw [state] at height
    cases height
  | some frame =>
    rw [state] at height
    cases height
    have constants : ∀ inst ∈ pushes, inst.constantKind?.isSome := by
      intro inst member
      have listed := List.mem_map_of_mem (f := Instruction.constantKind?) member
      rw [kinds] at listed
      obtain ⟨kind, -, pushed⟩ := List.mem_map.1 listed
      rw [← pushed]
      rfl
    obtain ⟨base, values, -, declared, rfl⟩ :=
      exists_pushAll_of_run known decoded [last] parts constants (place ▸ state)
    have types : returnTypes insts = values.map Value.kind := by
      apply List.map_injective_iff.2 (Option.some_injective Kind)
      rw [← kinds, map_kind_of_declares declared]
    refine ⟨front, pushes, base.pushAll values, parts, kinds, stops, rfl, rfl, rfl, ?_⟩
    rw [types, ← Frame.length_filter_kind, ← Frame.length_filter_kind, Frame.pushAll_eq]
    dsimp only
    refine ⟨by simp, by simp, ?_, ?_⟩
    · rw [List.take_left' (by simp), List.reverse_reverse]
      exact map_filter_of_declares declared .int
    · rw [List.take_left' (by simp), List.reverse_reverse]
      exact map_filter_of_declares declared .string

/-- Three constants of both kinds over one that an addition left, which is not declared. -/
theorem returnTypes_on_top_mixed :
    ∃ (insts : List Instruction) (last : Instruction) (front pushes : List Instruction) (frame : Frame),
      Decoder.decode (fun _ => none) {}
        [0, 0, 0, 0, 0, 5, 0, 0, 0, 0, 0, 6, 0x0f, 0xa0, 0,
          0, 0, 0, 0, 0, 1, 0, 3, 97, 0, 0, 0, 0, 0, 0, 2, 0, 21, 0] 0 = .ok insts ∧
      insts.getLast? = some last ∧ last.before = .known 3 1 ∧ returnTypes insts = [.int, .string, .int] ∧
      insts = front ++ pushes ++ [last] ∧ pushes.length = 3 ∧
      frame = ⟨[.int (some 2), .int (some 1), .int (some 11)], [.string (some "a")]⟩ ∧
      (frame.ints.take 2).reverse.map some =
        (pushes.filter fun inst => inst.op = .pushConstantInt).map fun inst => Value.ofOperand? inst.operand := by
  have decoded : Decoder.decode (fun _ => none) {} [0, 0, 0, 0, 0, 5, 0, 0, 0, 0, 0, 6, 0x0f, 0xa0, 0,
      0, 0, 0, 0, 0, 1, 0, 3, 97, 0, 0, 0, 0, 0, 0, 2, 0, 21, 0] 0 = .ok _ :=
    Decoder.decode_of_within 7 (by decide) rfl rfl
  obtain ⟨front, pushes, frame, parts, kinds, -, state, -, -, -, -, numbers, -⟩ :=
    returnTypes_on_top (.inl rfl) decoded rfl rfl
  have length := congrArg List.length kinds
  rw [List.length_map] at length
  exact ⟨_, _, front, pushes, frame, decoded, rfl, rfl, rfl, parts, length, (Option.some.inj state).symm, numbers⟩

end ClientScript
