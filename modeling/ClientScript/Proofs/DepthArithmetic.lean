import ClientScript.Proofs.WidgetFamilies

/-!
Exact depths. An instruction that pops and pushes a number of values known beforehand succeeds exactly if both stacks
are high enough for what it pops, whatever order it pops in. It then leaves what lies below untouched and as many
values on top as it pushes. On lower stacks a strict step fails, and a lenient one forgets the stacks.
-/

namespace ClientScript

open OpcodeTable

namespace Frame

variable {kinds : List Kind} {frame : Frame}

def Bears (kinds : List Kind) (frame : Frame) : Prop :=
  countKind .int kinds ≤ frame.ints.length ∧ countKind .string kinds ≤ frame.strings.length

def below (kinds : List Kind) (frame : Frame) : Frame where
  ints := frame.ints.drop (countKind .int kinds)
  strings := frame.strings.drop (countKind .string kinds)

theorem bears_cons (kind : Kind) (above : List Kind) (frame : Frame) :
    frame.Bears (kind :: above) ↔ frame.Bears above ∧ (frame.below above).Bears [kind] := by
  cases kind <;> simp [Bears, below, countKind] <;> omega

theorem below_cons (kind : Kind) (above : List Kind) (frame : Frame) :
    frame.below (kind :: above) = (frame.below above).below [kind] := by
  cases kind <;> simp [below, countKind, List.drop_drop]

theorem pop_of_bears {kind : Kind} (bears : frame.Bears [kind]) :
    ∃ value, frame.pop kind = .ok (value, frame.below [kind]) := by
  obtain ⟨ints, strings⟩ := frame
  cases kind with
  | int =>
    cases ints with
    | nil => simp [Bears, countKind] at bears
    | cons top rest => exact ⟨top, rfl⟩
  | string =>
    cases strings with
    | nil => simp [Bears, countKind] at bears
    | cons top rest => exact ⟨top, rfl⟩

theorem pop_of_not_bears {kind : Kind} (short : ¬frame.Bears [kind]) :
    frame.pop kind = .error (.underflow kind) := by
  obtain ⟨ints, strings⟩ := frame
  cases kind with
  | int =>
    cases ints with
    | nil => rfl
    | cons top rest => simp [Bears, countKind] at short
  | string =>
    cases strings with
    | nil => rfl
    | cons top rest => simp [Bears, countKind] at short

/-- Where there are enough values of both kinds, listed values are popped whatever their order is. -/
theorem popKinds_of_bears (bears : frame.Bears kinds) :
    ∃ values, frame.popKinds kinds = .ok (values, frame.below kinds) := by
  induction kinds with
  | nil => exact ⟨[], rfl⟩
  | cons kind above ih =>
    obtain ⟨enough, one⟩ := (bears_cons kind above frame).1 bears
    obtain ⟨values, popped⟩ := ih enough
    obtain ⟨value, last⟩ := pop_of_bears one
    refine ⟨value :: values, ?_⟩
    rw [popKinds_cons, popped, below_cons]
    simp only [bind, Except.bind, last]

theorem popKinds_of_not_bears (short : ¬frame.Bears kinds) :
    ∃ kind, frame.popKinds kinds = .error (.underflow kind) := by
  induction kinds with
  | nil => exact absurd ⟨Nat.zero_le _, Nat.zero_le _⟩ short
  | cons kind above ih =>
    rw [popKinds_cons]
    by_cases enough : frame.Bears above
    · -- The upper values are there, so the last one to be popped is missing.
      obtain ⟨values, popped⟩ := popKinds_of_bears enough
      have one : ¬(frame.below above).Bears [kind] :=
        fun bears => short ((bears_cons kind above frame).2 ⟨enough, bears⟩)
      refine ⟨kind, ?_⟩
      simp only [popped, bind, Except.bind, pop_of_not_bears one]
    · obtain ⟨missing, failed⟩ := ih enough
      exact ⟨missing, by rw [failed]; rfl⟩

theorem popMany_eq (kind : Kind) (count : Nat) (frame : Frame) :
    frame.popMany kind count = (frame.popKinds (List.replicate count kind)).map Prod.snd := by
  induction count generalizing frame with
  | zero => rfl
  | succ count ih =>
    rw [popMany_succ, List.replicate_succ', popKinds_append, popKinds_cons]
    simp only [popKinds, bind, Except.bind]
    cases frame.pop kind with
    | error error => rfl
    | ok popped =>
      dsimp only
      rw [ih]
      cases popped.2.popKinds (List.replicate count kind) <;> rfl

theorem call_eq (signature : Signature) (frame : Frame) :
    frame.call signature =
      frame.popKinds (List.replicate signature.intArgs .int ++ List.replicate signature.stringArgs .string) >>=
        fun popped => .ok (popped.2.pushAll (signature.returns.map Value.ofKind)) := by
  rw [popKinds_append, call]
  simp only [popMany_eq, bind, Except.bind, pushKinds_eq]
  cases frame.popKinds (List.replicate signature.stringArgs .string) with
  | error error => rfl
  | ok strings =>
    simp only [Except.map]
    cases strings.2.popKinds (List.replicate signature.intArgs .int) <;> rfl

theorem pushAll_eq (values : List Value) (frame : Frame) :
    frame.pushAll values =
      ⟨(values.filter fun value => value.kind = .int).reverse ++ frame.ints,
        (values.filter fun value => value.kind = .string).reverse ++ frame.strings⟩ := by
  induction values generalizing frame with
  | nil => rfl
  | cons value more ih =>
    change (frame.push value).pushAll more = _
    rw [ih]
    cases value <;> simp [push, Value.kind]

theorem length_filter_kind (kind : Kind) (values : List Value) :
    (values.filter fun value => value.kind = kind).length = countKind kind (values.map Value.kind) := by
  rw [countKind, List.countP_map, List.countP_eq_length_filter]
  rfl

end Frame

namespace Opcode

def folded : List Opcode := [add, sub, multiply, div, mod, and, or]

end Opcode

theorem mem_folded_of_fold {op : Opcode} {left right constant : Int32} (folds : fold? op left right = some constant) :
    op ∈ Opcode.folded := by
  by_contra other
  simp only [Opcode.folded, List.mem_cons, List.not_mem_nil, or_false, not_or] at other
  simp [fold?, other] at folds

theorem Frame.mem_folded_of_foldArgs {op : Opcode} {args : List Value} {constant : Int32}
    (folds : foldArgs? op args = some constant) : op ∈ Opcode.folded := by
  unfold foldArgs? at folds
  split at folds
  · exact mem_folded_of_fold folds
  · cases folds

namespace Instruction

def results (inst : Instruction) (args : List Value) : List Value :=
  if inst.op = .pushConstantInt then [.int (some inst.operand.toInt)]
  else if inst.op = .pushConstantString then [.string (some inst.operand.toText)]
  else match Frame.foldArgs? inst.op args with
    | some constant => [.int (some constant)]
    | none => inst.desc.stack.pushes.map Value.ofKind

theorem pushResults_eq (inst : Instruction) (args : List Value) (frame : Frame) :
    frame.pushResults inst args = frame.pushAll (inst.results args) := by
  unfold Frame.pushResults results
  split
  · rfl
  · split
    · rfl
    · cases Frame.foldArgs? inst.op args with
      | some constant => rfl
      | none => exact Frame.pushKinds_eq _ _

end Instruction

structure Opcode.IsPlain (op : Opcode) : Prop where
  notNumber : op ≠ .pushConstantInt
  notText : op ≠ .pushConstantString
  notFolded : op ∉ folded

theorem Opcode.isPlain_of_between {op : Opcode} (above : 1000 ≤ op.code) (below : op.code < 3000) : op.IsPlain := by
  have apart (code : Int) (outside : code < 1000 ∨ 3000 ≤ code) : op ≠ ⟨code⟩ := by
    intro same
    rw [same] at above below
    dsimp only at above below
    omega
  refine ⟨apart 0 (by omega), apart 3 (by omega), ?_⟩
  simp [folded, add, sub, multiply, div, mod, and, or, apart]

structure Descriptor.ListsResults (desc : Descriptor) : Prop where
  number : desc.stack.rule = .fixed → desc.op = .pushConstantInt ∨ desc.op ∈ Opcode.folded →
    desc.stack.pushes = [.int]
  text : desc.stack.rule = .fixed → desc.op = .pushConstantString → desc.stack.pushes = [.string]
  join : desc.stack.rule = .operandCount → desc.stack.pops = [.string] ∧ desc.stack.pushes = [.string]

namespace OpcodeTable

theorem observed_plain : ∀ row ∈ observedEffects, row.2.rule = .fixed ∧ (⟨row.1⟩ : Opcode) ≠ .pushConstantInt ∧
    (⟨row.1⟩ : Opcode) ≠ .pushConstantString ∧ (⟨row.1⟩ : Opcode) ∉ Opcode.folded := by
  decide +kernel

theorem core_results : ∀ row ∈ coreRows,
    (row.stack.rule = .fixed → (⟨row.code⟩ : Opcode) = .pushConstantInt ∨ (⟨row.code⟩ : Opcode) ∈ Opcode.folded →
      row.stack.pushes = [.int]) ∧
    (row.stack.rule = .fixed → (⟨row.code⟩ : Opcode) = .pushConstantString → row.stack.pushes = [.string]) ∧
    (row.stack.rule = .operandCount → row.stack.pops = [.string] ∧ row.stack.pushes = [.string]) := by
  decide

end OpcodeTable

namespace Descriptor

theorem listsResults_of_isPlain {desc : Descriptor} (plain : desc.op.IsPlain)
    (counted : desc.stack.rule ≠ .operandCount) : desc.ListsResults where
  number _ special := special.elim (absurd · plain.notNumber) (absurd · plain.notFolded)
  text _ special := absurd special plain.notText
  join rule := absurd rule counted

theorem stack_opaqueOf (op : Opcode) :
    (opaqueOf op).stack = .unknown ∨ ∃ row ∈ observedEffects, op = ⟨row.1⟩ ∧ (opaqueOf op).stack = row.2 := by
  unfold opaqueOf
  dsimp only
  cases found : observedEffects.find? fun row => (row.1 : Int) = op.code with
  | none => exact .inl rfl
  | some row =>
    have same : (row.1 : Int) = op.code := by simpa using List.find?_some found
    exact .inr ⟨row, List.mem_of_find?_eq_some found, by rw [same], rfl⟩

theorem listsResults_opaqueOf (op : Opcode) : (opaqueOf op).ListsResults := by
  rcases stack_opaqueOf op with unknown | ⟨row, member, rfl, observed⟩
  · constructor <;> simp [unknown, StackEffect.unknown]
  · obtain ⟨fixed, notNumber, notText, notFolded⟩ := observed_plain row member
    exact listsResults_of_isPlain ⟨notNumber, notText, notFolded⟩ (by simp [observed, fixed])

theorem listsResults_ofComponent {row : WidgetRow} (member : row ∈ widgetRows) : (ofComponent row).ListsResults := by
  have plain : (Opcode.component row.offset).IsPlain := by
    have bound := (offset_lt row member).1
    apply Opcode.isPlain_of_between <;> simp only [Opcode.component, componentBase] <;> omega
  unfold ofComponent
  dsimp only
  split
  next => exact listsResults_opaqueOf _
  next known =>
    refine listsResults_of_isPlain plain ?_
    rcases rule_cases row member with rule | rule | rule <;> simp [rule]

theorem listsResults_ofInterface {row : WidgetRow} (member : row ∈ widgetRows) : (ofInterface row).ListsResults := by
  have plain : (Opcode.interface row.offset).IsPlain := by
    have bound := (offset_lt row member).1
    apply Opcode.isPlain_of_between <;> simp only [Opcode.interface, interfaceBase] <;> omega
  unfold ofInterface
  dsimp only
  split
  next => exact listsResults_opaqueOf _
  next rule =>
    refine listsResults_of_isPlain plain ?_
    simp [rule]
  next =>
    refine listsResults_of_isPlain plain ?_
    rcases rule_cases row member with rule | rule | rule <;> simp [rule]

end Descriptor

theorem Registry.listsResults_standard (op : Opcode) : (standard.lookup op).ListsResults := by
  refine lookup_of_rows (fun desc member => ?_) Descriptor.listsResults_opaqueOf op
  rcases (mem_standard_rows desc).1 member with core | selected | passed | pseudo | unnamed
  · obtain ⟨row, listed, rfl⟩ := core
    obtain ⟨number, text, join⟩ := core_results row listed
    exact ⟨number, text, join⟩
  · obtain ⟨row, listed, rfl⟩ := selected
    exact Descriptor.listsResults_ofComponent listed
  · obtain ⟨row, listed, rfl⟩ := passed
    exact Descriptor.listsResults_ofInterface listed
  · rcases pseudo with rfl | rfl <;>
      exact Descriptor.listsResults_of_isPlain ⟨by decide, by decide, by decide⟩ (by decide)
  · obtain ⟨op, -, rfl⟩ := unnamed
    exact Descriptor.listsResults_opaqueOf op

/-- What an instruction pops and pushes, where that does not depend on the values. -/
inductive Instruction.Exchanges (callee : Option Signature) (inst : Instruction) : List Kind → List Kind → Prop where
  | fixed (rule : inst.desc.stack.rule = .fixed) :
      Exchanges callee inst inst.desc.stack.pops inst.desc.stack.pushes
  | join (rule : inst.desc.stack.rule = .operandCount) {count : Nat} (number : inst.operand.toInt.toInt = count) :
      Exchanges callee inst (List.replicate count .string) [.string]
  | call (rule : inst.desc.stack.rule = .call) {signature : Signature} (known : callee = some signature) :
      Exchanges callee inst (List.replicate signature.intArgs .int ++ List.replicate signature.stringArgs .string)
        signature.returns

namespace Instruction

variable {callee : Option Signature} {inst : Instruction} {pops pushes : List Kind}

theorem map_kind_ofKind (kinds : List Kind) : (kinds.map Value.ofKind).map Value.kind = kinds := by
  rw [List.map_map]
  refine (List.map_congr_left fun kind _ => ?_).trans (List.map_id kinds)
  cases kind <;> rfl

theorem kinds_results (lists : inst.desc.ListsResults) (fixed : inst.desc.stack.rule = .fixed) (args : List Value) :
    (inst.results args).map Value.kind = inst.desc.stack.pushes := by
  unfold results
  split
  next number => exact (lists.number fixed (.inl number)).symm
  next =>
    split
    next text => exact (lists.text fixed text).symm
    next =>
      cases folds : Frame.foldArgs? inst.op args with
      | some constant => exact (lists.number fixed (.inr (Frame.mem_folded_of_foldArgs folds))).symm
      | none => exact map_kind_ofKind _

theorem Exchanges.exists_results (exchanges : inst.Exchanges callee pops pushes) (lists : inst.desc.ListsResults) :
    ∃ results : List Value → List Value, (∀ args, (results args).map Value.kind = pushes) ∧
      ∀ frame : Frame, frame.apply callee inst =
        frame.popKinds pops >>= fun popped => .ok (some (popped.2.pushAll (results popped.1))) := by
  cases exchanges with
  | fixed rule =>
    refine ⟨inst.results, inst.kinds_results lists rule, fun frame => ?_⟩
    simp only [Frame.apply, rule, pushResults_eq]
    cases frame.popKinds inst.desc.stack.pops <;> rfl
  | @join rule count number =>
    obtain ⟨pops, pushes⟩ := lists.join rule
    refine ⟨fun _ => [.string none], fun _ => rfl, fun frame => ?_⟩
    simp only [Frame.apply, rule, pops, pushes, number, Frame.popMany_eq, Int.toNat_natCast]
    rw [if_neg (by rw [Int32.lt_iff_toInt_lt, number]; simp)]
    cases frame.popKinds (List.replicate count .string) <;> rfl
  | @call rule signature known =>
    refine ⟨fun _ => signature.returns.map Value.ofKind, fun _ => map_kind_ofKind _, fun frame => ?_⟩
    simp only [Frame.apply, rule, known, Frame.call_eq]
    cases frame.popKinds _ <;> rfl

theorem Exchanges.apply_of_bears (exchanges : inst.Exchanges callee pops pushes) (lists : inst.desc.ListsResults)
    {frame : Frame} (bears : frame.Bears pops) :
    ∃ values : List Value, values.map Value.kind = pushes ∧
      frame.apply callee inst = .ok (some ((frame.below pops).pushAll values)) := by
  obtain ⟨results, kinds, applies⟩ := exchanges.exists_results lists
  obtain ⟨args, popped⟩ := Frame.popKinds_of_bears bears
  refine ⟨results args, kinds args, ?_⟩
  rw [applies, popped]
  rfl

theorem Exchanges.apply_of_not_bears (exchanges : inst.Exchanges callee pops pushes) (lists : inst.desc.ListsResults)
    {frame : Frame} (short : ¬frame.Bears pops) : ∃ kind, frame.apply callee inst = .error (.underflow kind) := by
  obtain ⟨results, -, applies⟩ := exchanges.exists_results lists
  obtain ⟨kind, failed⟩ := Frame.popKinds_of_not_bears short
  refine ⟨kind, ?_⟩
  rw [applies, failed]
  rfl

end Instruction

namespace Frame

/-- Both stacks lost what was popped and gained what was pushed, and are the same below that. -/
structure Exchanged (pops pushes : List Kind) (frame next : Frame) : Prop where
  ints : next.ints.length = frame.ints.length - countKind .int pops + countKind .int pushes
  strings : next.strings.length = frame.strings.length - countKind .string pops + countKind .string pushes
  intsBelow : next.ints.drop (countKind .int pushes) = frame.ints.drop (countKind .int pops)
  stringsBelow : next.strings.drop (countKind .string pushes) = frame.strings.drop (countKind .string pops)

theorem exchanged_pushAll (pops : List Kind) (values : List Value) (frame : Frame) :
    frame.Exchanged pops (values.map Value.kind) ((frame.below pops).pushAll values) := by
  rw [pushAll_eq]
  constructor <;> simp only [below, ← length_filter_kind]
  · rw [List.length_append, List.length_reverse, List.length_drop, Nat.add_comm]
  · rw [List.length_append, List.length_reverse, List.length_drop, Nat.add_comm]
  · exact List.drop_left' List.length_reverse
  · exact List.drop_left' List.length_reverse

end Frame

namespace StackState

variable {callee : Option Signature} {inst : Instruction} {frame : Frame}

/-- A strict step fails as the instruction does; a lenient one goes on with unknown stacks, or with empty ones at the
end of a block. -/
theorem step_of_apply_error {error : StackError} (failed : frame.apply callee inst = .error error) :
    step true callee inst (some frame) = .error error ∧
      step false callee inst (some frame) = .ok (if inst.terminates then some {} else none) := by
  constructor
  · simp [step, applied, failed]
  · cases terminates : inst.terminates <;> simp [step, applied, failed, closed, terminates]

theorem step_of_apply_ok {next : Frame} (applies : frame.apply callee inst = .ok (some next))
    (goesOn : inst.terminates = false) (strict : Bool) : step strict callee inst (some frame) = .ok (some next) := by
  simp [step, applied, applies, closed, goesOn]

end StackState

/-- An instruction whose pops and pushes are known beforehand succeeds exactly on stacks that are high enough, and
changes nothing below. Otherwise a strict step reports the missing value, and a lenient one loses the stacks. -/
theorem apply_depth_exact (callee : Option Signature) (inst : Instruction) (frame : Frame) (pops pushes : List Kind)
    (described : inst.desc = Registry.standard.lookup inst.op ∨ inst.desc = Registry.empty.lookup inst.op)
    (exchanges : inst.Exchanges callee pops pushes) :
    ((∃ next, frame.apply callee inst = .ok (some next)) ↔
      countKind .int pops ≤ frame.ints.length ∧ countKind .string pops ≤ frame.strings.length) ∧
    (∀ next, frame.apply callee inst = .ok (some next) → frame.Exchanged pops pushes next ∧
      (inst.terminates = false → ∀ strict, StackState.step strict callee inst (some frame) = .ok (some next))) ∧
    (¬(countKind .int pops ≤ frame.ints.length ∧ countKind .string pops ≤ frame.strings.length) →
      (∃ kind, StackState.step true callee inst (some frame) = .error (.underflow kind)) ∧
      StackState.step false callee inst (some frame) = .ok (if inst.terminates then some {} else none)) := by
  have lists : inst.desc.ListsResults := by
    rcases described with standard | empty
    · rw [standard]
      exact Registry.listsResults_standard inst.op
    · rw [empty]
      exact Descriptor.listsResults_opaqueOf inst.op
  have bears (next : Frame) (applies : frame.apply callee inst = .ok (some next)) : frame.Bears pops := by
    by_contra short
    obtain ⟨kind, failed⟩ := exchanges.apply_of_not_bears lists short
    rw [failed] at applies
    cases applies
  refine ⟨⟨?_, ?_⟩, fun next applies => ⟨?_, StackState.step_of_apply_ok applies⟩, fun short => ?_⟩
  · intro success
    obtain ⟨next, applies⟩ := success
    exact bears next applies
  · intro enough
    obtain ⟨values, -, applies⟩ := exchanges.apply_of_bears lists enough
    exact ⟨_, applies⟩
  · obtain ⟨values, rfl, result⟩ := exchanges.apply_of_bears lists (bears next applies)
    cases result.symm.trans applies
    exact frame.exchanged_pushAll pops values
  · obtain ⟨kind, failed⟩ := exchanges.apply_of_not_bears lists short
    obtain ⟨strictly, leniently⟩ := StackState.step_of_apply_error failed
    exact ⟨⟨kind, strictly⟩, leniently⟩

/-- A call that takes an integer and a string and gives both back, on stacks that bear it and on one without a string;
and a comparison with one integer, which ends its block. -/
theorem apply_depth_exact_call :
    (∃ next, Frame.apply (some ⟨1, 1, [.string, .int]⟩)
        ⟨0, 0, Registry.standard.lookup ⟨40⟩, .int 9, 6, .unknown, .unknown, none⟩
        ⟨[.int (some 5), .int (some 6)], [.string none]⟩ = .ok (some next) ∧
      next.ints.length = 2 ∧ next.strings.length = 1 ∧ next.ints.drop 1 = [.int (some 6)]) ∧
    (∃ kind, StackState.step true (some ⟨1, 1, [.string, .int]⟩)
        ⟨0, 0, Registry.standard.lookup ⟨40⟩, .int 9, 6, .unknown, .unknown, none⟩
        (some ⟨[.int (some 5), .int (some 6)], []⟩) = .error (.underflow kind)) ∧
    StackState.step false none ⟨0, 0, Registry.standard.lookup ⟨8⟩, .int 0, 6, .unknown, .unknown, none⟩
      (some ⟨[.int none], []⟩) = .ok (some {}) := by
  obtain ⟨succeeds, exchanged, -⟩ := apply_depth_exact (some ⟨1, 1, [.string, .int]⟩)
    ⟨0, 0, Registry.standard.lookup ⟨40⟩, .int 9, 6, .unknown, .unknown, none⟩
    ⟨[.int (some 5), .int (some 6)], [.string none]⟩ _ _ (.inl rfl) (.call (by decide +kernel) rfl)
  obtain ⟨-, -, fails⟩ := apply_depth_exact (some ⟨1, 1, [.string, .int]⟩)
    ⟨0, 0, Registry.standard.lookup ⟨40⟩, .int 9, 6, .unknown, .unknown, none⟩
    ⟨[.int (some 5), .int (some 6)], []⟩ _ _ (.inl rfl) (.call (by decide +kernel) rfl)
  obtain ⟨-, -, loses⟩ := apply_depth_exact none
    ⟨0, 0, Registry.standard.lookup ⟨8⟩, .int 0, 6, .unknown, .unknown, none⟩ ⟨[.int none], []⟩ _ _ (.inl rfl)
    (.fixed (by decide +kernel))
  obtain ⟨next, applies⟩ := succeeds.2 (by decide)
  have sizes := (exchanged next applies).1
  exact ⟨⟨next, applies, sizes.ints, sizes.strings, sizes.intsBelow⟩, (fails (by decide)).1,
    (loses (by decide +kernel)).2⟩

end ClientScript
