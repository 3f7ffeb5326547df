import ClientScript.Proofs.DepthArithmetic
import ClientScript.Proofs.ForwardPass
import ClientScript.Proofs.Restart
import ClientScript.Proofs.RoundTrip

/-!
Constants through arithmetic. An expression is written with its operands before its operator, and decoding its code
evaluates it: the code leaves one integer on the stacks that it was given, the constant that the expression stands for,
or an unknown number if the expression divides by zero somewhere. Code of this kind is put together from pieces, each of
which passes from one state of the stacks to another whatever stands behind it.
-/

namespace ClientScript

inductive Operator where
  | add | sub | multiply | div | mod | and | or
deriving DecidableEq, Repr

namespace Operator

def opcode : Operator → Opcode
  | add => .add
  | sub => .sub
  | multiply => .multiply
  | div => .div
  | mod => .mod
  | and => .and
  | or => .or

/-- The result among all integers. Quotients are rounded toward zero, and nothing is divided by zero. -/
def unbounded? (left right : Int32) : Operator → Option Int
  | add => some (left.toInt + right.toInt)
  | sub => some (left.toInt - right.toInt)
  | multiply => some (left.toInt * right.toInt)
  | div => if right = 0 then none else some (left.toInt.tdiv right.toInt)
  | mod => if right = 0 then none else some (left.toInt.tmod right.toInt)
  | and => some (left.toBitVec &&& right.toBitVec).toInt
  | or => some (left.toBitVec ||| right.toBitVec).toInt

def value? (operator : Operator) (left right : Int32) : Option Int32 :=
  (operator.unbounded? left right).map Int32.ofInt

theorem ofInt_tdiv_toInt (left right : Int32) : Int32.ofInt (left.toInt.tdiv right.toInt) = left / right := by
  rw [Int32.ofInt_tdiv left.minValue_le_toInt left.toInt_le right.minValue_le_toInt right.toInt_le,
    Int32.ofInt_toInt, Int32.ofInt_toInt]

theorem ofInt_tmod_toInt (left right : Int32) : Int32.ofInt (left.toInt.tmod right.toInt) = left % right := by
  rw [Int32.ofInt_tmod left.minValue_le_toInt left.toInt_le right.minValue_le_toInt right.toInt_le,
    Int32.ofInt_toInt, Int32.ofInt_toInt]

theorem fold_opcode (operator : Operator) (left right : Int32) :
    fold? operator.opcode left right = operator.value? left right := by
  cases operator with
  | add =>
    change some (left + right) = some (Int32.ofInt (left.toInt + right.toInt))
    rw [Int32.ofInt_add, Int32.ofInt_toInt, Int32.ofInt_toInt]
  | sub =>
    change some (left - right) = some (Int32.ofInt (left.toInt - right.toInt))
    rw [Int32.ofInt_sub, Int32.ofInt_toInt, Int32.ofInt_toInt]
  | multiply =>
    change some (left * right) = some (Int32.ofInt (left.toInt * right.toInt))
    rw [Int32.ofInt_mul, Int32.ofInt_toInt, Int32.ofInt_toInt]
  | div =>
    change (if right = 0 then none else some (left / right)) = _
    by_cases zero : right = 0
    · simp only [value?, unbounded?, if_pos zero, Option.map_none]
    · simp only [value?, unbounded?, if_neg zero, Option.map_some, ofInt_tdiv_toInt]
  | mod =>
    change (if right = 0 then none else some (left % right)) = _
    by_cases zero : right = 0
    · simp only [value?, unbounded?, if_pos zero, Option.map_none]
    · simp only [value?, unbounded?, if_neg zero, Option.map_some, ofInt_tmod_toInt]
  | and =>
    change some (left &&& right) = some (Int32.ofInt (left.toBitVec &&& right.toBitVec).toInt)
    rw [Int32.ofInt_bitVecToInt]
    rfl
  | or =>
    change some (left ||| right) = some (Int32.ofInt (left.toBitVec ||| right.toBitVec).toInt)
    rw [Int32.ofInt_bitVecToInt]
    rfl

example : div.value? Int32.minValue (-1) = some Int32.minValue ∧ mod.value? Int32.minValue (-1) = some 0 := by decide

theorem value_eq_none_iff (operator : Operator) (left right : Int32) :
    operator.value? left right = none ↔ (operator = div ∨ operator = mod) ∧ right = 0 := by
  cases operator <;> simp [value?, unbounded?]

def word (operator : Operator) : UInt16 :=
  UInt16.ofNat operator.opcode.code.toNat

theorem opcode_eq_ofWord (operator : Operator) : operator.opcode = .ofWord operator.word := by
  cases operator <;> rfl

structure IsBinary (desc : Descriptor) : Prop where
  shape : desc.shape = .byte
  stack : desc.stack = ⟨[.int, .int], [.int], .fixed⟩
  goesOn : desc.flow.terminates = false

theorem isBinary_lookup (operator : Operator) : IsBinary (Registry.standard.lookup operator.opcode) := by
  have facts : (Registry.standard.lookup operator.opcode).shape = .byte ∧
      (Registry.standard.lookup operator.opcode).stack = ⟨[.int, .int], [.int], .fixed⟩ ∧
      (Registry.standard.lookup operator.opcode).flow.terminates = false := by
    cases operator <;> decide +kernel
  exact ⟨facts.1, facts.2.1, facts.2.2⟩

end Operator

inductive Expression where
  | constant (value : Int32)
  | apply (operator : Operator) (left right : Expression)
deriving DecidableEq, Repr

namespace Expression

def value? : Expression → Option Int32
  | constant value => some value
  | apply operator left right =>
    left.value?.bind fun first => right.value?.bind fun second => operator.value? first second

def DividesByZero : Expression → Prop
  | constant _ => False
  | apply operator left right =>
    left.DividesByZero ∨ right.DividesByZero ∨
      (operator = .div ∨ operator = .mod) ∧ right.value? = some 0

theorem value_eq_none_iff (expression : Expression) : expression.value? = none ↔ expression.DividesByZero := by
  induction expression with
  | constant value => simp [value?, DividesByZero]
  | apply operator left right leftIH rightIH =>
    simp only [value?, DividesByZero, ← leftIH, ← rightIH]
    cases left.value? with
    | none => simp
    | some first =>
      cases right.value? with
      | none => simp
      | some second => simp [Operator.value_eq_none_iff]

def write (writer : Writer) : Expression → Writer
  | constant value => writer.intInstruction .pushConstantInt value
  | apply operator left right => (right.write (left.write writer)).plainInstruction operator.opcode

end Expression

namespace Decoder

variable {callee : Int32 → Option Signature} {decoder : Decoder}

/-- So many instructions of code lead from one state of the stacks to another, wherever the code stands and whatever
stands behind it. The last of them keeps the state that they lead to. -/
def Passes (callee : Int32 → Option Signature) (decoder : Decoder) (code : List UInt8) (count : Nat)
    (state next : StackState) : Prop :=
  ∀ offset index, ∃ insts last, insts.getLast? = some last ∧ last.after = next.depth ∧ last.stack = next ∧
    ∀ rest, decoder.decodeFrom callee offset index state (code ++ rest) =
      (decoder.decodeFrom callee (offset + code.length) (index + count) next rest).map (insts ++ ·)

namespace Passes

variable {state middle next : StackState}

theorem inst (unlimited : decoder.maxInstructions ≤ 0) {word : UInt16} {operand : Operand} {raw : List UInt8}
    (stored : decoder.Stores (decoder.registry.lookup (.ofWord word)) operand raw)
    (steps : ∀ offset index, state.step decoder.strict (callee operand.toInt)
      (decoder.instAt offset index word operand raw) = .ok next) :
    decoder.Passes callee (wordBytes word ++ raw) 1 state next := by
  intro offset index
  refine ⟨[(decoder.instAt offset index word operand raw).traced state next], _, rfl, rfl, rfl, fun rest => ?_⟩
  have reached := limitReached_of_unlimited unlimited index
  have place : offset + (wordBytes word ++ raw).length = offset + 2 + raw.length := by
    rw [List.length_append, wordBytes_length]
    omega
  rw [List.append_assoc, decodeFrom_inst reached stored, steps offset index, place]
  rfl

theorem andThen {front back : List UInt8} {first second : Nat} (start : decoder.Passes callee front first state middle)
    (finish : decoder.Passes callee back second middle next) :
    decoder.Passes callee (front ++ back) (first + second) state next := by
  intro offset index
  obtain ⟨before, -, -, -, -, starts⟩ := start offset index
  obtain ⟨after, last, final, depth, stack, finishes⟩ := finish (offset + front.length) (index + first)
  refine ⟨before ++ after, last, ?_, depth, stack, fun rest => ?_⟩
  · rw [List.getLast?_append, final]
    rfl
  · rw [List.append_assoc, starts, finishes, List.length_append, ← Nat.add_assoc, ← Nat.add_assoc]
    generalize decoder.decodeFrom callee _ _ next rest = outcome
    cases outcome with
    | error error => rfl
    | ok insts => exact congrArg Except.ok (List.append_assoc before after insts).symm

theorem exists_decode {code : List UInt8} {count : Nat} (passes : decoder.Passes callee code count (some {}) next) :
    ∃ insts last, decoder.decode callee code 0 = .ok insts ∧ insts.getLast? = some last ∧
      last.after = next.depth ∧ last.stack = next := by
  obtain ⟨insts, last, final, depth, stack, decodes⟩ := passes 0 0
  refine ⟨insts, last, ?_, final, depth, stack⟩
  have whole := decodes []
  rw [decodeFrom_nil, List.append_nil] at whole
  calc decoder.decode callee code 0
    _ = decoder.decodeFrom callee 0 0 (some {}) code := decoder.decode_eq callee code 0 (by omega)
    _ = .ok (insts ++ []) := whole
    _ = .ok insts := by rw [List.append_nil]

end Passes

end Decoder

namespace Expression

def code : Expression → List UInt8
  | constant value => wordBytes 0 ++ longBytes value.toUInt32
  | apply operator left right => left.code ++ (right.code ++ (wordBytes operator.word ++ [0]))

def size : Expression → Nat
  | constant _ => 1
  | apply _ left right => left.size + (right.size + 1)

theorem appends_write (expression : Expression) : Writer.Appends (expression.write ·) expression.code := by
  induction expression with
  | constant value => exact (Writer.appends_opcode 0).andThen (Writer.appends_i32 value)
  | apply operator left right leftIH rightIH =>
    have shape := operator.isBinary_lookup.shape
    have node : Writer.Appends (Writer.plainInstruction operator.opcode) (wordBytes operator.word ++ [0]) := by
      unfold Writer.plainInstruction
      simp only [Descriptor.width, shape]
      rw [operator.opcode_eq_ofWord]
      exact (Writer.appends_opcode operator.word).andThen (Writer.appends_bytes [0])
    exact leftIH.andThen (rightIH.andThen node)

theorem step_operator (strict : Bool) (callee : Option Signature) (operator : Operator) (inst : Instruction)
    (described : inst.desc = Registry.standard.lookup operator.opcode) (left right : Option Int32) (frame : Frame) :
    StackState.step strict callee inst (some ((frame.push (.int left)).push (.int right))) =
      .ok (some (frame.push (.int (left.bind fun first => right.bind fun second =>
        operator.value? first second)))) := by
  obtain ⟨-, effect, goesOn⟩ := operator.isBinary_lookup
  rw [← described] at effect goesOn
  have op : inst.op = operator.opcode := by rw [Instruction.op, described, Registry.lookup_op]
  have notNumber : operator.opcode ≠ .pushConstantInt := by cases operator <;> decide
  have notText : operator.opcode ≠ .pushConstantString := by cases operator <;> decide
  refine StackState.step_of_apply_ok ?_ goesOn strict
  have popped : ((frame.push (.int left)).push (.int right)).popKinds [.int, .int] =
      .ok ([.int left, .int right], frame) := rfl
  simp only [Frame.apply, effect, popped, Frame.pushResults, op, if_neg notNumber, if_neg notText]
  cases left with
  | none => rfl
  | some first =>
    cases right with
    | none => rfl
    | some second =>
      simp only [Frame.foldArgs?, operator.fold_opcode, Option.bind_some]
      cases operator.value? first second <;> rfl

variable (callee : Int32 → Option Signature) {decoder : Decoder}

theorem passes_constant (registry : decoder.registry = .standard) (unlimited : decoder.maxInstructions ≤ 0)
    (value : Int32) (frame : Frame) :
    decoder.Passes callee (wordBytes 0 ++ longBytes value.toUInt32) 1 (some frame)
      (some (frame.push (.int (some value)))) := by
  have stored : decoder.Stores (decoder.registry.lookup (.ofWord 0)) (.int value) (longBytes value.toUInt32) := by
    rw [registry]
    exact ⟨value, rfl, rfl⟩
  refine .inst unlimited stored fun offset index => ?_
  unfold Decoder.instAt
  rw [registry]
  rfl

theorem passes_operator (registry : decoder.registry = .standard) (unlimited : decoder.maxInstructions ≤ 0)
    (operator : Operator) (left right : Option Int32) (frame : Frame) :
    decoder.Passes callee (wordBytes operator.word ++ [0]) 1
      (some ((frame.push (.int left)).push (.int right)))
      (some (frame.push (.int (left.bind fun first => right.bind fun second => operator.value? first second)))) := by
  have described : decoder.registry.lookup (.ofWord operator.word) = Registry.standard.lookup operator.opcode := by
    rw [registry, operator.opcode_eq_ofWord]
  have stored : decoder.Stores (decoder.registry.lookup (.ofWord operator.word)) (.byte 0) [0] := by
    unfold Decoder.Stores
    rw [described, operator.isBinary_lookup.shape]
    exact ⟨0, rfl, rfl⟩
  exact .inst unlimited stored fun offset index =>
    step_operator decoder.strict _ operator _ described left right frame

/-- The code of an expression puts its value on the stacks that it is given. -/
theorem passes (registry : decoder.registry = .standard) (unlimited : decoder.maxInstructions ≤ 0)
    (expression : Expression) (frame : Frame) :
    decoder.Passes callee expression.code expression.size (some frame)
      (some (frame.push (.int expression.value?))) := by
  induction expression generalizing frame with
  | constant value => exact passes_constant callee registry unlimited value frame
  | apply operator left right leftIH rightIH =>
    -- The right operand comes to lie on the left one, where the operator looks for both.
    have node := passes_operator callee registry unlimited operator left.value? right.value? frame
    exact (leftIH frame).andThen ((rightIH _).andThen node)

end Expression

/-- Decoding the code of an expression evaluates the expression. One integer is left on the stacks: the value of the
expression in 32 bits, or a number that is not known if the expression divides by zero. -/
theorem decode_expression (expression : Expression) (callee : Int32 → Option Signature) (decoder : Decoder)
    (registry : decoder.registry = .standard) (unlimited : decoder.maxInstructions ≤ 0) :
    (expression.write .buffer).failure = none ∧
      ∃ insts last, decoder.decode callee (expression.write .buffer).content 0 = .ok insts ∧
        insts.getLast? = some last ∧ last.after = .known 1 0 ∧
        last.stack = some ⟨[.int expression.value?], []⟩ ∧
        (expression.value? = none ↔ expression.DividesByZero) := by
  obtain ⟨failure, content⟩ := expression.appends_write.fresh
  obtain ⟨insts, last, decoded, final, depth, stack⟩ :=
    (Expression.passes callee registry unlimited expression {}).exists_decode
  rw [← content] at decoded
  exact ⟨failure, insts, last, decoded, final, depth, stack, expression.value_eq_none_iff⟩

/-- The least number divided by a difference of minus one is that number again. A remainder of a division by a
difference of zero is not known, and neither is a sum with it. -/
theorem decode_expression_quotients :
    (∃ insts last, Decoder.decode (fun _ => none) { strict := true }
        [0, 0, 0x80, 0, 0, 0, 0, 0, 0, 0, 0, 2, 0, 0, 0, 0, 0, 3, 0x0f, 0xa1, 0, 0x0f, 0xa3, 0] 0 = .ok insts ∧
      insts.getLast? = some last ∧ last.stack = some ⟨[.int (some Int32.minValue)], []⟩) ∧
    ∃ insts last, Decoder.decode (fun _ => none) {}
        [0, 0, 0, 0, 0, 7, 0, 0, 0, 0, 0, 4, 0, 0, 0, 0, 0, 1, 0, 0, 0, 0, 0, 1, 0x0f, 0xa1, 0, 0x0f, 0xab, 0,
          0x0f, 0xa0, 0] 0 = .ok insts ∧
      insts.getLast? = some last ∧ last.stack = some ⟨[.int none], []⟩ := by
  obtain ⟨-, known, last, decoded, final, -, stack, -⟩ := decode_expression
    (.apply .div (.constant Int32.minValue) (.apply .sub (.constant 2) (.constant 3))) (fun _ => none)
    { strict := true } rfl (by decide)
  obtain ⟨-, unknown, other, read, ending, -, rest, -⟩ := decode_expression
    (.apply .add (.constant 7) (.apply .mod (.constant 4) (.apply .sub (.constant 1) (.constant 1)))) (fun _ => none)
    {} rfl (by decide)
  exact ⟨⟨known, last, decoded, final, stack⟩, unknown, other, read, ending, rest⟩

end ClientScript
