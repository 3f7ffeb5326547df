import ClientScript.Operand
import ClientScript.Stack.Frame

/-!
Decoded instructions.
-/

namespace ClientScript

structure Instruction where
  /-- The place of the opcode in the code. -/
  offset : Int
  /-- The number of instructions before this one. -/
  index : Nat
  desc : Descriptor
  operand : Operand
  /-- The number of bytes, the opcode included. -/
  size : Int
  before : Depth := .unknown
  after : Depth := .unknown
  /-- The stacks after the instruction, if they are known. -/
  stack : StackState := none
deriving DecidableEq, Repr

namespace Instruction

def op (inst : Instruction) : Opcode := inst.desc.op

def next (inst : Instruction) : Int := inst.offset + inst.size

def terminates (inst : Instruction) : Bool := inst.desc.flow.terminates

def operandText (inst : Instruction) : String := inst.operand.textAs inst.desc

def text (inst : Instruction) : String :=
  let operand := inst.operandText
  if operand.isEmpty then inst.desc.mnemonic else inst.desc.mnemonic ++ " " ++ operand

end Instruction

end ClientScript
