import ClientScript.Stack.Effect

/-!
Following the stacks through a list of instructions.
-/

namespace ClientScript

namespace StackState

/-- The state after an instruction, before a block that it may end is closed. -/
def applied (strict : Bool) (callee : Option Signature) (inst : Instruction) :
    StackState → Except StackError StackState
  | none => .ok none
  | some frame =>
    match frame.apply callee inst with
    | .ok state => .ok state
    | .error error => if strict then .error error else .ok none

/-- At the end of a block both stacks start anew. -/
def closed (strict : Bool) (inst : Instruction) (state : StackState) : Except StackError StackState :=
  if inst.terminates then
    match strict, state with
    | true, some ⟨[], []⟩ => .ok (some {})
    | true, some frame =>
      .error (.leftover frame.ints.length frame.strings.length inst.op)
    | _, _ => .ok (some {})
  else
    .ok state

/-- The state after an instruction. A strict check fails on a missing value and on a value left at the
end of a block; otherwise a missing value makes the state unknown. -/
def step (strict : Bool) (callee : Option Signature) (inst : Instruction) (state : StackState) :
    Except StackError StackState :=
  match state.applied strict callee inst with
  | .error error => .error error
  | .ok next => closed strict inst next

def asksCallee (inst : Instruction) (state : StackState) : Bool :=
  inst.desc.stack.rule = .call && state.isSome

end StackState

namespace Instruction

def traced (inst : Instruction) (before after : StackState) : Instruction :=
  { inst with before := before.depth, after := after.depth, stack := after }

end Instruction

structure StackFault where
  inst : Instruction
  error : StackError

variable {m : Type → Type} [Monad m]

def traceM (callee : Int32 → m (Option Signature)) (strict : Bool) :
    StackState → List Instruction → m (Except StackFault (List Instruction))
  | _, [] => pure (.ok [])
  | state, inst :: rest => do
    let signature ←
      if state.asksCallee inst then callee inst.operand.toInt else pure none
    match state.step strict signature inst with
    | .error error => return .error ⟨inst, error⟩
    | .ok next =>
      match ← traceM callee strict next rest with
      | .error fault => return .error fault
      | .ok traced => return .ok (inst.traced state next :: traced)

end ClientScript
