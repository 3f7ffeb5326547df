import ClientScript.Decoder.Error
import ClientScript.Stack.Trace

/-!
Decoding. The code is cut into instructions, each opcode followed by the operand its description
declares; then the stacks are followed through them. A failure of either leaves no result, and the
one at the earlier instruction is reported.
-/

namespace ClientScript

inductive SwitchEncoding where
  /-- The table stands in the code. -/
  | inline
  /-- The number of a table of the container stands in the code. -/
  | indexed
deriving DecidableEq, Repr

namespace SwitchEncoding

def name : SwitchEncoding → String
  | .inline => "inline"
  | .indexed => "indexed"

def ofCode? : UInt8 → Option SwitchEncoding
  | 0 => some .inline
  | 1 => some .indexed
  | _ => none

def label (code : UInt8) : String :=
  codeLabel "SwitchEncoding" code.toNat ((ofCode? code).map name)

/-- A code without a meaning is taken for a table in the code. -/
def ofCode (code : UInt8) : SwitchEncoding :=
  (ofCode? code).getD .inline

/-- The empty name stands for the first encoding. -/
def ofName? : String → Option SwitchEncoding
  | "inline" | "" => some .inline
  | "indexed" => some .indexed
  | _ => none

end SwitchEncoding

structure Decoder where
  registry : Registry := .standard
  switches : SwitchEncoding := .inline
  /-- The tables that indexed switches name. -/
  tables : List RawTable := []
  /-- The largest number of instructions, unless it is not positive. -/
  maxInstructions : Int := 0
  /-- Whether faults of the stacks are failures. -/
  strict : Bool := false

/-- Instructions cut from code, up to a failure if there is one. -/
structure Framing where
  insts : List Instruction := []
  failure : Option DecodeError := none
deriving DecidableEq, Repr

namespace Framing

def failed (error : DecodeError) : Framing := { failure := some error }

def cons (inst : Instruction) (rest : Framing) : Framing :=
  { rest with insts := inst :: rest.insts }

end Framing

namespace Decoder

def part {α : Type} (shape : Shape) (read : Read ReadError α) : Read DecodeCause α :=
  read.mapError (.operandTruncated shape)

def readTerms (group : Nat) : Nat → Read DecodeCause (List Term)
  | 0 => pure []
  | count + 1 => do
    let join : Combinator := ⟨← part .switch Read.i16⟩
    if join = .or ∨ join = .and then
      let label ← part .switch Read.i32
      let more ← readTerms group count
      return ⟨join, label⟩ :: more
    else
      Read.fail (.badSwitch (.badCombinator join.code group))

def readGroup (group : Nat) : Read DecodeCause CaseGroup := do
  let count ← part .switch Read.byte
  if count = 0 then
    Read.fail (.badSwitch (.emptyGroup group))
  else
    let label ← part .switch Read.i32
    let more ← readTerms group (count.toNat - 1)
    let disp ← part .switch Read.i32
    return ⟨⟨.none, label⟩ :: more, disp⟩

def readGroups (group : Nat) : Nat → Read DecodeCause (List CaseGroup)
  | 0 => pure []
  | count + 1 => do
    let first ← readGroup group
    let more ← readGroups (group + 1) count
    return first :: more

def readSwitch (decoder : Decoder) : Read DecodeCause SwitchOperand :=
  match decoder.switches with
  | .indexed => do
    let index ← part .switch Read.i32
    match if index < 0 then none else decoder.tables[index.toInt.toNat]? with
    | none => Read.fail (.badSwitch (.noSuchTable index decoder.tables.length))
    | some table => return ⟨index, table.groups⟩
  | .inline => do
    let count ← part .switch Read.u16
    return ⟨-1, ← readGroups 0 count.toNat⟩

def readOperand (decoder : Decoder) (desc : Descriptor) : Read DecodeCause Operand :=
  match desc.shape with
  | .none => pure .none
  | .int | .slot _ => do return .int (← part desc.shape Read.i32)
  | .string => do return .text (← part desc.shape Read.text)
  | .byte => do return .byte (← part desc.shape Read.byte)
  | .switch => do return .switch (← decoder.readSwitch)
  | .unknown => do return .raw (← part desc.shape (Read.bytes desc.op.assumedWidth))

def limitReached (decoder : Decoder) (count : Nat) : Bool :=
  0 < decoder.maxInstructions && decoder.maxInstructions ≤ count

/-- Cuts bytes into instructions. The bytes stand at `offset`, after `index` instructions. -/
def frame (decoder : Decoder) (offset index : Nat) (bytes : List UInt8) : Framing :=
  match bytes with
  | [] => {}
  | [_] =>
    .failed ⟨offset, none,
      if decoder.limitReached index then .tooManyInstructions else .opcodeTruncated .cutShort⟩
  | high :: low :: rest =>
    if decoder.limitReached index then
      .failed ⟨offset, none, .tooManyInstructions⟩
    else
      let desc := decoder.registry.lookup ⟨(high.toNat * 256 + low.toNat : Nat)⟩
      match decoder.readOperand desc rest with
      | .error cause => .failed ⟨offset, some desc.op, cause⟩
      | .ok (operand, used) =>
        (decoder.frame (offset + 2 + used) (index + 1) (rest.drop used)).cons
          { offset := offset, index := index, desc := desc, operand := operand, size := 2 + used }
termination_by bytes.length
decreasing_by simp only [List.length_drop, List.length_cons]; omega

variable {m : Type → Type} [Monad m]

/-- Decodes code from a start to its end. `callee` gives the signatures of the scripts it calls. -/
def decodeM (callee : Int32 → m (Option Signature)) (decoder : Decoder) (code : List UInt8) (start : Int) :
    m (Except DecodeError (List Instruction)) :=
  if start < 0 ∨ code.length < start then
    pure (.error ⟨start, none, .outside⟩)
  else do
    let framing := decoder.frame start.toNat 0 (code.drop start.toNat)
    match ← traceM callee decoder.strict (some {}) framing.insts with
    | .error fault => return .error ⟨fault.inst.offset, some fault.inst.op, .stack fault.error⟩
    | .ok insts => return framing.failure.elim (.ok insts) .error

def decode (callee : Int32 → Option Signature) (decoder : Decoder) (code : List UInt8) (start : Int) :
    Except DecodeError (List Instruction) :=
  Id.run (decodeM (m := Id) callee decoder code start)

end Decoder

end ClientScript
