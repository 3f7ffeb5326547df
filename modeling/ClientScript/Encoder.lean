import ClientScript.Bytes.Writer
import ClientScript.Instruction

/-!
Writing instructions.
-/

namespace ClientScript.Writer

def opcode (op : Opcode) : Writer → Writer :=
  u16 (UInt16.ofNat (op.code % 65536).toNat)

def rawInstruction (op : Opcode) (operand : List UInt8) (writer : Writer) : Writer :=
  (writer.opcode op).bytes operand

/-- An opcode and the zero operand of its shape. -/
def plainInstruction (op : Opcode) (writer : Writer) : Writer :=
  let desc := Registry.standard.lookup op
  let writer := writer.opcode op
  match desc.shape with
  | .none => writer
  | .string => writer.text ""
  | .switch => writer.u16 0
  | .int | .slot _ | .byte | .unknown => writer.bytes (List.replicate (desc.width.getD 0) 0)

def intInstruction (op : Opcode) (value : Int32) (writer : Writer) : Writer :=
  (writer.opcode op).i32 value

def byteInstruction (op : Opcode) (value : UInt8) (writer : Writer) : Writer :=
  (writer.opcode op).byte value

def stringInstruction (value : String) (writer : Writer) : Writer :=
  (writer.opcode .pushConstantString).text value

def jump (op : Opcode) (disp : Int32) (writer : Writer) : Writer :=
  if (Registry.standard.lookup op).flow = .condBranch ∨ op = .branch then writer.intInstruction op disp
  else writer.reject (.shape (.notBranch op))

def terms (writer : Writer) (more : List Term) : Writer :=
  more.foldl (fun writer term => (writer.i16 term.join.code).i32 term.label) writer

/-- The groups of a table up to one that has no label, or more than a byte can count. -/
def groups (writer : Writer) : List CaseGroup → Writer
  | [] => writer
  | group :: rest =>
    match group.terms with
    | [] => writer.reject (.shape (.termCount 0))
    | first :: more =>
      if 255 < group.terms.length then writer.reject (.shape (.termCount group.terms.length))
      else
        let writer := (writer.byte (UInt8.ofNat group.terms.length)).i32 first.label
        groups ((writer.terms more).i32 group.disp) rest

def switchTable (table : List CaseGroup) (writer : Writer) : Writer :=
  if 65535 < table.length then writer.reject (.shape (.groupCount table.length))
  else (writer.u16 (UInt16.ofNat table.length)).groups table

def switchInstruction (table : List CaseGroup) (writer : Writer) : Writer :=
  (writer.opcode .switch).switchTable table

def indexedSwitch (index : Int32) : Writer → Writer :=
  intInstruction .switch index

def operand (desc : Descriptor) (value : Operand) (writer : Writer) : Writer :=
  match desc.shape with
  | .none => writer
  | .int | .slot _ => writer.i32 value.toInt
  | .string => writer.text value.toText
  | .byte => writer.byte value.toByte
  | .switch =>
    match value.switch? with
    | none => writer.reject (.shape .noTable)
    | some table => if 0 ≤ table.index then writer.i32 table.index else writer.switchTable table.groups
  | .unknown =>
    if value.toRaw.length = desc.op.assumedWidth then writer.bytes value.toRaw
    else writer.reject (.shape (.operandWidth desc.op desc.op.assumedWidth value.toRaw.length))

def instruction (inst : Instruction) (writer : Writer) : Writer :=
  (writer.opcode inst.op).operand inst.desc inst.operand

end ClientScript.Writer

namespace ClientScript

def encode (insts : List Instruction) : Except WriteError (List UInt8) :=
  let writer := insts.foldl (fun writer inst => writer.instruction inst) Writer.buffer
  writer.failure.elim (.ok writer.content) .error

end ClientScript
