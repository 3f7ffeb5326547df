import ClientScript.Instruction

/-!
Programs whose control flow is resolved.
-/

namespace ClientScript

inductive Addressing where
  /-- To the number of the instruction after the branch. -/
  | byIndex
  /-- To the byte offset of the branch. -/
  | byOffset
  /-- A code without a meaning of its own, taken for byte offsets. -/
  | reserved (code : UInt8)
deriving DecidableEq, Repr

namespace Addressing

def name : Addressing → String
  | .byIndex => "index"
  | .byOffset => "offset"
  | .reserved code => codeLabel "Addressing" code.toNat none

def ofCode : UInt8 → Addressing
  | 0 => .byIndex
  | 1 => .byOffset
  | code => .reserved code

def label (code : UInt8) : String := (ofCode code).name

/-- The empty name stands for the first mode. -/
def ofName? : String → Option Addressing
  | "index" | "" => some .byIndex
  | "offset" => some .byOffset
  | _ => none

end Addressing

inductive EdgeKind where
  | fallThrough
  | jump
  /-- To a case of a switch. -/
  | choice
  /-- To where a switch goes without a case. -/
  | otherwise
deriving DecidableEq, Repr

namespace EdgeKind

def name : EdgeKind → String
  | .fallThrough => "fallthrough"
  | .jump => "jump"
  | .choice => "case"
  | .otherwise => "default"

def ofCode? : UInt8 → Option EdgeKind
  | 0 => some .fallThrough
  | 1 => some .jump
  | 2 => some .choice
  | 3 => some .otherwise
  | _ => none

def label (code : UInt8) : String :=
  codeLabel "EdgeKind" code.toNat ((ofCode? code).map name)

/-- A code without a meaning is taken for a jump. -/
def ofCode (code : UInt8) : EdgeKind :=
  (ofCode? code).getD .jump

end EdgeKind

/-- A way out of an instruction, to a byte offset. -/
structure Edge where
  kind : EdgeKind
  target : Int
deriving DecidableEq, Repr

structure CaseTarget where
  label : Int32
  target : Int
deriving DecidableEq, Repr

structure SwitchTable where
  cases : List CaseTarget
  otherwise : Int
deriving DecidableEq, Repr

namespace SwitchTable

def target (table : SwitchTable) (value : Int32) : Int :=
  ((table.cases.find? fun row => row.label = value).map CaseTarget.target).getD table.otherwise

end SwitchTable

structure Call where
  offset : Int
  callee : Int32
deriving DecidableEq, Repr

/-- The number of the last instruction at an offset. `number` counts from the head of the list and
`found` is the last one before it. -/
def lastAt (offset : Int) (number : Nat) (found : Option Nat) : List Instruction → Option Nat
  | [] => found
  | inst :: rest =>
    lastAt offset (number + 1) (if inst.offset = offset then some number else found) rest

structure Program where
  insts : List Instruction
  /-- The ways out of every instruction, in order. -/
  edges : List (List Edge)
  /-- The tables of switches, by the number of the instruction. -/
  switches : List (Nat × SwitchTable)
  calls : List Call
deriving DecidableEq, Repr

namespace Program

def indexAt (program : Program) (offset : Int) : Option Nat :=
  lastAt offset 0 none program.insts

def endOffset (program : Program) : Int :=
  (program.insts.getLast?.map Instruction.next).getD 0

def opaqueOffsets (program : Program) : List Int :=
  (program.insts.filter fun inst => inst.desc.isOpaque).map Instruction.offset

def switch? (program : Program) (index : Nat) : Option SwitchTable :=
  program.switches.lookup index

def jumpTargets (edges : List Edge) : List Int :=
  (edges.filter fun edge => edge.kind ≠ .fallThrough).map Edge.target

def setEdges (program : Program) (index : Nat) (edges : List Edge) : Program :=
  { program with edges := program.edges.set index edges }

end Program

end ClientScript
