import ClientScript.Opcode

/-!
Descriptions of operations, and the registry that gives each operation code its description.
-/

namespace ClientScript

structure Descriptor where
  op : Opcode
  shape : Shape
  stack : StackEffect := {}
  flow : Flow := .sequential
  referent : Referent := .none
  /-- Nothing but the code and the length of the operand is certain. -/
  isOpaque : Bool := false
  /-- The code joins case labels and is no instruction. -/
  isPseudo : Bool := false
deriving DecidableEq, Repr

namespace Descriptor

def mnemonic (desc : Descriptor) : String := desc.op.name

/-- The operand length in bytes, `none` if it depends on the data. -/
def width (desc : Descriptor) : Option Nat :=
  match desc.shape with
  | .none => some 0
  | .int | .slot _ => some 4
  | .byte => some 1
  | .string | .switch => none
  | .unknown => some desc.op.assumedWidth

def slotKind (desc : Descriptor) : Kind :=
  match desc.shape with
  | .slot kind => kind
  | _ => .int

/-- The width as a number: minus one stands for a width that depends on the data. -/
def widthCode (desc : Descriptor) : Int :=
  match desc.width with
  | some width => width
  | none => -1

def text (desc : Descriptor) : String :=
  desc.mnemonic ++ "(" ++ toString desc.op.code ++ ") operand=" ++ desc.shape.name ++ "/" ++
    toString desc.widthCode ++ " stack=" ++ desc.stack.text ++ " flow=" ++ desc.flow.name

def opaqueOf (op : Opcode) : Descriptor where
  op := op
  shape := .unknown
  stack := (OpcodeTable.observedEffects.find? fun row => (row.1 : Int) = op.code).elim .unknown (·.2)
  isOpaque := true

def ofCore (row : OpcodeTable.CoreRow) : Descriptor where
  op := ⟨row.code⟩
  shape := row.shape
  stack := row.stack
  flow := row.flow

def pseudo (op : Opcode) : Descriptor where
  op := op
  shape := .none
  isPseudo := true

def ofComponent (row : OpcodeTable.WidgetRow) : Descriptor :=
  let op : Opcode := ⟨(OpcodeTable.componentBase + row.offset : Nat)⟩
  if row.stack.rule = .unknown then opaqueOf op
  else { op := op, shape := .byte, stack := row.stack, referent := .component }

/-- The form for a component passed on the stack, above every other argument. A handler setter finds
the component by itself. -/
def ofInterface (row : OpcodeTable.WidgetRow) : Descriptor :=
  let op : Opcode := ⟨(OpcodeTable.interfaceBase + row.offset : Nat)⟩
  match row.stack.rule with
  | .unknown => opaqueOf op
  | .hook => { op := op, shape := .byte, stack := row.stack, referent := .interface }
  | _ =>
    { op := op, shape := .byte, referent := .interface,
      stack := { row.stack with pops := row.stack.pops ++ [.int] } }

end Descriptor

structure Registry where
  rows : List Descriptor

namespace Registry

def empty : Registry := ⟨[]⟩

def standard : Registry :=
  ⟨OpcodeTable.coreRows.map Descriptor.ofCore
    ++ OpcodeTable.widgetRows.map Descriptor.ofComponent
    ++ OpcodeTable.widgetRows.map Descriptor.ofInterface
    ++ [Descriptor.pseudo .caseOr, Descriptor.pseudo .caseAnd]
    ++ Opcode.unnamedCodes.map Descriptor.opaqueOf⟩

def find? (registry : Registry) (op : Opcode) : Option Descriptor :=
  registry.rows.find? fun row => row.op = op

/-- A code that is not registered is described as opaque. -/
def lookup (registry : Registry) (op : Opcode) : Descriptor :=
  (registry.find? op).getD (.opaqueOf op)

def contains (registry : Registry) (op : Opcode) : Bool :=
  (registry.find? op).isSome

def sorted (registry : Registry) : List Descriptor :=
  registry.rows.mergeSort fun one other => one.op.code ≤ other.op.code

end Registry

end ClientScript
