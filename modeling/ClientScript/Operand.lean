import ClientScript.Registry
import ClientScript.Text.Quoted

/-!
Operands of instructions, switch tables among them.
-/

namespace ClientScript

structure Combinator where
  code : Int16
deriving DecidableEq, Repr

namespace Combinator

/-- Stands before the first label of a group. -/
def none : Combinator := ⟨0⟩

def or : Combinator := ⟨-1⟩

def and : Combinator := ⟨-2⟩

def name (combinator : Combinator) : String :=
  if combinator = none then ""
  else if combinator = or then Opcode.caseOr.name
  else if combinator = and then Opcode.caseAnd.name
  else codeLabel "Combinator" combinator.code.toInt Option.none

end Combinator

structure Term where
  join : Combinator
  label : Int32
deriving DecidableEq, Repr

structure CaseGroup where
  terms : List Term
  disp : Int32
deriving DecidableEq, Repr

structure RawCase where
  label : Int32
  disp : Int32
deriving DecidableEq, Repr

abbrev RawTable := List RawCase

/-- The operand of a switch. A number that is not negative names a table of the container, whose cases
the groups repeat; any other number stands for a table written in the code. -/
structure SwitchOperand where
  index : Int32
  groups : List CaseGroup
deriving DecidableEq, Repr

def RawTable.groups (table : RawTable) : List CaseGroup :=
  table.map fun row => ⟨[⟨.none, row.label⟩], row.disp⟩

inductive Operand where
  | none
  | int (value : Int32)
  | text (value : String)
  | byte (value : UInt8)
  | raw (bytes : List UInt8)
  | switch (table : SwitchOperand)
deriving DecidableEq, Repr

namespace Operand

def toInt : Operand → Int32
  | .int value => value
  | _ => 0

def toText : Operand → String
  | .text value => value
  | _ => ""

def toByte : Operand → UInt8
  | .byte value => value
  | _ => 0

def toRaw : Operand → List UInt8
  | .raw bytes => bytes
  | _ => []

def switch? : Operand → Option SwitchOperand
  | .switch table => some table
  | _ => Option.none

end Operand

namespace Term

def text (term : Term) : String :=
  let label := toString term.label.toInt
  if term.join = .none then label else " " ++ term.join.name ++ " " ++ label

end Term

namespace CaseGroup

def text (group : CaseGroup) : String :=
  String.join (group.terms.map Term.text) ++ ": " ++ signedText group.disp.toInt

end CaseGroup

namespace SwitchOperand

def text (table : SwitchOperand) : String :=
  (if 0 ≤ table.index then "#" ++ toString table.index.toInt ++ " " else "") ++
    String.intercalate ", " (table.groups.map CaseGroup.text)

end SwitchOperand

namespace Operand

def textAs (desc : Descriptor) (operand : Operand) : String :=
  match desc.shape with
  | .none => ""
  | .int => toString operand.toInt.toInt
  | .slot kind => kind.letter.toString ++ toString operand.toInt.toInt
  | .string => quoteText operand.toText
  | .byte => toString operand.toByte.toNat
  | .unknown => hexText operand.toRaw
  | .switch => operand.switch?.elim "" SwitchOperand.text

end Operand

end ClientScript
