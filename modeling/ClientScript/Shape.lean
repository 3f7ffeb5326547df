import ClientScript.StackEffect

/-!
What follows an opcode in the code, where control goes next, and what an operation is applied to.
-/

namespace ClientScript

inductive Shape where
  | none
  /-- A signed 32-bit number. -/
  | int
  /-- Text closed by a NUL byte. -/
  | string
  /-- A switch table, or its number. -/
  | switch
  /-- The 32-bit number of a local variable of a kind. -/
  | slot (kind : Kind)
  | byte
  /-- Bytes whose meaning is not known. -/
  | unknown
deriving DecidableEq, Repr

namespace Shape

def name : Shape → String
  | .none => "none"
  | .int => "int"
  | .string => "string"
  | .switch => "switch"
  | .slot _ => "local"
  | .byte => "byte"
  | .unknown => "unknown"

def ofCode? : UInt8 → Option Shape
  | 0 => some .none
  | 1 => some .int
  | 2 => some .string
  | 3 => some .switch
  | 4 => some (.slot .int)
  | 5 => some .byte
  | 6 => some .unknown
  | _ => Option.none

def label (code : UInt8) : String :=
  codeLabel "Shape" code.toNat ((ofCode? code).map name)

end Shape

inductive Flow where
  | sequential
  | condBranch
  | branch
  | switch
  | ret
  | call
deriving DecidableEq, Repr

namespace Flow

def name : Flow → String
  | .sequential => "sequential"
  | .condBranch => "conditional-branch"
  | .branch => "branch"
  | .switch => "switch"
  | .ret => "return"
  | .call => "call"

def terminates : Flow → Bool
  | .condBranch | .branch | .switch | .ret => true
  | .sequential | .call => false

def ofCode? : UInt8 → Option Flow
  | 0 => some .sequential
  | 1 => some .condBranch
  | 2 => some .branch
  | 3 => some .switch
  | 4 => some .ret
  | 5 => some .call
  | _ => none

def label (code : UInt8) : String :=
  codeLabel "Flow" code.toNat ((ofCode? code).map name)

/-- A code without a class ends no block. -/
def codeTerminates (code : UInt8) : Bool :=
  (ofCode? code).any terminates

end Flow

inductive Referent where
  | none
  /-- The component that the script has selected. -/
  | component
  /-- A component passed on the stack. -/
  | interface
deriving DecidableEq, Repr

namespace Referent

def name : Referent → String
  | .none => "none"
  | .component => "component"
  | .interface => "interface"

def ofCode? : UInt8 → Option Referent
  | 0 => some .none
  | 1 => some .component
  | 2 => some .interface
  | _ => Option.none

def label (code : UInt8) : String :=
  codeLabel "Referent" code.toNat ((ofCode? code).map name)

end Referent

end ClientScript
