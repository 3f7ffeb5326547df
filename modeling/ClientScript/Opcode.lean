import ClientScript.Opcode.Unnamed
import ClientScript.Opcode.Widget

/-!
Operation codes and their names.
-/

namespace ClientScript

/-- An operation code. In code it is an unsigned 16-bit number; the two negative ones join the case
labels of a switch and stand only there. -/
structure Opcode where
  code : Int
deriving DecidableEq, Repr

namespace Opcode

open OpcodeTable

def caseOr : Opcode := ⟨-1⟩
def caseAnd : Opcode := ⟨-2⟩
def pushConstantInt : Opcode := ⟨0⟩
def pushConstantString : Opcode := ⟨3⟩
def branch : Opcode := ⟨6⟩
def ret : Opcode := ⟨21⟩
def popIntDiscard : Opcode := ⟨38⟩
def popStringDiscard : Opcode := ⟨39⟩
def switch : Opcode := ⟨60⟩
def add : Opcode := ⟨4000⟩
def sub : Opcode := ⟨4001⟩
def multiply : Opcode := ⟨4002⟩
def div : Opcode := ⟨4003⟩
def mod : Opcode := ⟨4011⟩
def and : Opcode := ⟨4014⟩
def or : Opcode := ⟨4015⟩

/-- The names of a family at its offsets, `none` at an offset without a name. -/
def family (base : Nat) (mark : String) : List (Opcode × Option String) :=
  widgetRows.map fun row => (⟨(base + row.offset : Nat)⟩, row.stem.map (mark ++ ·))

def unnamedCodes : List Opcode :=
  unnamedRanges.flatMap fun range =>
    (List.range (range.2 + 1 - range.1)).map fun step : Nat => ⟨(range.1 + step : Nat)⟩

def entries : List (Opcode × Option String) :=
  [(caseAnd, some "SS_AND"), (caseOr, some "SS_OR")]
    ++ coreRows.map (fun row => ((⟨row.code⟩ : Opcode), row.name))
    ++ family componentBase "CC_"
    ++ family interfaceBase "IF_"
    ++ unnamedCodes.map (fun op => (op, none))

/-- `none` for a code that is not known, `some none` for a known one without a name. -/
def entry? (op : Opcode) : Option (Option String) :=
  entries.lookup op

/-- A known code without a name is named after its number. -/
def name? (op : Opcode) : Option String :=
  op.entry?.map fun name => name.getD s!"OP_{op.code}"

def name (op : Opcode) : String :=
  codeLabel "Opcode" op.code op.name?

def all : List Opcode :=
  (entries.map (·.1)).mergeSort fun one other => one.code ≤ other.code

def ofName? (name : String) : Option Opcode :=
  all.find? fun op => op.name? = some name

def isPseudo (op : Opcode) : Bool :=
  op = caseOr || op = caseAnd

/-- Whether the code is known and may stand in code. -/
def isValid (op : Opcode) : Bool :=
  0 ≤ op.code && op.entry?.isSome

def isPlaceholder (op : Opcode) : Bool :=
  op.entry? = some none

/-- The operand length of an operation of which nothing else is known. -/
def assumedWidth (op : Opcode) : Nat :=
  if 100 ≤ op.code ∨ op = ret ∨ op = popIntDiscard ∨ op = popStringDiscard then 1 else 4

end Opcode

end ClientScript
