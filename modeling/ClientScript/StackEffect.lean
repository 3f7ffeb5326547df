import ClientScript.Text.Number

/-!
What an operation does to the operand stacks. Integers and strings live on two separate stacks.
-/

namespace ClientScript

inductive Kind where
  | int
  | string
deriving DecidableEq, Repr

namespace Kind

def name : Kind → String
  | .int => "int"
  | .string => "string"

def letter : Kind → Char
  | .int => 'i'
  | .string => 's'

def ofLetter? : Char → Option Kind
  | 'i' => some .int
  | 's' => some .string
  | _ => none

def ofCode? : UInt8 → Option Kind
  | 0 => some .int
  | 1 => some .string
  | _ => none

def label (code : UInt8) : String :=
  codeLabel "Kind" code.toNat ((ofCode? code).map name)

def letters (kinds : List Kind) : String :=
  String.ofList (kinds.map letter)

end Kind

inductive StackRule where
  /-- As listed. -/
  | fixed
  /-- As many values of the listed kind as the operand says are popped. -/
  | operandCount
  /-- The signature of the callee decides. -/
  | call
  /-- Both stacks are emptied. -/
  | popAll
  /-- A constant type string describes the arguments of an event handler. -/
  | hook
  /-- A constant among the popped values gives the kind of the pushed one. -/
  | enum
  /-- Nothing can be said. -/
  | unknown
deriving DecidableEq, Repr

namespace StackRule

def name : StackRule → String
  | .fixed => "fixed"
  | .operandCount => "operand-count"
  | .call => "call"
  | .popAll => "pop-all"
  | .hook => "hook"
  | .enum => "enum"
  | .unknown => "unknown"

def code : StackRule → UInt8
  | .fixed => 0
  | .operandCount => 1
  | .call => 2
  | .popAll => 3
  | .hook => 4
  | .enum => 5
  | .unknown => 6

def ofCode? : UInt8 → Option StackRule
  | 0 => some .fixed
  | 1 => some .operandCount
  | 2 => some .call
  | 3 => some .popAll
  | 4 => some .hook
  | 5 => some .enum
  | 6 => some .unknown
  | _ => none

def label (code : UInt8) : String :=
  codeLabel "Rule" code.toNat ((ofCode? code).map name)

end StackRule

/-- Values consumed and produced. The last one popped or pushed is the top of its stack. -/
structure StackEffect where
  pops : List Kind := []
  pushes : List Kind := []
  rule : StackRule := .fixed
deriving DecidableEq, Repr

namespace StackEffect

def unknown : StackEffect := { rule := .unknown }

/-- The text of an effect whose rule is given by its code: the rule is left out if it is the fixed one. -/
def textOf (pops pushes : List Kind) (rule : UInt8) : String :=
  let listed := Kind.letters pops ++ "->" ++ Kind.letters pushes
  if rule = StackRule.fixed.code then listed else listed ++ " (" ++ StackRule.label rule ++ ")"

def text (effect : StackEffect) : String :=
  textOf effect.pops effect.pushes effect.rule.code

end StackEffect

def countKind (kind : Kind) (kinds : List Kind) : Nat :=
  kinds.countP (· = kind)

end ClientScript
