import ClientScript.Instruction

/-!
The effect of one instruction on the operand stacks. Constants are followed because the effect of
some instructions depends on values pushed earlier.
-/

namespace ClientScript

structure Signature where
  intArgs : Nat := 0
  stringArgs : Nat := 0
  returns : List Kind := []
deriving DecidableEq, Repr

def fold? (op : Opcode) (left right : Int32) : Option Int32 :=
  if op = .add then some (left + right)
  else if op = .sub then some (left - right)
  else if op = .multiply then some (left * right)
  else if op = .div then if right = 0 then none else some (left / right)
  else if op = .mod then if right = 0 then none else some (left % right)
  else if op = .and then some (left &&& right)
  else if op = .or then some (left ||| right)
  else none

namespace Frame

def foldArgs? (op : Opcode) : List Value → Option Int32
  | [.int (some left), .int (some right)] => fold? op left right
  | _ => none

def pushResults (inst : Instruction) (args : List Value) (frame : Frame) : Frame :=
  if inst.op = .pushConstantInt then frame.push (.int (some inst.operand.toInt))
  else if inst.op = .pushConstantString then frame.push (.string (some inst.operand.toText))
  else match foldArgs? inst.op args with
    | some constant => frame.push (.int (some constant))
    | none => frame.pushKinds inst.desc.stack.pushes

def typeKind (char : Char) : Kind :=
  if char = 's' then .string else .int

/-- The arguments that a type string describes, one for each byte of its UTF-8 form. -/
def typeKinds (types : List Char) : List Kind :=
  types.flatMap fun char => List.replicate char.utf8Size (typeKind char)

/-- A type string that ends in a `Y` has a counted list of integers after the arguments it describes. -/
def splitCounted (types : List Char) : List Char × Bool :=
  if types.getLast? = some 'Y' then (types.dropLast, true) else (types, false)

/-- Pops a counted list of integers. `none` if the count is no constant. -/
def popCounted (frame : Frame) : Except StackError (Option Frame) :=
  match frame.pop .int with
  | .error error => .error error
  | .ok (count, rest) =>
    match count.int? with
    | none => .ok none
    | some count =>
      if count < 0 then .ok none else (rest.popMany .int count.toInt.toNat).map some

def popHandler (types : List Char) (frame : Frame) : Except StackError Frame :=
  match frame.popKinds (.int :: typeKinds types) with
  | .error error => .error error
  | .ok (_, rest) => .ok rest

def hookArgs (frame : Frame) : Except StackError (Option Frame) :=
  match frame.pop .string with
  | .error error => .error error
  | .ok (types, rest) =>
    match types.string? with
    | none => .ok none
    | some types =>
      let (types, counted) := splitCounted types.toList
      match if counted then rest.popCounted else .ok (some rest) with
      | .error error => .error error
      | .ok none => .ok none
      | .ok (some rest) => (rest.popHandler types).map some

def hook (referent : Referent) (frame : Frame) : Except StackError (Option Frame) :=
  if referent = .interface then
    match frame.pop .int with
    | .error error => .error error
    | .ok (_, rest) => rest.hookArgs
  else
    frame.hookArgs

/-- Of the four arguments the second one, a type, decides on the kind of the result. -/
def enum (frame : Frame) : Except StackError (Option Frame) :=
  match frame.popKinds [.int, .int, .int, .int] with
  | .error error => .error error
  | .ok (values, rest) =>
    match values[1]?.bind Value.int? with
    | none => .ok none
    | some type => .ok (some (rest.push (.ofKind (typeKind (Char.ofNat (type.toUInt32.toNat % 256))))))

/-- The strings of a call are on top of its integers. -/
def call (signature : Signature) (frame : Frame) : Except StackError Frame :=
  match frame.popMany .string signature.stringArgs with
  | .error error => .error error
  | .ok rest =>
    match rest.popMany .int signature.intArgs with
    | .error error => .error error
    | .ok rest => .ok (rest.pushKinds signature.returns)

/-- The stacks after an instruction: `none` if its effect cannot be told. `callee` is the signature of
the script that it calls, if that is known. -/
def apply (callee : Option Signature) (inst : Instruction) (frame : Frame) :
    Except StackError (Option Frame) :=
  match inst.desc.stack.rule with
  | .fixed =>
    match frame.popKinds inst.desc.stack.pops with
    | .error error => .error error
    | .ok (args, rest) => .ok (some (rest.pushResults inst args))
  | .operandCount =>
    match inst.desc.stack.pops with
    | [kind] =>
      if inst.operand.toInt < 0 then .error (.argumentCount inst.operand.toInt.toInt)
      else
        match frame.popMany kind inst.operand.toInt.toInt.toNat with
        | .error error => .error error
        | .ok rest => .ok (some (rest.pushKinds inst.desc.stack.pushes))
    | _ => .error (.argumentCount inst.operand.toInt.toInt)
  | .call =>
    match callee with
    | none => .ok none
    | some signature => (frame.call signature).map some
  | .popAll => .ok (some {})
  | .hook => frame.hook inst.desc.referent
  | .enum => frame.enum
  | .unknown => .ok none

end Frame

end ClientScript
