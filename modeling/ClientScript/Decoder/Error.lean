import ClientScript.Bytes.Read
import ClientScript.Stack.Frame
import ClientScript.Shape
import ClientScript.Opcode

/-!
Failures of decoding.
-/

namespace ClientScript

inductive SwitchFault where
  | noSuchTable (index : Int32) (count : Nat)
  | emptyGroup (group : Nat)
  | badCombinator (code : Int16) (group : Nat)
deriving DecidableEq, Repr

namespace SwitchFault

def message : SwitchFault → String
  | .noSuchTable index count => "table " ++ toString index.toInt ++ " of " ++ toString count
  | .emptyGroup group => "empty case group " ++ toString group
  | .badCombinator code group =>
    "bad combinator " ++ toString code.toInt ++ " in group " ++ toString group

end SwitchFault

inductive DecodeCause where
  /-- The start is outside the code. -/
  | outside
  | opcodeTruncated (error : ReadError)
  | operandTruncated (shape : Shape) (error : ReadError)
  | badSwitch (fault : SwitchFault)
  | tooManyInstructions
  | stack (error : StackError)
deriving DecidableEq, Repr

namespace DecodeCause

def message : DecodeCause → String
  | .outside => "stream truncated"
  | .opcodeTruncated error => "stream truncated: opcode: " ++ error.message
  | .operandTruncated shape error =>
    "stream truncated: " ++ shape.name ++ " operand: " ++ error.message
  | .badSwitch fault => "malformed switch table: " ++ fault.message
  | .tooManyInstructions => "instruction limit exceeded"
  | .stack error => "stack mismatch: " ++ error.message

end DecodeCause

/-- A failure at an instruction, with its opcode if that was read. -/
structure DecodeError where
  offset : Int
  op : Option Opcode
  cause : DecodeCause
deriving DecidableEq, Repr

namespace DecodeError

def message (error : DecodeError) : String :=
  let place := "at " ++ toString error.offset ++ ": " ++ error.cause.message
  match error.op with
  | none => "decode " ++ place
  | some op => "decode " ++ op.name ++ " " ++ place

end DecodeError

end ClientScript
