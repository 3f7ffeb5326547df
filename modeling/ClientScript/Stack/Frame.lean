import ClientScript.Opcode
import ClientScript.Text.Quoted

/-!
The two operand stacks as far as they are known.
-/

namespace ClientScript

inductive Value where
  | int (constant : Option Int32)
  | string (constant : Option String)
deriving DecidableEq, Repr

namespace Value

def kind : Value → Kind
  | .int _ => .int
  | .string _ => .string

def ofKind : Kind → Value
  | .int => .int none
  | .string => .string none

def text : Value → String
  | .int none => "i?"
  | .string none => "s?"
  | .int (some constant) => toString constant.toInt
  | .string (some constant) => quoteText constant

def int? : Value → Option Int32
  | .int constant => constant
  | .string _ => none

def string? : Value → Option String
  | .string constant => constant
  | .int _ => none

end Value

/-- Both stacks, each with its top first. -/
structure Frame where
  ints : List Value := []
  strings : List Value := []
deriving DecidableEq, Repr

inductive Depth where
  | unknown
  | known (ints strings : Nat)
deriving DecidableEq, Repr

namespace Depth

def text : Depth → String
  | .unknown => "?"
  | .known ints strings => "i" ++ toString ints ++ " s" ++ toString strings

end Depth

/-- What is known of the stacks: `none` after an operation whose effect could not be told. -/
abbrev StackState := Option Frame

namespace StackState

def depth : StackState → Depth
  | none => .unknown
  | some frame => .known frame.ints.length frame.strings.length

end StackState

inductive StackError where
  | underflow (kind : Kind)
  | argumentCount (count : Int)
  | leftover (ints strings : Nat) (op : Opcode)
deriving DecidableEq, Repr

namespace StackError

def message : StackError → String
  | .underflow kind => kind.name ++ " stack underflow"
  | .argumentCount count => "bad argument count " ++ toString count
  | .leftover ints strings op =>
    toString ints ++ " ints and " ++ toString strings ++ " strings left at " ++ op.name

end StackError

namespace Frame

def pop (kind : Kind) (frame : Frame) : Except StackError (Value × Frame) :=
  match kind with
  | .int =>
    match frame.ints with
    | [] => .error (.underflow .int)
    | top :: rest => .ok (top, { frame with ints := rest })
  | .string =>
    match frame.strings with
    | [] => .error (.underflow .string)
    | top :: rest => .ok (top, { frame with strings := rest })

def push (value : Value) (frame : Frame) : Frame :=
  match value.kind with
  | .int => { frame with ints := value :: frame.ints }
  | .string => { frame with strings := value :: frame.strings }

def popMany (kind : Kind) : Nat → Frame → Except StackError Frame
  | 0, frame => .ok frame
  | count + 1, frame =>
    match frame.pop kind with
    | .error error => .error error
    | .ok (_, rest) => popMany kind count rest

/-- Pops values listed in the order in which they were pushed, and gives them in that order. -/
def popKinds : List Kind → Frame → Except StackError (List Value × Frame)
  | [], frame => .ok ([], frame)
  | kind :: above, frame =>
    match popKinds above frame with
    | .error error => .error error
    | .ok (values, rest) =>
      match rest.pop kind with
      | .error error => .error error
      | .ok (value, rest) => .ok (value :: values, rest)

def pushKinds (kinds : List Kind) (frame : Frame) : Frame :=
  kinds.foldl (fun frame kind => frame.push (.ofKind kind)) frame

def texts (frame : Frame) : List String × List String :=
  (frame.ints.reverse.map Value.text, frame.strings.reverse.map Value.text)

def text (frame : Frame) : String :=
  let bracket (values : List String) := "[" ++ String.intercalate " " values ++ "]"
  bracket frame.texts.1 ++ " " ++ bracket frame.texts.2

end Frame

end ClientScript
