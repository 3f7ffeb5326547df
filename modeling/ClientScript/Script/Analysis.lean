import ClientScript.Block.Build
import ClientScript.Decoder
import ClientScript.Flow.Resolve
import ClientScript.Script.Container

/-!
Analysis of a script: its instructions, its signature and its block graph.
-/

namespace ClientScript

inductive ScriptError where
  | decode (error : DecodeError)
  | instructionCount (declared decoded : Int)
deriving DecidableEq, Repr

namespace ScriptError

def message : ScriptError → String
  | .decode error => error.message
  | .instructionCount declared decoded =>
    "instruction count mismatch: " ++ toString declared ++ " declared, " ++ toString decoded ++ " decoded"

end ScriptError

inductive Stage where
  | load
  | read
  | decode
  | flow
  | block
  | timeout
deriving DecidableEq, Repr

namespace Stage

def name : Stage → String
  | .load => "load"
  | .read => "read"
  | .decode => "decode"
  | .flow => "flow"
  | .block => "block"
  | .timeout => "timeout"

def ofCode? : UInt8 → Option Stage
  | 0 => some .load
  | 1 => some .read
  | 2 => some .decode
  | 3 => some .flow
  | 4 => some .block
  | 5 => some .timeout
  | _ => none

def label (code : UInt8) : String :=
  codeLabel "Stage" code.toNat ((ofCode? code).map name)

end Stage

inductive AnalysisError where
  | decode (error : ScriptError)
  | flow (error : FlowError)
  | block (error : GraphError)
deriving DecidableEq, Repr

namespace AnalysisError

def stage : AnalysisError → Stage
  | .decode _ => .decode
  | .flow _ => .flow
  | .block _ => .block

def detail : AnalysisError → String
  | .decode error => error.message
  | .flow error => error.message
  | .block error => error.message

def message (error : AnalysisError) : String :=
  error.stage.name ++ ": " ++ error.detail

end AnalysisError

namespace Instruction

def constantKind? (inst : Instruction) : Option Kind :=
  if inst.op = .pushConstantInt then some .int
  else if inst.op = .pushConstantString then some .string
  else none

end Instruction

/-- The kinds of the constants pushed right before the last instruction. A script declares its results so. -/
def returnTypes (insts : List Instruction) : List Kind :=
  (((insts.dropLast.reverse.map Instruction.constantKind?).takeWhile Option.isSome).filterMap id).reverse

namespace Script

variable {m : Type → Type} [Monad m]

def decodeM (callee : Int32 → m (Option Signature)) (decoder : Decoder) (script : Script) :
    m (Except ScriptError (List Instruction)) := do
  let decoder := { decoder with switches := .indexed, tables := script.switches }
  match ← decoder.decodeM callee script.code 0 with
  | .error error => return .error (.decode error)
  | .ok insts =>
    if insts.length = script.instructionCount then return .ok insts
    else return .error (.instructionCount script.instructionCount insts.length)

def decode (callee : Int32 → Option Signature) (decoder : Decoder) (script : Script) :
    Except ScriptError (List Instruction) :=
  Id.run (decodeM (m := Id) callee decoder script)

def signature (script : Script) : Except ScriptError Signature :=
  (script.decode (fun _ => none) {}).map fun insts =>
    { intArgs := script.intArgs.toNat
      stringArgs := script.stringArgs.toNat
      returns := returnTypes insts }

def analyzeM (callee : Int32 → m (Option Signature)) (decoder : Decoder) (options : FlowOptions)
    (script : Script) : m (Except AnalysisError Graph) := do
  match ← script.decodeM callee decoder with
  | .error error => return .error (.decode error)
  | .ok insts =>
    match resolve options insts with
    | .error error => return .error (.flow error)
    | .ok program => return (Graph.build program).mapError .block

def analyze (callee : Int32 → Option Signature) (decoder : Decoder) (options : FlowOptions) (script : Script) :
    Except AnalysisError Graph :=
  Id.run (analyzeM (m := Id) callee decoder options script)

end Script

end ClientScript
