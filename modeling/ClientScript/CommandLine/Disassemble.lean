import ClientScript.CommandLine.Host
import ClientScript.Listing

/-!
The command that prints the listing of a script.
-/

namespace ClientScript

namespace Script

def headerLines (script : Script) (insts : List Instruction) : List String :=
  let returns := returnTypes insts
  (if script.name = "" then [] else ["name: " ++ script.name]) ++
    ["args: " ++ toString script.intArgs ++ " int, " ++ toString script.stringArgs ++ " string",
      "locals: " ++ toString script.localInts ++ " int, " ++ toString script.localStrings ++ " string"] ++
    (if returns.isEmpty then []
      else ["returns: " ++ String.intercalate ", " (returns.map Kind.name)]) ++
    if script.switches.isEmpty then [] else ["switch tables: " ++ toString script.switches.length]

end Script

namespace Decoder

def analyzeCode (decoder : Decoder) (options : FlowOptions) (code : List UInt8) :
    Except AnalysisError Graph := do
  let insts ← (decoder.decode (fun _ => none) code 0).mapError fun error => .decode (.decode error)
  let program ← (resolve options insts).mapError .flow
  (Graph.build program).mapError .block

end Decoder

namespace Command

def disassembleFlags : List Flag :=
  commonFlags ++ [⟨["raw"], .switch⟩, ⟨["stack"], .switch⟩, ⟨["out", "o"], .text⟩] ++ decoderFlags

/-- The header of a file, if it is a script and no bare code, and its graph. -/
def readGraph (settings : DecoderSettings) (raw : Bool) (bytes : List UInt8) :
    Except CommandError (List String × Graph) := do
  let decoder ← settings.decoder.mapError fun error => .settings (.unknownName error)
  let options ← settings.flowOptions.mapError fun error => .settings (.unknownName error)
  if raw then
    let graph ← (decoder.analyzeCode options bytes).mapError .code
    return ([], graph)
  else
    let script ← (Script.read bytes).mapError .container
    let graph ← (script.analyze (fun _ => none) decoder options).mapError .script
    return (script.headerLines graph.program.insts, graph)

variable {m : Type → Type} [Monad m]

def print (host : Host m) (path text : String) : Command m Unit := do
  if path = "" then host.out text
  else
    makeDirFor host "listing" path
    file .writeListing (host.files.write path text.toUTF8.toList)

def disassemble (host : Host m) (args : Arguments) : Command m Unit := do
  match args.operands with
  | [] => throw .noFile
  | path :: _ =>
    let settings ← settings host args
    let logger ← openLog host args settings.logger
    let bytes ← file .readScript (host.files.read path)
    let (header, graph) ← take id (readGraph settings.decoder (args.isOn "raw") bytes)
    log host logger [⟨.debug, "script decoded", [("file", .text path),
      ("instructions", .int graph.program.insts.length), ("blocks", .int graph.blocks.length)]⟩]
    print host (args.text "out") (unlines header ++ graph.listing (args.isOn "stack"))

end Command

end ClientScript
