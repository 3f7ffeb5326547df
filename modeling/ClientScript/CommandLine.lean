import ClientScript.CommandLine.Batch
import ClientScript.CommandLine.Disassemble
import ClientScript.CommandLine.Opcodes

/-!
The command line: the name of a command and its words.
-/

namespace ClientScript

/-- How a command ended: its exit code, and what it says about a failure. -/
structure Exit where
  code : UInt8 := 0
  message : String := ""
deriving DecidableEq, Repr

namespace Command

variable {m : Type → Type} [Monad m]

def usage : String :=
  unlines ["cs2 - CS2 bytecode disassembler and control flow analyzer", "",
    "dis [--config-file <file>] [--raw] [--stack] [--strict] [--out <file>] <file>",
    "opcodes [--all]",
    "batch [--config-file <file>] [--workers <n>] [--timeout <duration>] [<dir>]"]

def helpFlag : Flag := ⟨["help", "h"], .switch⟩

/-- Runs a command with its flags. Every command has a flag that asks for help instead. -/
def runWith (host : Host m) (flags : List Flag) (action : Arguments → Command m Unit) (words : List String) :
    Command m Unit := do
  let args ← take .flag (Flag.parse (flags ++ [helpFlag]) words)
  if args.isOn "help" then host.out usage else action args

def dispatch (host : Host m) : List String → Command m Unit
  | [] => host.out usage
  | "dis" :: words => runWith host disassembleFlags (disassemble host) words
  | "opcodes" :: words => runWith host opcodesFlags (opcodes host) words
  | "batch" :: words => runWith host batchFlags (batch host) words
  | name :: _ => throw (.unknownCommand name)

end Command

/-- Runs a command line. A double dash in front of the command is passed over. -/
def Host.run {m : Type → Type} [Monad m] (host : Host m) (words : List String) : m Exit := do
  let words := if words.head? = some "--" then words.drop 1 else words
  match ← ExceptT.run (Command.dispatch host words) with
  | .ok () => return {}
  | .error error => return ⟨error.exitCode, error.message ++ "\n"⟩

end ClientScript
