import ClientScript.CommandLine.Host
import ClientScript.Text.Columns

/-!
The command that prints the registry of operations.
-/

namespace ClientScript

namespace Descriptor

def row (desc : Descriptor) : Row where
  cells := [toString desc.op.code, desc.mnemonic, desc.shape.name, desc.width.elim "var" toString, desc.stack.text]
  tail := desc.flow.name

end Descriptor

namespace Registry

def table (registry : Registry) (withOpaque : Bool) : String :=
  let shown := registry.sorted.filter fun desc => withOpaque || !desc.isOpaque
  unlines (Columns.lines (⟨["CODE", "NAME", "OPERAND", "WIDTH", "STACK"], "FLOW"⟩ :: shown.map Descriptor.row))

end Registry

namespace Command

def opcodesFlags : List Flag := [⟨["all"], .switch⟩]

variable {m : Type → Type} [Monad m]

def opcodes (host : Host m) (args : Arguments) : Command m Unit :=
  host.out (Registry.standard.table (args.isOn "all"))

end Command

end ClientScript
