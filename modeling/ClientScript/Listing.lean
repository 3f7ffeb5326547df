import ClientScript.Block.Graph
import ClientScript.Text.Columns

/-!
Listings: the blocks of a graph, each with its instructions.
-/

namespace ClientScript.Graph

def headerLine (block : Block) : String :=
  "block " ++ toString block.id ++ " [" ++ toString block.start ++ ", " ++ toString block.stop ++
    ") preds: " ++ idList block.preds ++ " succs: " ++ idList block.succs ++
    if block.reachable then "" else " unreachable"

/-- The columns of an instruction: number, offset, mnemonic, operand, depth, then the targets of a jump
and the stacks, where they are asked for and known. -/
def instructionColumns (withStack : Bool) (inst : Instruction) (edges : List Edge) : List String :=
  let targets := Program.jumpTargets edges
  ["  " ++ toString inst.index, toString inst.offset, inst.desc.mnemonic, inst.operandText, inst.after.text]
    ++ (if targets.isEmpty then [] else ["-> " ++ idList targets])
    ++ (match withStack, inst.stack with
      | true, some frame => [frame.text]
      | _, _ => [])

def rowOf (columns : List String) : Row :=
  ⟨columns.dropLast, columns.getLast?.getD ""⟩

def blockRows (withStack : Bool) (program : Program) (block : Block) : List Row :=
  let count := (block.last + 1 - block.first).toNat
  let members := ((program.insts.zip program.edges).drop block.first.toNat).take count
  ⟨[], headerLine block⟩ ::
    members.map fun member => rowOf (instructionColumns withStack member.1 member.2)

def opaqueRows (program : Program) : List Row :=
  let offsets := program.opaqueOffsets
  if offsets.isEmpty then [] else [⟨[], "opaque instructions at " ++ idList offsets⟩]

def rows (withStack : Bool) (graph : Graph) : List Row :=
  graph.blocks.flatMap (blockRows withStack graph.program) ++ opaqueRows graph.program

def listing (withStack : Bool) (graph : Graph) : String :=
  unlines (Columns.lines (graph.rows withStack))

end ClientScript.Graph
