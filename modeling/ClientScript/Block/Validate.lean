import ClientScript.Block.Graph

/-!
Checking that blocks cover a program and that edges lead from block to block, and changing a graph by hand.
-/

namespace ClientScript.Graph

def checkRange (insts : List Instruction) (position expected : Int) (block : Block) : Option GraphError :=
  if block.id ≠ position then
    some (.wrongId position block.id)
  else if block.first ≠ expected ∨ block.last < block.first ∨ insts.length ≤ block.last then
    some (.wrongCover position block.first block.last expected)
  else if insts[block.first.toNat]?.map Instruction.offset ≠ some block.start ∨
      insts[block.last.toNat]?.map Instruction.next ≠ some block.stop then
    some (.wrongSpan position block.start block.stop)
  else
    none

def checkEdge (graph : Graph) (position : Int) (block : Block) (edge : Edge) : Option GraphError :=
  match graph.blockStarting edge.target with
  | some id => if block.succs.contains id then none else some (.noBlock position edge.target)
  | none => some (.noBlock position edge.target)

def checkSuccessor (graph : Graph) (position successor : Int) : Option GraphError :=
  match if successor < 0 then none else graph.blocks[successor.toNat]? with
  | none => some (.noSuccessor position successor)
  | some block => if block.preds.contains position then none else some (.notPredecessor position successor)

def checkBlock (graph : Graph) (position expected : Int) (block : Block) : Option GraphError :=
  (checkRange graph.program.insts position expected block)
    <|> (exits graph.program block).findSome? (graph.checkEdge position block)
    <|> block.succs.findSome? (graph.checkSuccessor position)

/-- Checks blocks from a position on, the first of which should start at instruction `expected`. -/
def checkBlocks (graph : Graph) (position : Nat) (expected : Int) : List Block → Option GraphError
  | [] =>
    if expected = graph.program.insts.length then none
    else some (.uncovered expected graph.program.insts.length)
  | block :: rest =>
    (graph.checkBlock position expected block) <|> graph.checkBlocks (position + 1) (block.last + 1) rest

def validate (graph : Graph) : Option GraphError :=
  graph.checkBlocks 0 0 graph.blocks

structure Patch where
  id : Option Int := none
  start : Option Int := none
  stop : Option Int := none
  first : Option Int := none
  last : Option Int := none
  succs : Option (List Int) := none
  preds : Option (List Int) := none

def Patch.apply (patch : Patch) (block : Block) : Block :=
  { block with
    id := patch.id.getD block.id
    start := patch.start.getD block.start
    stop := patch.stop.getD block.stop
    first := patch.first.getD block.first
    last := patch.last.getD block.last
    succs := patch.succs.getD block.succs
    preds := patch.preds.getD block.preds }

/-- A change to a graph. The offsets at which blocks were built stay as they are. -/
inductive Change where
  | setEdges (index : Nat) (edges : List Edge)
  | setBlock (position : Nat) (patch : Patch)
  | dropBlocks (count : Nat)

def change (graph : Graph) : Change → Graph
  | .setEdges index edges => { graph with program := graph.program.setEdges index edges }
  | .setBlock position patch => { graph with blocks := graph.blocks.modify position patch.apply }
  | .dropBlocks count => { graph with blocks := graph.blocks.take (graph.blocks.length - count) }

end ClientScript.Graph
