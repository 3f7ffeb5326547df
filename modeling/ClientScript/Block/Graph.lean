import ClientScript.Flow.Program

/-!
Basic blocks and the graph they form.
-/

namespace ClientScript

/-- A run of instructions that is entered at its first and left at its last. -/
structure Block where
  id : Int
  /-- The offset of the first instruction. -/
  start : Int
  /-- The offset right after the last instruction. -/
  stop : Int
  /-- The number of the first instruction. -/
  first : Int
  /-- The number of the last instruction. -/
  last : Int
  succs : List Int := []
  preds : List Int := []
  reachable : Bool := false
deriving DecidableEq, Repr

namespace Block

def length (block : Block) : Int := block.last - block.first + 1

end Block

/-- Blocks in the order of their instructions; the first one is the entry. -/
structure Graph where
  program : Program
  blocks : List Block
  /-- The offset and the number of every block as it was built, the last block first. -/
  starts : List (Int × Int)
deriving DecidableEq, Repr

inductive GraphError where
  /-- An edge between offsets leads to no instruction. -/
  | noInstruction (source target : Int)
  /-- An edge of a block leads to no block. -/
  | noBlock (block target : Int)
  /-- A successor is no block. -/
  | noSuccessor (block successor : Int)
  | notPredecessor (block successor : Int)
  | wrongId (position id : Int)
  | wrongCover (block first last expected : Int)
  | wrongSpan (block start stop : Int)
  | uncovered (covered total : Int)
deriving DecidableEq, Repr

namespace GraphError

/-- Whether an edge is at fault, and not the division into blocks. -/
def isDangling : GraphError → Bool
  | .noInstruction .. | .noBlock .. | .noSuccessor .. | .notPredecessor .. => true
  | .wrongId .. | .wrongCover .. | .wrongSpan .. | .uncovered .. => false

def detail : GraphError → String
  | .noInstruction source target => toString source ++ " -> " ++ toString target
  | .noBlock block target => "block " ++ toString block ++ " -> " ++ toString target
  | .noSuccessor block successor => "block " ++ toString block ++ " -> block " ++ toString successor
  | .notPredecessor block successor =>
    "block " ++ toString block ++ " is not a predecessor of " ++ toString successor
  | .wrongId position id => "block " ++ toString position ++ " has ID " ++ toString id
  | .wrongCover block first last expected =>
    "block " ++ toString block ++ " covers " ++ toString first ++ ".." ++ toString last ++
      ", expected to start at " ++ toString expected
  | .wrongSpan block start stop =>
    "block " ++ toString block ++ " spans " ++ toString start ++ ".." ++ toString stop
  | .uncovered covered total =>
    toString covered ++ " of " ++ toString total ++ " instructions covered"

def message (error : GraphError) : String :=
  (if error.isDangling then "dangling edge: " else "broken partition: ") ++ error.detail

end GraphError

/-- The first place from `low` to `high` at which a test holds, if the test never turns false again. -/
def bisect (test : Nat → Bool) (low high : Nat) : Nat :=
  if low < high then
    let middle := (low + high) / 2
    if test middle then bisect test low middle else bisect test (middle + 1) high
  else
    low
termination_by high - low

namespace Graph

/-- The number of the block that was built at an offset. -/
def blockStarting (graph : Graph) (offset : Int) : Option Int :=
  graph.starts.lookup offset

def blockAt (graph : Graph) (offset : Int) : Option Block :=
  let position := bisect (fun index => graph.blocks[index]?.any fun block => offset < block.stop)
    0 graph.blocks.length
  graph.blocks[position]?.filter fun block => block.start ≤ offset

def entry (graph : Graph) : Option Block := graph.blocks.head?

def unreachable (graph : Graph) : List Int :=
  graph.blocks.zipIdx.filterMap fun entry => if entry.1.reachable then none else some entry.2

def exits (program : Program) (block : Block) : List Edge :=
  program.edges.getD block.last.toNat []

end Graph

end ClientScript
