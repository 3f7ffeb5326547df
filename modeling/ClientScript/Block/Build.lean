import ClientScript.Block.Graph

/-!
Splitting a program into blocks. A block starts at the first instruction, at every target of a jump or
a switch, and after every instruction that ends a block.
-/

namespace ClientScript.Graph

/-- The numbers of the instructions that edges other than falling through lead to. -/
def jumpIndices (program : Program) : List (Instruction × List Edge) → Except GraphError (List Nat)
  | [] => .ok []
  | (inst, edges) :: rest =>
    let resolved := (Program.jumpTargets edges).mapM fun target =>
      match program.indexAt target with
      | some index => Except.ok index
      | none => .error (GraphError.noInstruction inst.offset target)
    match resolved with
    | .error error => .error error
    | .ok indices => (jumpIndices program rest).map (indices ++ ·)

def leaders (insts : List Instruction) (targets : List Nat) : List Bool :=
  List.zipWith (fun index ended => ended || targets.contains index) (List.range insts.length)
    (true :: insts.map Instruction.terminates)

def spans (count : Nat) : List Nat → List (Nat × Nat)
  | [] => []
  | [first] => [(first, count - 1)]
  | first :: next :: rest => (first, next - 1) :: spans count (next :: rest)

/-- The blocks without their links. -/
def partition (insts : List Instruction) (targets : List Nat) : List Block :=
  let firsts := (leaders insts targets).zipIdx.filterMap fun flag => if flag.1 then some flag.2 else none
  (spans insts.length firsts).zipIdx.map fun span =>
    { id := span.2
      start := (insts[span.1.1]?.map Instruction.offset).getD 0
      stop := (insts[span.1.2]?.map Instruction.next).getD 0
      first := span.1.1
      last := span.1.2 }

def linkBlock (program : Program) (starts : List (Int × Int)) (block : Block) : Except GraphError Block :=
  let resolved := (exits program block).mapM fun edge =>
    match starts.lookup edge.target with
    | some id => Except.ok id
    | none => .error (GraphError.noBlock block.id edge.target)
  match resolved with
  | .error error => .error error
  | .ok succs => .ok { block with succs := succs.eraseDups }

def predecessors (blocks : List Block) (id : Int) : List Int :=
  (blocks.filter fun block => block.succs.contains id).map Block.id

def newlySeen (next unseen : List Int) : List Int := unseen.filter fun id => next.contains id

def stillUnseen (next unseen : List Int) : List Int := unseen.filter fun id => !next.contains id

theorem length_newlySeen_add_stillUnseen (next unseen : List Int) :
    (newlySeen next unseen).length + (stillUnseen next unseen).length = unseen.length := by
  induction unseen with
  | nil => rfl
  | cons id rest ih =>
    unfold newlySeen stillUnseen at *
    cases seen : next.contains id <;> simp only [List.filter_cons, seen, Bool.not_true, Bool.not_false,
      Bool.false_eq_true, if_true, if_false, List.length_cons] <;> omega

/-- What is left of the unseen blocks when no more can be reached from the queue. -/
def unreached (succs : Int → List Int) (queue unseen : List Int) : List Int :=
  match queue with
  | [] => unseen
  | id :: rest =>
    unreached succs (rest ++ newlySeen (succs id) unseen) (stillUnseen (succs id) unseen)
termination_by queue.length + unseen.length
decreasing_by
  have split := length_newlySeen_add_stillUnseen (succs id) unseen
  simp only [List.length_append, List.length_cons]
  omega

def successors (blocks : List Block) (id : Int) : List Int :=
  (blocks[id.toNat]?.map Block.succs).getD []

/-- The blocks with their predecessors, and with a mark on those that can be reached from the first. -/
def complete (blocks : List Block) : List Block :=
  let rest := unreached (successors blocks) [0] (blocks.tail.map Block.id)
  blocks.map fun block =>
    { block with preds := predecessors blocks block.id, reachable := !rest.contains block.id }

def build (program : Program) : Except GraphError Graph :=
  match jumpIndices program (program.insts.zip program.edges) with
  | .error error => .error error
  | .ok targets =>
    let blocks := partition program.insts targets
    let starts := (blocks.map fun block => (block.start, block.id)).reverse
    match blocks.mapM (linkBlock program starts) with
    | .error error => .error error
    | .ok blocks => .ok ⟨program, complete blocks, starts⟩

end ClientScript.Graph
