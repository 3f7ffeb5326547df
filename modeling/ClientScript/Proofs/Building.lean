import ClientScript.Proofs.ControlFlow
import ClientScript.Proofs.Partition

/-!
Building of block graphs. A graph is built exactly if every jump leads to an instruction and every way out of a
block to the start of a block; `IsGraphOf` says what the graph is then. A program whose control flow was resolved
always has one. In decoded code its blocks are the longest runs that nothing enters or leaves in the middle.
-/

namespace ClientScript

def Program.IsJumpTarget (program : Program) (index : Nat) : Prop :=
  ∃ edges ∈ program.edges, ∃ edge ∈ edges, edge.kind ≠ .fallThrough ∧ program.indexAt edge.target = some index

namespace Graph

theorem mem_jumpTargets {edges : List Edge} {target : Int} :
    target ∈ Program.jumpTargets edges ↔ ∃ edge ∈ edges, edge.kind ≠ .fallThrough ∧ edge.target = target := by
  simp [Program.jumpTargets, and_assoc]

theorem jumpIndices_eq_ok_iff (program : Program) (rows : List (Instruction × List Edge)) (targets : List Nat) :
    jumpIndices program rows = .ok targets ↔
      (∀ row ∈ rows, ∀ target ∈ Program.jumpTargets row.2, (program.indexAt target).isSome = true) ∧
        (rows.flatMap fun row => Program.jumpTargets row.2).filterMap program.indexAt = targets := by
  induction rows generalizing targets with
  | nil => simp [jumpIndices]
  | cons row rest ih =>
    obtain ⟨inst, edges⟩ := row
    rw [jumpIndices, List.forall_mem_cons, List.flatMap_cons, List.filterMap_append]
    dsimp only
    generalize looked : ((Program.jumpTargets edges).mapM _ : Except GraphError (List Nat)) = resolved
    have first (indices : List Nat) : resolved = .ok indices ↔
        (∀ target ∈ Program.jumpTargets edges, (program.indexAt target).isSome = true) ∧
          (Program.jumpTargets edges).filterMap program.indexAt = indices := by
      rw [← looked]
      apply mapM_eq_ok_iff_filterMap
      intro target index
      cases program.indexAt target <;> simp
    cases resolved with
    | error error =>
      refine iff_of_false (by simp) fun parts => ?_
      cases (first _).2 ⟨parts.1.1, rfl⟩
    | ok indices =>
      obtain ⟨all, rfl⟩ := (first indices).1 rfl
      simp only [map_eq_ok_iff, ih, and_assoc, exists_and_left, exists_eq_left']
      exact (and_iff_right all).symm

theorem mem_targets_iff {program : Program} (long : program.edges.length = program.insts.length) {targets : List Nat}
    (resolved : jumpIndices program (program.insts.zip program.edges) = .ok targets) (index : Nat) :
    index ∈ targets ↔ program.IsJumpTarget index := by
  obtain ⟨-, rfl⟩ := (jumpIndices_eq_ok_iff _ _ _).1 resolved
  have rows : (program.insts.zip program.edges).map Prod.snd = program.edges := List.map_snd_zip (by omega)
  have listed : ((program.insts.zip program.edges).flatMap fun row => Program.jumpTargets row.2) =
      program.edges.flatMap Program.jumpTargets := by
    conv_rhs => rw [← rows, List.flatMap_map]
  rw [listed, List.mem_filterMap, Program.IsJumpTarget]
  simp only [List.mem_flatMap, mem_jumpTargets]
  constructor
  · intro parts
    rcases parts with ⟨_, ⟨edges, member, edge, way, kind, rfl⟩, found⟩
    exact ⟨edges, member, edge, way, kind, found⟩
  · intro parts
    rcases parts with ⟨edges, member, edge, way, kind, found⟩
    exact ⟨_, ⟨edges, member, edge, way, kind, rfl⟩, found⟩

def withSuccs (program : Program) (starts : List (Int × Int)) (block : Block) : Block :=
  { block with succs := ((exits program block).filterMap fun edge => starts.lookup edge.target).eraseDups }

theorem linkBlock_eq_ok_iff (program : Program) (starts : List (Int × Int)) (block linked : Block) :
    linkBlock program starts block = .ok linked ↔
      (∀ edge ∈ exits program block, (starts.lookup edge.target).isSome = true) ∧
        withSuccs program starts block = linked := by
  unfold linkBlock
  dsimp only
  generalize looked : ((exits program block).mapM _ : Except GraphError (List Int)) = resolved
  have succs (ids : List Int) : resolved = .ok ids ↔
      (∀ edge ∈ exits program block, (starts.lookup edge.target).isSome = true) ∧
        ((exits program block).filterMap fun edge => starts.lookup edge.target) = ids := by
    rw [← looked]
    apply mapM_eq_ok_iff_filterMap
    intro edge id
    cases starts.lookup edge.target <;> simp
  cases resolved with
  | error error =>
    refine iff_of_false (by simp) fun parts => ?_
    cases (succs _).2 ⟨parts.1, rfl⟩
  | ok ids =>
    obtain ⟨all, rfl⟩ := (succs ids).1 rfl
    rw [Except.ok.injEq]
    exact (and_iff_right all).symm

theorem mapM_linkBlock_eq_ok_iff (program : Program) (starts : List (Int × Int)) (blocks linked : List Block) :
    blocks.mapM (linkBlock program starts) = .ok linked ↔
      (∀ block ∈ blocks, ∀ edge ∈ exits program block, (starts.lookup edge.target).isSome = true) ∧
        blocks.map (withSuccs program starts) = linked := by
  rw [mapM_eq_ok_iff]
  simp only [linkBlock_eq_ok_iff]
  rw [List.forall₂_and_left, ← List.forall₂_map_left_iff, List.forall₂_eq_eq_eq]

/-- The offset and the number of every block, the last block first. -/
def startsOf (blocks : List Block) : List (Int × Int) :=
  (blocks.map fun block => (block.start, block.id)).reverse

theorem exists_of_lookup {blocks : List Block} {offset id : Int} (found : (startsOf blocks).lookup offset = some id) :
    ∃ block ∈ blocks, block.start = offset ∧ block.id = id := by
  obtain ⟨before, behind, split, -⟩ := List.lookup_eq_some_iff.1 found
  have member : (offset, id) ∈ startsOf blocks := by simp [split]
  simpa [startsOf] using member

theorem isSome_lookup {blocks : List Block} {block : Block} (member : block ∈ blocks) :
    ((startsOf blocks).lookup block.start).isSome = true := by
  refine List.lookup_isSome_iff.2 ⟨(block.start, block.id), ?_, beq_self_eq_true _⟩
  rw [startsOf, List.mem_reverse]
  exact List.mem_map_of_mem member

/-- Every way out of a block leads to the start of a block. -/
def IsClosed (program : Program) (blocks : List Block) : Prop :=
  ∀ block ∈ blocks, ∀ edge ∈ exits program block, ((startsOf blocks).lookup edge.target).isSome = true

def linkAll (program : Program) (blocks : List Block) : Graph :=
  ⟨program, complete (blocks.map (withSuccs program (startsOf blocks))), startsOf blocks⟩

theorem build_eq_ok_iff (program : Program) (graph : Graph) :
    build program = .ok graph ↔
      ∃ targets, jumpIndices program (program.insts.zip program.edges) = .ok targets ∧
        IsClosed program (partition program.insts targets) ∧
        linkAll program (partition program.insts targets) = graph := by
  unfold build
  split
  next error failed => simp [failed]
  next targets resolved =>
    simp only [resolved, Except.ok.injEq, exists_eq_left']
    have link := mapM_linkBlock_eq_ok_iff program (startsOf (partition program.insts targets))
      (partition program.insts targets)
    split
    next error failed =>
      refine iff_of_false nofun fun parts => ?_
      cases failed.symm.trans ((link _).2 ⟨parts.1, rfl⟩)
    next linked linking =>
      obtain ⟨closed, rfl⟩ := (link linked).1 linking
      rw [Except.ok.injEq]
      exact (and_iff_right closed).symm

theorem predecessors_complete (blocks : List Block) : predecessors (complete blocks) = predecessors blocks := by
  funext id
  simp only [predecessors, complete, List.filter_map, List.map_map]
  rfl

theorem successors_complete (blocks : List Block) : successors (complete blocks) = successors blocks := by
  funext id
  simp only [successors, complete, List.getElem?_map, Option.map_map]
  rfl

theorem map_id_tail_complete (blocks : List Block) :
    (complete blocks).tail.map Block.id = blocks.tail.map Block.id := by
  simp only [complete, ← List.map_tail, List.map_map]
  rfl

structure IsGraphOf (program : Program) (graph : Graph) : Prop where
  program_eq : graph.program = program
  divided : ∃ targets, jumpIndices program (program.insts.zip program.edges) = .ok targets ∧
    graph.blocks.map Block.bare = partition program.insts targets
  starts_eq : graph.starts = startsOf graph.blocks
  closed : IsClosed program graph.blocks
  succs_eq : ∀ block ∈ graph.blocks,
    block.succs = ((exits program block).filterMap fun edge => graph.blockStarting edge.target).eraseDups
  preds_eq : ∀ block ∈ graph.blocks, block.preds = predecessors graph.blocks block.id
  reachable_eq : ∀ block ∈ graph.blocks, block.reachable =
    !(unreached (successors graph.blocks) [0] (graph.blocks.tail.map Block.id)).contains block.id

theorem isGraphOf_of_build {program : Program} {graph : Graph} (built : build program = .ok graph) :
    IsGraphOf program graph := by
  obtain ⟨targets, resolved, closed, rfl⟩ := (build_eq_ok_iff program graph).1 built
  have starts : startsOf (linkAll program (partition program.insts targets)).blocks =
      startsOf (partition program.insts targets) := by
    simp only [startsOf, linkAll, complete, List.map_map]
    rfl
  refine ⟨rfl, ⟨targets, resolved, ?_⟩, starts.symm, ?_, ?_, ?_, ?_⟩
  · refine Eq.trans ?_ (map_bare_partition program.insts targets)
    simp only [linkAll, complete, List.map_map]
    rfl
  · intro block member
    obtain ⟨linked, listed, rfl⟩ := List.mem_map.1 member
    obtain ⟨origin, source, rfl⟩ := List.mem_map.1 listed
    rw [starts]
    exact closed origin source
  · intro block member
    obtain ⟨linked, listed, rfl⟩ := List.mem_map.1 member
    obtain ⟨origin, source, rfl⟩ := List.mem_map.1 listed
    rfl
  · intro block member
    obtain ⟨linked, -, rfl⟩ := List.mem_map.1 member
    rw [linkAll, predecessors_complete]
  · intro block member
    obtain ⟨linked, -, rfl⟩ := List.mem_map.1 member
    rw [linkAll, successors_complete, map_id_tail_complete]

theorem mem_exits_iff {program : Program} {block : Block} {last : Nat} (ends : block.last = last) (edge : Edge) :
    edge ∈ exits program block ↔ ∃ edges, program.edges[last]? = some edges ∧ edge ∈ edges := by
  rw [exits, ends, Int.toNat_natCast, List.getD_eq_getElem?_getD]
  cases program.edges[last]? <;> simp

namespace IsGraphOf

variable {program : Program} {graph : Graph}

theorem covers (graphOf : IsGraphOf program graph) : Covers program.insts 0 0 graph.blocks := by
  obtain ⟨targets, -, divided⟩ := graphOf.divided
  rw [← covers_bare_iff, divided]
  exact covers_partition program.insts targets

theorem occupied (graphOf : IsGraphOf program graph) {position : Nat} {block : Block}
    (found : graph.blocks[position]? = some block) : ∃ first last, block.Occupies program.insts position first last :=
  graphOf.covers.isDivision.occupied position block found

theorem begins_iff (graphOf : IsGraphOf program graph) (long : program.edges.length = program.insts.length)
    (index : Nat) :
    (∃ block ∈ graph.blocks, block.first = index) ↔ index < program.insts.length ∧
      (index = 0 ∨ program.IsJumpTarget index ∨
        ∃ prev, program.insts[index - 1]? = some prev ∧ prev.terminates = true) := by
  obtain ⟨targets, resolved, divided⟩ := graphOf.divided
  rw [← mem_targets_iff long resolved, ← mem_firsts_iff, ← exists_first_iff, ← divided]
  simp [Block.bare]

theorem exists_place (graphOf : IsGraphOf program graph) {offset id : Int}
    (found : graph.blockStarting offset = some id) :
    ∃ (place : Nat) (block : Block), id = place ∧ graph.blocks[place]? = some block ∧ block.start = offset := by
  rw [blockStarting, graphOf.starts_eq] at found
  obtain ⟨block, member, start, rfl⟩ := exists_of_lookup found
  obtain ⟨place, location⟩ := List.getElem?_of_mem member
  obtain ⟨first, last, occupies⟩ := graphOf.occupied location
  exact ⟨place, block, occupies.id_eq, location, start⟩

theorem mem_succs_iff (graphOf : IsGraphOf program graph) {block : Block} (member : block ∈ graph.blocks) (id : Int) :
    id ∈ block.succs ↔ ∃ edge ∈ exits program block, graph.blockStarting edge.target = some id := by
  rw [graphOf.succs_eq block member, List.mem_eraseDups, List.mem_filterMap]

theorem exists_succ (graphOf : IsGraphOf program graph) {block : Block} (member : block ∈ graph.blocks) {edge : Edge}
    (way : edge ∈ exits program block) : ∃ id, graph.blockStarting edge.target = some id ∧ id ∈ block.succs := by
  have present := graphOf.closed block member edge way
  rw [← graphOf.starts_eq] at present
  obtain ⟨id, found⟩ := Option.isSome_iff_exists.1 present
  exact ⟨id, found, (graphOf.mem_succs_iff member id).2 ⟨edge, way, found⟩⟩

end IsGraphOf

theorem exists_start {insts : List Instruction} {targets : List Nat} {index : Nat} {inst : Instruction}
    (found : insts[index]? = some inst) (first : index ∈ firsts insts targets) :
    ∃ block ∈ partition insts targets, block.start = inst.offset := by
  obtain ⟨block, member, begins⟩ := (exists_first_iff insts targets index).2 first
  obtain ⟨place, low, high, -, -, occupies⟩ := (covers_partition insts targets).at_member member
  have same : low = index := Int.natCast_inj.1 (occupies.first_eq.symm.trans begins)
  have start := occupies.start_eq
  rw [same, found] at start
  exact ⟨block, member, (Option.some.inj start).symm⟩

end Graph

/-- Instructions that are numbered from zero and stand one after the other. -/
structure InOrder (insts : List Instruction) : Prop where
  index_eq : ∀ (place : Nat) (inst : Instruction), insts[place]? = some inst → inst.index = place
  ascending : insts.Pairwise fun one other => one.offset < other.offset

def Instruction.place (inst : Instruction) : Nat × Int := (inst.index, inst.offset)

theorem InOrder.of_map_place {insts others : List Instruction} (ordered : InOrder insts)
    (placed : others.map Instruction.place = insts.map Instruction.place) : InOrder others where
  index_eq place inst found := by
    have same := congrArg (·[place]?) placed
    simp only [List.getElem?_map, found, Option.map_some] at same
    obtain ⟨source, origin, kept⟩ := Option.map_eq_some_iff.1 same.symm
    have number : source.index = inst.index := congrArg Prod.fst kept
    rw [← number]
    exact ordered.index_eq place source origin
  ascending := by
    have offsets := congrArg (List.map Prod.snd) placed
    rw [List.map_map, List.map_map] at offsets
    have ascending : (insts.map (Prod.snd ∘ Instruction.place)).Pairwise (· < ·) :=
      List.pairwise_map.2 ordered.ascending
    rw [← offsets] at ascending
    exact List.pairwise_map.1 ascending

theorem Cut.inOrder {decoder : Decoder} {offset : Nat} {bytes : List UInt8} {insts : List Instruction}
    (cut : Cut decoder offset 0 bytes insts) : InOrder insts :=
  ⟨cut.tiles.index, cut.ascending⟩

theorem inOrder_of_decode {callee : Int32 → Option Signature} {decoder : Decoder} {code : List UInt8} {start : Int}
    {insts : List Instruction} (decoded : decoder.decode callee code start = .ok insts) : InOrder insts := by
  obtain ⟨-, -, cut, falls, traced⟩ := (decoder.decode_eq_ok_iff callee code start insts).1 decoded
  exact falls.inOrder.of_map_place (traced.map_eq Instruction.place fun _ _ _ => rfl)

namespace InOrder

variable {options : FlowOptions} {program : Program}

theorem indexAt_eq_some_iff (ordered : InOrder program.insts) (offset : Int) (index : Nat) :
    program.indexAt offset = some index ↔ ∃ inst, program.insts[index]? = some inst ∧ inst.offset = offset := by
  constructor
  · intro found
    obtain ⟨inst, member, rfl⟩ := exists_of_lastAt found
    obtain ⟨place, location⟩ := List.getElem?_of_mem member
    cases found.symm.trans (indexAt_of_getElem ordered.ascending location)
    exact ⟨inst, location, rfl⟩
  · intro parts
    rcases parts with ⟨inst, location, rfl⟩
    exact indexAt_of_getElem ordered.ascending location

theorem edge_cases (ordered : InOrder program.insts) (resolved : resolve options program.insts = .ok program)
    {index : Nat} {edges : List Edge} {edge : Edge} (given : program.edges[index]? = some edges)
    (way : edge ∈ edges) :
    ∃ target, program.indexAt edge.target = some target ∧
      (target = index + 1 ∨ program.IsJumpTarget target ∧
        ∃ inst, program.insts[index]? = some inst ∧ inst.terminates = true) := by
  obtain ⟨inst, located, ways⟩ := (wayOut_of_resolve resolved).2 index edges given
  cases ways edge way with
  | next kind follows =>
    obtain ⟨next, goesOn, same⟩ := (Resolver.nextTarget_eq_ok_iff _ inst _).1 follows
    rw [ordered.index_eq index inst located] at goesOn
    exact ⟨index + 1, (ordered.indexAt_eq_some_iff _ _).2 ⟨next, goesOn, same⟩, .inl rfl⟩
  | leap kind terminates leads =>
    obtain ⟨other, member, same⟩ := leads
    obtain ⟨target, found⟩ := List.getElem?_of_mem member
    have number := (ordered.indexAt_eq_some_iff _ _).2 ⟨other, found, same⟩
    have jumps : edge.kind ≠ .fallThrough := by
      rcases kind with kind | kind
      · simp [kind]
      · simp [kind]
    exact ⟨target, number, .inr ⟨⟨edges, List.mem_of_getElem? given, edge, way, jumps, number⟩, inst, located,
      terminates⟩⟩

theorem exists_targets (ordered : InOrder program.insts) (resolved : resolve options program.insts = .ok program) :
    ∃ targets, Graph.jumpIndices program (program.insts.zip program.edges) = .ok targets := by
  refine ⟨_, (Graph.jumpIndices_eq_ok_iff program _ _).2 ⟨?_, rfl⟩⟩
  intro row member target way
  obtain ⟨edge, listed, -, rfl⟩ := Graph.mem_jumpTargets.1 way
  obtain ⟨index, given⟩ := List.getElem?_of_mem (List.of_mem_zip member).2
  obtain ⟨place, found, -⟩ := ordered.edge_cases resolved given listed
  exact Option.isSome_of_eq_some found

theorem isClosed (ordered : InOrder program.insts) (resolved : resolve options program.insts = .ok program)
    {targets : List Nat} (targeted : Graph.jumpIndices program (program.insts.zip program.edges) = .ok targets) :
    Graph.IsClosed program (Graph.partition program.insts targets) := by
  obtain ⟨-, -, long, -⟩ := exits_of_resolve resolved
  have covers := Graph.covers_partition program.insts targets
  intro block member edge way
  obtain ⟨place, first, last, found, -, occupies⟩ := covers.at_member member
  obtain ⟨edges, given, listed⟩ := (Graph.mem_exits_iff occupies.last_eq edge).1 way
  obtain ⟨target, number, goes⟩ := ordered.edge_cases resolved given listed
  obtain ⟨inst, located, same⟩ := (ordered.indexAt_eq_some_iff _ _).1 number
  obtain ⟨bound, -⟩ := List.getElem?_eq_some_iff.1 located
  have leads : ∃ other ∈ Graph.partition program.insts targets, other.start = inst.offset := by
    rcases goes with rfl | ⟨jump, -⟩
    · -- The next instruction is not in this block, so the block behind starts with it.
      obtain ⟨follower, _, behind, next⟩ := covers.exists_next found occupies bound
      have start := next.start_eq
      rw [located] at start
      exact ⟨follower, List.mem_of_getElem? behind, (Option.some.inj start).symm⟩
    · have collected := (Graph.mem_targets_iff long targeted target).2 jump
      exact Graph.exists_start located ((Graph.mem_firsts_iff _ _ _).2 ⟨bound, .inr (.inl collected)⟩)
  obtain ⟨other, there, start⟩ := leads
  rw [← same, ← start]
  exact Graph.isSome_lookup there

theorem exists_build (ordered : InOrder program.insts) (resolved : resolve options program.insts = .ok program) :
    ∃ graph, Graph.build program = .ok graph := by
  obtain ⟨targets, targeted⟩ := ordered.exists_targets resolved
  exact ⟨_, (Graph.build_eq_ok_iff program _).2 ⟨targets, targeted, ordered.isClosed resolved targeted, rfl⟩⟩

end InOrder

/-- The blocks of decoded code are runs of instructions that have every one in one of them and follow each other
in the code. One starts behind every end of a block and at every target of a jump, and nowhere else. -/
theorem decoded_blocks (callee : Int32 → Option Signature) (decoder : Decoder) (code : List UInt8) (start : Int)
    (insts : List Instruction) (options : FlowOptions) (program : Program) (graph : Graph)
    (decoded : decoder.decode callee code start = .ok insts) (resolved : resolve options insts = .ok program)
    (built : Graph.build program = .ok graph) :
    IsDivision insts graph.blocks ∧
      (∀ (position : Nat) (block follower : Block), graph.blocks[position]? = some block →
        graph.blocks[position + 1]? = some follower → follower.start = block.stop) ∧
      ∀ index, 0 < index → index < insts.length →
        ((∃ block ∈ graph.blocks, block.first = index) ↔
          (∃ prev, insts[index - 1]? = some prev ∧ prev.terminates = true) ∨ program.IsJumpTarget index) := by
  obtain ⟨-, -, cut, falls, traced⟩ := (decoder.decode_eq_ok_iff callee code start insts).1 decoded
  have row := falls.tiles.traced traced
  obtain ⟨rfl, -, long, -⟩ := exits_of_resolve resolved
  have graphOf := Graph.isGraphOf_of_build built
  have division := graphOf.covers.isDivision
  refine ⟨division, fun position block follower found follows => ?_, fun index positive below => ?_⟩
  · obtain ⟨first, last, occupies⟩ := division.occupied position block found
    obtain ⟨first', last', behind⟩ := division.occupied (position + 1) follower follows
    have joins : first' = last + 1 := by
      have next := division.next position block follower found follows
      rw [behind.first_eq, occupies.last_eq] at next
      omega
    subst joins
    obtain ⟨inst, located, stop⟩ := Option.map_eq_some_iff.1 occupies.stop_eq
    obtain ⟨other, goesOn, start⟩ := Option.map_eq_some_iff.1 behind.start_eq
    rw [← stop, ← start]
    exact row.next last inst other located goesOn
  · rw [graphOf.begins_iff long index, or_comm (b := program.IsJumpTarget index)]
    constructor
    · intro begins
      exact begins.2.resolve_left (Nat.ne_of_gt positive)
    · intro begins
      exact ⟨below, .inr begins⟩

/-- A branch goes back to the middle of the code before it, and what follows it is a block of its own. -/
theorem decoded_blocks_loop :
    ∃ insts program graph,
      Decoder.decode (fun _ => none) {} [0, 0, 0, 0, 0, 1, 0, 38, 0, 0, 6, 0xff, 0xff, 0xff, 0xfe, 0, 21, 0] 0 =
        .ok insts ∧
      resolve {} insts = .ok program ∧ Graph.build program = .ok graph ∧ IsDivision insts graph.blocks ∧
      graph.blocks.map (fun block => (block.first, block.last)) = [(0, 0), (1, 2), (3, 3)] ∧
      graph.blocks.map (fun block => (block.start, block.stop)) = [(0, 6), (6, 15), (15, 18)] ∧
      program.IsJumpTarget 1 ∧ ¬program.IsJumpTarget 2 := by
  have decoded : Decoder.decode (fun _ => none) {}
      [0, 0, 0, 0, 0, 1, 0, 38, 0, 0, 6, 0xff, 0xff, 0xff, 0xfe, 0, 21, 0] 0 = .ok _ :=
    Decoder.decode_of_within 4 (by decide) rfl rfl
  obtain ⟨division, -, begins⟩ := decoded_blocks (fun _ => none) {} _ 0 _ {} _ _ decoded rfl rfl
  refine ⟨_, _, _, decoded, rfl, rfl, division, rfl, rfl, ?_, ?_⟩
  · have jumps := (begins 1 (by decide) (by decide)).1 ⟨_, List.mem_cons_of_mem _ List.mem_cons_self, rfl⟩
    refine jumps.resolve_left fun ended => ?_
    obtain ⟨prev, found, terminates⟩ := ended
    cases found
    cases terminates
  · intro jumps
    obtain ⟨block, member, first⟩ := (begins 2 (by decide) (by decide)).2 (.inr jumps)
    have listed : block.first ∈ [0, 1, 3] := List.mem_map_of_mem (f := Block.first) member
    rw [first] at listed
    exact absurd listed (by decide)

end ClientScript
