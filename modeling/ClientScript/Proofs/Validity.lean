import ClientScript.Block.Validate
import ClientScript.Proofs.Building

/-!
Validity of block graphs. Nothing is wrong with a graph exactly if its blocks cover the program and each of them is
linked: its ways out lead to its successors, and its successors have it among their predecessors. A graph that was
built is valid, whatever the program was.
-/

namespace ClientScript

namespace Graph

theorem checkRange_eq_none_iff (insts : List Instruction) (position first : Nat) (block : Block) :
    checkRange insts position first block = none ↔ ∃ last, block.Occupies insts position first last := by
  unfold checkRange
  constructor
  · intro passed
    split at passed
    next => cases passed
    next sameId =>
      split at passed
      next => cases passed
      next range =>
        split at passed
        next => cases passed
        next span =>
          simp only [not_or, not_not, Int.not_lt, Int.not_le] at sameId range span
          obtain ⟨begins, order, inside⟩ := range
          obtain ⟨start, stop⟩ := span
          obtain ⟨last, ends⟩ := Int.eq_ofNat_of_zero_le (show 0 ≤ block.last by omega)
          rw [begins, Int.toNat_natCast] at start
          rw [ends, Int.toNat_natCast] at stop
          exact ⟨last, sameId, begins, ends, by omega, start, stop⟩
  · intro occupied
    obtain ⟨last, occupies⟩ := occupied
    have inside := occupies.last_lt
    have order := occupies.order
    have range : ¬(block.first ≠ first ∨ block.last < block.first ∨ insts.length ≤ block.last) := by
      rw [occupies.first_eq, occupies.last_eq]
      omega
    rw [if_neg (not_not.2 occupies.id_eq), if_neg range, occupies.first_eq, occupies.last_eq, Int.toNat_natCast,
      Int.toNat_natCast, occupies.start_eq, occupies.stop_eq]
    simp

theorem checkEdge_eq_none_iff (graph : Graph) (position : Int) (block : Block) (edge : Edge) :
    graph.checkEdge position block edge = none ↔
      ∃ id, graph.blockStarting edge.target = some id ∧ id ∈ block.succs := by
  unfold checkEdge
  cases graph.blockStarting edge.target with
  | none => simp
  | some id => simp

theorem checkSuccessor_eq_none_iff (graph : Graph) (position successor : Int) :
    graph.checkSuccessor position successor = none ↔
      ∃ (place : Nat) (other : Block), successor = place ∧ graph.blocks[place]? = some other ∧
        position ∈ other.preds := by
  unfold checkSuccessor
  by_cases negative : successor < 0
  · rw [if_pos negative]
    refine iff_of_false nofun fun parts => ?_
    obtain ⟨place, -, same, -⟩ := parts
    omega
  · obtain ⟨place, rfl⟩ := Int.eq_ofNat_of_zero_le (Int.not_lt.1 negative)
    rw [if_neg negative, Int.toNat_natCast]
    cases found : graph.blocks[place]? with
    | none => simp [found]
    | some other => simp [found]

/-- The ways out of a block at a position lead to its successors, and its successors know of it. -/
structure IsLinked (graph : Graph) (position : Int) (block : Block) : Prop where
  edges : ∀ edge ∈ exits graph.program block, ∃ id, graph.blockStarting edge.target = some id ∧ id ∈ block.succs
  succs : ∀ id ∈ block.succs, ∃ (place : Nat) (other : Block), id = place ∧ graph.blocks[place]? = some other ∧
    position ∈ other.preds

theorem checkBlock_eq_none_iff (graph : Graph) (position first : Nat) (block : Block) :
    graph.checkBlock position first block = none ↔
      (∃ last, block.Occupies graph.program.insts position first last) ∧ graph.IsLinked position block := by
  simp only [checkBlock, Option.orElse_eq_orElse, Option.orElse_eq_or, Option.or_eq_none_iff,
    List.findSome?_eq_none_iff, checkRange_eq_none_iff, checkEdge_eq_none_iff, checkSuccessor_eq_none_iff]
  refine and_congr_right fun _ => ⟨?_, ?_⟩
  · intro links
    exact ⟨links.1, links.2⟩
  · intro linked
    exact ⟨linked.edges, linked.succs⟩

theorem checkBlocks_eq_none_iff (graph : Graph) (position first : Nat) (blocks : List Block) :
    graph.checkBlocks position first blocks = none ↔
      Covers graph.program.insts position first blocks ∧ ∀ block ∈ blocks, graph.IsLinked block.id block := by
  induction blocks generalizing position first with
  | nil =>
    rw [checkBlocks]
    constructor
    · intro passed
      split at passed
      next all =>
        rw [Int.natCast_inj.1 all]
        exact ⟨.done position, List.forall_mem_nil _⟩
      next => cases passed
    · intro parts
      rw [if_pos (congrArg Nat.cast parts.1.eq_length)]
  | cons block rest ih =>
    rw [checkBlocks, Option.orElse_eq_orElse, Option.orElse_eq_or, Option.or_eq_none_iff, checkBlock_eq_none_iff,
      List.forall_mem_cons]
    constructor
    · intro parts
      rcases parts with ⟨⟨⟨last, occupies⟩, linked⟩, later⟩
      rw [occupies.last_eq] at later
      obtain ⟨covers, others⟩ := (ih (position + 1) (last + 1)).1 later
      exact ⟨.block occupies covers, occupies.id_eq ▸ linked, others⟩
    · intro parts
      rcases parts with ⟨covers, linked, others⟩
      cases covers with
      | @block _ _ last _ _ occupies covers =>
        rw [occupies.last_eq]
        rw [occupies.id_eq] at linked
        exact ⟨⟨⟨last, occupies⟩, linked⟩, (ih (position + 1) (last + 1)).2 ⟨covers, others⟩⟩

theorem validate_eq_none_iff (graph : Graph) :
    graph.validate = none ↔
      Covers graph.program.insts 0 0 graph.blocks ∧ ∀ block ∈ graph.blocks, graph.IsLinked block.id block :=
  checkBlocks_eq_none_iff graph 0 0 graph.blocks

namespace IsGraphOf

variable {program : Program} {graph : Graph}

theorem mem_preds_iff (graphOf : IsGraphOf program graph) {block : Block} (member : block ∈ graph.blocks) (id : Int) :
    id ∈ block.preds ↔ ∃ other ∈ graph.blocks, block.id ∈ other.succs ∧ other.id = id := by
  rw [graphOf.preds_eq block member]
  simp [predecessors, and_assoc]

theorem isLinked (graphOf : IsGraphOf program graph) {block : Block} (member : block ∈ graph.blocks) :
    graph.IsLinked block.id block where
  edges edge way := by
    rw [graphOf.program_eq] at way
    exact graphOf.exists_succ member way
  succs id successor := by
    obtain ⟨edge, way, found⟩ := (graphOf.mem_succs_iff member id).1 successor
    obtain ⟨place, other, rfl, location, -⟩ := graphOf.exists_place found
    obtain ⟨first, last, occupies⟩ := graphOf.occupied location
    refine ⟨place, other, rfl, location, ?_⟩
    rw [graphOf.mem_preds_iff (List.mem_of_getElem? location), occupies.id_eq]
    exact ⟨block, member, successor, rfl⟩

end IsGraphOf

end Graph

/-- A graph that was built is the graph of its program and passes the check, for every program. -/
theorem validate_of_build (program : Program) (graph : Graph) (built : Graph.build program = .ok graph) :
    graph.program = program ∧ graph.validate = none := by
  have graphOf := Graph.isGraphOf_of_build built
  refine ⟨graphOf.program_eq, graph.validate_eq_none_iff.2 ⟨?_, fun block member => graphOf.isLinked member⟩⟩
  rw [graphOf.program_eq]
  exact graphOf.covers

/-- Instructions at one offset, an edge to nowhere in the middle of a block and one out of a return. -/
def Program.tangled : Program where
  insts := [
    { offset := 5, index := 0, desc := Registry.standard.lookup ⟨0⟩, operand := .int 7, size := 6 },
    { offset := 5, index := 1, desc := Registry.standard.lookup ⟨6⟩, operand := .int 0, size := 6 },
    { offset := 2, index := 2, desc := Registry.standard.lookup ⟨21⟩, operand := .byte 0, size := -1 },
    { offset := 5, index := 3, desc := Registry.standard.lookup ⟨21⟩, operand := .byte 0, size := 3 }]
  edges := [[⟨.fallThrough, 99⟩], [⟨.jump, 2⟩, ⟨.otherwise, 2⟩], [⟨.fallThrough, 5⟩], []]
  switches := []
  calls := []

/-- Of the two blocks at offset 5 the last one is the successor. -/
theorem validate_of_build_tangled :
    ∃ graph, Graph.build .tangled = .ok graph ∧ graph.validate = none ∧
      graph.blocks.map (fun block => (block.start, block.stop, block.succs, block.preds)) =
        [(5, 11, [1], []), (2, 1, [2], [0]), (5, 8, [], [1])] := by
  obtain ⟨-, valid⟩ := validate_of_build .tangled _ rfl
  exact ⟨_, rfl, valid, rfl⟩

end ClientScript
