import ClientScript.Proofs.Reachability
import ClientScript.Proofs.Relocation
import ClientScript.Proofs.Validity

/-!
Edges between blocks. In decoded code no two blocks start at the same offset, so an edge of the last instruction of
a block names one block. The successors of a block are the blocks so named, in the order in which they are
named first; its predecessors are the blocks that have it among their successors, in the order of the blocks.
-/

namespace ClientScript

namespace Graph

/-- The block at a position is linked as the edges of its last instruction say. -/
structure Mirrors (graph : Graph) (edges : List Edge) (position : Nat) (block : Block) : Prop where
  mem_succs_iff : ∀ (place : Nat) (other : Block), graph.blocks[place]? = some other →
    ((place : Int) ∈ block.succs ↔ ∃ edge ∈ edges, edge.target = other.start)
  named : ∀ id ∈ block.succs, ∃ (place : Nat) (other : Block), id = place ∧ graph.blocks[place]? = some other
  nodup : block.succs.Nodup
  /-- Of two successors the first edge to the one comes before the first edge to the other. -/
  ordered : block.succs.Pairwise fun one other : Int => ∀ (place place' : Nat) (first second : Block),
    one = place → graph.blocks[place]? = some first → other = place' → graph.blocks[place']? = some second →
    (edges.map Edge.target).idxOf first.start < (edges.map Edge.target).idxOf second.start
  mem_preds_iff : ∀ id, id ∈ block.preds ↔ ∃ (place : Nat) (other : Block), id = place ∧
    graph.blocks[place]? = some other ∧ (position : Int) ∈ other.succs
  ascending : block.preds.Pairwise (· < ·)

theorem exits_eq {program : Program} {block : Block} {last : Nat} {edges : List Edge} (ends : block.last = last)
    (given : program.edges[last]? = some edges) : exits program block = edges := by
  rw [exits, ends, Int.toNat_natCast, List.getD_eq_getElem?_getD, given, Option.getD_some]

namespace IsGraphOf

variable {program : Program} {graph : Graph} {position : Nat} {block : Block}

theorem id_eq (graphOf : IsGraphOf program graph) (found : graph.blocks[position]? = some block) :
    block.id = position := by
  obtain ⟨first, last, occupies⟩ := graphOf.occupied found
  exact occupies.id_eq

theorem ascending_ids (graphOf : IsGraphOf program graph) : (graph.blocks.map Block.id).Pairwise (· < ·) := by
  rw [List.pairwise_map, List.pairwise_iff_getElem]
  intro low high lowBound highBound less
  rw [graphOf.id_eq (List.getElem?_eq_getElem lowBound), graphOf.id_eq (List.getElem?_eq_getElem highBound)]
  omega

theorem ascending_preds (graphOf : IsGraphOf program graph) (member : block ∈ graph.blocks) :
    block.preds.Pairwise (· < ·) := by
  rw [graphOf.preds_eq block member, predecessors]
  exact graphOf.ascending_ids.sublist (List.filter_sublist.map Block.id)

theorem mem_preds_iff_place (graphOf : IsGraphOf program graph) (found : graph.blocks[position]? = some block)
    (id : Int) : id ∈ block.preds ↔ ∃ (place : Nat) (other : Block), id = place ∧
      graph.blocks[place]? = some other ∧ (position : Int) ∈ other.succs := by
  rw [graphOf.mem_preds_iff (List.mem_of_getElem? found), graphOf.id_eq found]
  constructor
  · intro parts
    rcases parts with ⟨other, member, successor, rfl⟩
    obtain ⟨place, there⟩ := List.getElem?_of_mem member
    exact ⟨place, other, graphOf.id_eq there, there, successor⟩
  · intro parts
    rcases parts with ⟨place, other, rfl, there, successor⟩
    exact ⟨other, List.mem_of_getElem? there, successor, graphOf.id_eq there⟩

end IsGraphOf

end Graph

namespace InOrder

variable {program : Program} {graph : Graph} {place : Nat} {block : Block}

theorem blockStarting_start (ordered : InOrder program.insts) (graphOf : Graph.IsGraphOf program graph)
    (found : graph.blocks[place]? = some block) : graph.blockStarting block.start = some (place : Int) := by
  have present := Graph.isSome_lookup (List.mem_of_getElem? found)
  rw [← graphOf.starts_eq] at present
  obtain ⟨id, starts⟩ := Option.isSome_iff_exists.1 present
  obtain ⟨place', other, rfl, there, same⟩ := graphOf.exists_place starts
  obtain ⟨first, last, occupies⟩ := graphOf.occupied found
  obtain ⟨first', last', inside⟩ := graphOf.occupied there
  have begins := ordered.indexAt_start inside
  rw [same, ordered.indexAt_start occupies] at begins
  cases begins
  have places := graphOf.covers.holds_unique (inside.holds there le_rfl inside.order)
    (occupies.holds found le_rfl occupies.order)
  rw [Graph.blockStarting, starts, places]

theorem blockStarting_eq_some_iff (ordered : InOrder program.insts) (graphOf : Graph.IsGraphOf program graph)
    (found : graph.blocks[place]? = some block) (offset : Int) :
    graph.blockStarting offset = some (place : Int) ↔ offset = block.start := by
  constructor
  · intro starts
    obtain ⟨place', other, same, there, start⟩ := graphOf.exists_place starts
    cases Int.natCast_inj.1 same
    cases found.symm.trans there
    exact start.symm
  · intro same
    rw [same]
    exact ordered.blockStarting_start graphOf found

theorem idxOf_start (ordered : InOrder program.insts) (graphOf : Graph.IsGraphOf program graph) {source : Block}
    (member : source ∈ graph.blocks) (found : graph.blocks[place]? = some block) :
    ((Graph.exits program source).filterMap fun edge => graph.blockStarting edge.target).idxOf (place : Int) =
      ((Graph.exits program source).map Edge.target).idxOf block.start := by
  have numbered : ((Graph.exits program source).filterMap fun edge => graph.blockStarting edge.target) =
      ((Graph.exits program source).map Edge.target).map fun offset => (graph.blockStarting offset).getD 0 := by
    rw [List.map_map, ← List.filterMap_eq_map]
    apply List.filterMap_congr
    intro edge way
    obtain ⟨id, starts, -⟩ := graphOf.exists_succ member way
    simp [starts]
  have here : (place : Int) = (graph.blockStarting block.start).getD 0 := by
    rw [ordered.blockStarting_start graphOf found, Option.getD_some]
  rw [numbered, here]
  apply @idxOf_map Int Int _ _ _ _ fun offset => (graph.blockStarting offset).getD 0
  intro offset listed same
  obtain ⟨edge, way, rfl⟩ := List.mem_map.1 listed
  obtain ⟨id, starts, -⟩ := graphOf.exists_succ member way
  rw [starts, ← here, Option.getD_some] at same
  rw [same] at starts
  exact (ordered.blockStarting_eq_some_iff graphOf found edge.target).1 starts

theorem mirrors (ordered : InOrder program.insts) (graphOf : Graph.IsGraphOf program graph)
    (found : graph.blocks[place]? = some block) : graph.Mirrors (Graph.exits program block) place block := by
  have member := List.mem_of_getElem? found
  have firsts := isFirstOccurrences_eraseDups
    ((Graph.exits program block).filterMap fun edge => graph.blockStarting edge.target)
  rw [← graphOf.succs_eq block member] at firsts
  refine ⟨fun place' other there => ?_, fun id successor => ?_, ?_, ?_, graphOf.mem_preds_iff_place found,
    graphOf.ascending_preds member⟩
  · rw [graphOf.mem_succs_iff member]
    simp only [ordered.blockStarting_eq_some_iff graphOf there]
  · obtain ⟨edge, way, starts⟩ := (graphOf.mem_succs_iff member id).1 successor
    obtain ⟨place', other, same, there, -⟩ := graphOf.exists_place starts
    exact ⟨place', other, same, there⟩
  · apply firsts.ordered.imp
    intro one other earlier same
    rw [same] at earlier
    exact Nat.lt_irrefl _ earlier
  · apply firsts.ordered.imp
    intro one other earlier place' place'' first second isOne there isOther there'
    rw [isOne, isOther, ordered.idxOf_start graphOf member there, ordered.idxOf_start graphOf member there'] at earlier
    exact earlier

end InOrder

/-- Every block of decoded code has the edges of its last instruction for successors: those blocks that an edge leads
to the start of, each once and in the order of the edges. Its predecessors are the blocks that it is a successor
of, in ascending order. -/
theorem succs_preds_mirror_edges (callee : Int32 → Option Signature) (decoder : Decoder) (code : List UInt8)
    (start : Int) (insts : List Instruction) (options : FlowOptions) (program : Program) (graph : Graph)
    (decoded : decoder.decode callee code start = .ok insts) (resolved : resolve options insts = .ok program)
    (built : Graph.build program = .ok graph) (position : Nat) (block : Block)
    (found : graph.blocks[position]? = some block) :
    ∃ (last : Nat) (edges : List Edge), block.id = position ∧ block.last = last ∧
      program.edges[last]? = some edges ∧ graph.Mirrors edges position block := by
  obtain ⟨rfl, -, long, -⟩ := exits_of_resolve resolved
  have ordered := inOrder_of_decode decoded
  have graphOf := Graph.isGraphOf_of_build built
  obtain ⟨first, last, occupies⟩ := graphOf.occupied found
  have given := List.getElem?_eq_getElem (long.symm ▸ occupies.last_lt)
  have mirrors := ordered.mirrors graphOf found
  rw [Graph.exits_eq occupies.last_eq given] at mirrors
  exact ⟨last, _, occupies.id_eq, occupies.last_eq, given, mirrors⟩

/-- A comparison whose both ways on lead to the next instruction, which is a branch to itself. -/
theorem succs_preds_mirror_edges_loop :
    ∃ insts program graph block,
      Decoder.decode (fun _ => none) {}
        [0, 0, 0, 0, 0, 1, 0, 0, 0, 0, 0, 1, 0, 8, 0, 0, 0, 0, 0, 6, 0xff, 0xff, 0xff, 0xff] 0 = .ok insts ∧
      resolve {} insts = .ok program ∧ Graph.build program = .ok graph ∧
      program.edges = [[⟨.fallThrough, 6⟩], [⟨.fallThrough, 12⟩], [⟨.jump, 18⟩, ⟨.fallThrough, 18⟩], [⟨.jump, 18⟩]] ∧
      graph.blocks.map (fun block => (block.start, block.succs, block.preds)) = [(0, [1], []), (18, [1], [0, 1])] ∧
      graph.blocks[1]? = some block ∧ graph.Mirrors [⟨.jump, 18⟩] 1 block := by
  have decoded : Decoder.decode (fun _ => none) {}
      [0, 0, 0, 0, 0, 1, 0, 0, 0, 0, 0, 1, 0, 8, 0, 0, 0, 0, 0, 6, 0xff, 0xff, 0xff, 0xff] 0 = .ok _ :=
    Decoder.decode_of_within 4 (by decide) rfl rfl
  obtain ⟨last, edges, -, ends, given, mirrors⟩ :=
    succs_preds_mirror_edges (fun _ => none) {} _ 0 _ {} _ _ decoded rfl rfl 1 _ rfl
  cases Int.natCast_inj.1 (ends : ((3 : Nat) : Int) = last)
  cases given
  exact ⟨_, _, _, _, decoded, rfl, rfl, rfl, rfl, rfl, mirrors⟩

end ClientScript
