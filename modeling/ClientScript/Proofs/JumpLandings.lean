import ClientScript.Proofs.BlockEdges
import ClientScript.Proofs.ChangedGraphs

/-!
Where the ways out of a block lead once blocks were changed by hand. The check looks a target up among the starts of
the blocks as they were built, and the number that it finds must be a successor. So a graph that passes has its ways
out where a block was built, and in resolved code each of its blocks is made of whole blocks that were built. If it has
as many blocks, they are the blocks that were built, and every way out leads to the start of a block. If it has fewer,
the block of the number that is found may start elsewhere.
-/

namespace ClientScript

/-- An instruction is the last one of a block if a block starts right behind it, or nothing is there. -/
theorem Covers.exists_last {insts : List Instruction} {blocks : List Block} (covers : Covers insts 0 0 blocks)
    {index : Nat} (inside : index < insts.length)
    (ends : index + 1 < insts.length → ∃ block ∈ blocks, block.first = (index + 1 : Nat)) :
    ∃ block ∈ blocks, block.last = index := by
  obtain ⟨place, block, found, above, below⟩ := covers.exists_holds (Nat.zero_le index) inside
  obtain ⟨low, high, occupies⟩ := covers.isDivision.occupied place block found
  rw [occupies.first_eq, Int.ofNat_le] at above
  rw [occupies.last_eq, Int.ofNat_le] at below
  have bound := occupies.last_lt
  rcases Nat.eq_or_lt_of_le below with same | more
  · exact ⟨block, List.mem_of_getElem? found, by rw [occupies.last_eq, same]⟩
  · -- The block goes on behind the instruction, where no other block can start.
    have start := covers.eq_low found occupies (by omega) more (ends (by omega))
    omega

theorem Covers.ascending_lasts {insts : List Instruction} {blocks : List Block} (covers : Covers insts 0 0 blocks) :
    (blocks.map Block.last).SortedLT := by
  rw [List.sortedLT_iff_pairwise, List.pairwise_map]
  refine covers.ascending.imp_of_mem fun _ member before => before.trans_le ?_
  obtain ⟨place, low, high, -, -, occupies⟩ := covers.at_member member
  rw [occupies.first_eq, occupies.last_eq, Int.ofNat_le]
  exact occupies.order

theorem Covers.bare_eq {insts : List Instruction} {position first : Nat} {blocks others : List Block}
    (covers : Covers insts position first blocks) (otherCovers : Covers insts position first others)
    (ends : blocks.map Block.last = others.map Block.last) : blocks.map Block.bare = others.map Block.bare := by
  induction covers generalizing others with
  | done =>
    rw [List.map_nil, eq_comm, List.map_eq_nil_iff] at ends
    rw [ends]
  | @block position first last block rest occupies later ih =>
    cases otherCovers with
    | done => cases ends
    | @block _ _ last' other otherRest occupies' later' =>
      obtain ⟨head, tail⟩ := List.cons.inj ends
      have same : last' = last := by
        rw [occupies.last_eq, occupies'.last_eq, Int.natCast_inj] at head
        exact head.symm
      subst same
      have start := occupies.start_eq.symm.trans occupies'.start_eq
      have stop := occupies.stop_eq.symm.trans occupies'.stop_eq
      have bare : block.bare = other.bare := by
        simp only [Block.bare, occupies.id_eq, occupies'.id_eq, occupies.first_eq, occupies'.first_eq,
          occupies.last_eq, occupies'.last_eq, Option.some.inj start, Option.some.inj stop]
      rw [List.map_cons, List.map_cons, bare, ih later' tail]

namespace Graph

/-- A change to the blocks alone: another block in the place of one, or fewer of them. -/
inductive Reshaped (graph : Graph) : Graph → Prop where
  | block (position : Nat) (block : Block) : Reshaped graph { graph with blocks := graph.blocks.set position block }
  | fewer (count : Nat) : Reshaped graph { graph with blocks := graph.blocks.take count }

theorem keeps_of_reshapes {graph changed : Graph} (changes : Relation.ReflTransGen Reshaped graph changed) :
    changed.program = graph.program ∧ changed.starts = graph.starts ∧
      changed.blocks.length ≤ graph.blocks.length := by
  induction changes with
  | refl => exact ⟨rfl, rfl, le_rfl⟩
  | tail _ change ih =>
    obtain ⟨program, starts, length⟩ := ih
    cases change with
    | block position block => exact ⟨program, starts, (List.length_set).trans_le length⟩
    | fewer count => exact ⟨program, starts, (List.length_take_le' count _).trans length⟩

def LandsOnStarts (graph : Graph) : Prop :=
  ∀ block ∈ graph.blocks, ∀ edge ∈ exits graph.program block,
    ∃ target ∈ graph.blocks, target.start = edge.target ∧ target.id ∈ block.succs

/-- The check of a graph whose blocks were changed looks among the starts of the blocks that were built. -/
theorem IsGraphOf.exists_origin {program : Program} {graph changed : Graph} (graphOf : IsGraphOf program graph)
    (starts : changed.starts = graph.starts) {position : Int} {block : Block} (linked : changed.IsLinked position block)
    {edge : Edge} (way : edge ∈ exits changed.program block) :
    ∃ (place : Nat) (origin current : Block), graph.blocks[place]? = some origin ∧ origin.start = edge.target ∧
      changed.blocks[place]? = some current ∧ (place : Int) ∈ block.succs ∧ position ∈ current.preds := by
  obtain ⟨id, found, successor⟩ := linked.edges edge way
  rw [blockStarting, starts] at found
  obtain ⟨place, origin, rfl, there, start⟩ := graphOf.exists_place found
  obtain ⟨place', current, same, located, back⟩ := linked.succs _ successor
  cases Int.natCast_inj.1 same
  exact ⟨place, origin, current, there, start, located, successor, back⟩

end Graph

namespace InOrder

variable {options : FlowOptions} {program : Program} {graph changed : Graph}

theorem exists_begin_of_linked (ordered : InOrder program.insts)
    (resolved : resolve options program.insts = .ok program) (graphOf : Graph.IsGraphOf program graph)
    (same : changed.program = program) (starts : changed.starts = graph.starts) {position : Int} {block : Block}
    (linked : changed.IsLinked position block) {last : Nat} (ends : block.last = last)
    (more : last + 1 < program.insts.length) : ∃ origin ∈ graph.blocks, origin.first = (last + 1 : Nat) := by
  obtain ⟨-, -, long, -⟩ := exits_of_resolve resolved
  have found := List.getElem?_eq_getElem (Nat.lt_of_succ_lt more)
  by_cases terminates : program.insts[last].terminates = true
  · exact (graphOf.begins_iff long (last + 1)).2 ⟨more, .inr (.inr ⟨_, found, terminates⟩)⟩
  · -- An instruction that ends no block falls through to the next one, so the check has found a block there.
    obtain ⟨edges, given, edge, way, number⟩ := (ordered.step_iff_of_plain resolved found terminates _).2 rfl
    have exit : edge ∈ Graph.exits changed.program block := by
      rw [same]
      exact (Graph.mem_exits_iff ends edge).2 ⟨edges, given, way⟩
    obtain ⟨place, origin, -, there, start, -⟩ := graphOf.exists_origin starts linked exit
    obtain ⟨first, high, occupies⟩ := graphOf.occupied there
    have begins := ordered.indexAt_start occupies
    rw [start, number] at begins
    refine ⟨origin, List.mem_of_getElem? there, ?_⟩
    rw [occupies.first_eq, ← Option.some.inj begins]

theorem exists_end_of_linked (ordered : InOrder program.insts)
    (resolved : resolve options program.insts = .ok program) (graphOf : Graph.IsGraphOf program graph)
    (same : changed.program = program) (starts : changed.starts = graph.starts) {position first last : Nat}
    {block : Block} (occupies : block.Occupies program.insts position first last)
    (linked : changed.IsLinked block.id block) : ∃ origin ∈ graph.blocks, origin.last = block.last := by
  rw [occupies.last_eq]
  apply graphOf.covers.exists_last occupies.last_lt
  exact ordered.exists_begin_of_linked resolved graphOf same starts linked occupies.last_eq

theorem exists_begin_of_valid (ordered : InOrder program.insts)
    (resolved : resolve options program.insts = .ok program) (graphOf : Graph.IsGraphOf program graph)
    (same : changed.program = program) (starts : changed.starts = graph.starts)
    (covers : Covers program.insts 0 0 changed.blocks)
    (linked : ∀ block ∈ changed.blocks, changed.IsLinked block.id block) {block : Block}
    (member : block ∈ changed.blocks) : ∃ origin ∈ graph.blocks, origin.first = block.first := by
  obtain ⟨-, -, long, -⟩ := exits_of_resolve resolved
  obtain ⟨place, first, last, -, -, occupies⟩ := covers.at_member member
  have order := occupies.order
  have inside := occupies.last_lt
  rw [occupies.first_eq]
  cases first with
  | zero => exact (graphOf.begins_iff long 0).2 ⟨by omega, .inl rfl⟩
  | succ prev =>
    obtain ⟨before, there, ends⟩ := covers.exists_last (show prev < program.insts.length by omega)
      fun _ => ⟨block, member, occupies.first_eq⟩
    exact ordered.exists_begin_of_linked resolved graphOf same starts (linked before there) ends (by omega)

theorem bare_eq_of_valid (ordered : InOrder program.insts) (resolved : resolve options program.insts = .ok program)
    (graphOf : Graph.IsGraphOf program graph) (same : changed.program = program)
    (starts : changed.starts = graph.starts) (covers : Covers program.insts 0 0 changed.blocks)
    (linked : ∀ block ∈ changed.blocks, changed.IsLinked block.id block)
    (all : changed.blocks.length = graph.blocks.length) :
    changed.blocks.map Block.bare = graph.blocks.map Block.bare := by
  apply covers.bare_eq graphOf.covers
  have subset : changed.blocks.map Block.last ⊆ graph.blocks.map Block.last := by
    intro last listed
    obtain ⟨block, member, rfl⟩ := List.mem_map.1 listed
    obtain ⟨place, first, last, -, -, occupies⟩ := covers.at_member member
    obtain ⟨origin, there, ends⟩ :=
      ordered.exists_end_of_linked resolved graphOf same starts occupies (linked block member)
    exact List.mem_map.2 ⟨origin, there, ends⟩
  -- Of two ascending lists one that is among the other and as long is the other.
  have sublist := List.sublist_of_subperm_of_sortedLE (covers.ascending_lasts.nodup.subperm subset)
    covers.ascending_lasts.sortedLE graphOf.covers.ascending_lasts.sortedLE
  exact sublist.eq_of_length (by rw [List.length_map, List.length_map, all])

end InOrder

/-- If a graph passes the check after changes to its blocks, each way out of a block leads to where a block was built
whose number is a successor. In resolved code every block starts where one was built, and ends where one was. If no
block was removed, all of them are where they were built, and every way out leads to the start of a successor. -/
theorem valid_lands_where_built (program : Program) (graph changed : Graph) (built : Graph.build program = .ok graph)
    (changes : Relation.ReflTransGen Graph.Reshaped graph changed) (valid : changed.validate = none) :
    (∀ (position : Nat) (block : Block), changed.blocks[position]? = some block →
      ∀ edge ∈ Graph.exits program block, ∃ (place : Nat) (origin current : Block),
        graph.blocks[place]? = some origin ∧ origin.start = edge.target ∧ changed.blocks[place]? = some current ∧
          (place : Int) ∈ block.succs ∧ (position : Int) ∈ current.preds) ∧
      ∀ options, InOrder program.insts → resolve options program.insts = .ok program →
        (∀ block ∈ changed.blocks, (∃ origin ∈ graph.blocks, origin.first = block.first) ∧
          ∃ origin ∈ graph.blocks, origin.last = block.last) ∧
        (changed.blocks.length = graph.blocks.length →
          changed.blocks.map Block.bare = graph.blocks.map Block.bare ∧ changed.LandsOnStarts) := by
  have graphOf := Graph.isGraphOf_of_build built
  obtain ⟨same, starts, -⟩ := Graph.keeps_of_reshapes changes
  rw [graphOf.program_eq] at same
  obtain ⟨covers, linked⟩ := changed.validate_eq_none_iff.1 valid
  rw [same] at covers
  refine ⟨fun position block found edge way => ?_, fun options ordered resolved => ⟨fun block member => ?_, ?_⟩⟩
  · obtain ⟨first, last, occupies⟩ := covers.isDivision.occupied position block found
    have links := linked block (List.mem_of_getElem? found)
    rw [occupies.id_eq] at links
    exact graphOf.exists_origin starts links (same ▸ way)
  · obtain ⟨place, first, last, -, -, occupies⟩ := covers.at_member member
    exact ⟨ordered.exists_begin_of_valid resolved graphOf same starts covers linked member,
      ordered.exists_end_of_linked resolved graphOf same starts occupies (linked block member)⟩
  · intro all
    have bare := ordered.bare_eq_of_valid resolved graphOf same starts covers linked all
    refine ⟨bare, fun block member edge way => ?_⟩
    obtain ⟨place, origin, current, there, start, located, successor, -⟩ :=
      graphOf.exists_origin starts (linked block member) way
    obtain ⟨first, last, occupies⟩ := covers.isDivision.occupied place current located
    have kept := congrArg (·[place]?) bare
    simp only [List.getElem?_map, located, there, Option.map_some, Option.some.injEq] at kept
    refine ⟨current, List.mem_of_getElem? located, ?_, ?_⟩
    · exact (congrArg Block.start kept).trans start
    · rwa [occupies.id_eq]

/-- Two returns, and between them a branch to itself. -/
def Program.idleLoop : Program where
  insts := [
    { offset := 0, index := 0, desc := Registry.standard.lookup ⟨21⟩, operand := .byte 0, size := 3,
      before := .known 0 0, after := .known 0 0, stack := some {} },
    { offset := 3, index := 1, desc := Registry.standard.lookup ⟨6⟩, operand := .int (-1), size := 6,
      before := .known 0 0, after := .known 0 0, stack := some {} },
    { offset := 9, index := 2, desc := Registry.standard.lookup ⟨21⟩, operand := .byte 0, size := 3,
      before := .known 0 0, after := .known 0 0, stack := some {} }]
  edges := [[], [⟨.jump, 3⟩], []]
  switches := []
  calls := []

theorem decode_idleLoop :
    Decoder.decode (fun _ => none) {} [0, 21, 0, 0, 6, 0xff, 0xff, 0xff, 0xff, 0, 21, 0] 0 =
      .ok Program.idleLoop.insts := by
  have decoded : Decoder.decode (fun _ => none) {} [0, 21, 0, 0, 6, 0xff, 0xff, 0xff, 0xff, 0, 21, 0] 0 = .ok _ :=
    Decoder.decode_of_within 3 (by decide) rfl rfl
  exact decoded

/-- The first return is given a successor that no edge asks for. The check accepts that, and no block can have moved. -/
theorem valid_lands_where_built_linked :
    ∃ graph changed, Graph.build .idleLoop = .ok graph ∧ Relation.ReflTransGen Graph.Reshaped graph changed ∧
      changed.validate = none ∧ changed.blocks.map Block.succs = [[2], [1], []] ∧
      changed.blocks.map Block.bare = graph.blocks.map Block.bare ∧ changed.LandsOnStarts := by
  have sound := fun changed => valid_lands_where_built .idleLoop _ changed rfl
  obtain ⟨-, kept⟩ := sound _ (.tail (.single (.block 0
    { id := 0, start := 0, stop := 3, first := 0, last := 0, succs := [2], reachable := true })) (.block 2
    { id := 2, start := 9, stop := 12, first := 2, last := 2, preds := [0] })) rfl
  obtain ⟨-, whole⟩ := kept {} (inOrder_of_decode decode_idleLoop) rfl
  obtain ⟨bare, lands⟩ := whole rfl
  exact ⟨_, _, rfl, .tail (.single (.block 0 _)) (.block 2 _), rfl, rfl, bare, lands⟩

/-- The branch is put into one block with the return before it, and the last block is removed. The branch leads to
itself, where no block starts any more, but the check still finds the number of the block that was built there. -/
theorem valid_misses_moved_start :
    ∃ graph changed,
      Decoder.decode (fun _ => none) {} [0, 21, 0, 0, 6, 0xff, 0xff, 0xff, 0xff, 0, 21, 0] 0 =
        .ok Program.idleLoop.insts ∧
      resolve {} Program.idleLoop.insts = .ok .idleLoop ∧ Graph.build .idleLoop = .ok graph ∧
      Relation.ReflTransGen Graph.Reshaped graph changed ∧ changed.validate = none ∧ ¬changed.LandsOnStarts := by
  refine ⟨_, _, decode_idleLoop, rfl, rfl, .tail (.tail (.single (.block 0
    { id := 0, start := 0, stop := 9, first := 0, last := 1, succs := [1], reachable := true })) (.block 1
    { id := 1, start := 9, stop := 12, first := 2, last := 2, preds := [0] })) (.fewer 2), rfl, ?_⟩
  intro lands
  obtain ⟨target, member, start, -⟩ := lands _ List.mem_cons_self ⟨.jump, 3⟩ List.mem_cons_self
  have listed : target.start ∈ [0, 9] := List.mem_map_of_mem (f := Block.start) member
  rw [start] at listed
  exact absurd listed (by decide)

end ClientScript
