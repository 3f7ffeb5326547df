import ClientScript.Proofs.Building

/-!
Reachability of blocks. The search that marks blocks leaves unmarked exactly those that no chain of successors leads
to. In decoded code no edge enters or leaves a block in the middle, so a chain of blocks is a path of instructions:
an instruction can be reached exactly if its block is marked.
-/

namespace ClientScript

open Relation

def Program.Step (program : Program) (source target : Nat) : Prop :=
  ∃ edges, program.edges[source]? = some edges ∧ ∃ edge ∈ edges, program.indexAt edge.target = some target

namespace Graph

def Step (graph : Graph) (source target : Nat) : Prop :=
  ∃ block, graph.blocks[source]? = some block ∧ (target : Int) ∈ block.succs

/-- What a search leaves of the unseen. Nothing that was seen leads to it, and what is true of the queue and passes
on to successors is true of everything else. -/
structure IsLeft (succs : Int → List Int) (queue unseen left : List Int) : Prop where
  subset : left ⊆ unseen
  closed : ∀ id, id ∈ queue ∨ id ∈ unseen ∧ id ∉ left → ∀ next ∈ succs id, next ∉ left
  passes : ∀ truth : Int → Prop, (∀ id ∈ queue, truth id) → (∀ id, truth id → ∀ next ∈ succs id, truth next) →
    ∀ id ∈ unseen, id ∉ left → truth id

theorem mem_newlySeen {next unseen : List Int} {id : Int} :
    id ∈ newlySeen next unseen ↔ id ∈ unseen ∧ id ∈ next := by
  simp [newlySeen]

theorem mem_stillUnseen {next unseen : List Int} {id : Int} :
    id ∈ stillUnseen next unseen ↔ id ∈ unseen ∧ id ∉ next := by
  simp [stillUnseen]

theorem IsLeft.step {succs : Int → List Int} {id : Int} {rest unseen left : List Int}
    (later : IsLeft succs (rest ++ newlySeen (succs id) unseen) (stillUnseen (succs id) unseen) left) :
    IsLeft succs (id :: rest) unseen left where
  subset other member := (mem_stillUnseen.1 (later.subset member)).1
  closed other known next leads := by
    rcases known with queued | ⟨listed, seen⟩
    · rcases List.mem_cons.1 queued with rfl | behind
      · intro member
        exact (mem_stillUnseen.1 (later.subset member)).2 leads
      · exact later.closed other (.inl (List.mem_append_left _ behind)) next leads
    · by_cases found : other ∈ succs id
      · have queued := List.mem_append_right rest (mem_newlySeen.2 ⟨listed, found⟩)
        exact later.closed other (.inl queued) next leads
      · exact later.closed other (.inr ⟨mem_stillUnseen.2 ⟨listed, found⟩, seen⟩) next leads
  passes truth queued spreads other listed seen := by
    obtain ⟨here, behind⟩ := List.forall_mem_cons.1 queued
    by_cases found : other ∈ succs id
    · exact spreads id here other found
    · refine later.passes truth (fun known member => ?_) spreads other (mem_stillUnseen.2 ⟨listed, found⟩) seen
      rcases List.mem_append.1 member with waiting | new
      · exact behind known waiting
      · exact spreads id here known (mem_newlySeen.1 new).2

theorem isLeft_unreached (succs : Int → List Int) (queue unseen : List Int) :
    IsLeft succs queue unseen (unreached succs queue unseen) := by
  fun_induction unreached succs queue unseen with
  | case1 unseen =>
    refine ⟨fun _ member => member, fun id known => ?_, fun _ _ _ id listed seen => absurd listed seen⟩
    rcases known with queued | ⟨listed, seen⟩
    · cases queued
    · exact absurd listed seen
  | case2 unseen id rest ih => exact ih.step

theorem mem_successors {graph : Graph} {source : Nat} {next : Int} :
    next ∈ successors graph.blocks source ↔ ∃ block, graph.blocks[source]? = some block ∧ next ∈ block.succs := by
  rw [successors, Int.toNat_natCast]
  cases graph.blocks[source]? <;> simp

namespace IsGraphOf

variable {program : Program} {graph : Graph}

theorem mem_unseen_iff (graphOf : IsGraphOf program graph) (position : Nat) :
    (position : Int) ∈ graph.blocks.tail.map Block.id ↔ 0 < position ∧ position < graph.blocks.length := by
  rw [List.mem_map]
  constructor
  · intro parts
    rcases parts with ⟨block, member, same⟩
    obtain ⟨place, found⟩ := List.getElem?_of_mem member
    rw [List.getElem?_tail] at found
    obtain ⟨_, _, occupies⟩ := graphOf.occupied found
    obtain ⟨inside, -⟩ := List.getElem?_eq_some_iff.1 found
    have number := occupies.id_eq.symm.trans same
    omega
  · intro parts
    rcases parts with ⟨later, inside⟩
    obtain ⟨place, rfl⟩ := Nat.exists_eq_add_one.2 later
    have found := List.getElem?_eq_getElem inside
    obtain ⟨_, _, occupies⟩ := graphOf.occupied found
    rw [← List.getElem?_tail] at found
    exact ⟨_, List.mem_of_getElem? found, occupies.id_eq⟩

theorem exists_step (graphOf : IsGraphOf program graph) {position : Nat} {next : Int}
    (leads : next ∈ successors graph.blocks position) : ∃ place : Nat, next = place ∧ graph.Step position place := by
  obtain ⟨block, found, successor⟩ := mem_successors.1 leads
  obtain ⟨edge, -, starts⟩ := (graphOf.mem_succs_iff (List.mem_of_getElem? found) next).1 successor
  obtain ⟨place, -, rfl, -⟩ := graphOf.exists_place starts
  exact ⟨place, rfl, block, found, successor⟩

theorem path_of_not_mem (graphOf : IsGraphOf program graph) {left : List Int}
    (search : IsLeft (successors graph.blocks) [0] (graph.blocks.tail.map Block.id) left) {position : Nat}
    (inside : position < graph.blocks.length) (seen : (position : Int) ∉ left) :
    ReflTransGen graph.Step 0 position := by
  by_cases entry : position = 0
  · rw [entry]
  · have unseen := (graphOf.mem_unseen_iff position).2 ⟨Nat.pos_of_ne_zero entry, inside⟩
    have spreads (id : Int) (known : ∃ place : Nat, id = place ∧ ReflTransGen graph.Step 0 place) (next : Int)
        (leads : next ∈ successors graph.blocks id) :
        ∃ place : Nat, next = place ∧ ReflTransGen graph.Step 0 place := by
      obtain ⟨place, rfl, path⟩ := known
      obtain ⟨target, rfl, step⟩ := graphOf.exists_step leads
      exact ⟨target, rfl, path.tail step⟩
    obtain ⟨place, same, path⟩ := search.passes _ (fun id queued => ⟨0, List.mem_singleton.1 queued, .refl⟩) spreads
      position unseen seen
    rwa [Int.natCast_inj.1 same]

theorem not_mem_of_path (graphOf : IsGraphOf program graph) {left : List Int}
    (search : IsLeft (successors graph.blocks) [0] (graph.blocks.tail.map Block.id) left) {position : Nat}
    (path : ReflTransGen graph.Step 0 position) : (position : Int) ∉ left := by
  induction path with
  | refl =>
    intro member
    exact absurd ((graphOf.mem_unseen_iff 0).1 (search.subset member)).1 (Nat.lt_irrefl 0)
  | @tail source target _ step ih =>
    obtain ⟨block, found, successor⟩ := step
    obtain ⟨inside, -⟩ := List.getElem?_eq_some_iff.1 found
    apply search.closed source _ target (mem_successors.2 ⟨block, found, successor⟩)
    by_cases entry : source = 0
    · simp [entry]
    · exact .inr ⟨(graphOf.mem_unseen_iff source).2 ⟨Nat.pos_of_ne_zero entry, inside⟩, ih⟩

/-- A block is marked exactly if a chain of successors leads to it from the first block. -/
theorem reachable_iff (graphOf : IsGraphOf program graph) {position : Nat} {block : Block}
    (found : graph.blocks[position]? = some block) :
    block.reachable = true ↔ ReflTransGen graph.Step 0 position := by
  obtain ⟨first, last, occupies⟩ := graphOf.occupied found
  obtain ⟨inside, -⟩ := List.getElem?_eq_some_iff.1 found
  have search := isLeft_unreached (successors graph.blocks) [0] (graph.blocks.tail.map Block.id)
  rw [graphOf.reachable_eq block (List.mem_of_getElem? found), occupies.id_eq, Bool.not_eq_true',
    List.contains_eq_mem, decide_eq_false_iff_not]
  exact ⟨graphOf.path_of_not_mem search inside, graphOf.not_mem_of_path search⟩

theorem mem_unreachable_iff (graphOf : IsGraphOf program graph) (id : Int) :
    id ∈ graph.unreachable ↔ ∃ (position : Nat) (block : Block), id = position ∧
      graph.blocks[position]? = some block ∧ ¬ReflTransGen graph.Step 0 position := by
  rw [unreachable, List.mem_filterMap]
  constructor
  · intro parts
    rcases parts with ⟨⟨block, position⟩, member, kept⟩
    have found := List.mk_mem_zipIdx_iff_getElem?.1 member
    split at kept
    next => cases kept
    next unmarked =>
      cases kept
      exact ⟨position, block, rfl, found, fun path => unmarked ((graphOf.reachable_iff found).2 path)⟩
  · intro parts
    rcases parts with ⟨position, block, rfl, found, apart⟩
    have unmarked : ¬block.reachable = true := fun marked => apart ((graphOf.reachable_iff found).1 marked)
    exact ⟨(block, position), List.mk_mem_zipIdx_iff_getElem?.2 found, if_neg unmarked⟩

end IsGraphOf

theorem ascending_unreachable (graph : Graph) : graph.unreachable.Pairwise (· < ·) := by
  apply pairwise_filterMap_zipIdx Nat.strictMono_cast
  intro entry id listed
  split at listed
  next => cases listed
  next =>
    cases listed
    rfl

end Graph

theorem Covers.eq_low {insts : List Instruction} {blocks : List Block} (covers : Covers insts 0 0 blocks)
    {position low high index : Nat} {block : Block} (found : blocks[position]? = some block)
    (occupies : block.Occupies insts position low high) (above : low ≤ index) (below : index ≤ high)
    (begins : ∃ other ∈ blocks, other.first = index) : index = low := by
  obtain ⟨other, member, first⟩ := begins
  obtain ⟨place, low', high', location, -, inside⟩ := covers.at_member member
  rw [Nat.zero_add] at inside
  have same : low' = index := Int.natCast_inj.1 (inside.first_eq.symm.trans first)
  subst same
  cases covers.holds_unique (occupies.holds found above below) (inside.holds location le_rfl inside.order)
  cases found.symm.trans location
  exact Int.natCast_inj.1 (first.symm.trans occupies.first_eq)

theorem Graph.IsGraphOf.plain_inside {program : Program} {graph : Graph} (graphOf : IsGraphOf program graph)
    (long : program.edges.length = program.insts.length) {position low high index : Nat} {block : Block}
    {inst : Instruction} (found : graph.blocks[position]? = some block)
    (occupies : block.Occupies program.insts position low high) (above : low ≤ index) (below : index < high)
    (located : program.insts[index]? = some inst) : ¬inst.terminates = true := by
  intro terminates
  have inside := occupies.last_lt
  have begins := (graphOf.begins_iff long (index + 1)).2 ⟨by omega, .inr (.inr ⟨inst, located, terminates⟩)⟩
  have first := graphOf.covers.eq_low found occupies (by omega) below begins
  omega

namespace InOrder

variable {options : FlowOptions} {program : Program} {graph : Graph}

theorem indexAt_start (ordered : InOrder program.insts) {position first last : Nat} {block : Block}
    (occupies : block.Occupies program.insts position first last) : program.indexAt block.start = some first := by
  obtain ⟨inst, found, offset⟩ := Option.map_eq_some_iff.1 occupies.start_eq
  exact (ordered.indexAt_eq_some_iff _ _).2 ⟨inst, found, offset⟩

theorem step_iff_of_plain (ordered : InOrder program.insts) (resolved : resolve options program.insts = .ok program)
    {index : Nat} {inst : Instruction} (found : program.insts[index]? = some inst) (plain : ¬inst.terminates = true)
    (target : Nat) : program.Step index target ↔ target = index + 1 := by
  have next {edges : List Edge} {edge : Edge} (given : program.edges[index]? = some edges) (way : edge ∈ edges) :
      program.indexAt edge.target = some (index + 1) := by
    obtain ⟨place, number, goes⟩ := ordered.edge_cases resolved given way
    rcases goes with rfl | ⟨-, other, located, terminates⟩
    · exact number
    · cases found.symm.trans located
      exact absurd terminates plain
  constructor
  · intro step
    obtain ⟨edges, given, edge, way, number⟩ := step
    exact Option.some.inj (number.symm.trans (next given way))
  · intro same
    subst same
    obtain ⟨-, -, long, exits⟩ := exits_of_resolve resolved
    obtain ⟨inside, -⟩ := List.getElem?_eq_some_iff.1 found
    have given := List.getElem?_eq_getElem (long.symm ▸ inside)
    have some : program.edges[index] ≠ [] := by
      intro none
      have ret := (exits index inst _ found given).eq_nil_iff.1 none
      rw [Instruction.terminates, ret] at plain
      exact plain rfl
    obtain ⟨edge, way⟩ := List.exists_mem_of_ne_nil _ some
    exact ⟨_, given, edge, way, next given way⟩

theorem step_iff_inside (ordered : InOrder program.insts) (resolved : resolve options program.insts = .ok program)
    (graphOf : Graph.IsGraphOf program graph) {position low high index : Nat} {block : Block}
    (found : graph.blocks[position]? = some block) (occupies : block.Occupies program.insts position low high)
    (above : low ≤ index) (below : index < high) (target : Nat) :
    program.Step index target ↔ target = index + 1 := by
  obtain ⟨-, -, long, -⟩ := exits_of_resolve resolved
  have located := List.getElem?_eq_getElem (Nat.lt_trans below occupies.last_lt)
  have plain := graphOf.plain_inside long found occupies above below located
  exact ordered.step_iff_of_plain resolved located plain target

theorem path_inside (ordered : InOrder program.insts) (resolved : resolve options program.insts = .ok program)
    (graphOf : Graph.IsGraphOf program graph) {position low high index : Nat} {block : Block}
    (found : graph.blocks[position]? = some block) (occupies : block.Occupies program.insts position low high)
    (above : low ≤ index) (below : index ≤ high) : ReflTransGen program.Step low index := by
  induction index, above using Nat.le_induction with
  | base => exact .refl
  | succ index above ih =>
    have step := (ordered.step_iff_inside resolved graphOf found occupies above below _).2 rfl
    exact (ih (Nat.le_of_lt below)).tail step

theorem exists_step_of_last (ordered : InOrder program.insts) (graphOf : Graph.IsGraphOf program graph)
    {position low high target : Nat} {block : Block} (found : graph.blocks[position]? = some block)
    (occupies : block.Occupies program.insts position low high) (step : program.Step high target) :
    ∃ place, graph.Step position place ∧ Holds graph.blocks place target := by
  obtain ⟨edges, given, edge, way, number⟩ := step
  have exit := (Graph.mem_exits_iff occupies.last_eq edge).2 ⟨edges, given, way⟩
  obtain ⟨id, starts, successor⟩ := graphOf.exists_succ (List.mem_of_getElem? found) exit
  obtain ⟨place, other, rfl, there, start⟩ := graphOf.exists_place starts
  obtain ⟨first, last, inside⟩ := graphOf.occupied there
  have begins := ordered.indexAt_start inside
  rw [start, number] at begins
  cases begins
  exact ⟨place, ⟨block, found, successor⟩, inside.holds there le_rfl inside.order⟩

theorem step_of_succ (ordered : InOrder program.insts) (graphOf : Graph.IsGraphOf program graph)
    {position place low high first last : Nat} {block other : Block}
    (found : graph.blocks[position]? = some block) (occupies : block.Occupies program.insts position low high)
    (there : graph.blocks[place]? = some other) (inside : other.Occupies program.insts place first last)
    (successor : (place : Int) ∈ block.succs) : program.Step high first := by
  obtain ⟨edge, exit, starts⟩ := (graphOf.mem_succs_iff (List.mem_of_getElem? found) _).1 successor
  obtain ⟨edges, given, way⟩ := (Graph.mem_exits_iff occupies.last_eq edge).1 exit
  obtain ⟨_, _, same, located, start⟩ := graphOf.exists_place starts
  cases Int.natCast_inj.1 same
  cases there.symm.trans located
  exact ⟨edges, given, edge, way, start ▸ ordered.indexAt_start inside⟩

/-- The blocks along a path of instructions are a path of blocks. -/
theorem exists_path_of_path (ordered : InOrder program.insts)
    (resolved : resolve options program.insts = .ok program) (graphOf : Graph.IsGraphOf program graph)
    (some : 0 < program.insts.length) {index : Nat} (path : ReflTransGen program.Step 0 index) :
    ∃ position, ReflTransGen graph.Step 0 position ∧ Holds graph.blocks position index := by
  induction path with
  | refl =>
    obtain ⟨block, last, found, occupies⟩ := graphOf.covers.exists_head some
    exact ⟨0, .refl, occupies.holds found le_rfl occupies.order⟩
  | @tail source target _ step ih =>
    obtain ⟨position, blocks, block, found, above, below⟩ := ih
    obtain ⟨low, high, occupies⟩ := graphOf.occupied found
    rw [occupies.first_eq] at above
    rw [occupies.last_eq] at below
    by_cases inside : source < high
    · -- The path goes on in the same block.
      cases (ordered.step_iff_inside resolved graphOf found occupies (by omega) inside target).1 step
      exact ⟨position, blocks, occupies.holds found (by omega) inside⟩
    · have last : source = high := by omega
      subst last
      obtain ⟨place, leads, holds⟩ := ordered.exists_step_of_last graphOf found occupies step
      exact ⟨place, blocks.tail leads, holds⟩

theorem path_of_path (ordered : InOrder program.insts)
    (resolved : resolve options program.insts = .ok program) (graphOf : Graph.IsGraphOf program graph)
    {position low high : Nat} {block : Block} (found : graph.blocks[position]? = some block)
    (occupies : block.Occupies program.insts position low high) (path : ReflTransGen graph.Step 0 position) :
    ReflTransGen program.Step 0 low := by
  induction path generalizing low high block with
  | refl =>
    have first := occupies.first_eq.symm.trans (graphOf.covers.first_eq found)
    rw [Int.natCast_inj.1 first]
  | @tail source position _ step ih =>
    obtain ⟨other, there, successor⟩ := step
    obtain ⟨first, last, inside⟩ := graphOf.occupied there
    calc
      ReflTransGen program.Step 0 first := ih there inside
      ReflTransGen program.Step _ last := ordered.path_inside resolved graphOf there inside inside.order le_rfl
      program.Step _ low := ordered.step_of_succ graphOf there inside found occupies successor

theorem path_iff (ordered : InOrder program.insts) (resolved : resolve options program.insts = .ok program)
    (graphOf : Graph.IsGraphOf program graph) {position index : Nat} (holds : Holds graph.blocks position index) :
    ReflTransGen program.Step 0 index ↔ ReflTransGen graph.Step 0 position := by
  have ⟨block, found, above, below⟩ := holds
  obtain ⟨low, high, occupies⟩ := graphOf.occupied found
  rw [occupies.first_eq] at above
  rw [occupies.last_eq] at below
  constructor
  · intro path
    have inside := occupies.last_lt
    obtain ⟨place, blocks, inPlace⟩ := ordered.exists_path_of_path resolved graphOf (by omega) path
    rwa [graphOf.covers.holds_unique holds inPlace]
  · intro blocks
    have entered := ordered.path_of_path resolved graphOf found occupies blocks
    exact entered.trans (ordered.path_inside resolved graphOf found occupies (by omega) (by omega))

end InOrder

/-- Edges of decoded code lead from the first instruction to another exactly if the block that has it is marked as
reachable, and that is the case exactly if successors lead from the first block to that one. The blocks that are
listed as unreachable, in order, are the others. -/
theorem reachable_iff_path (callee : Int32 → Option Signature) (decoder : Decoder) (code : List UInt8) (start : Int)
    (insts : List Instruction) (options : FlowOptions) (program : Program) (graph : Graph)
    (decoded : decoder.decode callee code start = .ok insts) (resolved : resolve options insts = .ok program)
    (built : Graph.build program = .ok graph) :
    (∀ index < insts.length, ∃! position, Holds graph.blocks position index) ∧
      (∀ (index position : Nat) (block : Block), graph.blocks[position]? = some block →
        block.first ≤ index → index ≤ block.last →
        (ReflTransGen program.Step 0 index ↔ block.reachable = true) ∧
          (block.reachable = true ↔ ReflTransGen graph.Step 0 position)) ∧
      graph.unreachable.Pairwise (· < ·) ∧
      ∀ id, id ∈ graph.unreachable ↔ ∃ (position : Nat) (block : Block), id = position ∧
        graph.blocks[position]? = some block ∧ ¬ReflTransGen graph.Step 0 position := by
  obtain ⟨rfl, -⟩ := exits_of_resolve resolved
  have ordered := inOrder_of_decode decoded
  have graphOf := Graph.isGraphOf_of_build built
  refine ⟨graphOf.covers.isDivision.holds, ?_, graph.ascending_unreachable, graphOf.mem_unreachable_iff⟩
  intro index position block found above below
  have marked := graphOf.reachable_iff found
  exact ⟨(ordered.path_iff resolved graphOf ⟨block, found, above, below⟩).trans marked.symm, marked⟩

/-- A return that a branch leaves out, between the two ways on from a comparison. -/
theorem reachable_iff_path_detour :
    ∃ insts program graph,
      Decoder.decode (fun _ => none) {}
        [0, 0, 0, 0, 0, 1, 0, 0, 0, 0, 0, 1, 0, 8, 0, 0, 0, 2, 0, 6, 0, 0, 0, 1, 0, 21, 0, 0, 21, 0] 0 = .ok insts ∧
      resolve {} insts = .ok program ∧ Graph.build program = .ok graph ∧
      graph.blocks.map (fun block => (block.first, block.last)) = [(0, 2), (3, 3), (4, 4), (5, 5)] ∧
      graph.unreachable = [2] ∧
      ReflTransGen program.Step 0 5 ∧ ¬ReflTransGen program.Step 0 4 ∧ ¬ReflTransGen graph.Step 0 2 := by
  have decoded : Decoder.decode (fun _ => none) {}
      [0, 0, 0, 0, 0, 1, 0, 0, 0, 0, 0, 1, 0, 8, 0, 0, 0, 2, 0, 6, 0, 0, 0, 1, 0, 21, 0, 0, 21, 0] 0 = .ok _ :=
    Decoder.decode_of_within 6 (by decide) rfl rfl
  obtain ⟨-, paths, -, -⟩ := reachable_iff_path (fun _ => none) {} _ 0 _ {} _ _ decoded rfl rfl
  have joined := paths 5 3 _ rfl (by decide) (by decide)
  have avoided := paths 4 2 _ rfl (by decide) (by decide)
  refine ⟨_, _, _, decoded, rfl, rfl, rfl, by decide +kernel, joined.1.2 (by decide +kernel), ?_, ?_⟩
  · intro path
    exact absurd (avoided.1.1 path) (by decide +kernel)
  · intro path
    exact absurd (avoided.2.2 path) (by decide +kernel)

end ClientScript
