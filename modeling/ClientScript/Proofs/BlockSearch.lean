import ClientScript.Proofs.Building

/-!
The block that an offset lies in. The blocks of decoded code stand one behind the other, each with a byte at least,
from the first instruction to the end of the last. So their ends ascend, and the search for the first block that ends
behind an offset finds the one that the offset lies in, if there is one.
-/

namespace ClientScript

/-- The search comes to the end of its range or to a place at which the test holds, also if the test is in no
order. -/
theorem bisect_eq_or_test (test : Nat → Bool) {low high : Nat} (order : low ≤ high) :
    bisect test low high = high ∨ test (bisect test low high) = true := by
  fun_induction bisect test low high with
  | case1 low high less middle holds ih =>
    have within : low ≤ middle := by
      dsimp only [middle]
      omega
    rcases ih within with atMiddle | found
    · rw [atMiddle]
      exact .inr holds
    · exact .inr found
  | case2 low high less middle fails ih =>
    apply ih
    dsimp only [middle]
    omega
  | case3 low high done => exact .inl (by omega)

theorem bisect_eq {test : Nat → Bool} {low high place : Nat} (above : low ≤ place) (below : place ≤ high)
    (fails : ∀ index < place, test index = false)
    (holds : ∀ index, place ≤ index → index < high → test index = true) : bisect test low high = place := by
  fun_induction bisect test low high with
  | case1 low high less middle atMiddle ih =>
    have upTo : place ≤ middle := by
      by_contra after
      rw [fails middle (Nat.lt_of_not_le after)] at atMiddle
      cases atMiddle
    have middleLess : middle < high := by
      dsimp only [middle]
      omega
    exact ih above upTo fun index atLeast less => holds index atLeast (less.trans middleLess)
  | case2 low high less middle atMiddle ih =>
    have middleLess : middle < high := by
      dsimp only [middle]
      omega
    have after : middle < place := by
      by_contra upTo
      exact atMiddle (holds middle (Nat.le_of_not_lt upTo) middleLess)
    exact ih after below holds
  | case3 low high done => omega

/-- Blocks that stand one behind the other in the code, from one offset to another. -/
inductive Adjoin : Int → Int → List Block → Prop where
  | done (offset : Int) : Adjoin offset offset []
  | block {block : Block} {stop : Int} {rest : List Block} (filled : block.start < block.stop)
      (later : Adjoin block.stop stop rest) : Adjoin block.start stop (block :: rest)

namespace Adjoin

variable {start stop : Int} {blocks : List Block}

theorem le (adjoin : Adjoin start stop blocks) : start ≤ stop := by
  induction adjoin with
  | done => exact le_rfl
  | block filled later ih => omega

theorem bounds (adjoin : Adjoin start stop blocks) :
    ∀ block ∈ blocks, start ≤ block.start ∧ block.start < block.stop ∧ block.stop ≤ stop := by
  induction adjoin with
  | done => exact List.forall_mem_nil _
  | @block block stop rest filled later ih =>
    rw [List.forall_mem_cons]
    refine ⟨⟨le_rfl, filled, later.le⟩, fun other member => ?_⟩
    obtain ⟨above, order, below⟩ := ih other member
    exact ⟨by omega, order, below⟩

theorem ascending (adjoin : Adjoin start stop blocks) :
    blocks.Pairwise fun one other => one.stop ≤ other.start := by
  induction adjoin with
  | done => exact .nil
  | block filled later ih => exact .cons (fun other member => (later.bounds other member).1) ih

theorem exists_block (adjoin : Adjoin start stop blocks) {offset : Int} (above : start ≤ offset)
    (below : offset < stop) : ∃ block ∈ blocks, block.start ≤ offset ∧ offset < block.stop := by
  induction adjoin with
  | done => omega
  | @block block stop rest filled later ih =>
    by_cases here : offset < block.stop
    · exact ⟨block, List.mem_cons_self, above, here⟩
    · obtain ⟨other, member, inside⟩ := ih (Int.not_lt.1 here) below
      exact ⟨other, List.mem_cons_of_mem block member, inside⟩

end Adjoin

namespace Graph

variable {graph : Graph} {start stop : Int}

def endsBehind (graph : Graph) (offset : Int) (position : Nat) : Bool :=
  graph.blocks[position]?.any fun block => offset < block.stop

theorem blockAt_eq (graph : Graph) (offset : Int) :
    graph.blockAt offset = graph.blocks[bisect (graph.endsBehind offset) 0 graph.blocks.length]?.filter fun block =>
      block.start ≤ offset := rfl

theorem endsBehind_eq {offset : Int} {position : Nat} {block : Block}
    (found : graph.blocks[position]? = some block) :
    graph.endsBehind offset position = decide (offset < block.stop) := by
  rw [endsBehind, found, Option.any_some]

theorem inside_of_blockAt {offset : Int} {block : Block} (found : graph.blockAt offset = some block) :
    block ∈ graph.blocks ∧ block.start ≤ offset ∧ offset < block.stop := by
  rw [blockAt_eq, Option.filter_eq_some_iff, decide_eq_true_eq] at found
  obtain ⟨located, starts⟩ := found
  refine ⟨List.mem_of_getElem? located, starts, ?_⟩
  rcases bisect_eq_or_test (graph.endsBehind offset) (Nat.zero_le graph.blocks.length) with none | ends
  · rw [none, List.getElem?_eq_none le_rfl] at located
    cases located
  · rwa [endsBehind_eq located, decide_eq_true_eq] at ends

theorem blockAt_of_inside (adjoin : Adjoin start stop graph.blocks) {offset : Int} {block : Block}
    (member : block ∈ graph.blocks) (starts : block.start ≤ offset) (ends : offset < block.stop) :
    graph.blockAt offset = some block := by
  obtain ⟨position, located⟩ := List.getElem?_of_mem member
  obtain ⟨bound, rfl⟩ := List.getElem?_eq_some_iff.1 located
  have ascending := List.pairwise_iff_getElem.1 adjoin.ascending
  have search : bisect (graph.endsBehind offset) 0 graph.blocks.length = position := by
    apply bisect_eq (Nat.zero_le position) (Nat.le_of_lt bound)
    · intro index before
      have order := ascending index position (before.trans bound) bound before
      rw [endsBehind_eq (List.getElem?_eq_getElem (before.trans bound)), decide_eq_false_iff_not]
      omega
    · intro index after inside
      rw [endsBehind_eq (List.getElem?_eq_getElem inside), decide_eq_true_eq]
      rcases Nat.eq_or_lt_of_le after with same | less
      · subst index
        exact ends
      · have order := ascending position index bound inside less
        obtain ⟨-, filled, -⟩ := adjoin.bounds _ (List.getElem_mem inside)
        omega
  rw [blockAt_eq, search, located, Option.filter_some, if_pos (decide_eq_true starts)]

theorem isSome_blockAt_iff (adjoin : Adjoin start stop graph.blocks) (offset : Int) :
    (graph.blockAt offset).isSome = true ↔ start ≤ offset ∧ offset < stop := by
  rw [Option.isSome_iff_exists]
  constructor
  · intro parts
    obtain ⟨block, found⟩ := parts
    obtain ⟨member, starts, ends⟩ := inside_of_blockAt found
    obtain ⟨above, -, below⟩ := adjoin.bounds block member
    omega
  · intro between
    obtain ⟨block, member, starts, ends⟩ := adjoin.exists_block between.1 between.2
    exact ⟨block, blockAt_of_inside adjoin member starts ends⟩

end Graph

/-- Where an instruction stands, and behind the last one where all of them end. -/
def boundary (stop : Int) (insts : List Instruction) (place : Nat) : Int :=
  (insts[place]?.map Instruction.offset).getD stop

theorem boundary_length (stop : Int) (insts : List Instruction) : boundary stop insts insts.length = stop := by
  rw [boundary, List.getElem?_eq_none le_rfl, Option.map_none, Option.getD_none]

namespace Tiles

variable {start stop : Int} {insts : List Instruction}

theorem boundary_zero (row : Tiles start stop insts) : boundary stop insts 0 = start := by
  cases insts with
  | nil => exact (row.empty rfl).symm
  | cons inst rest => exact row.first inst rfl

theorem exists_first (row : Tiles start stop insts) (less : start < stop) : ∃ first, insts[0]? = some first := by
  cases insts with
  | nil => exact absurd (row.empty rfl) (Int.ne_of_lt less)
  | cons inst rest => exact ⟨inst, rfl⟩

theorem next_eq_boundary (row : Tiles start stop insts) {place : Nat} {inst : Instruction}
    (found : insts[place]? = some inst) : inst.next = boundary stop insts (place + 1) := by
  rw [boundary]
  cases follows : insts[place + 1]? with
  | none =>
    apply row.last
    have bound := (List.getElem?_eq_some_iff.1 found).1
    have none := List.getElem?_eq_none_iff.1 follows
    rw [List.getLast?_eq_getElem?, ← found]
    congr 1
    omega
  | some follower => exact (row.next place inst follower found follows).symm

theorem boundary_lt (row : Tiles start stop insts) (sized : ∀ inst ∈ insts, 0 < inst.size) {first last : Nat}
    (order : first ≤ last) (inside : last < insts.length) :
    boundary stop insts first < boundary stop insts (last + 1) := by
  have step {place : Nat} (bound : place < insts.length) :
      boundary stop insts place < boundary stop insts (place + 1) := by
    have found := List.getElem?_eq_getElem bound
    have size := sized _ (List.mem_of_getElem? found)
    rw [← row.next_eq_boundary found, boundary, found, Option.map_some, Option.getD_some, Instruction.next]
    omega
  induction last, order using Nat.le_induction with
  | base => exact step inside
  | succ last order ih => exact (ih (Nat.lt_of_succ_lt inside)).trans (step inside)

theorem adjoin (row : Tiles start stop insts) (sized : ∀ inst ∈ insts, 0 < inst.size) {position first : Nat}
    {blocks : List Block} (covers : Covers insts position first blocks) :
    Adjoin (boundary stop insts first) stop blocks := by
  induction covers with
  | done position =>
    rw [boundary_length]
    exact .done stop
  | @block position first last block rest occupies later ih =>
    have starts : boundary stop insts first = block.start := by
      rw [boundary, occupies.start_eq, Option.getD_some]
    obtain ⟨inst, located, stops⟩ := Option.map_eq_some_iff.1 occupies.stop_eq
    rw [← row.next_eq_boundary located, stops] at ih
    have filled := row.boundary_lt sized occupies.order occupies.last_lt
    rw [← row.next_eq_boundary located, stops, starts] at filled
    rw [starts]
    exact .block filled ih

theorem endOffset_eq {program : Program} (row : Tiles start stop program.insts) {first : Instruction}
    (head : program.insts[0]? = some first) : program.endOffset = stop := by
  have present : program.insts ≠ [] := List.ne_nil_of_mem (List.mem_of_getElem? head)
  rw [Program.endOffset, List.getLast?_eq_some_getLast present, Option.map_some, Option.getD_some]
  exact row.last _ (List.getLast?_eq_some_getLast present)

end Tiles

/-- In the graph of decoded code, an offset has a block exactly if it lies in the code that was decoded, and it has the
block that it lies in. -/
theorem blockAt_exact (callee : Int32 → Option Signature) (decoder : Decoder) (code : List UInt8) (start : Int)
    (insts : List Instruction) (options : FlowOptions) (program : Program) (graph : Graph)
    (decoded : decoder.decode callee code start = .ok insts) (resolved : resolve options insts = .ok program)
    (built : Graph.build program = .ok graph) (offset : Int) :
    (∀ block, graph.blockAt offset = some block ↔
        block ∈ graph.blocks ∧ block.start ≤ offset ∧ offset < block.stop) ∧
      ((graph.blockAt offset).isSome = true ↔
        ∃ first, program.insts[0]? = some first ∧ first.offset ≤ offset ∧ offset < program.endOffset) := by
  obtain ⟨-, -, cut, falls, traced⟩ := (decoder.decode_eq_ok_iff callee code start insts).1 decoded
  obtain ⟨rfl, -⟩ := exits_of_resolve resolved
  have row := falls.tiles.traced traced
  have sized : ∀ inst ∈ program.insts, 0 < inst.size := by
    rw [traced.forall_mem_iff fun _ _ _ => Iff.rfl]
    intro inst member
    obtain ⟨word, raw, -, -, size⟩ := falls.exists_stored inst member
    omega
  have adjoin := row.adjoin sized (Graph.isGraphOf_of_build built).covers
  rw [row.boundary_zero] at adjoin
  refine ⟨fun block => ⟨Graph.inside_of_blockAt, fun parts => ?_⟩, ?_⟩
  · obtain ⟨member, starts, ends⟩ := parts
    exact Graph.blockAt_of_inside adjoin member starts ends
  · rw [Graph.isSome_blockAt_iff adjoin]
    constructor
    · intro between
      obtain ⟨first, head⟩ := row.exists_first (Int.lt_of_le_of_lt between.1 between.2)
      refine ⟨first, head, ?_⟩
      rwa [row.first first head, row.endOffset_eq head]
    · intro parts
      obtain ⟨first, head, between⟩ := parts
      rwa [row.first first head, row.endOffset_eq head] at between

/-- Three blocks behind a byte that is left out. An offset between two blocks belongs to the later one. -/
theorem blockAt_exact_loop :
    ∃ insts program graph,
      Decoder.decode (fun _ => none) {} [0xff, 0, 0, 0, 0, 0, 1, 0, 38, 0, 0, 6, 0xff, 0xff, 0xff, 0xfe, 0, 21, 0] 1 =
        .ok insts ∧
      resolve {} insts = .ok program ∧ Graph.build program = .ok graph ∧
      graph.blocks.map (fun block => (block.start, block.stop)) = [(1, 7), (7, 16), (16, 19)] ∧
      graph.blockAt 0 = none ∧ (∃ block, graph.blockAt 6 = some block ∧ block.id = 0) ∧
      (∃ block, graph.blockAt 7 = some block ∧ block.id = 1) ∧
      (∃ block, graph.blockAt 18 = some block ∧ block.id = 2) ∧ graph.blockAt 19 = none := by
  have decoded : Decoder.decode (fun _ => none) {}
      [0xff, 0, 0, 0, 0, 0, 1, 0, 38, 0, 0, 6, 0xff, 0xff, 0xff, 0xfe, 0, 21, 0] 1 = .ok _ :=
    Decoder.decode_of_within 4 (by decide) rfl rfl
  have search := blockAt_exact (fun _ => none) {} _ 1 _ {} _ _ decoded rfl rfl
  refine ⟨_, _, _, decoded, rfl, rfl, rfl, ?_, ⟨_, ((search 6).1 _).2 ⟨List.mem_cons_self, by decide, by decide⟩, rfl⟩,
    ⟨_, ((search 7).1 _).2 ⟨List.mem_cons_of_mem _ List.mem_cons_self, by decide, by decide⟩, rfl⟩,
    ⟨_, ((search 18).1 _).2 ⟨List.mem_of_getElem? (i := 2) rfl, by decide, by decide⟩, rfl⟩, ?_⟩
  · rw [← Option.not_isSome_iff_eq_none, (search 0).2]
    intro parts
    obtain ⟨first, head, above, -⟩ := parts
    cases head
    exact absurd above (by decide)
  · rw [← Option.not_isSome_iff_eq_none, (search 19).2]
    intro parts
    obtain ⟨first, -, -, below⟩ := parts
    exact absurd below (by decide)

end ClientScript
