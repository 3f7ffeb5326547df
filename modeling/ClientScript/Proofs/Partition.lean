import Mathlib
import ClientScript.Block.Build
import ClientScript.Proofs.Sequences

/-!
Division of instructions into blocks. `Covers` says that blocks stand in a row, each from its first instruction
to its last, with nothing left out between them, so that every instruction lies in one of them only. The blocks
of a partition do so. They start at the first instruction, at every target, and behind every instruction that
ends a block.
-/

namespace ClientScript

structure Block.Occupies (insts : List Instruction) (position first last : Nat) (block : Block) : Prop where
  id_eq : block.id = position
  first_eq : block.first = first
  last_eq : block.last = last
  order : first ≤ last
  start_eq : insts[first]?.map Instruction.offset = some block.start
  stop_eq : insts[last]?.map Instruction.next = some block.stop

theorem Block.Occupies.last_lt {insts : List Instruction} {position first last : Nat} {block : Block}
    (occupies : block.Occupies insts position first last) : last < insts.length := by
  obtain ⟨inst, found, -⟩ := Option.map_eq_some_iff.1 occupies.stop_eq
  exact (List.getElem?_eq_some_iff.1 found).1

/-- Blocks from a position on that have the instructions from one on among them, up to the end. -/
inductive Covers (insts : List Instruction) : Nat → Nat → List Block → Prop where
  | done (position : Nat) : Covers insts position insts.length []
  | block {position first last : Nat} {block : Block} {rest : List Block}
      (occupies : block.Occupies insts position first last) (later : Covers insts (position + 1) (last + 1) rest) :
      Covers insts position first (block :: rest)

def Holds (blocks : List Block) (position index : Nat) : Prop :=
  ∃ block, blocks[position]? = some block ∧ block.first ≤ index ∧ index ≤ block.last

theorem Block.Occupies.holds {insts : List Instruction} {blocks : List Block} {position first last index : Nat}
    {block : Block} (occupies : block.Occupies insts position first last) (found : blocks[position]? = some block)
    (above : first ≤ index) (below : index ≤ last) : Holds blocks position index := by
  refine ⟨block, found, ?_, ?_⟩
  · rw [occupies.first_eq]
    omega
  · rw [occupies.last_eq]
    omega

namespace Covers

variable {insts : List Instruction} {position first : Nat} {blocks : List Block}

theorem at_place (covers : Covers insts position first blocks) {place : Nat} {block : Block}
    (found : blocks[place]? = some block) :
    ∃ low high, first ≤ low ∧ block.Occupies insts (position + place) low high ∧
      Covers insts (position + place + 1) (high + 1) (blocks.drop (place + 1)) := by
  induction covers generalizing place with
  | done => cases found
  | @block position first last head rest occupies later ih =>
    cases place with
    | zero =>
      cases found
      exact ⟨first, last, le_rfl, occupies, later⟩
    | succ place =>
      obtain ⟨low, high, above, inside, behind⟩ := ih found
      have ordered := occupies.order
      rw [Nat.add_right_comm position 1 place] at inside behind
      exact ⟨low, high, by omega, inside, behind⟩

theorem at_member (covers : Covers insts position first blocks) {block : Block} (member : block ∈ blocks) :
    ∃ place low high, blocks[place]? = some block ∧ first ≤ low ∧
      block.Occupies insts (position + place) low high := by
  obtain ⟨place, found⟩ := List.getElem?_of_mem member
  obtain ⟨low, high, above, occupies, -⟩ := covers.at_place found
  exact ⟨place, low, high, found, above, occupies⟩

theorem first_eq (covers : Covers insts position first blocks) {block : Block} (head : blocks[0]? = some block) :
    block.first = first := by
  cases covers with
  | done => cases head
  | block occupies later =>
    cases head
    exact occupies.first_eq

theorem eq_length (covers : Covers insts position first []) : first = insts.length := by
  cases covers
  rfl

theorem exists_head (covers : Covers insts position first blocks) (more : first < insts.length) :
    ∃ block last, blocks[0]? = some block ∧ block.Occupies insts position first last := by
  cases covers with
  | done => exact absurd more (Nat.lt_irrefl _)
  | block occupies later => exact ⟨_, _, rfl, occupies⟩

theorem exists_next (covers : Covers insts position first blocks) {place low high : Nat} {block : Block}
    (found : blocks[place]? = some block) (occupies : block.Occupies insts (position + place) low high)
    (more : high + 1 < insts.length) :
    ∃ follower last, blocks[place + 1]? = some follower ∧
      follower.Occupies insts (position + place + 1) (high + 1) last := by
  obtain ⟨low', high', -, occupies', behind⟩ := covers.at_place found
  have same : high' = high := Int.natCast_inj.1 (occupies'.last_eq.symm.trans occupies.last_eq)
  subst same
  obtain ⟨follower, last, head, next⟩ := behind.exists_head more
  rw [List.getElem?_drop, Nat.add_zero] at head
  exact ⟨follower, last, head, next⟩

theorem ascending (covers : Covers insts position first blocks) :
    blocks.Pairwise fun one other => one.last < other.first := by
  induction covers with
  | done => exact .nil
  | @block position first last head rest occupies later ih =>
    refine .cons (fun other member => ?_) ih
    obtain ⟨place, low, high, -, above, inside⟩ := later.at_member member
    rw [occupies.last_eq, inside.first_eq]
    omega

theorem exists_holds (covers : Covers insts position first blocks) {index : Nat} (above : first ≤ index)
    (below : index < insts.length) : ∃ place, Holds blocks place index := by
  induction covers with
  | done => omega
  | @block position first last head rest occupies later ih =>
    by_cases here : index ≤ last
    · refine ⟨0, head, rfl, ?_, ?_⟩
      · rw [occupies.first_eq]
        omega
      · rw [occupies.last_eq]
        omega
    · obtain ⟨place, found⟩ := ih (by omega)
      exact ⟨place + 1, found⟩

theorem holds_unique (covers : Covers insts position first blocks) {one other index : Nat}
    (inOne : Holds blocks one index) (inOther : Holds blocks other index) : one = other := by
  have apart {low high : Nat} (inLow : Holds blocks low index) (inHigh : Holds blocks high index) : ¬low < high := by
    intro less
    obtain ⟨block, found, -, ends⟩ := inLow
    obtain ⟨follower, follows, starts, -⟩ := inHigh
    obtain ⟨bound, rfl⟩ := List.getElem?_eq_some_iff.1 found
    obtain ⟨bound', rfl⟩ := List.getElem?_eq_some_iff.1 follows
    have before := List.pairwise_iff_getElem.1 covers.ascending low high bound bound' less
    omega
  have notLess := apart inOne inOther
  have notGreater := apart inOther inOne
  omega

theorem existsUnique_holds (covers : Covers insts position first blocks) {index : Nat} (above : first ≤ index)
    (below : index < insts.length) : ∃! place, Holds blocks place index := by
  obtain ⟨place, holds⟩ := covers.exists_holds above below
  exact ⟨place, holds, fun other inOther => covers.holds_unique inOther holds⟩

end Covers

/-- Blocks that stand in a row and have every instruction in one of them. -/
structure IsDivision (insts : List Instruction) (blocks : List Block) : Prop where
  occupied : ∀ (position : Nat) (block : Block), blocks[position]? = some block →
    ∃ first last, block.Occupies insts position first last
  first : ∀ block : Block, blocks[0]? = some block → block.first = 0
  next : ∀ (position : Nat) (block follower : Block),
    blocks[position]? = some block → blocks[position + 1]? = some follower → follower.first = block.last + 1
  last : ∀ block : Block, blocks.getLast? = some block → block.last + 1 = insts.length
  holds : ∀ index < insts.length, ∃! position, Holds blocks position index

theorem Covers.isDivision {insts : List Instruction} {blocks : List Block} (covers : Covers insts 0 0 blocks) :
    IsDivision insts blocks where
  occupied position block found := by
    obtain ⟨low, high, -, occupies, -⟩ := covers.at_place found
    rw [Nat.zero_add] at occupies
    exact ⟨low, high, occupies⟩
  first block found := covers.first_eq found
  next position block follower found follows := by
    obtain ⟨low, high, -, occupies, behind⟩ := covers.at_place found
    rw [← Nat.add_zero (position + 1), ← List.getElem?_drop] at follows
    rw [behind.first_eq follows, occupies.last_eq, Nat.cast_succ]
  last block last := by
    rw [List.getLast?_eq_getElem?] at last
    obtain ⟨low, high, -, occupies, behind⟩ := covers.at_place last
    rw [List.drop_of_length_le (by omega)] at behind
    rw [occupies.last_eq, ← behind.eq_length, Nat.cast_succ]
  holds index below := covers.existsUnique_holds (Nat.zero_le index) below

def Block.bare (block : Block) : Block :=
  { block with succs := [], preds := [], reachable := false }

theorem covers_bare_iff {insts : List Instruction} {position first : Nat} {blocks : List Block} :
    Covers insts position first (blocks.map Block.bare) ↔ Covers insts position first blocks := by
  induction blocks generalizing position first with
  | nil => exact Iff.rfl
  | cons block rest ih =>
    constructor
    · intro covers
      cases covers with
      | block occupies later =>
        obtain ⟨id, first, last, order, start, stop⟩ := occupies
        exact .block ⟨id, first, last, order, start, stop⟩ (ih.1 later)
    · intro covers
      cases covers with
      | block occupies later =>
        obtain ⟨id, first, last, order, start, stop⟩ := occupies
        exact .block ⟨id, first, last, order, start, stop⟩ (ih.2 later)

namespace Graph

def firsts (insts : List Instruction) (targets : List Nat) : List Nat :=
  (leaders insts targets).zipIdx.filterMap fun flag => if flag.1 then some flag.2 else none

def spanned (insts : List Instruction) (span : (Nat × Nat) × Nat) : Block where
  id := span.2
  start := (insts[span.1.1]?.map Instruction.offset).getD 0
  stop := (insts[span.1.2]?.map Instruction.next).getD 0
  first := span.1.1
  last := span.1.2

theorem partition_eq (insts : List Instruction) (targets : List Nat) :
    partition insts targets = (spans insts.length (firsts insts targets)).zipIdx.map (spanned insts) := rfl

theorem ascending_firsts (insts : List Instruction) (targets : List Nat) :
    (firsts insts targets).Pairwise (· < ·) := by
  apply pairwise_filterMap_zipIdx strictMono_id
  intro flag number chosen
  split at chosen
  next =>
    cases chosen
    rfl
  next => cases chosen

theorem getElem_leaders_zero (insts : List Instruction) (targets : List Nat) :
    (leaders insts targets)[0]? = if 0 < insts.length then some true else none := by
  cases insts with
  | nil => rfl
  | cons inst rest => simp [leaders, List.range_succ_eq_map]

theorem getElem_leaders_succ (insts : List Instruction) (targets : List Nat) (index : Nat) :
    (leaders insts targets)[index + 1]? =
      if index + 1 < insts.length then
        insts[index]?.map fun prev => prev.terminates || targets.contains (index + 1)
      else none := by
  rw [leaders, List.getElem?_zipWith, List.getElem?_cons_succ, List.getElem?_map]
  by_cases inside : index + 1 < insts.length
  · rw [if_pos inside, List.getElem?_range inside]
    cases insts[index]? <;> rfl
  · rw [if_neg inside, List.getElem?_eq_none (by rw [List.length_range]; omega)]

/-- A block starts at the first instruction, at a target, and behind an instruction that ends a block. -/
theorem mem_firsts_iff (insts : List Instruction) (targets : List Nat) (index : Nat) :
    index ∈ firsts insts targets ↔
      index < insts.length ∧ (index = 0 ∨ index ∈ targets ∨
        ∃ prev, insts[index - 1]? = some prev ∧ prev.terminates = true) := by
  have flagged : index ∈ firsts insts targets ↔ (leaders insts targets)[index]? = some true := by
    rw [firsts, List.mem_filterMap]
    constructor
    · intro parts
      rcases parts with ⟨⟨flag, number⟩, member, kept⟩
      split at kept
      next set =>
        cases kept
        rw [← show flag = true from set]
        exact List.mk_mem_zipIdx_iff_getElem?.1 member
      next => cases kept
    · intro found
      exact ⟨(true, index), List.mk_mem_zipIdx_iff_getElem?.2 found, rfl⟩
  rw [flagged]
  cases index with
  | zero =>
    rw [getElem_leaders_zero]
    simp [List.length_pos_iff]
  | succ index =>
    rw [getElem_leaders_succ]
    by_cases inside : index + 1 < insts.length
    · obtain ⟨prev, found⟩ : ∃ prev, insts[index]? = some prev :=
        ⟨_, List.getElem?_eq_getElem (Nat.lt_of_succ_lt inside)⟩
      simp [inside, found, or_comm]
    · simp [inside]

theorem map_fst_spans (count : Nat) (starts : List Nat) : (spans count starts).map Prod.fst = starts := by
  fun_induction spans count starts with
  | case1 => rfl
  | case2 => rfl
  | case3 first next rest ih => rw [List.map_cons, ih]

theorem occupies_spanned {insts : List Instruction} {first last : Nat} (order : first ≤ last)
    (inside : last < insts.length) (position : Nat) :
    (spanned insts ((first, last), position)).Occupies insts position first last where
  id_eq := rfl
  first_eq := rfl
  last_eq := rfl
  order := order
  start_eq := by
    rw [spanned, List.getElem?_eq_getElem (by omega)]
    rfl
  stop_eq := by
    rw [spanned, List.getElem?_eq_getElem inside]
    rfl

theorem covers_spans {insts : List Instruction} {first : Nat} {rest : List Nat}
    (ascending : (first :: rest).Pairwise (· < ·)) (inside : ∀ index ∈ first :: rest, index < insts.length)
    (position : Nat) :
    Covers insts position first (((spans insts.length (first :: rest)).zipIdx position).map (spanned insts)) := by
  induction rest generalizing first position with
  | nil =>
    have bound := inside first List.mem_cons_self
    have whole : insts.length - 1 + 1 = insts.length := by omega
    refine .block (occupies_spanned (by omega) (by omega) position) ?_
    rw [whole]
    exact .done _
  | cons next rest ih =>
    obtain ⟨before, ascending⟩ := List.pairwise_cons.1 ascending
    obtain ⟨-, inside⟩ := List.forall_mem_cons.1 inside
    have less := before next List.mem_cons_self
    have bound := inside next List.mem_cons_self
    have joins : next - 1 + 1 = next := by omega
    refine .block (occupies_spanned (by omega) (by omega) position) ?_
    rw [joins]
    exact ih ascending inside (position + 1)

theorem covers_partition (insts : List Instruction) (targets : List Nat) :
    Covers insts 0 0 (partition insts targets) := by
  have inside : ∀ index ∈ firsts insts targets, index < insts.length := fun index member =>
    ((mem_firsts_iff insts targets index).1 member).1
  have ascending := ascending_firsts insts targets
  have entry : 0 < insts.length → 0 ∈ firsts insts targets := fun some =>
    (mem_firsts_iff insts targets 0).2 ⟨some, .inl rfl⟩
  rw [partition_eq]
  cases starts : firsts insts targets with
  | nil =>
    have none : insts.length = 0 := by
      by_contra some
      have member := entry (Nat.pos_of_ne_zero some)
      rw [starts] at member
      cases member
    rw [List.length_eq_zero_iff.1 none]
    exact .done 0
  | cons first rest =>
    rw [starts] at inside ascending entry
    have zero : first = 0 := by
      have bound := inside first List.mem_cons_self
      rcases List.mem_cons.1 (entry (by omega)) with same | later
      · exact same.symm
      · have before := (List.pairwise_cons.1 ascending).1 0 later
        omega
    subst zero
    exact covers_spans ascending inside 0

theorem exists_first_iff (insts : List Instruction) (targets : List Nat) (index : Nat) :
    (∃ block ∈ partition insts targets, block.first = index) ↔ index ∈ firsts insts targets := by
  have starts : (partition insts targets).map Block.first = (firsts insts targets).map Nat.cast := by
    rw [partition_eq, List.map_map]
    conv_rhs => rw [← map_fst_spans insts.length (firsts insts targets), List.map_map,
      ← List.zipIdx_map_fst 0 (spans insts.length (firsts insts targets)), List.map_map]
    rfl
  rw [← List.mem_map (f := Block.first), starts, List.mem_map]
  constructor
  · intro parts
    rcases parts with ⟨number, member, same⟩
    rwa [← Int.natCast_inj.1 same]
  · intro member
    exact ⟨index, member, rfl⟩

theorem map_bare_partition (insts : List Instruction) (targets : List Nat) :
    (partition insts targets).map Block.bare = partition insts targets := by
  rw [partition_eq, List.map_map]
  rfl

end Graph

end ClientScript
