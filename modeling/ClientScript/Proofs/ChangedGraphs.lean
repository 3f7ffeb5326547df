import ClientScript.Proofs.Validity

/-!
Graphs that were changed by hand. Any blocks may stand in the place of those that were built, and any edges in the
place of those of an instruction. The check still tells whether the blocks divide the program and are linked, and it
never looks for an instruction, an edge list or a block that is not there: `inspect` is the check with every such
look made explicit, and its verdict is what the check says.
-/

namespace ClientScript

/-- What comes of a check that may look for an item of a list that is not there. -/
inductive Verdict where
  | passed
  | wrong (error : GraphError)
  | outOfRange (place : Int) (length : Nat)
deriving DecidableEq

namespace Verdict

def ofFault : Option GraphError → Verdict
  | none => .passed
  | some error => .wrong error

def andThen : Verdict → Verdict → Verdict
  | .passed, next => next
  | verdict, _ => verdict

def all {α : Type} (check : α → Verdict) : List α → Verdict
  | [] => .passed
  | item :: rest => (check item).andThen (all check rest)

def reading {α : Type} (items : List α) (place : Int) (check : α → Verdict) : Verdict :=
  match if place < 0 then none else items[place.toNat]? with
  | some item => check item
  | none => .outOfRange place items.length

theorem ofFault_or (fault other : Option GraphError) :
    ofFault (fault <|> other) = (ofFault fault).andThen (ofFault other) := by
  cases fault <;> rfl

theorem all_eq_ofFault {α : Type} {check : α → Verdict} {fault : α → Option GraphError}
    (same : ∀ item, check item = ofFault (fault item)) (items : List α) :
    all check items = ofFault (items.findSome? fault) := by
  induction items with
  | nil => rfl
  | cons item rest ih =>
    rw [all, ih, same, List.findSome?_cons]
    cases fault item <;> rfl

theorem reading_of_getElem {α : Type} {items : List α} {place : Nat} {item : α} (found : items[place]? = some item)
    (check : α → Verdict) : reading items place check = check item := by
  rw [reading, if_neg (Int.not_lt.2 (Int.natCast_nonneg place)), Int.toNat_natCast, found]

end Verdict

namespace Graph

def inspectRange (insts : List Instruction) (position expected : Int) (block : Block) : Verdict :=
  if block.id ≠ position then
    .wrong (.wrongId position block.id)
  else if block.first ≠ expected ∨ block.last < block.first ∨ insts.length ≤ block.last then
    .wrong (.wrongCover position block.first block.last expected)
  else
    .reading insts block.first fun first =>
      if block.start ≠ first.offset then .wrong (.wrongSpan position block.start block.stop)
      else .reading insts block.last fun last =>
        if block.stop ≠ last.next then .wrong (.wrongSpan position block.start block.stop) else .passed

def inspectSuccessor (graph : Graph) (position successor : Int) : Verdict :=
  if successor < 0 ∨ graph.blocks.length ≤ successor then
    .wrong (.noSuccessor position successor)
  else
    .reading graph.blocks successor fun block =>
      if block.preds.contains position then .passed else .wrong (.notPredecessor position successor)

def inspectBlock (graph : Graph) (position expected : Int) (block : Block) : Verdict :=
  (inspectRange graph.program.insts position expected block).andThen <|
    .reading graph.program.edges block.last fun edges =>
      (Verdict.all (fun edge => .ofFault (graph.checkEdge position block edge)) edges).andThen
        (.all (graph.inspectSuccessor position) block.succs)

def inspectBlocks (graph : Graph) (position : Nat) (expected : Int) : List Block → Verdict
  | [] =>
    if expected = graph.program.insts.length then .passed
    else .wrong (.uncovered expected graph.program.insts.length)
  | block :: rest =>
    (graph.inspectBlock position expected block).andThen (graph.inspectBlocks (position + 1) (block.last + 1) rest)

/-- The check of a graph in which an item that is not there would be noticed. -/
def inspect (graph : Graph) : Verdict :=
  graph.inspectBlocks 0 0 graph.blocks

theorem inspectRange_eq (insts : List Instruction) (position : Int) (expected : Nat) (block : Block) :
    inspectRange insts position expected block = .ofFault (checkRange insts position expected block) := by
  unfold inspectRange checkRange
  by_cases sameId : block.id ≠ position
  · rw [if_pos sameId, if_pos sameId]
    rfl
  rw [if_neg sameId, if_neg sameId]
  by_cases range : block.first ≠ expected ∨ block.last < block.first ∨ insts.length ≤ block.last
  · rw [if_pos range, if_pos range]
    rfl
  rw [if_neg range, if_neg range]
  simp only [not_or, not_not, Int.not_lt, Int.not_le] at range
  obtain ⟨begins, order, inside⟩ := range
  obtain ⟨last, ends⟩ := Int.eq_ofNat_of_zero_le (show 0 ≤ block.last by omega)
  have firstFound := List.getElem?_eq_getElem (show expected < insts.length by omega)
  have lastFound := List.getElem?_eq_getElem (show last < insts.length by omega)
  rw [begins, ends, Verdict.reading_of_getElem firstFound, Verdict.reading_of_getElem lastFound, Int.toNat_natCast,
    Int.toNat_natCast, firstFound, lastFound, Option.map_some, Option.map_some]
  by_cases start : block.start = insts[expected].offset
  · by_cases stop : block.stop = insts[last].next
    · simp [start, stop, Verdict.ofFault]
    · simp [start, stop, Ne.symm stop, Verdict.ofFault]
  · simp [start, Ne.symm start, Verdict.ofFault]

theorem inspectSuccessor_eq (graph : Graph) (position successor : Int) :
    graph.inspectSuccessor position successor = .ofFault (graph.checkSuccessor position successor) := by
  unfold inspectSuccessor checkSuccessor
  by_cases negative : successor < 0
  · rw [if_pos (.inl negative), if_pos negative]
    rfl
  obtain ⟨place, rfl⟩ := Int.eq_ofNat_of_zero_le (Int.not_lt.1 negative)
  rw [if_neg negative, Int.toNat_natCast]
  cases found : graph.blocks[place]? with
  | none =>
    have outside := List.getElem?_eq_none_iff.1 found
    rw [if_pos (.inr (Int.ofNat_le.2 outside))]
    rfl
  | some block =>
    have inside := (List.getElem?_eq_some_iff.1 found).1
    rw [if_neg (by omega), Verdict.reading_of_getElem found]
    dsimp only
    split <;> rfl

theorem inspectBlock_eq (graph : Graph) (listed : graph.program.insts.length ≤ graph.program.edges.length)
    (position expected : Nat) (block : Block) :
    graph.inspectBlock position expected block = .ofFault (graph.checkBlock position expected block) := by
  unfold inspectBlock checkBlock
  rw [inspectRange_eq, Verdict.ofFault_or, Verdict.ofFault_or]
  cases range : checkRange graph.program.insts position expected block with
  | some error => rfl
  | none =>
    obtain ⟨last, occupies⟩ := (checkRange_eq_none_iff _ position expected block).1 range
    have bound := occupies.last_lt
    have found := List.getElem?_eq_getElem (show last < graph.program.edges.length by omega)
    rw [exits, occupies.last_eq, Verdict.reading_of_getElem found, Int.toNat_natCast, List.getD_eq_getElem?_getD, found,
      Option.getD_some, Verdict.all_eq_ofFault fun edge => rfl,
      Verdict.all_eq_ofFault (graph.inspectSuccessor_eq position)]

theorem inspectBlocks_eq (graph : Graph) (listed : graph.program.insts.length ≤ graph.program.edges.length)
    (position expected : Nat) (blocks : List Block) :
    graph.inspectBlocks position expected blocks = .ofFault (graph.checkBlocks position expected blocks) := by
  induction blocks generalizing position expected with
  | nil =>
    rw [inspectBlocks, checkBlocks]
    split <;> rfl
  | cons block rest ih =>
    rw [inspectBlocks, checkBlocks, Verdict.ofFault_or, graph.inspectBlock_eq listed]
    cases checked : graph.checkBlock position expected block with
    | some error => rfl
    | none =>
      -- The block has passed, so the next one is expected at an instruction number that is not negative.
      obtain ⟨⟨last, occupies⟩, -⟩ := (graph.checkBlock_eq_none_iff position expected block).1 checked
      rw [occupies.last_eq]
      exact congrArg _ (ih (position + 1) (last + 1))

/-- If every instruction has an edge list, the check never looks for an item that is not there. -/
theorem inspect_eq (graph : Graph) (listed : graph.program.insts.length ≤ graph.program.edges.length) :
    graph.inspect = .ofFault graph.validate :=
  graph.inspectBlocks_eq listed 0 0 graph.blocks

/-- A change by hand: other edges for an instruction, or other blocks, however many. -/
inductive Edited (graph : Graph) : Graph → Prop where
  | edges (index : Nat) (edges : List Edge) : Edited graph { graph with program := graph.program.setEdges index edges }
  | blocks (blocks : List Block) : Edited graph { graph with blocks := blocks }

theorem edited_change (graph : Graph) (change : Change) : graph.Edited (graph.change change) := by
  cases change with
  | setEdges index edges => exact .edges index edges
  | setBlock position patch => exact .blocks _
  | dropBlocks count => exact .blocks _

theorem edits_foldl (graph : Graph) (changes : List Change) :
    Relation.ReflTransGen Edited graph (changes.foldl change graph) := by
  induction changes generalizing graph with
  | nil => exact .refl
  | cons first rest ih => exact .head (graph.edited_change first) (ih _)

theorem Edited.keeps {graph changed : Graph} (edited : graph.Edited changed) :
    changed.program.insts = graph.program.insts ∧ changed.program.edges.length = graph.program.edges.length := by
  cases edited with
  | edges index edges => exact ⟨rfl, List.length_set⟩
  | blocks blocks => exact ⟨rfl, rfl⟩

theorem keeps_of_edits {graph changed : Graph} (edits : Relation.ReflTransGen Edited graph changed) :
    changed.program.insts = graph.program.insts ∧ changed.program.edges.length = graph.program.edges.length := by
  induction edits with
  | refl => exact ⟨rfl, rfl⟩
  | tail _ edited ih =>
    obtain ⟨insts, edges⟩ := edited.keeps
    exact ⟨insts.trans ih.1, edges.trans ih.2⟩

end Graph

/-- Whatever was changed by hand in a graph that was built, a graph that passes the check has every instruction in one
of its blocks only, and these stand in order and know each other. If the program lists the edges of every
instruction, the check looks for nothing that is not there. -/
theorem validate_sound_of_edits (program : Program) (graph changed : Graph) (built : Graph.build program = .ok graph)
    (edits : Relation.ReflTransGen Graph.Edited graph changed) :
    (changed.validate = none →
      IsDivision program.insts changed.blocks ∧
        ∀ (position : Nat) (block : Block), changed.blocks[position]? = some block → ∀ id ∈ block.succs,
          ∃ (place : Nat) (successor : Block), id = place ∧ changed.blocks[place]? = some successor ∧
            (position : Int) ∈ successor.preds) ∧
      (program.insts.length ≤ program.edges.length → changed.inspect = .ofFault changed.validate) := by
  obtain ⟨insts, edges⟩ := Graph.keeps_of_edits edits
  rw [(Graph.isGraphOf_of_build built).program_eq] at insts edges
  constructor
  · intro valid
    obtain ⟨covers, linked⟩ := changed.validate_eq_none_iff.1 valid
    rw [insts] at covers
    refine ⟨covers.isDivision, fun position block found => ?_⟩
    obtain ⟨first, last, occupies⟩ := covers.isDivision.occupied position block found
    have links := (linked block (List.mem_of_getElem? found)).succs
    rwa [occupies.id_eq] at links
  · intro listed
    apply changed.inspect_eq
    rwa [insts, edges]

/-- A value is put on the stacks and the script returns. -/
def Program.straight : Program where
  insts := [
    { offset := 0, index := 0, desc := Registry.standard.lookup ⟨0⟩, operand := .int 7, size := 6 },
    { offset := 6, index := 1, desc := Registry.standard.lookup ⟨21⟩, operand := .byte 0, size := 3 }]
  edges := [[⟨.fallThrough, 6⟩], []]
  switches := []
  calls := []

-- Without the edge lists, the check of a block comes to a look for one that is not there.
example : Graph.inspect ⟨{ Program.straight with edges := [] },
    [{ id := 0, start := 0, stop := 9, first := 0, last := 1 }], []⟩ = .outOfRange 1 0 := by decide

def Program.straightHalves : List Block := [
  { id := 0, start := 0, stop := 6, first := 0, last := 0, succs := [1] },
  { id := 1, start := 6, stop := 9, first := 1, last := 1, preds := [0] }]

/-- The one block of the program is divided in two by hand, which the check accepts. Then it is made to go on behind the
end of the program, which the check refuses. -/
theorem validate_sound_of_edits_divided :
    ∃ graph, Graph.build .straight = .ok graph ∧
      (∃ changed, Relation.ReflTransGen Graph.Edited graph changed ∧ changed.validate = none ∧
        changed.blocks = Program.straightHalves ∧ IsDivision Program.straight.insts changed.blocks) ∧
      ∃ changes : List Graph.Change, (changes.foldl Graph.change graph).inspect = .wrong (.wrongCover 0 0 9 0) := by
  have sound := fun changed => validate_sound_of_edits .straight _ changed rfl
  have divided := sound _ (.tail (.single (.edges 0 [])) (.blocks Program.straightHalves))
  have lengthened := sound _
    (Graph.edits_foldl _ [.setBlock 0 { last := some 9 }, .dropBlocks 0, .setEdges 1 [⟨.jump, -4⟩]])
  exact ⟨_, rfl, ⟨_, .tail (.single (.edges 0 [])) (.blocks Program.straightHalves), rfl, rfl, (divided.1 rfl).1⟩, _,
    lengthened.2 (by decide)⟩

end ClientScript
