import ClientScript.Proofs.ControlFlow

/-!
Control flow that is moved. Two lists of instructions may differ in where the instructions stand, and in how their
displacements say where they lead. If each displacement of the one leads, in the other, to where the move takes its
target, then both have the same control flow up to the move. With no move at all this compares the two ways of
addressing.
-/

namespace ClientScript

def Edge.moved (move : Int → Int) (edge : Edge) : Edge :=
  { edge with target := move edge.target }

def CaseTarget.moved (move : Int → Int) (row : CaseTarget) : CaseTarget :=
  { row with target := move row.target }

def SwitchTable.moved (move : Int → Int) (table : SwitchTable) : SwitchTable where
  cases := table.cases.map (CaseTarget.moved move)
  otherwise := move table.otherwise

theorem CaseTarget.map_label_moved (move : Int → Int) (cases : List CaseTarget) :
    (cases.map (moved move)).map label = cases.map label := by
  rw [List.map_map]
  rfl

theorem CaseTarget.map_target_moved (move : Int → Int) (cases : List CaseTarget) :
    (cases.map (moved move)).map target = (cases.map target).map move := by
  rw [List.map_map, List.map_map]
  rfl

theorem Edge.moved_id : moved id = id := rfl

theorem SwitchTable.moved_id : moved id = id := by
  funext table
  exact congrArg (SwitchTable.mk · table.otherwise) (List.map_id table.cases)

section

variable {α β : Type} [BEq α] [LawfulBEq α] [BEq β] [LawfulBEq β] {change : α → β} {items : List α}

theorem IsFirstOccurrences.map {chosen : List α} (first : IsFirstOccurrences items chosen)
    (injective : ∀ one ∈ items, ∀ other ∈ items, change one = change other → one = other) :
    IsFirstOccurrences (items.map change) (chosen.map change) := by
  have place {item : α} (member : item ∈ chosen) : (items.map change).idxOf (change item) = items.idxOf item :=
    idxOf_map fun other occurs => injective other occurs item ((first.mem_iff item).1 member)
  constructor
  · intro item
    simp only [List.mem_map, first.mem_iff]
  · rw [List.pairwise_map]
    refine first.ordered.imp_of_mem fun {one other} oneMember otherMember earlier => ?_
    rwa [place oneMember, place otherMember]

end

theorem CaseGroup.labels_of_terms {most : Int} {group image : CaseGroup} {labels : List Int32}
    (terms : image.terms = group.terms) (stands : group.Labels most labels) : image.Labels most labels := by
  obtain ⟨ranges, ⟨someTerm, joined, spans⟩, valid, rfl⟩ := stands
  rw [CaseGroup.runs, ← terms] at spans
  rw [← terms] at someTerm joined
  exact ⟨ranges, ⟨someTerm, joined, spans⟩, valid, rfl⟩

namespace Resolver

variable {one other : Resolver} {move : Int → Int} {inst image : Instruction}

/-- Where the one displacement leads the other one leads, up to the move. -/
def Carries (one other : Resolver) (move : Int → Int) (inst image : Instruction) (disp disp' : Int32) : Prop :=
  ∀ target, one.Reaches inst disp target →
    ∃ goal, other.Reaches image disp' goal ∧ goal.offset = move target.offset

structure Mirrors (one other : Resolver) (move : Int → Int) (inst image : Instruction) : Prop where
  flow : image.desc.flow = inst.desc.flow
  next : ∀ next, one.insts[inst.index + 1]? = some next →
    ∃ follower, other.insts[image.index + 1]? = some follower ∧ follower.offset = move next.offset
  jump : inst.desc.flow = .branch ∨ inst.desc.flow = .condBranch →
    one.Carries other move inst image inst.operand.toInt image.operand.toInt
  table : inst.desc.flow = .switch → ∀ table, inst.operand.switch? = some table →
    ∃ copy, image.operand.switch? = some copy ∧
      List.Forall₂ (fun group group' : CaseGroup =>
        group'.terms = group.terms ∧ one.Carries other move inst image group.disp group'.disp)
        table.groups copy.groups

/-- The one list of instructions is the other one, moved: the move keeps instructions apart, and each of them has an
image with the same ways out. -/
structure Relocates (one other : Resolver) (move : Int → Int) : Prop where
  range : other.options.switchRange = one.options.switchRange
  injective : ∀ inst ∈ one.insts, ∀ inst' ∈ one.insts, move inst.offset = move inst'.offset → inst.offset = inst'.offset
  mirrors : List.Forall₂ (one.Mirrors other move) one.insts other.insts

theorem Unfolds.moved {groups groups' : List CaseGroup} {cases : List CaseTarget}
    (unfolds : one.Unfolds inst groups cases) (range : other.options.switchRange = one.options.switchRange)
    (pairs : List.Forall₂ (fun group group' : CaseGroup =>
      group'.terms = group.terms ∧ one.Carries other move inst image group.disp group'.disp) groups groups') :
    other.Unfolds image groups' (cases.map (CaseTarget.moved move)) := by
  induction unfolds generalizing groups' with
  | nil =>
    cases pairs
    exact .nil
  | @cons group rest target labels cases reaches stands later ih =>
    cases pairs with
    | @cons _ group' _ rest' pair pairs =>
      obtain ⟨terms, carries⟩ := pair
      obtain ⟨goal, leads, place⟩ := carries target reaches
      have rows : (Expansion.rowsTo target.offset labels).map (CaseTarget.moved move) =
          Expansion.rowsTo goal.offset labels := by
        rw [Expansion.rowsTo, Expansion.rowsTo, List.map_map, place]
        rfl
      rw [List.map_append, rows]
      rw [← range] at stands
      exact .cons leads (CaseGroup.labels_of_terms terms stands) (ih pairs)

theorem Exits.moved {edges : List Edge} {table : Option SwitchTable} (exits : one.Exits inst edges table)
    (relocates : one.Relocates other move) (mirrors : one.Mirrors other move inst image) :
    other.Exits image (edges.map (Edge.moved move)) (table.map (SwitchTable.moved move)) := by
  obtain ⟨sameFlow, goesOn, jumps, tables⟩ := mirrors
  cases exits with
  | ret flow => exact .ret (sameFlow.trans flow)
  | branch flow jump =>
    obtain ⟨goal, leads, place⟩ := jumps (.inl flow) _ jump
    simp only [List.map_cons, List.map_nil, Edge.moved, Option.map_none, ← place]
    exact .branch (sameFlow.trans flow) leads
  | condBranch flow jump follows =>
    obtain ⟨goal, leads, place⟩ := jumps (.inr flow) _ jump
    obtain ⟨follower, behind, nextPlace⟩ := goesOn _ follows
    simp only [List.map_cons, List.map_nil, Edge.moved, Option.map_none, ← place, ← nextPlace]
    exact .condBranch (sameFlow.trans flow) leads behind
  | @switch operand next cases targets flow given follows unfolds distinct chosen =>
    obtain ⟨follower, behind, nextPlace⟩ := goesOn next follows
    obtain ⟨copy, givenCopy, pairs⟩ := tables flow operand given
    -- Every target is the offset of an instruction, and the move keeps these apart.
    have lead : ∀ target ∈ cases.map CaseTarget.target, one.Leads target := by
      intro target member
      obtain ⟨row, listed, rfl⟩ := List.mem_map.1 member
      exact unfolds.leads row listed
    have injective : ∀ target ∈ cases.map CaseTarget.target, ∀ target' ∈ cases.map CaseTarget.target,
        move target = move target' → target = target' := by
      intro target member target' member' same
      obtain ⟨inst, occurs, rfl⟩ := lead target member
      obtain ⟨inst', occurs', rfl⟩ := lead target' member'
      exact relocates.injective inst occurs inst' occurs' same
    have movedChosen := chosen.map injective
    have movedUnfolds := unfolds.moved relocates.range pairs
    rw [← CaseTarget.map_target_moved] at movedChosen
    rw [← CaseTarget.map_label_moved move] at distinct
    have edges : (targets.map (Edge.mk .choice) ++ [Edge.mk .otherwise next.offset]).map (Edge.moved move) =
        (targets.map move).map (Edge.mk .choice) ++ [⟨.otherwise, follower.offset⟩] := by
      rw [List.map_append, List.map_map, List.map_map, nextPlace]
      rfl
    rw [edges, Option.map_some, SwitchTable.moved, ← nextPlace]
    exact .switch (sameFlow.trans flow) givenCopy behind movedUnfolds distinct movedChosen
  | plain flow follows =>
    obtain ⟨follower, behind, nextPlace⟩ := goesOn _ follows
    simp only [List.map_cons, List.map_nil, Edge.moved, Option.map_none, ← nextPlace]
    exact .plain (by rwa [sameFlow]) behind

end Resolver

theorem resolve_of_relocates {options options' : FlowOptions} {insts others : List Instruction} {move : Int → Int}
    (relocates : Resolver.Relocates ⟨options, insts⟩ ⟨options', others⟩ move) {program : Program}
    (resolved : resolve options insts = .ok program) :
    resolve options' others = .ok ⟨others, program.edges.map (List.map (Edge.moved move)),
      program.switches.map (Prod.map id (SwitchTable.moved move)), callSites others⟩ := by
  obtain ⟨parts, exits, rfl⟩ := (resolve_eq_ok_iff options insts program).1 resolved
  refine (resolve_eq_ok_iff options' others _).2
    ⟨parts.map (Prod.map (List.map (Edge.moved move)) (Option.map (SwitchTable.moved move))), ?_, ?_⟩
  · rw [List.forall₂_map_right_iff]
    rw [List.forall₂_iff_get] at exits ⊢
    have mirrors := List.forall₂_iff_get.1 relocates.mirrors
    refine ⟨mirrors.1.symm.trans exits.1, fun place bound bound' => ?_⟩
    have here : place < insts.length := exits.1 ▸ bound'
    exact (exits.2 place here bound').moved relocates (mirrors.2 place here bound)
  · congr 1
    · rw [List.map_map, List.map_map]
      rfl
    · rw [List.zipIdx_map, List.filterMap_map, List.map_filterMap]
      congr 1
      funext part
      obtain ⟨⟨edges, table⟩, place⟩ := part
      cases table <;> rfl

end ClientScript
