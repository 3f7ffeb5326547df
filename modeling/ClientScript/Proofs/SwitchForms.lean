import ClientScript.Proofs.Building
import ClientScript.Proofs.Relocation
import ClientScript.Proofs.RoundTrip

/-!
The two forms of switches. A table of the container can be written into the code in place of its number. The switch
then takes other bytes and everything behind it is moved, but the instructions, their stacks and their control flow by
numbers stay the same.
-/

namespace ClientScript

/-- Both instructions have one number, and by numbers they lead to the same instructions. -/
structure Instruction.LeadsLike (inst other : Instruction) : Prop where
  index : other.index = inst.index
  flow : other.desc.flow = inst.desc.flow
  number : other.operand.toInt = inst.operand.toInt
  groups : other.operand.switch?.map SwitchOperand.groups = inst.operand.switch?.map SwitchOperand.groups

theorem Instruction.LeadsLike.symm {inst other : Instruction} (alike : inst.LeadsLike other) :
    other.LeadsLike inst where
  index := alike.index.symm
  flow := alike.flow.symm
  number := alike.number.symm
  groups := alike.groups.symm

/-- Where the instruction stands in the other list that has the number of the one at an offset. -/
def counterpart (insts others : List Instruction) (offset : Int) : Int :=
  ((lastAt offset 0 none insts).bind fun place => others[place]?).elim 0 Instruction.offset

namespace InOrder

variable {insts others : List Instruction} {place : Nat} {inst image : Instruction}

theorem counterpart_of_getElem (ordered : InOrder insts) (found : insts[place]? = some inst)
    (located : others[place]? = some image) : counterpart insts others inst.offset = image.offset := by
  rw [counterpart, lastAt_of_getElem ordered.ascending found, Nat.zero_add, Option.bind_some, located]
  rfl

theorem place_unique (ordered : InOrder insts) {place' : Nat} {inst' : Instruction} (found : insts[place]? = some inst)
    (found' : insts[place']? = some inst') (same : inst.offset = inst'.offset) : place = place' := by
  have first := lastAt_of_getElem ordered.ascending found 0 none
  have second := lastAt_of_getElem ordered.ascending found' 0 none
  rw [same, second, Option.some.injEq] at first
  omega

variable {most : Int}

theorem carries_counterpart (ordered : InOrder insts) (pairs : List.Forall₂ Instruction.LeadsLike insts others)
    (index : image.index = inst.index) (disp : Int32) :
    Resolver.Carries ⟨⟨.byIndex, most⟩, insts⟩ ⟨⟨.byIndex, most⟩, others⟩ (counterpart insts others) inst image
      disp disp := by
  intro target reaches
  obtain ⟨place, found, counts⟩ := reaches
  obtain ⟨goal, located, -⟩ := exists_getElem_of_forall₂ pairs found
  refine ⟨goal, ⟨place, located, ?_⟩, (ordered.counterpart_of_getElem found located).symm⟩
  rw [if_pos rfl] at counts ⊢
  rw [index]
  exact counts

theorem mirrors_counterpart (ordered : InOrder insts) (pairs : List.Forall₂ Instruction.LeadsLike insts others)
    (alike : inst.LeadsLike image) :
    Resolver.Mirrors ⟨⟨.byIndex, most⟩, insts⟩ ⟨⟨.byIndex, most⟩, others⟩ (counterpart insts others) inst image where
  flow := alike.flow
  next next follows := by
    obtain ⟨follower, located, -⟩ := exists_getElem_of_forall₂ pairs follows
    refine ⟨follower, ?_, (ordered.counterpart_of_getElem follows located).symm⟩
    rw [alike.index]
    exact located
  jump _ := by
    rw [alike.number]
    exact ordered.carries_counterpart pairs alike.index _
  table _ table given := by
    have groups := alike.groups
    rw [given, Option.map_some] at groups
    obtain ⟨copy, givenCopy, same⟩ := Option.map_eq_some_iff.1 groups
    refine ⟨copy, givenCopy, ?_⟩
    rw [same, List.forall₂_same]
    exact fun group _ => ⟨rfl, ordered.carries_counterpart pairs alike.index _⟩

theorem relocates_counterpart (ordered : InOrder insts) (orderedOthers : InOrder others)
    (pairs : List.Forall₂ Instruction.LeadsLike insts others) :
    Resolver.Relocates ⟨⟨.byIndex, most⟩, insts⟩ ⟨⟨.byIndex, most⟩, others⟩ (counterpart insts others) where
  range := rfl
  injective inst member inst' member' same := by
    obtain ⟨place, found⟩ := List.getElem?_of_mem member
    obtain ⟨place', found'⟩ := List.getElem?_of_mem member'
    obtain ⟨image, located, -⟩ := exists_getElem_of_forall₂ pairs found
    obtain ⟨image', located', -⟩ := exists_getElem_of_forall₂ pairs found'
    rw [ordered.counterpart_of_getElem found located, ordered.counterpart_of_getElem found' located'] at same
    rw [orderedOthers.place_unique located located' same, found', Option.some.injEq] at found
    rw [found]
  mirrors := pairs.imp fun _ _ alike => ordered.mirrors_counterpart pairs alike

end InOrder

namespace Program

def Meets (program other : Program) (target goal : Int) : Prop :=
  ∃ number, program.indexAt target = some number ∧ other.indexAt goal = some number

/-- The edges of both programs have the same kinds and lead to the same numbers, and so do the cases of their switches,
which have the same labels. -/
structure FlowsLike (program other : Program) : Prop where
  edges : List.Forall₂ (List.Forall₂ fun edge image : Edge =>
    image.kind = edge.kind ∧ program.Meets other edge.target image.target) program.edges other.edges
  switches : List.Forall₂ (fun entry image : Nat × SwitchTable =>
    image.1 = entry.1 ∧ program.Meets other entry.2.otherwise image.2.otherwise ∧
      List.Forall₂ (fun row imageRow : CaseTarget =>
        imageRow.label = row.label ∧ program.Meets other row.target imageRow.target) entry.2.cases image.2.cases)
    program.switches other.switches

end Program

theorem leads_of_switches {options : FlowOptions} {insts : List Instruction} {program : Program}
    (resolved : resolve options insts = .ok program) :
    ∀ entry ∈ program.switches, Resolver.Leads ⟨options, insts⟩ entry.2.otherwise ∧
      ∀ row ∈ entry.2.cases, Resolver.Leads ⟨options, insts⟩ row.target := by
  obtain ⟨parts, exits, rfl⟩ := (resolve_eq_ok_iff options insts program).1 resolved
  intro entry member
  obtain ⟨⟨⟨edges, table⟩, place⟩, listed, given⟩ := List.mem_filterMap.1 member
  obtain ⟨table, rfl, rfl⟩ := Option.map_eq_some_iff.1 given
  obtain ⟨inst, -, ways⟩ := exists_getElem_of_forall₂ exits.flip (List.mem_zipIdx_iff_getElem?.1 listed)
  cases ways with
  | switch flow given follows unfolds distinct chosen =>
    exact ⟨⟨_, List.mem_of_getElem? follows, rfl⟩, unfolds.leads⟩

namespace InOrder

variable {insts others : List Instruction} {most : Int} {program : Program}

theorem exists_resolve_alike (ordered : InOrder insts) (orderedOthers : InOrder others)
    (pairs : List.Forall₂ Instruction.LeadsLike insts others)
    (resolved : resolve ⟨.byIndex, most⟩ insts = .ok program) :
    ∃ other, resolve ⟨.byIndex, most⟩ others = .ok other ∧ program.FlowsLike other := by
  have moved := resolve_of_relocates (ordered.relocates_counterpart orderedOthers pairs) resolved
  refine ⟨_, moved, ?_⟩
  obtain ⟨rfl, ways⟩ := wayOut_of_resolve resolved
  have meets {target : Int} (leads : Resolver.Leads ⟨⟨.byIndex, most⟩, program.insts⟩ target) :
      program.Meets ⟨others, program.edges.map (List.map (Edge.moved (counterpart program.insts others))),
        program.switches.map (Prod.map id (SwitchTable.moved (counterpart program.insts others))), callSites others⟩
        target (counterpart program.insts others target) := by
    obtain ⟨inst, member, rfl⟩ := leads
    obtain ⟨place, found⟩ := List.getElem?_of_mem member
    obtain ⟨image, located, -⟩ := exists_getElem_of_forall₂ pairs found
    refine ⟨place, indexAt_of_getElem ordered.ascending found, ?_⟩
    rw [ordered.counterpart_of_getElem found located]
    exact indexAt_of_getElem orderedOthers.ascending located
  constructor
  · rw [List.forall₂_map_right_iff, List.forall₂_same]
    intro edges listed
    obtain ⟨index, given⟩ := List.getElem?_of_mem listed
    obtain ⟨inst, -, leads⟩ := ways index edges given
    rw [List.forall₂_map_right_iff, List.forall₂_same]
    exact fun edge member => ⟨rfl, meets (leads edge member).leads⟩
  · rw [List.forall₂_map_right_iff, List.forall₂_same]
    intro entry listed
    obtain ⟨otherwise, cases⟩ := leads_of_switches resolved entry listed
    refine ⟨rfl, meets otherwise, ?_⟩
    change List.Forall₂ _ _ (entry.2.cases.map (CaseTarget.moved _))
    rw [List.forall₂_map_right_iff, List.forall₂_same]
    exact fun row member => ⟨rfl, meets (cases row member)⟩

end InOrder

def Operand.inlined : Operand → Operand
  | .switch table => .switch { table with index := -1 }
  | operand => operand

theorem Operand.inlined_toInt (operand : Operand) : operand.inlined.toInt = operand.toInt := by
  cases operand <;> rfl

theorem Operand.inlined_toText (operand : Operand) : operand.inlined.toText = operand.toText := by
  cases operand <;> rfl

theorem Operand.inlined_groups (operand : Operand) :
    operand.inlined.switch?.map SwitchOperand.groups = operand.switch?.map SwitchOperand.groups := by
  cases operand <;> rfl

def Instruction.inlined (inst : Instruction) : Instruction :=
  { inst with operand := inst.operand.inlined }

def Decoder.inlining (decoder : Decoder) : Decoder := { decoder with switches := .inline }

theorem RawTable.isStorable {table : RawTable} (few : table.length ≤ 65535) :
    SwitchOperand.IsStorable ⟨-1, table.groups⟩ where
  index := rfl
  few_groups := by
    rw [RawTable.groups, List.length_map]
    exact few
  groups group member := by
    obtain ⟨row, -, rfl⟩ := List.mem_map.1 member
    refine ⟨Nat.le_refl 1, show 1 ≤ 255 by decide, fun term first => ?_, List.forall_mem_nil _⟩
    cases first
    rfl

theorem Decoder.Stores.exists_inlined {decoder : Decoder} (indexed : decoder.switches = .indexed)
    (few : ∀ table ∈ decoder.tables, table.length ≤ 65535) {desc : Descriptor} {operand : Operand} {raw : List UInt8}
    (stored : decoder.Stores desc operand raw) : ∃ raw', decoder.inlining.Stores desc operand.inlined raw' := by
  revert stored
  unfold Decoder.Stores
  cases desc.shape with
  | none =>
    intro parts
    rcases parts with ⟨rfl, rfl⟩
    exact ⟨[], rfl, rfl⟩
  | int | slot _ | byte =>
    intro parts
    rcases parts with ⟨value, rfl, rfl⟩
    exact ⟨_, value, rfl, rfl⟩
  | string =>
    intro parts
    rcases parts with ⟨value, rfl, body, encoded, rfl⟩
    exact ⟨_, value, rfl, body, encoded, rfl⟩
  | switch =>
    intro parts
    rcases parts with ⟨⟨index, groups⟩, rfl, stored⟩
    rw [StoresTable, indexed] at stored
    obtain ⟨-, -, rows, found, rfl⟩ := stored
    exact ⟨_, _, rfl, RawTable.isStorable (few rows (List.mem_of_getElem? found)), rfl⟩
  | unknown =>
    intro parts
    rcases parts with ⟨data, rfl, width, rfl⟩
    exact ⟨_, _, rfl, width, rfl⟩

/-- The same instruction with its table in the code, wherever that puts it. -/
structure Instruction.Restates (inst other : Instruction) : Prop where
  index : other.index = inst.index
  desc : other.desc = inst.desc
  operand : other.operand = inst.operand.inlined
  before : other.before = inst.before
  after : other.after = inst.after
  stack : other.stack = inst.stack

namespace Instruction.Restates

variable {inst other : Instruction}

theorem actsLike (restates : inst.Restates other) : inst.ActsLike other where
  desc := restates.desc
  number := by rw [restates.operand, Operand.inlined_toInt]
  text := by rw [restates.operand, Operand.inlined_toText]

theorem leadsLike (restates : inst.Restates other) : inst.LeadsLike other where
  index := restates.index
  flow := by rw [restates.desc]
  number := by rw [restates.operand, Operand.inlined_toInt]
  groups := by rw [restates.operand, Operand.inlined_groups]

theorem traced (restates : inst.Restates other) (before after : StackState) :
    (inst.traced before after).Restates (other.traced before after) where
  index := restates.index
  desc := restates.desc
  operand := restates.operand
  before := rfl
  after := rfl
  stack := rfl

end Instruction.Restates

/-- Code with numbers of tables falls into the instructions that some code with the tables falls into. -/
theorem Cut.exists_inlined {decoder : Decoder} (indexed : decoder.switches = .indexed)
    (few : ∀ table ∈ decoder.tables, table.length ≤ 65535) {offset index : Nat} {bytes : List UInt8}
    {insts : List Instruction} (cut : Cut decoder offset index bytes insts) (offset' : Nat) :
    ∃ bytes' others, Cut decoder.inlining offset' index bytes' others ∧
      List.Forall₂ Instruction.Restates insts others := by
  induction cut generalizing offset' with
  | done offset index => exact ⟨[], [], .done offset' index, .nil⟩
  | @inst offset index word operand raw rest more allowed stored later ih =>
    obtain ⟨raw', stored'⟩ := stored.exists_inlined indexed few
    obtain ⟨rest', others, falls, pairs⟩ := ih (offset' + 2 + raw'.length)
    exact ⟨_, _, .inst allowed stored' falls, .cons ⟨rfl, rfl, rfl, rfl, rfl, rfl⟩ pairs⟩

theorem Writer.instructions_inlined {insts others : List Instruction}
    (pairs : List.Forall₂ Instruction.Restates insts others) :
    Writer.instructions (insts.map Instruction.inlined) = Writer.instructions others := by
  induction pairs with
  | nil => rfl
  | @cons inst other insts others pair pairs ih =>
    have same (writer : Writer) : writer.instruction inst.inlined = writer.instruction other := by
      simp only [Writer.instruction, Instruction.op, pair.desc, pair.operand, Instruction.inlined]
    funext writer
    simp only [Writer.instructions, List.map_cons, List.foldl_cons, same]
    exact congrFun ih (writer.instruction other)

/-- Code that names tables of the container can be written with the tables in it. That code is decoded to the same
instructions with the same stacks, and by numbers both have the same control flow, or neither has one. -/
theorem decode_inlined (callee : Int32 → Option Signature) (decoder : Decoder) (code : List UInt8) (start : Int)
    (insts : List Instruction) (indexed : decoder.switches = .indexed)
    (few : ∀ table ∈ decoder.tables, table.length ≤ 65535)
    (decoded : decoder.decode callee code start = .ok insts) :
    ∃ code' others, encode (insts.map Instruction.inlined) = .ok code' ∧
      decoder.inlining.decode callee code' 0 = .ok others ∧ List.Forall₂ Instruction.Restates insts others ∧
      ∀ most,
        ((∃ program, resolve ⟨.byIndex, most⟩ insts = .ok program) ↔
          ∃ other, resolve ⟨.byIndex, most⟩ others = .ok other) ∧
        ∀ program other, resolve ⟨.byIndex, most⟩ insts = .ok program →
          resolve ⟨.byIndex, most⟩ others = .ok other → program.FlowsLike other := by
  obtain ⟨-, -, cut, falls, traced⟩ := (decoder.decode_eq_ok_iff callee code start insts).1 decoded
  obtain ⟨code', cut', falls', cutPairs⟩ := falls.exists_inlined indexed few 0
  obtain ⟨others, traced', pairs⟩ := traced.exists_forall₂ (fun _ _ => Instruction.Restates.actsLike)
    (fun _ _ before after restates => restates.traced before after) cutPairs
  have decoded' : decoder.inlining.decode callee code' 0 = .ok others :=
    (decoder.inlining.decode_eq_ok_iff callee code' 0 others).2
      ⟨le_rfl, Int.natCast_nonneg _, cut', falls', traced'⟩
  have ordered := inOrder_of_decode decoded
  have orderedOthers := inOrder_of_decode decoded'
  have alike := pairs.imp fun _ _ => Instruction.Restates.leadsLike
  have alikeBack := alike.flip.imp fun _ _ => Instruction.LeadsLike.symm
  refine ⟨code', others, encode_of_appends ?_, decoded', pairs, fun most => ⟨⟨?_, ?_⟩, ?_⟩⟩
  · rw [Writer.instructions_inlined pairs, traced'.instructions_eq]
    exact Writer.appends_cut falls'
  · intro accepted
    obtain ⟨program, resolved⟩ := accepted
    obtain ⟨other, resolved', -⟩ := ordered.exists_resolve_alike orderedOthers alike resolved
    exact ⟨other, resolved'⟩
  · intro accepted
    obtain ⟨other, resolved⟩ := accepted
    obtain ⟨program, resolved', -⟩ := orderedOthers.exists_resolve_alike ordered alikeBack resolved
    exact ⟨program, resolved'⟩
  · intro program other resolved resolved'
    obtain ⟨found, again, flows⟩ := ordered.exists_resolve_alike orderedOthers alike resolved
    cases again.symm.trans resolved'
    exact flows

/-- A switch over a return: with its table in the code it takes seven bytes more, and leads to the same instructions. -/
theorem decode_inlined_switch :
    ∃ insts others program other,
      Decoder.decode (fun _ => none) { switches := .indexed, tables := [[⟨7, 1⟩]] }
        [0, 60, 0, 0, 0, 0, 0, 21, 0, 0, 21, 0] 0 = .ok insts ∧
      encode (insts.map Instruction.inlined) =
        .ok [0, 60, 0, 1, 1, 0, 0, 0, 7, 0, 0, 0, 1, 0, 21, 0, 0, 21, 0] ∧
      Decoder.decode (fun _ => none) { switches := .inline, tables := [[⟨7, 1⟩]] }
        [0, 60, 0, 1, 1, 0, 0, 0, 7, 0, 0, 0, 1, 0, 21, 0, 0, 21, 0] 0 = .ok others ∧
      List.Forall₂ Instruction.Restates insts others ∧ resolve ⟨.byIndex, 0⟩ insts = .ok program ∧
      program.edges = [[⟨.choice, 9⟩, ⟨.otherwise, 6⟩], [], []] ∧ resolve ⟨.byIndex, 0⟩ others = .ok other ∧
      program.FlowsLike other := by
  have decoded : Decoder.decode (fun _ => none) { switches := .indexed, tables :=
      [[⟨7, 1⟩]] } [0, 60, 0, 0, 0, 0, 0, 21, 0, 0, 21, 0] 0 = .ok _ :=
    Decoder.decode_of_within 3 (by decide) rfl rfl
  obtain ⟨code', others, encoded, decoded', pairs, flows⟩ := decode_inlined (fun _ => none)
    { switches := .indexed, tables := [[⟨7, 1⟩]] } _ 0 _ rfl (List.forall_mem_singleton.2 (by decide)) decoded
  obtain ⟨accepted, alike⟩ := flows 0
  obtain ⟨other, resolved⟩ := accepted.1 ⟨_, rfl⟩
  cases encoded
  exact ⟨_, others, _, other, decoded, rfl, decoded', pairs, rfl, rfl, resolved, alike _ other rfl resolved⟩

end ClientScript
