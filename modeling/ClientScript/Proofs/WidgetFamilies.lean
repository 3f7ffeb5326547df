import ClientScript.Proofs.StackTrace

/-!
The two families of widget operations. The one for a component passed on the stack does to the stacks below that
component what the one for the selected component does to the whole stacks. Setters and getters owe this to the
description of the second family, which has an integer more to pop; setters of event handlers pop it by themselves.
-/

namespace ClientScript

open OpcodeTable

/-- The operation on the selected component at an offset. -/
def Opcode.component (offset : Nat) : Opcode := ⟨(componentBase + offset : Nat)⟩

def Opcode.interface (offset : Nat) : Opcode := ⟨(interfaceBase + offset : Nat)⟩

namespace OpcodeTable

/-- An operation outside the families has the code that the second one would have at the offset 706. -/
theorem offset_lt : ∀ row ∈ widgetRows, row.offset < 1000 ∧ row.offset ≠ 706 := by
  decide

theorem offsets_nodup : (widgetRows.map WidgetRow.offset).Nodup := by
  decide +kernel

theorem rule_cases : ∀ row ∈ widgetRows,
    row.stack.rule = .fixed ∨ row.stack.rule = .hook ∨ row.stack.rule = .unknown := by
  decide

theorem core_code_cases : ∀ core ∈ coreRows, core.code < 2000 ∨ core.code = 2706 ∨ 3000 ≤ core.code := by
  decide

theorem unnamed_code_ge : ∀ op ∈ Opcode.unnamedCodes, 3000 ≤ op.code := by
  decide +kernel

end OpcodeTable

namespace Descriptor

theorem ofComponent_op (row : WidgetRow) : (ofComponent row).op = .component row.offset := by
  unfold ofComponent
  dsimp only
  split <;> rfl

theorem ofInterface_op (row : WidgetRow) : (ofInterface row).op = .interface row.offset := by
  unfold ofInterface
  dsimp only
  split <;> rfl

theorem ofComponent_flow (row : WidgetRow) : (ofComponent row).flow = .sequential := by
  unfold ofComponent
  dsimp only
  split <;> rfl

theorem ofInterface_flow (row : WidgetRow) : (ofInterface row).flow = .sequential := by
  unfold ofInterface
  dsimp only
  split <;> rfl

theorem ofInterface_referent {row : WidgetRow} (known : row.stack.rule ≠ .unknown) :
    (ofInterface row).referent = .interface := by
  unfold ofInterface
  split
  · exact absurd ‹_› known
  · rfl
  · rfl

end Descriptor

namespace Registry

theorem mem_standard_rows (desc : Descriptor) :
    desc ∈ standard.rows ↔ (∃ row ∈ coreRows, .ofCore row = desc) ∨ (∃ row ∈ widgetRows, .ofComponent row = desc) ∨
      (∃ row ∈ widgetRows, .ofInterface row = desc) ∨ (desc = .pseudo .caseOr ∨ desc = .pseudo .caseAnd) ∨
      ∃ op ∈ Opcode.unnamedCodes, .opaqueOf op = desc := by
  simp [standard, or_assoc]

theorem lookup_of_mem {registry : Registry} {desc : Descriptor} (member : desc ∈ registry.rows)
    (unique : ∀ other ∈ registry.rows, other.op = desc.op → other = desc) : registry.lookup desc.op = desc := by
  unfold lookup find?
  cases found : registry.rows.find? fun row => row.op = desc.op with
  | none => simpa using List.find?_eq_none.1 found desc member
  | some row =>
    have same : row.op = desc.op := by simpa using List.find?_some found
    exact unique row (List.mem_of_find?_eq_some found) same

theorem lookup_interface {row : WidgetRow} (member : row ∈ widgetRows) :
    standard.lookup (.interface row.offset) = .ofInterface row := by
  rw [← Descriptor.ofInterface_op]
  have bounds := offset_lt row member
  apply lookup_of_mem ((mem_standard_rows _).2 (.inr (.inr (.inl ⟨row, member, rfl⟩))))
  intro other otherMember same
  have code : other.op.code = (interfaceBase + row.offset : Nat) := by
    rw [same, Descriptor.ofInterface_op]
    rfl
  rcases (mem_standard_rows other).1 otherMember with core | selected | passed | pseudo | unnamed
  · obtain ⟨core, coreMember, rfl⟩ := core
    have outside := core_code_cases core coreMember
    simp only [Descriptor.ofCore, interfaceBase] at code
    omega
  · obtain ⟨selected, selectedMember, rfl⟩ := selected
    have below := offset_lt selected selectedMember
    rw [Descriptor.ofComponent_op] at code
    simp only [Opcode.component, componentBase, interfaceBase] at code
    omega
  · obtain ⟨passed, passedMember, rfl⟩ := passed
    rw [Descriptor.ofInterface_op] at code
    simp only [Opcode.interface] at code
    rw [List.inj_on_of_nodup_map offsets_nodup passedMember member (by omega)]
  · rcases pseudo with rfl | rfl
    · cases code
    · cases code
  · obtain ⟨op, opMember, rfl⟩ := unnamed
    have above := unnamed_code_ge op opMember
    simp only [Descriptor.opaqueOf, interfaceBase] at code
    omega

theorem exists_row_of_component {op : Opcode} (widget : (standard.lookup op).referent = .component) :
    ∃ row ∈ widgetRows, row.stack.rule ≠ .unknown ∧ standard.lookup op = .ofComponent row := by
  have rows : ∀ desc ∈ standard.rows, desc.referent = .component →
      ∃ row ∈ widgetRows, row.stack.rule ≠ .unknown ∧ desc = .ofComponent row := by
    intro desc member applies
    rcases (mem_standard_rows desc).1 member with core | selected | passed | pseudo | unnamed
    · obtain ⟨core, -, rfl⟩ := core
      cases applies
    · obtain ⟨row, rowMember, rfl⟩ := selected
      refine ⟨row, rowMember, fun unknown => ?_, rfl⟩
      simp [Descriptor.ofComponent, unknown, Descriptor.opaqueOf] at applies
    · obtain ⟨row, -, rfl⟩ := passed
      unfold Descriptor.ofInterface at applies
      dsimp only at applies
      split at applies <;> cases applies
    · rcases pseudo with rfl | rfl <;> cases applies
    · obtain ⟨op, -, rfl⟩ := unnamed
      cases applies
  exact lookup_of_rows rows (fun _ => nofun) op widget

end Registry

namespace Frame

theorem popKinds_append (below above : List Kind) (frame : Frame) :
    frame.popKinds (below ++ above) = frame.popKinds above >>= fun tops =>
      tops.2.popKinds below >>= fun popped => .ok (popped.1 ++ tops.1, popped.2) := by
  induction below with
  | nil =>
    rw [List.nil_append]
    cases frame.popKinds above <;> rfl
  | cons kind below ih =>
    rw [List.cons_append, popKinds_cons, ih]
    cases frame.popKinds above with
    | error error => rfl
    | ok tops =>
      simp only [popKinds_cons, bind, Except.bind]
      cases tops.2.popKinds below with
      | error error => rfl
      | ok popped =>
        dsimp only
        cases popped.2.pop kind <;> rfl

theorem popKinds_push (kinds : List Kind) (constant : Option Int32) (frame : Frame) :
    (frame.push (.int constant)).popKinds (kinds ++ [.int]) =
      frame.popKinds kinds >>= fun popped => .ok (popped.1 ++ [.int constant], popped.2) := by
  rw [popKinds_append]
  rfl

theorem pushResults_of_widget {inst : Instruction} (above : 1000 ≤ inst.op.code) (below : inst.op.code < 3000)
    (args : List Value) (frame : Frame) :
    frame.pushResults inst args = frame.pushKinds inst.desc.stack.pushes := by
  have apart (code : Int) (outside : code < 1000 ∨ 3000 ≤ code) : inst.op ≠ ⟨code⟩ := by
    intro same
    rw [same] at above below
    dsimp only at above below
    omega
  have folded : foldArgs? inst.op args = none := by
    unfold foldArgs?
    split
    · simp [fold?, Opcode.add, Opcode.sub, Opcode.multiply, Opcode.div, Opcode.mod, Opcode.and, Opcode.or, apart]
    · rfl
  simp [pushResults, Opcode.pushConstantInt, Opcode.pushConstantString, apart, folded]

end Frame

/-- Both instructions stand for one operation on a component. -/
structure IsWidgetPair (row : WidgetRow) (selected passed : Instruction) : Prop where
  listed : row ∈ widgetRows
  known : row.stack.rule ≠ .unknown
  component : selected.desc = .ofComponent row
  interface : passed.desc = .ofInterface row

namespace IsWidgetPair

variable {row : WidgetRow} {selected passed : Instruction}

theorem code_bounds (pair : IsWidgetPair row selected passed) :
    (1000 ≤ selected.op.code ∧ selected.op.code < 3000) ∧ 1000 ≤ passed.op.code ∧ passed.op.code < 3000 := by
  have bound := (offset_lt row pair.listed).1
  have first : selected.op = .component row.offset := by
    rw [Instruction.op, pair.component, Descriptor.ofComponent_op]
  have second : passed.op = .interface row.offset := by
    rw [Instruction.op, pair.interface, Descriptor.ofInterface_op]
  rw [first, second]
  simp only [Opcode.component, Opcode.interface, componentBase, interfaceBase]
  omega

theorem sequential (pair : IsWidgetPair row selected passed) :
    selected.terminates = false ∧ passed.terminates = false := by
  simp [Instruction.terminates, pair.component, pair.interface, Descriptor.ofComponent_flow,
    Descriptor.ofInterface_flow, Flow.terminates]

/-- The component on top of the stack is popped first, and what follows is the same. -/
theorem apply_eq (pair : IsWidgetPair row selected passed) (one other : Option Signature) (frame : Frame)
    (constant : Option Int32) :
    (frame.push (.int constant)).apply other passed = frame.apply one selected := by
  obtain ⟨⟨above, below⟩, passedAbove, passedBelow⟩ := pair.code_bounds
  rcases rule_cases row pair.listed with fixed | hook | unknown
  · have first : selected.desc.stack = row.stack := by
      simp [pair.component, Descriptor.ofComponent, fixed]
    have second : passed.desc.stack = { row.stack with pops := row.stack.pops ++ [.int] } := by
      simp [pair.interface, Descriptor.ofInterface, fixed]
    simp only [Frame.apply, first, second, fixed, Frame.popKinds_push]
    cases frame.popKinds row.stack.pops with
    | error error => rfl
    | ok popped =>
      simp only [bind, Except.bind]
      rw [Frame.pushResults_of_widget above below, Frame.pushResults_of_widget passedAbove passedBelow, first, second]
  · have first : selected.desc.stack.rule = .hook ∧ selected.desc.referent = .component := by
      simp [pair.component, Descriptor.ofComponent, hook]
    have second : passed.desc.stack.rule = .hook ∧ passed.desc.referent = .interface := by
      simp [pair.interface, Descriptor.ofInterface, hook]
    simp only [Frame.apply, first, second]
    rfl
  · exact absurd unknown pair.known

theorem step_eq (pair : IsWidgetPair row selected passed) (strict : Bool) (one other : Option Signature)
    (frame : Frame) (constant : Option Int32) :
    StackState.step strict other passed (some (frame.push (.int constant))) =
      StackState.step strict one selected (some frame) := by
  obtain ⟨goesOn, passedGoesOn⟩ := pair.sequential
  simp [StackState.step, StackState.applied, StackState.closed, pair.apply_eq one other, goesOn, passedGoesOn]

end IsWidgetPair

/-- Wherever the first family has an operation whose effect is known the second one has it too. With any component on
top of the integers it has the outcome that the first one has without it: the same fault, unknown stacks, or
the same stacks. -/
theorem interface_simulates_component (offset : Nat)
    (registered : (Registry.standard.lookup (.component offset)).referent = .component) :
    (Registry.standard.lookup (.interface offset)).referent = .interface ∧
      ∀ selected passed : Instruction, selected.desc = Registry.standard.lookup (.component offset) →
        passed.desc = Registry.standard.lookup (.interface offset) →
        ∀ (strict : Bool) (one other : Option Signature) (frame : Frame) (constant : Option Int32),
          StackState.step strict other passed (some (frame.push (.int constant))) =
            StackState.step strict one selected (some frame) := by
  obtain ⟨row, listed, known, described⟩ := Registry.exists_row_of_component registered
  have code : Opcode.component offset = .component row.offset := by
    rw [← Registry.lookup_op Registry.standard (.component offset), described, Descriptor.ofComponent_op]
  obtain rfl : offset = row.offset := by simpa [Opcode.component] using code
  have counterpart := Registry.lookup_interface listed
  rw [counterpart]
  refine ⟨Descriptor.ofInterface_referent known, fun selected passed component interface => ?_⟩
  have pair : IsWidgetPair row selected passed := ⟨listed, known, component.trans described, interface⟩
  exact pair.step_eq

/-- A handler with an integer and a counted list of two: both setters leave what is below, the text apart. -/
theorem interface_simulates_component_handler :
    (Registry.standard.lookup (.interface 400)).referent = .interface ∧
      StackState.step true none
        ⟨0, 0, Registry.standard.lookup (.interface 400), .byte 0, 3, .unknown, .unknown, none⟩
        (some ⟨[.int (some 77), .int (some 2), .int none, .int none, .int none, .int (some 9), .int (some 1)],
          [.string (some "iY"), .string none]⟩) = .ok (some ⟨[.int (some 1)], [.string none]⟩) := by
  obtain ⟨widget, agree⟩ := interface_simulates_component 400 (by decide +kernel)
  have same := agree ⟨0, 0, Registry.standard.lookup (.component 400), .byte 0, 3, .unknown, .unknown, none⟩
    ⟨0, 0, Registry.standard.lookup (.interface 400), .byte 0, 3, .unknown, .unknown, none⟩ rfl rfl true none none
    ⟨[.int (some 2), .int none, .int none, .int none, .int (some 9), .int (some 1)],
      [.string (some "iY"), .string none]⟩ (some 77)
  exact ⟨widget, same.trans (by decide +kernel)⟩

end ClientScript
