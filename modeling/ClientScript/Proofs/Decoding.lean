import ClientScript.Proofs.StoredForm

/-!
Decoding as two relations. `Cut` says how code falls into instructions, one stored form after the other,
and `Traced` how the stacks go through them. Decoding succeeds exactly on code that can be cut and
traced; both relations say of each step all that it does.
-/

namespace ClientScript

@[simp] theorem Registry.lookup_op (registry : Registry) (op : Opcode) : (registry.lookup op).op = op := by
  unfold lookup find?
  cases found : registry.rows.find? fun row => row.op = op with
  | none => rfl
  | some row => simpa using List.find?_some found

theorem Registry.lookup_of_rows {registry : Registry} {property : Descriptor → Prop}
    (rows : ∀ row ∈ registry.rows, property row) (unknown : ∀ op, property (.opaqueOf op)) (op : Opcode) :
    property (registry.lookup op) := by
  unfold lookup find?
  cases found : registry.rows.find? fun row => row.op = op with
  | none => exact unknown op
  | some row => exact rows row (List.mem_of_find?_eq_some found)

def Opcode.ofWord (word : UInt16) : Opcode := ⟨(word.toNat : Nat)⟩

/-- The bytes stand at an offset, after so many instructions, and fall into these instructions. -/
inductive Cut (decoder : Decoder) : Nat → Nat → List UInt8 → List Instruction → Prop where
  | done (offset index : Nat) : Cut decoder offset index [] []
  | inst {offset index : Nat} {word : UInt16} {operand : Operand} {raw rest : List UInt8}
      {more : List Instruction} (allowed : decoder.limitReached index = false)
      (stored : decoder.Stores (decoder.registry.lookup (.ofWord word)) operand raw)
      (later : Cut decoder (offset + 2 + raw.length) (index + 1) rest more) :
      Cut decoder offset index (wordBytes word ++ (raw ++ rest))
        ({ offset := offset, index := index, desc := decoder.registry.lookup (.ofWord word),
           operand := operand, size := 2 + raw.length } :: more)

namespace Cut

variable {decoder : Decoder} {offset index : Nat} {bytes : List UInt8} {insts : List Instruction}

theorem index_eq (cut : Cut decoder offset index bytes insts) {place : Nat} {inst : Instruction}
    (found : insts[place]? = some inst) : inst.index = index + place := by
  induction cut generalizing place with
  | done => cases found
  | inst allowed stored later ih =>
    cases place with
    | zero =>
      cases found
      rfl
    | succ place =>
      rw [ih found, Nat.add_right_comm, Nat.add_assoc]

theorem exists_desc (cut : Cut decoder offset index bytes insts) :
    ∀ inst ∈ insts, ∃ op, inst.desc = decoder.registry.lookup op := by
  induction cut with
  | done => exact List.forall_mem_nil _
  | inst allowed stored later ih => exact List.forall_mem_cons.2 ⟨⟨_, rfl⟩, ih⟩

theorem offset_le (cut : Cut decoder offset index bytes insts) :
    ∀ inst ∈ insts, (offset : Int) ≤ inst.offset := by
  induction cut with
  | done => exact List.forall_mem_nil _
  | inst allowed stored later ih =>
    rw [List.forall_mem_cons]
    refine ⟨le_rfl, fun other member => ?_⟩
    have after := ih other member
    push_cast at after
    omega

theorem ascending (cut : Cut decoder offset index bytes insts) :
    insts.Pairwise fun one other => one.offset < other.offset := by
  induction cut with
  | done => exact .nil
  | inst allowed stored later ih =>
    refine .cons (fun other member => ?_) ih
    have after := later.offset_le other member
    push_cast at after
    dsimp only
    omega

end Cut

namespace Decoder

theorem frame_inst {decoder : Decoder} {offset index : Nat} {word : UInt16} {operand : Operand}
    {raw : List UInt8} (allowed : decoder.limitReached index = false)
    (stored : decoder.Stores (decoder.registry.lookup (.ofWord word)) operand raw) (rest : List UInt8) :
    decoder.frame offset index (wordBytes word ++ (raw ++ rest)) =
      (decoder.frame (offset + 2 + raw.length) (index + 1) rest).cons
        { offset := offset, index := index, desc := decoder.registry.lookup (.ofWord word),
          operand := operand, size := 2 + raw.length } := by
  have operandRead := (decoder.readOperand_accepts _).complete stored rest
  simp only [wordBytes, List.cons_append, List.nil_append, frame, allowed, Read.toNat_wordBytes]
  simp only [Opcode.ofWord] at operandRead
  simp only [operandRead, List.drop_left]
  rfl

theorem frame_of_cut {decoder : Decoder} {offset index : Nat} {bytes : List UInt8}
    {insts : List Instruction} (cut : Cut decoder offset index bytes insts) :
    decoder.frame offset index bytes = ⟨insts, none⟩ := by
  induction cut with
  | done offset index => rw [frame]
  | @inst offset index word operand raw rest more allowed stored later ih =>
    rw [frame_inst allowed stored rest, ih]
    rfl

theorem cut_of_frame (decoder : Decoder) (offset index : Nat) (bytes : List UInt8)
    (insts : List Instruction) (framed : decoder.frame offset index bytes = ⟨insts, none⟩) :
    Cut decoder offset index bytes insts := by
  fun_induction Decoder.frame decoder offset index bytes generalizing insts with
  | case1 offset index =>
    cases framed
    exact .done offset index
  | case2 => cases framed
  | case3 => cases framed
  | case4 => cases framed
  | case5 offset index high low rest free desc operand used read ih =>
    cases later : decoder.frame (offset + 2 + used) (index + 1) (rest.drop used) with
    | mk more failure =>
      rw [later] at framed
      cases framed
      obtain ⟨raw, tail, rfl, rfl, stored⟩ := (decoder.readOperand_accepts desc _ _ _).1 read
      have next := ih more later
      rw [List.drop_left] at next
      obtain ⟨word, pair, number⟩ := Read.exists_word high low
      have described : desc = decoder.registry.lookup (.ofWord word) := by
        change decoder.registry.lookup ⟨_⟩ = decoder.registry.lookup ⟨_⟩
        rw [number]
      have split : high :: low :: (raw ++ tail) = wordBytes word ++ (raw ++ tail) := by
        rw [← pair]
        rfl
      rw [described] at stored ⊢
      rw [split]
      exact .inst (Bool.eq_false_of_not_eq_true free) stored next

theorem frame_eq_iff (decoder : Decoder) (offset index : Nat) (bytes : List UInt8)
    (insts : List Instruction) :
    decoder.frame offset index bytes = ⟨insts, none⟩ ↔ Cut decoder offset index bytes insts :=
  ⟨decoder.cut_of_frame offset index bytes insts, frame_of_cut⟩

end Decoder

/-- The stacks go from a state through the instructions, and every instruction keeps its own. -/
inductive Traced (callee : Int32 → Option Signature) (strict : Bool) :
    StackState → List Instruction → List Instruction → Prop where
  | done (state : StackState) : Traced callee strict state [] []
  | step {state next : StackState} {inst : Instruction} {rest traced : List Instruction}
      (moved : state.step strict (callee inst.operand.toInt) inst = .ok next)
      (later : Traced callee strict next rest traced) :
      Traced callee strict state (inst :: rest) (inst.traced state next :: traced)

theorem Frame.apply_of_not_call {inst : Instruction} (rule : inst.desc.stack.rule ≠ .call)
    (one other : Option Signature) (frame : Frame) : frame.apply one inst = frame.apply other inst := by
  unfold apply
  split <;> simp_all

namespace StackState

theorem step_of_not_asked {strict : Bool} {inst : Instruction} {state : StackState}
    (unasked : state.asksCallee inst = false) (one other : Option Signature) :
    state.step strict one inst = state.step strict other inst := by
  cases state with
  | none => rfl
  | some frame =>
    have rule : inst.desc.stack.rule ≠ .call := by simpa [asksCallee] using unasked
    simp only [step, applied, frame.apply_of_not_call rule one other]

theorem step_asked (callee : Int32 → Option Signature) (strict : Bool) (inst : Instruction)
    (state : StackState) :
    state.step strict (if state.asksCallee inst then callee inst.operand.toInt else none) inst =
      state.step strict (callee inst.operand.toInt) inst := by
  by_cases asked : state.asksCallee inst = true
  · rw [if_pos asked]
  · rw [if_neg asked]
    exact step_of_not_asked (Bool.eq_false_of_not_eq_true asked) _ _

end StackState

def stackBefore (state : StackState) (insts : List Instruction) : Nat → StackState
  | 0 => state
  | place + 1 => insts[place]?.bind Instruction.stack

theorem stackBefore_cons (state : StackState) (inst : Instruction) (rest : List Instruction) (place : Nat) :
    stackBefore state (inst :: rest) (place + 1) = stackBefore inst.stack rest place := by
  cases place <;> rfl

namespace Traced

variable {callee : Int32 → Option Signature} {strict : Bool} {state : StackState}
  {cut insts : List Instruction} {place : Nat} {inst : Instruction}

/-- A trace fills in the stacks of an instruction and leaves the rest of it alone; the stacks before it
are those after the one before. -/
theorem of_getElem (traced : Traced callee strict state cut insts) (found : insts[place]? = some inst) :
    ∃ source, cut[place]? = some source ∧ inst = source.traced (stackBefore state insts place) inst.stack ∧
      (stackBefore state insts place).step strict (callee inst.operand.toInt) inst = .ok inst.stack := by
  induction traced generalizing place with
  | done => cases found
  | @step state next source rest traced moved later ih =>
    cases place with
    | zero =>
      cases found
      exact ⟨source, rfl, rfl, moved⟩
    | succ place =>
      rw [stackBefore_cons]
      exact ih found

theorem map_eq {β : Type} (traced : Traced callee strict state cut insts) (view : Instruction → β)
    (kept : ∀ inst before after, view (inst.traced before after) = view inst) :
    insts.map view = cut.map view := by
  induction traced with
  | done => rfl
  | step moved later ih => rw [List.map_cons, List.map_cons, kept, ih]

theorem before_eq (traced : Traced callee strict state cut insts) (found : insts[place]? = some inst) :
    inst.before = (stackBefore state insts place).depth := by
  obtain ⟨source, -, kept, -⟩ := traced.of_getElem found
  exact congrArg Instruction.before kept

theorem after_eq (traced : Traced callee strict state cut insts) (found : insts[place]? = some inst) :
    inst.after = inst.stack.depth := by
  obtain ⟨source, -, kept, -⟩ := traced.of_getElem found
  exact congrArg Instruction.after kept

theorem before_succ (traced : Traced callee strict state cut insts) {next : Instruction}
    (found : insts[place]? = some inst) (follows : insts[place + 1]? = some next) :
    next.before = inst.after := by
  rw [traced.before_eq follows, traced.after_eq found, stackBefore, found]
  rfl

theorem ascending (traced : Traced callee strict state cut insts)
    (ascends : cut.Pairwise fun one other => one.offset < other.offset) :
    insts.Pairwise fun one other => one.offset < other.offset := by
  have offsets := traced.map_eq Instruction.offset fun _ _ _ => rfl
  have mapped : (insts.map Instruction.offset).Pairwise (· < ·) := by
    rw [offsets]
    exact List.pairwise_map.2 ascends
  exact List.pairwise_map.1 mapped

theorem length_eq (traced : Traced callee strict state cut insts) : insts.length = cut.length := by
  simpa using congrArg List.length (traced.map_eq Instruction.offset fun _ _ _ => rfl)

end Traced

/-- Both instructions have the same effect on the stacks: it depends on the description, and on the number and the
text of the operand. -/
structure Instruction.ActsLike (inst other : Instruction) : Prop where
  desc : other.desc = inst.desc
  number : other.operand.toInt = inst.operand.toInt
  text : other.operand.toText = inst.operand.toText

theorem Frame.apply_of_actsLike {inst other : Instruction} (alike : inst.ActsLike other) (callee : Option Signature)
    (frame : Frame) : frame.apply callee other = frame.apply callee inst := by
  have op : other.op = inst.op := congrArg Descriptor.op alike.desc
  simp only [apply, pushResults, op, alike.desc, alike.number, alike.text]

theorem StackState.step_of_actsLike {inst other : Instruction} (alike : inst.ActsLike other) (strict : Bool)
    (callee : Option Signature) (state : StackState) :
    state.step strict callee other = state.step strict callee inst := by
  have op : other.op = inst.op := congrArg Descriptor.op alike.desc
  have ends : other.terminates = inst.terminates := congrArg (fun desc => desc.flow.terminates) alike.desc
  cases state with
  | none => simp only [step, applied, closed, ends]
  | some frame => simp only [step, applied, closed, ends, op, frame.apply_of_actsLike alike]

theorem Traced.exists_forall₂ {callee : Int32 → Option Signature} {strict : Bool} {state : StackState}
    {cut insts others : List Instruction} {related : Instruction → Instruction → Prop}
    (alike : ∀ inst other, related inst other → inst.ActsLike other)
    (kept : ∀ inst other before after, related inst other →
      related (inst.traced before after) (other.traced before after))
    (traced : Traced callee strict state cut insts) (pairs : List.Forall₂ related cut others) :
    ∃ results, Traced callee strict state others results ∧ List.Forall₂ related insts results := by
  induction traced generalizing others with
  | done state =>
    cases pairs
    exact ⟨[], .done state, .nil⟩
  | @step state next inst rest traced moved later ih =>
    cases pairs with
    | @cons _ other _ others pair pairs =>
      obtain ⟨results, goesOn, matched⟩ := ih pairs
      have same := alike inst other pair
      refine ⟨_, .step ?_ goesOn, .cons (kept inst other state next pair) matched⟩
      rw [same.number, StackState.step_of_actsLike same]
      exact moved

def trace (callee : Int32 → Option Signature) (strict : Bool) (state : StackState) (insts : List Instruction) :
    Except StackFault (List Instruction) :=
  Id.run (traceM (m := Id) callee strict state insts)

theorem trace_cons (callee : Int32 → Option Signature) (strict : Bool) (state : StackState)
    (inst : Instruction) (rest : List Instruction) :
    trace callee strict state (inst :: rest) =
      match state.step strict (callee inst.operand.toInt) inst with
      | .error error => .error ⟨inst, error⟩
      | .ok next =>
        match trace callee strict next rest with
        | .error fault => .error fault
        | .ok traced => .ok (inst.traced state next :: traced) := by
  rw [← StackState.step_asked, trace, traceM]
  -- The trace asks for a signature only where it is needed; in either case the step is the same.
  by_cases asked : state.asksCallee inst = true
  · simp only [if_pos asked]
    rfl
  · simp only [if_neg asked]
    rfl

theorem trace_eq_ok_iff (callee : Int32 → Option Signature) (strict : Bool) (state : StackState)
    (insts traced : List Instruction) :
    trace callee strict state insts = .ok traced ↔ Traced callee strict state insts traced := by
  induction insts generalizing state traced with
  | nil =>
    constructor
    · intro success
      cases success
      exact .done state
    · rintro ⟨⟩
      rfl
  | cons inst rest ih =>
    rw [trace_cons]
    constructor
    · intro success
      cases moved : state.step strict (callee inst.operand.toInt) inst with
      | error error => simp [moved] at success
      | ok next =>
        cases later : trace callee strict next rest with
        | error fault => simp [moved, later] at success
        | ok more =>
          simp only [moved, later, Except.ok.injEq] at success
          subst traced
          exact .step moved ((ih next more).1 later)
    · intro steps
      cases steps with
      | step moved later => simp only [moved, (ih _ _).2 later]

namespace Decoder

theorem decode_eq (callee : Int32 → Option Signature) (decoder : Decoder) (code : List UInt8) (start : Int)
    (inside : ¬(start < 0 ∨ code.length < start)) :
    decoder.decode callee code start =
      match trace callee decoder.strict (some {}) (decoder.frame start.toNat 0 (code.drop start.toNat)).insts with
      | .error fault => .error ⟨fault.inst.offset, some fault.inst.op, .stack fault.error⟩
      | .ok insts =>
        (decoder.frame start.toNat 0 (code.drop start.toNat)).failure.elim (.ok insts) .error := by
  rw [decode, decodeM, if_neg inside]
  rfl

/-- Decoding succeeds exactly on code that can be cut and traced, and gives the traced instructions. -/
theorem decode_eq_ok_iff (callee : Int32 → Option Signature) (decoder : Decoder) (code : List UInt8)
    (start : Int) (insts : List Instruction) :
    decoder.decode callee code start = .ok insts ↔
      0 ≤ start ∧ start ≤ code.length ∧ ∃ cut, Cut decoder start.toNat 0 (code.drop start.toNat) cut ∧
        Traced callee decoder.strict (some {}) cut insts := by
  by_cases outside : start < 0 ∨ code.length < start
  · rw [decode, decodeM, if_pos outside]
    constructor
    · intro success
      cases success
    · intro parts
      rcases parts with ⟨notNegative, notAfter, -⟩
      omega
  · rw [decode_eq callee decoder code start outside]
    simp only [← frame_eq_iff, ← trace_eq_ok_iff]
    generalize decoder.frame start.toNat 0 (code.drop start.toNat) = framing
    obtain ⟨cut, failure⟩ := framing
    constructor
    · intro success
      cases traced : trace callee decoder.strict (some {}) cut with
      | error fault => simp [traced] at success
      | ok result =>
        cases failure with
        | some error => simp [traced] at success
        | none =>
          simp only [traced, Option.elim_none, Except.ok.injEq] at success
          subst success
          exact ⟨by omega, by omega, cut, rfl, traced⟩
    · intro parts
      rcases parts with ⟨-, -, cut, framed, traced⟩
      cases framed
      simp only [traced, Option.elim_none]

/-- Cuts bytes into at most so many instructions. It recurs on their number, so it can be run in a proof. -/
def frameWithin (decoder : Decoder) : Nat → Nat → Nat → List UInt8 → Option (List Instruction)
  | _, _, _, [] => some []
  | count + 1, offset, index, high :: low :: rest =>
    if decoder.limitReached index then none
    else
      let desc := decoder.registry.lookup ⟨(high.toNat * 256 + low.toNat : Nat)⟩
      match decoder.readOperand desc rest with
      | .error _ => none
      | .ok (operand, used) =>
        (decoder.frameWithin count (offset + 2 + used) (index + 1) (rest.drop used)).map
          ({ offset := offset, index := index, desc := desc, operand := operand, size := 2 + used } :: ·)
  | _, _, _, _ => none

theorem frame_of_within {decoder : Decoder} {count offset index : Nat} {bytes : List UInt8}
    {insts : List Instruction} (framed : decoder.frameWithin count offset index bytes = some insts) :
    decoder.frame offset index bytes = ⟨insts, none⟩ := by
  induction count generalizing offset index bytes insts with
  | zero =>
    cases bytes with
    | nil =>
      cases framed
      rw [frame]
    | cons high rest =>
      cases rest with
      | nil => cases framed
      | cons => cases framed
  | succ count ih =>
    cases bytes with
    | nil =>
      cases framed
      rw [frame]
    | cons high rest =>
      cases rest with
      | nil => cases framed
      | cons low rest =>
        rw [frameWithin] at framed
        rw [frame]
        split at framed
        next => cases framed
        next free =>
          rw [if_neg free]
          dsimp only at framed ⊢
          cases read : decoder.readOperand (decoder.registry.lookup ⟨(high.toNat * 256 + low.toNat : Nat)⟩) rest with
          | error =>
            rw [read] at framed
            cases framed
          | ok found =>
            rw [read] at framed
            obtain ⟨more, later, rfl⟩ := Option.map_eq_some_iff.1 framed
            dsimp only
            rw [ih later]
            rfl

theorem cut_of_within {decoder : Decoder} {offset index : Nat} {bytes : List UInt8} {insts : List Instruction}
    (count : Nat) (framed : decoder.frameWithin count offset index bytes = some insts) :
    Cut decoder offset index bytes insts :=
  decoder.cut_of_frame offset index bytes insts (frame_of_within framed)

theorem decode_of_within {callee : Int32 → Option Signature} {decoder : Decoder} {code : List UInt8} {start : Nat}
    {cut insts : List Instruction} (count : Nat) (inside : start ≤ code.length)
    (framed : decoder.frameWithin count start 0 (code.drop start) = some cut)
    (traced : trace callee decoder.strict (some {}) cut = .ok insts) :
    decoder.decode callee code start = .ok insts :=
  (decoder.decode_eq_ok_iff callee code start insts).2 ⟨by omega, by omega, cut,
    cut_of_within count framed, (trace_eq_ok_iff _ _ _ _ _).1 traced⟩

end Decoder

end ClientScript
