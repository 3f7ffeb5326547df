import ClientScript.Proofs.Strictness

/-!
The stacks that decoded instructions keep. An instruction takes values off the stacks and puts values on them, each on
the stack of its kind, and nothing else. What one instruction leaves the next one finds. Once the stacks are
unknown they stay so up to the end of the block, where both start anew.
-/

namespace ClientScript

namespace Frame

variable {kind : Kind} {value : Value} {frame rest : Frame}

def put (kind : Kind) (value : Value) (frame : Frame) : Frame :=
  match kind with
  | .int => { frame with ints := value :: frame.ints }
  | .string => { frame with strings := value :: frame.strings }

theorem pop_eq_ok_iff : frame.pop kind = .ok (value, rest) ↔ frame = rest.put kind value := by
  obtain ⟨ints, strings⟩ := frame
  obtain ⟨restInts, restStrings⟩ := rest
  cases kind with
  | int => cases ints <;> simp [pop, put, and_assoc]
  | string => cases strings <;> simp [pop, put, and_left_comm, and_comm]

theorem popMany_succ (kind : Kind) (count : Nat) (frame : Frame) :
    frame.popMany kind (count + 1) = frame.pop kind >>= fun popped => popped.2.popMany kind count := by
  rw [popMany]
  cases frame.pop kind <;> rfl

theorem popKinds_cons (kind : Kind) (above : List Kind) (frame : Frame) :
    frame.popKinds (kind :: above) = frame.popKinds above >>= fun popped =>
      popped.2.pop kind >>= fun last => .ok (last.1 :: popped.1, last.2) := by
  rw [popKinds]
  cases first : frame.popKinds above with
  | error error => rfl
  | ok popped => cases second : popped.2.pop kind <;> simp [bind, Except.bind, second]

/-- What is left of the stacks after values were taken off their tops. -/
structure Remains (frame rest : Frame) : Prop where
  ints : rest.ints <:+ frame.ints
  strings : rest.strings <:+ frame.strings

namespace Remains

theorem refl (frame : Frame) : frame.Remains frame where
  ints := List.suffix_refl _
  strings := List.suffix_refl _

theorem trans {last : Frame} (first : frame.Remains rest) (second : rest.Remains last) : frame.Remains last where
  ints := second.ints.trans first.ints
  strings := second.strings.trans first.strings

theorem of_pop (popped : frame.pop kind = .ok (value, rest)) : frame.Remains rest := by
  rw [pop_eq_ok_iff] at popped
  subst popped
  cases kind with
  | int => exact ⟨List.suffix_cons _ _, List.suffix_refl _⟩
  | string => exact ⟨List.suffix_refl _, List.suffix_cons _ _⟩

theorem of_popMany {count : Nat} (popped : frame.popMany kind count = .ok rest) : frame.Remains rest := by
  induction count generalizing frame with
  | zero =>
    cases popped
    exact .refl _
  | succ count ih =>
    rw [popMany_succ, bind_eq_ok_iff] at popped
    obtain ⟨top, first, later⟩ := popped
    exact (of_pop first).trans (ih later)

theorem of_popKinds {kinds : List Kind} {values : List Value} (popped : frame.popKinds kinds = .ok (values, rest)) :
    frame.Remains rest := by
  induction kinds generalizing values rest with
  | nil =>
    cases popped
    exact .refl _
  | cons kind above ih =>
    rw [popKinds_cons, bind_eq_ok_iff] at popped
    obtain ⟨tops, first, later⟩ := popped
    obtain ⟨last, second, result⟩ := bind_eq_ok_iff.1 later
    cases result
    exact (ih first).trans (of_pop second)

theorem of_popCounted (popped : frame.popCounted = .ok (some rest)) : frame.Remains rest := by
  unfold popCounted at popped
  split at popped
  next => cases popped
  next count above first =>
    split at popped
    next => cases popped
    next number constant =>
      split at popped
      next => cases popped
      next =>
        obtain ⟨below, second, result⟩ := map_eq_ok_iff.1 popped
        cases result
        exact (of_pop first).trans (of_popMany second)

theorem of_popHandler {types : List Char} (popped : frame.popHandler types = .ok rest) : frame.Remains rest := by
  unfold popHandler at popped
  split at popped
  next => cases popped
  next first =>
    cases popped
    exact of_popKinds first

theorem of_hookArgs (popped : frame.hookArgs = .ok (some rest)) : frame.Remains rest := by
  unfold hookArgs at popped
  split at popped
  next => cases popped
  next text above first =>
    split at popped
    next => cases popped
    next types constant =>
      generalize splitCounted types.toList = described at popped
      dsimp only at popped
      split at popped
      next => cases popped
      next => cases popped
      next below second =>
        obtain ⟨last, third, result⟩ := map_eq_ok_iff.1 popped
        cases result
        have counted : above.Remains below := by
          split at second
          next => exact of_popCounted second
          next =>
            cases second
            exact .refl _
        exact ((of_pop first).trans counted).trans (of_popHandler third)

theorem of_hook {referent : Referent} (popped : frame.hook referent = .ok (some rest)) : frame.Remains rest := by
  unfold hook at popped
  split at popped
  next =>
    split at popped
    next => cases popped
    next first => exact (of_pop first).trans (of_hookArgs popped)
  next => exact of_hookArgs popped

end Remains

def pushAll (values : List Value) (frame : Frame) : Frame :=
  values.foldl (fun frame value => frame.push value) frame

theorem push_eq (value : Value) (frame : Frame) : frame.push value = frame.pushAll [value] := rfl

theorem pushKinds_eq (kinds : List Kind) (frame : Frame) :
    frame.pushKinds kinds = frame.pushAll (kinds.map Value.ofKind) := by
  simp [pushKinds, pushAll, List.foldl_map]

theorem exists_pushResults (inst : Instruction) (args : List Value) (frame : Frame) :
    ∃ values, frame.pushResults inst args = frame.pushAll values := by
  unfold pushResults
  split
  · exact ⟨_, push_eq _ _⟩
  · split
    · exact ⟨_, push_eq _ _⟩
    · split
      · exact ⟨_, push_eq _ _⟩
      · exact ⟨_, pushKinds_eq _ _⟩

/-- Values were taken off the stacks, and then values were pushed. -/
def Yields (frame next : Frame) : Prop :=
  ∃ rest values, frame.Remains rest ∧ next = rest.pushAll values

theorem yields_of_call {signature : Signature} {next : Frame} (called : frame.call signature = .ok next) :
    frame.Yields next := by
  unfold call at called
  split at called
  next => cases called
  next above first =>
    split at called
    next => cases called
    next rest second =>
      cases called
      exact ⟨rest, _, (Remains.of_popMany first).trans (.of_popMany second), pushKinds_eq _ _⟩

theorem yields_of_enum {next : Frame} (found : frame.enum = .ok (some next)) : frame.Yields next := by
  unfold enum at found
  split at found
  next => cases found
  next values rest popped =>
    split at found
    next => cases found
    next =>
      cases found
      exact ⟨rest, _, .of_popKinds popped, push_eq _ _⟩

theorem yields_of_apply {callee : Option Signature} {inst : Instruction} {next : Frame}
    (applied : frame.apply callee inst = .ok (some next)) : frame.Yields next := by
  unfold apply at applied
  cases rule : inst.desc.stack.rule with
  | fixed =>
    simp only [rule] at applied
    split at applied
    next => cases applied
    next args rest popped =>
      cases applied
      obtain ⟨values, pushed⟩ := rest.exists_pushResults inst args
      exact ⟨rest, values, .of_popKinds popped, pushed⟩
  | operandCount =>
    simp only [rule] at applied
    split at applied
    next =>
      split at applied
      next => cases applied
      next =>
        split at applied
        next => cases applied
        next rest popped =>
          cases applied
          exact ⟨rest, _, .of_popMany popped, pushKinds_eq _ _⟩
    next => cases applied
  | call =>
    simp only [rule] at applied
    split at applied
    next => cases applied
    next =>
      obtain ⟨last, called, result⟩ := map_eq_ok_iff.1 applied
      cases result
      exact yields_of_call called
  | popAll =>
    simp only [rule] at applied
    cases applied
    exact ⟨{}, [], ⟨List.nil_suffix, List.nil_suffix⟩, rfl⟩
  | hook =>
    simp only [rule] at applied
    exact ⟨next, [], .of_hook applied, rfl⟩
  | enum =>
    simp only [rule] at applied
    exact yields_of_enum applied
  | unknown =>
    simp only [rule] at applied
    cases applied

structure IsSorted (frame : Frame) : Prop where
  ints : ∀ value ∈ frame.ints, value.kind = .int
  strings : ∀ value ∈ frame.strings, value.kind = .string

namespace IsSorted

theorem remains (sorted : frame.IsSorted) (remains : frame.Remains rest) : rest.IsSorted where
  ints value member := sorted.ints value (remains.ints.subset member)
  strings value member := sorted.strings value (remains.strings.subset member)

theorem push (sorted : frame.IsSorted) (value : Value) : (frame.push value).IsSorted := by
  cases value with
  | int constant => exact ⟨List.forall_mem_cons.2 ⟨rfl, sorted.ints⟩, sorted.strings⟩
  | string constant => exact ⟨sorted.ints, List.forall_mem_cons.2 ⟨rfl, sorted.strings⟩⟩

theorem pushAll (sorted : frame.IsSorted) (values : List Value) : (frame.pushAll values).IsSorted := by
  induction values generalizing frame with
  | nil => exact sorted
  | cons value more ih => exact ih (sorted.push value)

theorem apply {callee : Option Signature} {inst : Instruction} {next : Frame} (sorted : frame.IsSorted)
    (applied : frame.apply callee inst = .ok (some next)) : next.IsSorted := by
  obtain ⟨rest, values, remains, rfl⟩ := yields_of_apply applied
  exact (sorted.remains remains).pushAll values

end IsSorted

end Frame

namespace StackState

variable {callee : Option Signature} {inst : Instruction} {state : StackState}

theorem follow_of_terminates (terminates : inst.terminates = true) : state.follow callee inst = some {} :=
  if_pos terminates

theorem follow_none (goesOn : inst.terminates = false) : StackState.follow callee inst none = none := by
  simp [follow, left, goesOn]

theorem isSorted_follow (sorted : ∀ frame ∈ state, frame.IsSorted) :
    ∀ frame ∈ state.follow callee inst, frame.IsSorted := by
  intro next found
  by_cases terminates : inst.terminates = true
  · rw [follow_of_terminates terminates] at found
    cases found
    exact ⟨List.forall_mem_nil _, List.forall_mem_nil _⟩
  · rw [follow, if_neg terminates] at found
    obtain ⟨frame, given, known⟩ := Option.bind_eq_some_iff.1 found
    rw [Option.join_eq_some_iff] at known
    cases applied : frame.apply callee inst with
    | error error => simp [applied, Except.toOption] at known
    | ok result =>
      simp only [applied, Except.toOption, Option.some.injEq] at known
      subst known
      exact (sorted frame given).apply applied

end StackState

namespace Traced

variable {callee : Int32 → Option Signature} {strict : Bool} {state : StackState} {cut insts : List Instruction}

theorem isSorted (traced : Traced callee strict state cut insts) (sorted : ∀ frame ∈ state, frame.IsSorted) :
    ∀ inst ∈ insts, ∀ frame ∈ inst.stack, frame.IsSorted := by
  induction traced with
  | done => exact List.forall_mem_nil _
  | @step state next inst rest traced moved later ih =>
    have nextSorted : ∀ frame ∈ next, frame.IsSorted := by
      rw [StackState.eq_follow_of_step moved]
      exact StackState.isSorted_follow sorted
    exact List.forall_mem_cons.2 ⟨nextSorted, ih nextSorted⟩

end Traced

/-- The instructions keep the stacks that one after the other leaves. -/
structure IsStackTrace (insts : List Instruction) : Prop where
  first : ∀ inst : Instruction, insts[0]? = some inst → inst.before = .known 0 0
  next : ∀ (place : Nat) (inst follower : Instruction),
    insts[place]? = some inst → insts[place + 1]? = some follower → follower.before = inst.after
  absent : ∀ inst ∈ insts, inst.stack = none ↔ inst.after = .unknown
  present : ∀ inst ∈ insts, ∀ frame ∈ inst.stack,
    inst.after = .known frame.ints.length frame.strings.length ∧ frame.IsSorted
  closes : ∀ inst ∈ insts, inst.terminates = true → inst.after = .known 0 0
  stays : ∀ inst ∈ insts, inst.terminates = false → inst.before = .unknown → inst.after = .unknown

theorem StackState.depth_eq_unknown_iff (state : StackState) : state.depth = .unknown ↔ state = none := by
  cases state <;> simp [depth]

theorem Traced.isStackTrace {callee : Int32 → Option Signature} {strict : Bool} {cut insts : List Instruction}
    (traced : Traced callee strict (some {}) cut insts) : IsStackTrace insts := by
  have moves (inst : Instruction) (member : inst ∈ insts) : ∃ state : StackState, inst.before = state.depth ∧
      inst.stack = state.follow (callee inst.operand.toInt) inst ∧ inst.after = inst.stack.depth := by
    obtain ⟨place, found⟩ := List.getElem?_of_mem member
    obtain ⟨-, -, -, moved⟩ := traced.of_getElem found
    exact ⟨_, traced.before_eq found, StackState.eq_follow_of_step moved, traced.after_eq found⟩
  have sorted := traced.isSorted (by simpa using ⟨List.forall_mem_nil _, List.forall_mem_nil _⟩)
  refine ⟨fun inst found => traced.before_eq found, fun place inst follower => traced.before_succ,
    fun inst member => ?_, fun inst member frame known => ?_, fun inst member terminates => ?_,
    fun inst member goesOn unknown => ?_⟩
  · obtain ⟨-, -, -, after⟩ := moves inst member
    rw [after, StackState.depth_eq_unknown_iff]
  · obtain ⟨-, -, -, after⟩ := moves inst member
    rw [after, Option.mem_def.1 known]
    exact ⟨rfl, sorted inst member frame known⟩
  · obtain ⟨state, -, moved, after⟩ := moves inst member
    rw [after, moved, StackState.follow_of_terminates terminates]
    rfl
  · obtain ⟨state, before, moved, after⟩ := moves inst member
    rw [before, StackState.depth_eq_unknown_iff] at unknown
    rw [after, moved, unknown, StackState.follow_none goesOn]
    rfl

theorem IsStackTrace.unknown_until {insts : List Instruction} (kept : IsStackTrace insts) {place gap : Nat}
    {inst last : Instruction} (found : insts[place]? = some inst) (unknown : inst.after = .unknown)
    (reached : insts[place + 1 + gap]? = some last)
    (goesOn : ∀ (between : Nat) (middle : Instruction), place < between → between < place + 1 + gap →
      insts[between]? = some middle → middle.terminates = false) : last.before = .unknown := by
  induction gap generalizing last with
  | zero =>
    rw [kept.next place inst last found reached]
    exact unknown
  | succ gap ih =>
    obtain ⟨bound, -⟩ := List.getElem?_eq_some_iff.1 reached
    have previous : insts[place + 1 + gap]? = some insts[place + 1 + gap] :=
      List.getElem?_eq_getElem (Nat.lt_of_succ_lt bound)
    have before := ih previous fun between middle above below => goesOn between middle above (by omega)
    have plain := goesOn (place + 1 + gap) _ (by omega) (by omega) previous
    rw [kept.next (place + 1 + gap) _ last previous reached]
    exact kept.stays _ (List.mem_of_getElem? previous) plain before

/-- Decoded instructions keep the stacks that one after the other leaves. Stacks that are unknown after an instruction
are so up to the next one that ends a block. -/
theorem decode_isStackTrace (callee : Int32 → Option Signature) (decoder : Decoder) (code : List UInt8) (start : Int)
    (insts : List Instruction) (decoded : decoder.decode callee code start = .ok insts) :
    IsStackTrace insts ∧
      ∀ (place other : Nat) (inst last : Instruction), insts[place]? = some inst → inst.after = .unknown →
        place < other → insts[other]? = some last →
        (∀ (between : Nat) (middle : Instruction), place < between → between < other →
          insts[between]? = some middle → middle.terminates = false) →
        last.before = .unknown ∧ last.after = if last.terminates then .known 0 0 else .unknown := by
  obtain ⟨-, -, cut, -, traced⟩ := (decoder.decode_eq_ok_iff callee code start insts).1 decoded
  have kept := traced.isStackTrace
  refine ⟨kept, fun place other inst last found unknown after reached goesOn => ?_⟩
  obtain ⟨gap, rfl⟩ := Nat.exists_eq_add_of_le after
  have before := kept.unknown_until found unknown reached goesOn
  refine ⟨before, ?_⟩
  by_cases terminates : last.terminates = true
  · rw [if_pos terminates]
    exact kept.closes last (List.mem_of_getElem? reached) terminates
  · rw [if_neg terminates]
    exact kept.stays last (List.mem_of_getElem? reached) (Bool.eq_false_of_not_eq_true terminates) before

/-- After an operation of which nothing is known a constant is pushed in vain; the return finds nothing of it. -/
theorem decode_isStackTrace_unknown :
    ∃ insts last,
      Decoder.decode (fun _ => none) {} [7, 135, 0, 0, 0, 0, 0, 0, 5, 0, 21, 0] 0 = .ok insts ∧ IsStackTrace insts ∧
      insts[2]? = some last ∧ last.before = .unknown ∧ last.after = .known 0 0 := by
  have decoded : Decoder.decode (fun _ => none) {} [7, 135, 0, 0, 0, 0, 0, 0, 5, 0, 21, 0] 0 = .ok _ :=
    Decoder.decode_of_within 3 (by decide) rfl rfl
  obtain ⟨kept, lasts⟩ := decode_isStackTrace (fun _ => none) {} _ 0 _ decoded
  obtain ⟨before, after⟩ := lasts 0 2 _ _ rfl rfl (by decide) rfl fun between middle above below found => by
    obtain rfl : between = 1 := by omega
    cases found
    rfl
  exact ⟨_, _, decoded, kept, rfl, before, after⟩

end ClientScript
