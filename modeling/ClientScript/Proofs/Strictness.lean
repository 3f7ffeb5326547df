import ClientScript.Proofs.ForwardPass
import ClientScript.Proofs.ShortReads

/-!
Strict and lenient decoding. Both cut code into the same instructions and find the same stacks; the strict one
only stops where the lenient one goes on without them. So a strict success is the lenient one, and a strict failure
is the lenient one or a fault of the stacks before it.
-/

namespace ClientScript

def DecodeCause.IsStack : DecodeCause → Prop
  | .stack _ => True
  | .outside | .opcodeTruncated _ | .operandTruncated _ _ | .badSwitch _ | .tooManyInstructions => False

namespace StackState

/-- The stacks that an instruction leaves if they bear it. -/
def left (callee : Option Signature) (inst : Instruction) (state : StackState) : StackState :=
  state.bind fun frame => (frame.apply callee inst).toOption.join

/-- The state after an instruction if nothing is checked. -/
def follow (callee : Option Signature) (inst : Instruction) (state : StackState) : StackState :=
  if inst.terminates then some {} else state.left callee inst

theorem applied_cases (strict : Bool) (callee : Option Signature) (inst : Instruction) (state : StackState) :
    state.applied strict callee inst = .ok (state.left callee inst) ∨
      strict = true ∧ ∃ error, state.applied strict callee inst = .error error := by
  cases state with
  | none => exact .inl rfl
  | some frame =>
    cases effect : frame.apply callee inst with
    | ok next =>
      left
      simp [applied, left, effect, Except.toOption]
    | error error =>
      cases strict with
      | false =>
        left
        simp [applied, left, effect, Except.toOption]
      | true =>
        right
        simp [applied, effect]

theorem closed_cases (strict : Bool) (inst : Instruction) (state : StackState) :
    closed strict inst state = .ok (if inst.terminates then some {} else state) ∨
      strict = true ∧ ∃ error, closed strict inst state = .error error := by
  by_cases terminates : inst.terminates = true
  · simp only [closed, if_pos terminates]
    split
    · exact .inl rfl
    · exact .inr ⟨rfl, _, rfl⟩
    · exact .inl rfl
  · left
    simp only [closed, if_neg terminates]

theorem step_cases (strict : Bool) (callee : Option Signature) (inst : Instruction) (state : StackState) :
    state.step strict callee inst = .ok (state.follow callee inst) ∨
      strict = true ∧ ∃ error, state.step strict callee inst = .error error := by
  rcases state.applied_cases strict callee inst with applies | stops
  · simp only [step, applies]
    exact closed_cases strict inst (state.left callee inst)
  · obtain ⟨checked, error, refused⟩ := stops
    right
    simp only [step, refused]
    exact ⟨checked, error, rfl⟩

theorem eq_follow_of_step {strict : Bool} {callee : Option Signature} {inst : Instruction} {state next : StackState}
    (moved : state.step strict callee inst = .ok next) : next = state.follow callee inst := by
  rcases state.step_cases strict callee inst with goes | stops
  · rw [goes] at moved
    exact (Except.ok.inj moved).symm
  · obtain ⟨-, error, refused⟩ := stops
    simp [refused] at moved

end StackState

def followed (callee : Int32 → Option Signature) : StackState → List Instruction → List Instruction
  | _, [] => []
  | state, inst :: rest =>
    inst.traced state (state.follow (callee inst.operand.toInt) inst) ::
      followed callee (state.follow (callee inst.operand.toInt) inst) rest

/-- A trace is the one that is found if nothing is checked, unless a check fails at one of the instructions. -/
theorem trace_cases (callee : Int32 → Option Signature) (strict : Bool) (state : StackState)
    (insts : List Instruction) :
    trace callee strict state insts = .ok (followed callee state insts) ∨
      strict = true ∧ ∃ fault, trace callee strict state insts = .error fault ∧ fault.inst ∈ insts := by
  induction insts generalizing state with
  | nil => exact .inl rfl
  | cons inst rest ih =>
    rw [trace_cons]
    rcases state.step_cases strict (callee inst.operand.toInt) inst with goes | stops
    · rcases ih (state.follow (callee inst.operand.toInt) inst) with later | stops
      · left
        simp only [goes, later, followed]
      · obtain ⟨checked, fault, failed, member⟩ := stops
        right
        simp only [goes, failed]
        exact ⟨checked, fault, rfl, List.mem_cons_of_mem inst member⟩
    · obtain ⟨checked, error, refused⟩ := stops
      right
      simp only [refused]
      exact ⟨checked, _, rfl, List.mem_cons_self⟩

theorem trace_lenient (callee : Int32 → Option Signature) (state : StackState) (insts : List Instruction) :
    trace callee false state insts = .ok (followed callee state insts) := by
  simpa using trace_cases callee false state insts

theorem traced_followed (callee : Int32 → Option Signature) (state : StackState) (insts : List Instruction) :
    Traced callee false state insts (followed callee state insts) :=
  (trace_eq_ok_iff callee false state insts _).1 (trace_lenient callee state insts)

theorem Read.error_of_bind {ε α β : Type} {first : Read ε α} {next : α → Read ε β} {bytes : List UInt8}
    {error : ε} (failed : (first >>= next) bytes = .error error) :
    first bytes = .error error ∨ ∃ value rest, next value rest = .error error := by
  change Read.bind first next bytes = _ at failed
  unfold Read.bind at failed
  cases start : first bytes with
  | error reason =>
    rw [start] at failed
    cases failed
    exact .inl rfl
  | ok pair =>
    simp only [start] at failed
    cases finish : next pair.1 (bytes.drop pair.2) with
    | ok other => simp [finish] at failed
    | error reason =>
      simp only [finish] at failed
      cases failed
      exact .inr ⟨pair.1, _, finish⟩

theorem Framing.failure_of_error {framing : Framing} {insts : List Instruction} {error : DecodeError}
    (failed : framing.failure.elim (.ok insts) .error = (.error error : Except DecodeError (List Instruction))) :
    framing.failure = some error := by
  cases failure : framing.failure with
  | none => simp [failure] at failed
  | some cause =>
    simp only [failure, Option.elim_some, Except.error.injEq] at failed
    rw [failed]

namespace Decoder

theorem readOperand_not_isStack {decoder : Decoder} {desc : Descriptor} {bytes : List UInt8} {cause : DecodeCause}
    (refused : decoder.readOperand desc bytes = .error cause) : ¬cause.IsStack := by
  have pervades : Pervades fun _ read => ∀ bytes cause, read bytes = .error cause → ¬cause.IsStack :=
    { pure := fun value bytes cause failed => by cases failed
      refuse := fun fault bytes cause failed => by
        cases failed
        exact id
      part := fun shape read bytes cause failed => by
        unfold part Read.mapError at failed
        split at failed
        · cases failed
          exact id
        · cases failed
      bind := fun _ first next bytes cause failed => by
        rcases Read.error_of_bind failed with early | late
        · exact first bytes cause early
        · obtain ⟨value, rest, late⟩ := late
          exact next value rest cause late }
  exact pervades.readOperand decoder desc bytes cause refused

theorem frame_failure {decoder : Decoder} {offset index : Nat} {bytes : List UInt8} {error : DecodeError}
    (failed : (decoder.frame offset index bytes).failure = some error) :
    ¬error.cause.IsStack ∧ (offset : Int) ≤ error.offset ∧
      ∀ inst ∈ (decoder.frame offset index bytes).insts, inst.offset < error.offset := by
  fun_induction Decoder.frame decoder offset index bytes with
  | case1 => cases failed
  | case2 offset index byte =>
    cases failed
    refine ⟨?_, le_rfl, List.forall_mem_nil _⟩
    dsimp only
    split <;> exact id
  | case3 =>
    cases failed
    exact ⟨id, le_rfl, List.forall_mem_nil _⟩
  | case4 offset index high low rest allowed desc cause refused =>
    cases failed
    exact ⟨readOperand_not_isStack refused, le_rfl, List.forall_mem_nil _⟩
  | case5 offset index high low rest allowed desc operand used read ih =>
    obtain ⟨other, above, before⟩ := ih failed
    push_cast at above
    refine ⟨other, by omega, List.forall_mem_cons.2 ⟨?_, before⟩⟩
    dsimp only
    omega

/-- The cutting depends on how a decoder describes codes, reads operands and counts, and on nothing else. -/
theorem frame_congr (one other : Decoder) (registry : one.registry = other.registry)
    (operands : one.readOperand = other.readOperand) (limits : one.limitReached = other.limitReached)
    (offset index : Nat) (bytes : List UInt8) : one.frame offset index bytes = other.frame offset index bytes := by
  fun_induction Decoder.frame other offset index bytes with
  | case1 => rw [frame]
  | case2 => rw [frame, limits]
  | case3 offset index high low rest reached => rw [frame, limits, if_pos reached]
  | case4 offset index high low rest allowed desc cause refused =>
    rw [frame, limits, if_neg allowed]
    simp only [registry, operands]
    rw [refused]
  | case5 offset index high low rest allowed desc operand used read ih =>
    rw [frame, limits, if_neg allowed]
    simp only [registry, operands]
    rw [read]
    exact congrArg (Framing.cons _) ih

variable {callee : Int32 → Option Signature} {decoder : Decoder} {code : List UInt8} {start : Int}

theorem decode_outside (outside : start < 0 ∨ code.length < start) :
    decoder.decode callee code start = .error ⟨start, none, .outside⟩ := by
  rw [decode, decodeM, if_pos outside]
  rfl

theorem decode_lenient (lenient : decoder.strict = false) (inside : ¬(start < 0 ∨ code.length < start)) :
    decoder.decode callee code start =
      (decoder.frame start.toNat 0 (code.drop start.toNat)).failure.elim
        (.ok (followed callee (some {}) (decoder.frame start.toNat 0 (code.drop start.toNat)).insts)) .error := by
  rw [decode_eq callee decoder code start inside, lenient, trace_lenient]

theorem not_isStack_of_lenient {error : DecodeError} (lenient : decoder.strict = false)
    (failed : decoder.decode callee code start = .error error) : ¬error.cause.IsStack := by
  by_cases outside : start < 0 ∨ code.length < start
  · rw [decode_outside outside] at failed
    cases failed
    exact id
  · rw [decode_lenient lenient outside] at failed
    exact (frame_failure (Framing.failure_of_error failed)).1

def strictly (decoder : Decoder) : Decoder := { decoder with strict := true }

def leniently (decoder : Decoder) : Decoder := { decoder with strict := false }

/-- Strict decoding has the outcome of lenient decoding, unless the stacks stop it before that fails. -/
theorem decode_strictly_cases (callee : Int32 → Option Signature) (decoder : Decoder) (code : List UInt8)
    (start : Int) :
    decoder.strictly.decode callee code start = decoder.leniently.decode callee code start ∨
      ∃ fault : DecodeError, decoder.strictly.decode callee code start = .error fault ∧ fault.cause.IsStack ∧
        ∀ error, decoder.leniently.decode callee code start = .error error → fault.offset < error.offset := by
  by_cases outside : start < 0 ∨ code.length < start
  · left
    rw [decode_outside outside, decode_outside outside]
  · -- Both decoders cut the code in the same way, so that nothing but the check of the stacks can differ.
    have same : decoder.strictly.frame start.toNat 0 (code.drop start.toNat) =
        decoder.leniently.frame start.toNat 0 (code.drop start.toNat) :=
      frame_congr decoder.strictly decoder.leniently rfl rfl rfl _ _ _
    rw [decode_eq callee decoder.strictly code start outside, decode_lenient rfl outside, same]
    rcases trace_cases callee true (some {})
      (decoder.leniently.frame start.toNat 0 (code.drop start.toNat)).insts with goes | stops
    · left
      simp only [strictly, goes]
    · obtain ⟨-, fault, failed, member⟩ := stops
      right
      refine ⟨⟨fault.inst.offset, some fault.inst.op, .stack fault.error⟩, ?_, trivial, fun error refused => ?_⟩
      · simp only [strictly, failed]
      · exact (frame_failure (Framing.failure_of_error refused)).2.2 fault.inst member

end Decoder

/-- A strict success is the lenient one. Where lenient decoding fails, strict decoding fails in the same way or for a
fault of the stacks at an earlier place. Lenient decoding never fails for such a fault. -/
theorem strict_decode_refines (callee : Int32 → Option Signature) (decoder : Decoder) (code : List UInt8)
    (start : Int) :
    (∀ insts, decoder.strictly.decode callee code start = .ok insts →
      decoder.leniently.decode callee code start = .ok insts) ∧
    (∀ error, decoder.leniently.decode callee code start = .error error →
      decoder.strictly.decode callee code start = .error error ∨
        ∃ fault : DecodeError, decoder.strictly.decode callee code start = .error fault ∧ fault.cause.IsStack ∧
          fault.offset < error.offset) ∧
    (∀ error, decoder.leniently.decode callee code start = .error error → ¬error.cause.IsStack) := by
  have noFault : ∀ error, decoder.leniently.decode callee code start = .error error → ¬error.cause.IsStack :=
    fun error => Decoder.not_isStack_of_lenient rfl
  rcases decoder.decode_strictly_cases callee code start with same | stops
  · rw [same]
    exact ⟨fun insts => id, fun error => .inl, noFault⟩
  · obtain ⟨fault, refused, stack, before⟩ := stops
    refine ⟨fun insts decoded => ?_, fun error failed => .inr ⟨fault, refused, stack, before error failed⟩, noFault⟩
    rw [refused] at decoded
    cases decoded

/-- A value is dropped that is not there, and the code ends within the next instruction. -/
theorem strict_decode_refines_underflow :
    Decoder.decode (fun _ => none) (Decoder.leniently {}) [0, 38, 0, 0] 0 =
        .error ⟨3, none, .opcodeTruncated .cutShort⟩ ∧
      ∃ fault : DecodeError, Decoder.decode (fun _ => none) (Decoder.strictly {}) [0, 38, 0, 0] 0 = .error fault ∧
        fault.cause.IsStack ∧ fault.offset < 3 := by
  have lenient : Decoder.decode (fun _ => none) (Decoder.leniently {}) [0, 38, 0, 0] 0 =
      .error ⟨3, none, .opcodeTruncated .cutShort⟩ :=
    (Decoder.decode_eq_error_iff (by decide) (by decide)).2
      ⟨[0, 38, 0], [0], _, _, rfl, Decoder.cut_of_within 1 rfl, .step rfl (.done _), .opcode rfl⟩
  have strict : Decoder.decode (fun _ => none) (Decoder.strictly {}) [0, 38, 0, 0] 0 =
      .error ⟨0, some ⟨38⟩, .stack (.underflow .int)⟩ :=
    (Decoder.decode_eq_error_iff (by decide) (by decide)).2
      ⟨[], [0, 38, 0, 0], [], [], rfl, .done _ _, .done _,
        @Decoder.Fails.stack _ _ _ _ _ 38 (.byte 0) [0] [0] _ rfl ⟨0, rfl, rfl⟩ rfl⟩
  rcases (strict_decode_refines (fun _ => none) {} [0, 38, 0, 0] 0).2.1 _ lenient with same | earlier
  · rw [strict] at same
    cases same
  · exact ⟨lenient, earlier⟩

end ClientScript
