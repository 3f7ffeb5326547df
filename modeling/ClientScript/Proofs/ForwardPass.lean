import ClientScript.Proofs.Tiling

/-!
Decoding as one forward pass. Code is cut first and its stacks are followed afterwards, but the outcome is that
of going through it once: a front that can be cut and traced gives its instructions, and decoding goes on behind
it from the stacks that it leaves. So decoding fails exactly where, behind such a front, the next instruction
fails, and nothing but that instruction and what came before it decides on the failure.
-/

namespace ClientScript

namespace Decoder

variable {callee : Int32 → Option Signature} {decoder : Decoder} {offset index : Nat} {state : StackState}
  {bytes : List UInt8} {error : DecodeError}

/-- Decodes bytes that stand at an offset, after `index` instructions which left the stacks in a state. -/
def decodeFrom (callee : Int32 → Option Signature) (decoder : Decoder) (offset index : Nat) (state : StackState)
    (bytes : List UInt8) : Except DecodeError (List Instruction) :=
  match trace callee decoder.strict state (decoder.frame offset index bytes).insts with
  | .error fault => .error ⟨fault.inst.offset, some fault.inst.op, .stack fault.error⟩
  | .ok insts => (decoder.frame offset index bytes).failure.elim (.ok insts) .error

def instAt (decoder : Decoder) (offset index : Nat) (word : UInt16) (operand : Operand) (raw : List UInt8) :
    Instruction where
  offset := offset
  index := index
  desc := decoder.registry.lookup (.ofWord word)
  operand := operand
  size := 2 + raw.length

theorem decodeFrom_nil (callee : Int32 → Option Signature) (decoder : Decoder) (offset index : Nat)
    (state : StackState) : decoder.decodeFrom callee offset index state [] = .ok [] := by
  rw [decodeFrom, frame]
  rfl

theorem decodeFrom_inst {word : UInt16} {operand : Operand} {raw : List UInt8}
    (allowed : decoder.limitReached index = false)
    (stored : decoder.Stores (decoder.registry.lookup (.ofWord word)) operand raw) (rest : List UInt8) :
    decoder.decodeFrom callee offset index state (wordBytes word ++ (raw ++ rest)) =
      match state.step decoder.strict (callee operand.toInt) (decoder.instAt offset index word operand raw) with
      | .error fault => .error ⟨offset, some (.ofWord word), .stack fault⟩
      | .ok next =>
        (decoder.decodeFrom callee (offset + 2 + raw.length) (index + 1) next rest).map
          ((decoder.instAt offset index word operand raw).traced state next :: ·) := by
  have steps := trace_cons callee decoder.strict state (decoder.instAt offset index word operand raw)
    (decoder.frame (offset + 2 + raw.length) (index + 1) rest).insts
  unfold decodeFrom
  rw [frame_inst allowed stored rest]
  simp only [Framing.cons, instAt] at steps ⊢
  rw [steps]
  generalize state.step decoder.strict _ _ = moved
  cases moved with
  | error fault => simp only [Instruction.op, Registry.lookup_op]
  | ok next =>
    generalize decoder.frame (offset + 2 + raw.length) (index + 1) rest = framing
    dsimp only
    cases trace callee decoder.strict next framing.insts with
    | error fault => rfl
    | ok traced => cases framing.failure <;> rfl

/-- The next instruction fails: the limit is reached, its code or its operand cannot be read, or the stacks
do not bear it. -/
inductive Fails (callee : Int32 → Option Signature) (decoder : Decoder) (offset index : Nat) (state : StackState) :
    List UInt8 → DecodeError → Prop where
  | limit {byte : UInt8} {rest : List UInt8} (reached : decoder.limitReached index = true) :
      Fails callee decoder offset index state (byte :: rest) ⟨offset, none, .tooManyInstructions⟩
  | opcode {byte : UInt8} (allowed : decoder.limitReached index = false) :
      Fails callee decoder offset index state [byte] ⟨offset, none, .opcodeTruncated .cutShort⟩
  | operand {word : UInt16} {rest : List UInt8} {cause : DecodeCause} (allowed : decoder.limitReached index = false)
      (refused : decoder.readOperand (decoder.registry.lookup (.ofWord word)) rest = .error cause) :
      Fails callee decoder offset index state (wordBytes word ++ rest) ⟨offset, some (.ofWord word), cause⟩
  | stack {word : UInt16} {operand : Operand} {raw rest : List UInt8} {fault : StackError}
      (allowed : decoder.limitReached index = false)
      (stored : decoder.Stores (decoder.registry.lookup (.ofWord word)) operand raw)
      (refused : state.step decoder.strict (callee operand.toInt) (decoder.instAt offset index word operand raw) =
        .error fault) :
      Fails callee decoder offset index state (wordBytes word ++ (raw ++ rest))
        ⟨offset, some (.ofWord word), .stack fault⟩

namespace Fails

theorem offset_eq (fails : decoder.Fails callee offset index state bytes error) : error.offset = offset := by
  cases fails <;> rfl

theorem ne_nil (fails : decoder.Fails callee offset index state bytes error) : bytes ≠ [] := by
  cases fails <;> exact nofun

theorem decodeFrom_eq (fails : decoder.Fails callee offset index state bytes error) :
    decoder.decodeFrom callee offset index state bytes = .error error := by
  cases fails with
  | @limit byte rest reached =>
    unfold decodeFrom
    cases rest with
    | nil =>
      rw [frame, if_pos reached]
      rfl
    | cons low rest =>
      rw [frame, if_pos reached]
      rfl
  | opcode allowed =>
    unfold decodeFrom
    rw [frame, allowed]
    rfl
  | @operand word rest cause allowed refused =>
    unfold decodeFrom
    simp only [Opcode.ofWord] at refused
    simp only [wordBytes, List.cons_append, List.nil_append, frame, allowed, Read.toNat_wordBytes, refused,
      Registry.lookup_op]
    rfl
  | stack allowed stored refused => simp only [decodeFrom_inst allowed stored, refused]

end Fails

theorem next_cases (callee : Int32 → Option Signature) (decoder : Decoder) (offset index : Nat) (state : StackState)
    (bytes : List UInt8) :
    bytes = [] ∨ (∃ error, decoder.Fails callee offset index state bytes error) ∨
      ∃ word operand raw rest next, bytes = wordBytes word ++ (raw ++ rest) ∧
        decoder.limitReached index = false ∧
        decoder.Stores (decoder.registry.lookup (.ofWord word)) operand raw ∧
        state.step decoder.strict (callee operand.toInt) (decoder.instAt offset index word operand raw) =
          .ok next := by
  match bytes with
  | [] => exact .inl rfl
  | byte :: rest =>
    right
    cases limit : decoder.limitReached index with
    | true => exact .inl ⟨_, .limit limit⟩
    | false =>
      match rest with
      | [] => exact .inl ⟨_, .opcode limit⟩
      | low :: rest =>
        obtain ⟨word, pair, -⟩ := Read.exists_word byte low
        have split : byte :: low :: rest = wordBytes word ++ rest := by
          rw [← pair]
          rfl
        rw [split]
        cases read : decoder.readOperand (decoder.registry.lookup (.ofWord word)) rest with
        | error cause => exact .inl ⟨_, .operand limit read⟩
        | ok pair =>
          obtain ⟨operand, used⟩ := pair
          obtain ⟨raw, rest, rfl, rfl, stored⟩ := (decoder.readOperand_accepts _ _ _ _).1 read
          cases moved : state.step decoder.strict (callee operand.toInt)
              (decoder.instAt offset index word operand raw) with
          | error fault => exact .inl ⟨_, .stack limit stored moved⟩
          | ok next => exact .inr ⟨word, operand, raw, rest, next, rfl, rfl, stored, moved⟩

theorem decodeFrom_append {front : List UInt8} {cut insts : List Instruction}
    (falls : Cut decoder offset index front cut) (traced : Traced callee decoder.strict state cut insts)
    (back : List UInt8) :
    decoder.decodeFrom callee offset index state (front ++ back) =
      (decoder.decodeFrom callee (offset + front.length) (index + insts.length)
        (stackBefore state insts insts.length) back).map (insts ++ ·) := by
  induction falls generalizing state insts with
  | done offset index =>
    cases traced
    exact (congrFun Except.map_id _).symm
  | @inst offset index word operand raw rest more allowed stored later ih =>
    cases traced with
    | @step _ next _ _ traced moved further =>
      rw [List.append_assoc, List.append_assoc, decodeFrom_inst allowed stored, add_length_inst, List.length_cons,
        stackBefore_cons]
      have count : index + (traced.length + 1) = index + 1 + traced.length := by omega
      simp only [instAt, moved, ih further, count]
      change _ = Except.map _ (decoder.decodeFrom callee _ _ (stackBefore next traced traced.length) back)
      generalize decoder.decodeFrom callee _ _ (stackBefore next traced traced.length) back = outcome
      cases outcome <;> rfl

theorem exists_front (callee : Int32 → Option Signature) (decoder : Decoder) (offset index : Nat)
    (state : StackState) (bytes : List UInt8) :
    ∃ front back cut insts, bytes = front ++ back ∧ Cut decoder offset index front cut ∧
      Traced callee decoder.strict state cut insts ∧
      (back = [] ∨ ∃ error, decoder.Fails callee (offset + front.length) (index + insts.length)
        (stackBefore state insts insts.length) back error) := by
  induction size : bytes.length using Nat.strongRecOn generalizing offset index state bytes with
  | _ count ih =>
    rcases decoder.next_cases callee offset index state bytes with rfl | stops | goes
    · exact ⟨[], [], [], [], rfl, .done offset index, .done state, .inl rfl⟩
    · exact ⟨[], bytes, [], [], rfl, .done offset index, .done state, .inr stops⟩
    · obtain ⟨word, operand, raw, rest, next, rfl, allowed, stored, moved⟩ := goes
      have shorter : rest.length < count := by
        rw [← size, List.length_append, List.length_append, wordBytes_length]
        omega
      obtain ⟨front, back, cut, insts, rfl, falls, traced, ending⟩ :=
        ih rest.length shorter (offset + 2 + raw.length) (index + 1) next rest rfl
      refine ⟨wordBytes word ++ (raw ++ front), back, _, _, ?_, .inst allowed stored falls, .step moved traced, ?_⟩
      · simp only [List.append_assoc]
      · rw [add_length_inst, List.length_cons, stackBefore_cons, Nat.add_comm insts.length, ← Nat.add_assoc]
        exact ending

theorem decodeFrom_eq_error_iff :
    decoder.decodeFrom callee offset index state bytes = .error error ↔
      ∃ front back cut insts, bytes = front ++ back ∧ Cut decoder offset index front cut ∧
        Traced callee decoder.strict state cut insts ∧
        decoder.Fails callee (offset + front.length) (index + insts.length)
          (stackBefore state insts insts.length) back error := by
  constructor
  · intro failed
    obtain ⟨front, back, cut, insts, rfl, falls, traced, ending⟩ :=
      decoder.exists_front callee offset index state bytes
    rw [decodeFrom_append falls traced back] at failed
    rcases ending with rfl | stops
    · rw [decodeFrom_nil] at failed
      cases failed
    · obtain ⟨other, fails⟩ := stops
      rw [fails.decodeFrom_eq] at failed
      cases failed
      exact ⟨front, back, cut, insts, rfl, falls, traced, fails⟩
  · intro parts
    rcases parts with ⟨front, back, cut, insts, rfl, falls, traced, fails⟩
    rw [decodeFrom_append falls traced back, fails.decodeFrom_eq]
    rfl

/-- Decoding fails exactly with the failure of the first instruction that fails. -/
theorem decode_eq_error_iff {code : List UInt8} {start : Int} (notNegative : 0 ≤ start)
    (notAfter : start ≤ code.length) :
    decoder.decode callee code start = .error error ↔
      ∃ front back cut insts, code.drop start.toNat = front ++ back ∧ Cut decoder start.toNat 0 front cut ∧
        Traced callee decoder.strict (some {}) cut insts ∧
        decoder.Fails callee (start.toNat + front.length) insts.length
          (stackBefore (some {}) insts insts.length) back error := by
  have pass : decoder.decode callee code start =
      decoder.decodeFrom callee start.toNat 0 (some {}) (code.drop start.toNat) :=
    decoder.decode_eq callee code start (by omega)
  rw [pass, decodeFrom_eq_error_iff]
  simp only [Nat.zero_add]

end Decoder

end ClientScript
