import ClientScript.Proofs.Strictness

/-!
Decoding and encoding undo each other. Encoding the instructions of decoded code gives that code back,
whatever the settings of the decoder are, and decoding the code of well-formed instructions gives these
instructions back, each where its code stands.
-/

namespace ClientScript

namespace Writer

def instructions (insts : List Instruction) (writer : Writer) : Writer :=
  insts.foldl (fun writer inst => writer.instruction inst) writer

theorem appends_opcode (word : UInt16) : Appends (opcode (.ofWord word)) (wordBytes word) := by
  have bound := word.toNat_lt
  have number : ((word.toNat : Int) % 65536).toNat = word.toNat := by omega
  have same : opcode (.ofWord word) = u16 word := by
    rw [opcode, Opcode.ofWord, number, UInt16.ofNat_toNat]
  rw [same]
  exact appends_u16 word

theorem appends_instruction {decoder : Decoder} {raw : List UInt8} (inst : Instruction) (word : UInt16)
    (op : inst.op = .ofWord word) (stored : decoder.Stores inst.desc inst.operand raw) :
    Appends (instruction inst) (wordBytes word ++ raw) := by
  unfold instruction
  rw [op]
  exact (appends_opcode word).andThen (appends_operand stored)

theorem appends_cons {inst : Instruction} {rest : List Instruction} {front back : List UInt8}
    (head : Appends (instruction inst) front) (tail : Appends (instructions rest) back) :
    Appends (instructions (inst :: rest)) (front ++ back) :=
  head.andThen tail

theorem appends_cut {decoder : Decoder} {offset index : Nat} {bytes : List UInt8} {insts : List Instruction}
    (cut : Cut decoder offset index bytes insts) : Appends (instructions insts) bytes := by
  induction cut with
  | done => exact Appends.nothing
  | @inst offset index word operand raw rest more allowed stored later ih =>
    rw [← List.append_assoc]
    exact appends_cons (appends_instruction _ word (Registry.lookup_op _ _) stored) ih

end Writer

theorem encode_of_appends {insts : List Instruction} {bytes : List UInt8}
    (appends : Writer.Appends (Writer.instructions insts) bytes) : encode insts = .ok bytes := by
  obtain ⟨failure, content⟩ := appends.fresh
  unfold Writer.instructions at failure content
  simp only [encode, failure, content, Option.elim_none]

theorem Traced.instructions_eq {callee : Int32 → Option Signature} {strict : Bool} {state : StackState}
    {cut insts : List Instruction} (traced : Traced callee strict state cut insts) :
    Writer.instructions insts = Writer.instructions cut := by
  induction traced with
  | done => rfl
  | @step _ _ inst _ _ _ _ ih =>
    funext writer
    exact congrFun ih (writer.instruction inst)

/-- Encoding undoes decoding: it writes the code that was decoded, from the start to the end. -/
theorem encode_of_decode (callee : Int32 → Option Signature) (decoder : Decoder) (code : List UInt8)
    (start : Int) (insts : List Instruction) (decoded : decoder.decode callee code start = .ok insts) :
    encode insts = .ok (code.drop start.toNat) := by
  obtain ⟨-, -, cut, falls, traced⟩ := (decoder.decode_eq_ok_iff callee code start insts).1 decoded
  apply encode_of_appends
  rw [traced.instructions_eq]
  exact Writer.appends_cut falls

/-- Strict decoding after a first byte, through text of an unassigned byte and a table of the container. -/
theorem encode_of_decode_indexed :
    ∃ insts, Decoder.decode (fun _ => none) { switches := .indexed, tables := [[⟨3, 0⟩]], strict := true }
        [0xff, 0, 3, 0x81, 0, 0, 39, 0, 0, 0, 0, 0, 0, 10, 0, 60, 0, 0, 0, 0, 0, 21, 0] 1 = .ok insts ∧
      encode insts = .ok [0, 3, 0x81, 0, 0, 39, 0, 0, 0, 0, 0, 0, 10, 0, 60, 0, 0, 0, 0, 0, 21, 0] := by
  have decoded : Decoder.decode (fun _ => none) { switches := .indexed, tables := [[⟨3, 0⟩]], strict := true }
      [0xff, 0, 3, 0x81, 0, 0, 39, 0, 0, 0, 0, 0, 0, 10, 0, 60, 0, 0, 0, 0, 0, 21, 0] 1 = .ok _ :=
    Decoder.decode_of_within 5 (by decide) rfl rfl
  exact ⟨_, decoded, encode_of_decode _ _ _ _ _ decoded⟩

namespace Operand

/-- The part of an operand that stands in code of this shape. -/
def inShape (shape : Shape) (operand : Operand) : Operand :=
  match shape with
  | .none => .none
  | .int | .slot _ => .int operand.toInt
  | .string => .text operand.toText
  | .byte => .byte operand.toByte
  | .switch => operand.switch?.elim .none .switch
  | .unknown => .raw operand.toRaw

/-- The operand has the part that the operation needs, and that part can be stored. -/
def Fits (desc : Descriptor) (operand : Operand) : Prop :=
  match desc.shape with
  | .none | .int | .slot _ | .byte => True
  | .string => ∀ char ∈ operand.toText.toList, char ≠ '\x00' ∧ (CodePage.encodeChar? char).isSome
  | .switch => ∃ table, operand.switch? = some table ∧ table.IsStorable
  | .unknown => desc.width = some operand.toRaw.length

end Operand

structure Instruction.IsWellFormed (inst : Instruction) : Prop where
  not_negative : 0 ≤ inst.op.code
  two_bytes : inst.op.code ≤ 65535
  desc : inst.desc = Registry.standard.lookup inst.op
  operand : inst.operand.Fits inst.desc

theorem Writer.operand_inShape (desc : Descriptor) (operand : Operand) :
    Writer.operand desc (operand.inShape desc.shape) = Writer.operand desc operand := by
  unfold Writer.operand Operand.inShape
  cases desc.shape with
  | switch => cases operand <;> rfl
  | none | int | slot _ | string | byte | unknown => rfl

theorem Operand.Fits.exists_stored {desc : Descriptor} {operand : Operand} (fits : operand.Fits desc)
    (decoder : Decoder) (inline : decoder.switches = .inline) :
    ∃ raw, decoder.Stores desc (operand.inShape desc.shape) raw := by
  revert fits
  unfold Operand.Fits Decoder.Stores Operand.inShape Descriptor.width
  cases desc.shape with
  | none =>
    intro
    exact ⟨[], rfl, rfl⟩
  | int | slot _ | byte =>
    intro
    exact ⟨_, _, rfl, rfl⟩
  | string =>
    intro plain
    obtain ⟨body, encoded⟩ := Writer.exists_encodeText plain
    exact ⟨_, _, rfl, body, encoded, rfl⟩
  | switch =>
    intro parts
    rcases parts with ⟨table, given, storable⟩
    rw [given]
    refine ⟨table.stored, table, rfl, ?_⟩
    unfold Decoder.StoresTable
    rw [inline]
    exact ⟨storable, rfl⟩
  | unknown =>
    intro width
    exact ⟨_, _, rfl, (Option.some.inj width).symm, rfl⟩

theorem Opcode.exists_word {op : Opcode} (notNegative : 0 ≤ op.code) (twoBytes : op.code ≤ 65535) :
    ∃ word, op = .ofWord word := by
  have bound : op.code.toNat < 65536 := by omega
  refine ⟨UInt16.ofNat op.code.toNat, ?_⟩
  rw [Opcode.ofWord, UInt16.toNat_ofNat_of_lt' bound, Int.toNat_of_nonneg notNegative]

theorem Instruction.IsWellFormed.exists_stored {inst : Instruction} (formed : inst.IsWellFormed) :
    ∃ word raw, inst.op = .ofWord word ∧
      ({} : Decoder).Stores (Registry.standard.lookup (.ofWord word))
        (inst.operand.inShape inst.desc.shape) raw ∧
      Writer.Appends (Writer.instruction inst) (wordBytes word ++ raw) := by
  obtain ⟨notNegative, twoBytes, described, fits⟩ := formed
  obtain ⟨word, op⟩ := Opcode.exists_word notNegative twoBytes
  obtain ⟨raw, stored⟩ := fits.exists_stored {} rfl
  refine ⟨word, raw, op, ?_, ?_⟩
  · rw [← op, ← described]
    exact stored
  · unfold Writer.instruction
    rw [op, ← Writer.operand_inShape]
    exact (Writer.appends_opcode word).andThen (Writer.appends_operand stored)

/-- The code of well-formed instructions falls into instructions of the same codes with the same
operands, each after the code of the ones before it. -/
theorem exists_cut {insts : List Instruction} (formed : ∀ inst ∈ insts, inst.IsWellFormed)
    (offset index : Nat) :
    ∃ code cut, Cut {} offset index code cut ∧ Writer.Appends (Writer.instructions insts) code ∧
      cut.length = insts.length ∧
      ∀ (number : Nat) (inst back : Instruction), insts[number]? = some inst → cut[number]? = some back →
        back.op = inst.op ∧ back.operand = inst.operand.inShape inst.desc.shape ∧
        ∃ front, Writer.Appends (Writer.instructions (insts.take number)) front ∧
          back.offset = (offset + front.length : Nat) := by
  induction insts generalizing offset index with
  | nil =>
    refine ⟨[], [], .done offset index, Writer.Appends.nothing, rfl, ?_⟩
    intro number inst back missing
    cases missing
  | cons inst rest ih =>
    obtain ⟨word, raw, op, stored, written⟩ := (formed inst List.mem_cons_self).exists_stored
    obtain ⟨code, cut, falls, restWritten, size, same⟩ :=
      ih (fun other member => formed other (List.mem_cons_of_mem inst member))
        (offset + 2 + raw.length) (index + 1)
    refine ⟨_, _, .inst rfl stored falls, ?_, congrArg (· + 1) size, ?_⟩
    · rw [← List.append_assoc]
      exact Writer.appends_cons written restWritten
    · intro number other back given found
      cases number with
      | zero =>
        cases given
        cases found
        exact ⟨(Registry.lookup_op _ _).trans op.symm, rfl, [], Writer.Appends.nothing, by simp⟩
      | succ number =>
        obtain ⟨sameOp, sameOperand, front, frontWritten, place⟩ := same number other back given found
        refine ⟨sameOp, sameOperand, _, Writer.appends_cons written frontWritten, ?_⟩
        rw [place]
        simp only [wordBytes, List.length_append, List.length_cons, List.length_nil]
        push_cast
        omega

theorem exists_traced (callee : Int32 → Option Signature) (state : StackState) (insts : List Instruction) :
    ∃ traced, Traced callee false state insts traced :=
  ⟨_, traced_followed callee state insts⟩

/-- Decoding undoes encoding: the code of well-formed instructions is decoded to as many instructions,
of the same codes and with the same operands, each of them where the code of those before it ends. -/
theorem decode_of_encode (callee : Int32 → Option Signature) (insts : List Instruction)
    (formed : ∀ inst ∈ insts, inst.IsWellFormed) :
    ∃ code decoded, encode insts = .ok code ∧ Decoder.decode callee {} code 0 = .ok decoded ∧
      decoded.length = insts.length ∧
      ∀ (number : Nat) (inst back : Instruction), insts[number]? = some inst → decoded[number]? = some back →
        back.op = inst.op ∧ back.operand = inst.operand.inShape inst.desc.shape ∧
        ∃ front, encode (insts.take number) = .ok front ∧ back.offset = front.length := by
  obtain ⟨code, cut, falls, written, size, same⟩ := exists_cut formed 0 0
  obtain ⟨decoded, traced⟩ := exists_traced callee (some {}) cut
  have success := (Decoder.decode_eq_ok_iff callee {} code 0 decoded).2
    ⟨le_rfl, Int.natCast_nonneg _, cut, falls, traced⟩
  refine ⟨code, decoded, encode_of_appends written, success, traced.length_eq.trans size, ?_⟩
  intro number inst back given found
  obtain ⟨source, origin, kept, -⟩ := traced.of_getElem found
  obtain ⟨sameOp, sameOperand, front, frontWritten, place⟩ := same number inst source given origin
  rw [kept]
  refine ⟨sameOp, sameOperand, front, encode_of_appends frontWritten, ?_⟩
  rw [Nat.zero_add] at place
  exact place

/-- A switch with a group of two labels, and after it an operation that is not registered. -/
theorem decode_of_encode_switch :
    ∃ code decoded back,
      encode [⟨9, 4, Registry.standard.lookup ⟨60⟩, .switch ⟨-1, [⟨[⟨.none, 1⟩, ⟨.or, 2⟩], 1⟩]⟩, 0,
          .unknown, .unknown, none⟩,
        ⟨0, 0, Registry.standard.lookup ⟨7000⟩, .raw [0xaa], 0, .unknown, .unknown, none⟩] = .ok code ∧
      Decoder.decode (fun _ => none) {} code 0 = .ok decoded ∧ decoded.length = 2 ∧
      decoded[1]? = some back ∧ back.op = ⟨7000⟩ ∧ back.operand = .raw [0xaa] ∧ back.offset = 19 := by
  have missing : Registry.standard.lookup ⟨7000⟩ = .opaqueOf ⟨7000⟩ := by
    have unknown : Registry.standard.find? ⟨7000⟩ = none := by decide +kernel
    rw [Registry.lookup, unknown]
    rfl
  have first : Instruction.IsWellFormed
      ⟨9, 4, Registry.standard.lookup ⟨60⟩, .switch ⟨-1, [⟨[⟨.none, 1⟩, ⟨.or, 2⟩], 1⟩]⟩, 0,
        .unknown, .unknown, none⟩ := by
    refine ⟨by decide, by decide, rfl, ⟨_, rfl, rfl, by decide, ?_⟩⟩
    rw [List.forall_mem_singleton]
    refine ⟨by decide, by decide, ?_, ?_⟩
    · rintro term ⟨⟩
      rfl
    · intro term member
      rw [List.mem_singleton.1 member]
      exact .inl rfl
  have second : Instruction.IsWellFormed
      ⟨0, 0, Registry.standard.lookup ⟨7000⟩, .raw [0xaa], 0, .unknown, .unknown, none⟩ := by
    rw [missing]
    exact ⟨by decide, by decide, missing.symm, rfl⟩
  obtain ⟨code, decoded, encoded, success, size, same⟩ := decode_of_encode (fun _ => none) _
    (List.forall_mem_cons.2 ⟨first, List.forall_mem_singleton.2 second⟩)
  obtain ⟨back, found⟩ : ∃ back, decoded[1]? = some back :=
    ⟨_, List.getElem?_eq_getElem (by rw [size]; decide)⟩
  obtain ⟨op, operand, front, before, place⟩ := same 1 _ back rfl found
  rw [missing] at operand
  cases before
  exact ⟨code, decoded, back, encoded, success, size, found,
    op.trans (Registry.lookup_op Registry.standard ⟨7000⟩), operand, place⟩

end ClientScript
