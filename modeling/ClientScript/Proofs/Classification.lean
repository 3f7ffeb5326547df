import ClientScript.Proofs.RoundTrip

/-!
What is known of operations, and how code is cut. Every description of an operation has the operand length that is
assumed where nothing is known of the operation, but for constant strings and for tables in the code, whose lengths
depend on the data. So a decoder that knows nothing cuts other code into the same pieces as one that knows all
operations.
-/

namespace ClientScript

theorem exists_longBytes {raw : List UInt8} (four : raw.length = 4) :
    ∃ value : Int32, raw = longBytes value.toUInt32 := by
  obtain ⟨a, b, c, d, rfl⟩ := List.length_eq_four.1 four
  refine ⟨(UInt32.ofNat (((a.toNat * 256 + b.toNat) * 256 + c.toNat) * 256 + d.toNat)).toInt32, ?_⟩
  rw [UInt32.toUInt32_toInt32, Read.longBytes_ofNat]

theorem Decoder.exists_stores_iff {decoder : Decoder} {desc : Descriptor} {count : Nat}
    (width : desc.width = some count) (raw : List UInt8) :
    (∃ operand, decoder.Stores desc operand raw) ↔ raw.length = count := by
  revert width
  unfold Descriptor.width Stores
  cases desc.shape with
  | none =>
    intro width
    cases width
    constructor
    · intro parts
      rcases parts with ⟨-, -, rfl⟩
      rfl
    · intro zero
      exact ⟨.none, rfl, List.length_eq_zero_iff.1 zero⟩
  | int | slot _ =>
    intro width
    cases width
    constructor
    · intro parts
      rcases parts with ⟨-, value, -, rfl⟩
      exact longBytes_length _
    · intro four
      obtain ⟨value, rfl⟩ := exists_longBytes four
      exact ⟨.int value, value, rfl, rfl⟩
  | byte =>
    intro width
    cases width
    constructor
    · intro parts
      rcases parts with ⟨-, value, -, rfl⟩
      rfl
    · intro one
      obtain ⟨value, rfl⟩ := List.length_eq_one_iff.1 one
      exact ⟨.byte value, value, rfl, rfl⟩
  | string | switch =>
    intro width
    cases width
  | unknown =>
    intro width
    cases width
    constructor
    · intro parts
      rcases parts with ⟨-, data, -, long, rfl⟩
      exact long
    · intro long
      exact ⟨.raw raw, raw, rfl, long, rfl⟩

namespace Registry

theorem width_standard {op : Opcode} (notNegative : 0 ≤ op.code) (noText : op ≠ .pushConstantString)
    (noSwitch : op ≠ .switch) : (standard.lookup op).width = some op.assumedWidth := by
  have rows : ∀ row ∈ standard.rows, 0 ≤ row.op.code → row.op ≠ .pushConstantString → row.op ≠ .switch →
      row.width = some row.op.assumedWidth := by
    decide +kernel
  have fixed := lookup_of_rows rows (fun _ _ _ _ => rfl) op
  rw [lookup_op] at fixed
  exact fixed notNegative noText noSwitch

theorem shape_switch : (standard.lookup .switch).shape = .switch := by
  decide +kernel

end Registry

namespace Decoder

variable {decoder : Decoder} {op : Opcode} {operand : Operand} {raw : List UInt8}

theorem Stores.length_of_switch (indexed : decoder.switches = .indexed)
    (stored : decoder.Stores (Registry.standard.lookup .switch) operand raw) :
    raw.length = Opcode.switch.assumedWidth := by
  rw [Stores, Registry.shape_switch] at stored
  obtain ⟨table, -, stored⟩ := stored
  rw [StoresTable, indexed] at stored
  obtain ⟨-, rfl, -⟩ := stored
  rfl

theorem Stores.length_of_standard (notNegative : 0 ≤ op.code) (noText : op ≠ .pushConstantString)
    (noTable : decoder.switches ≠ .indexed → op ≠ .switch)
    (stored : decoder.Stores (Registry.standard.lookup op) operand raw) : raw.length = op.assumedWidth := by
  by_cases switch : op = .switch
  · have indexed : decoder.switches = .indexed := by
      by_contra inline
      exact noTable inline switch
    subst switch
    exact stored.length_of_switch indexed
  · exact (exists_stores_iff (Registry.width_standard notNegative noText switch) raw).1 ⟨operand, stored⟩

end Decoder

namespace Instruction

def outline (inst : Instruction) : Int × Opcode × Int := (inst.offset, inst.op, inst.size)

def operandBytes (code : List UInt8) (inst : Instruction) : List UInt8 :=
  (code.drop (inst.offset.toNat + 2)).take (inst.size.toNat - 2)

end Instruction

namespace Cut

/-- Code that one decoder cuts another one cuts into the same pieces, if it can read an operand in each of them. -/
theorem exists_outlined {one other : Decoder} (limits : other.limitReached = one.limitReached) {offset index : Nat}
    {bytes : List UInt8} {insts : List Instruction} (cut : Cut one offset index bytes insts)
    (readable : ∀ inst ∈ insts, ∀ raw, one.Stores inst.desc inst.operand raw →
      ∃ operand, other.Stores (other.registry.lookup inst.op) operand raw) :
    ∃ others, Cut other offset index bytes others ∧
      others.map Instruction.outline = insts.map Instruction.outline := by
  induction cut with
  | done offset index => exact ⟨[], .done offset index, rfl⟩
  | @inst offset index word operand raw rest more allowed stored later ih =>
    obtain ⟨here, behind⟩ := List.forall_mem_cons.1 readable
    obtain ⟨otherOperand, otherStored⟩ := here raw stored
    rw [Instruction.op, Registry.lookup_op] at otherStored
    obtain ⟨others, falls, same⟩ := ih behind
    refine ⟨_, .inst (limits ▸ allowed) otherStored falls, ?_⟩
    rw [List.map_cons, List.map_cons, same]
    simp only [Instruction.outline, Instruction.op, Registry.lookup_op]

theorem stores_operandBytes {decoder : Decoder} {offset index : Nat} {code bytes : List UInt8}
    {insts : List Instruction} (cut : Cut decoder offset index bytes insts) (place : code.drop offset = bytes) :
    ∀ inst ∈ insts, decoder.Stores inst.desc inst.operand (inst.operandBytes code) := by
  induction cut with
  | done => exact List.forall_mem_nil _
  | @inst offset index word operand raw rest more allowed stored later ih =>
    have behind : code.drop (offset + 2) = raw ++ rest := by
      rw [← List.drop_drop, place]
      rfl
    have further : code.drop (offset + 2 + raw.length) = rest := by
      rw [← List.drop_drop, behind, List.drop_left]
    refine List.forall_mem_cons.2 ⟨?_, ih further⟩
    have length : ((2 : Int) + raw.length).toNat - 2 = raw.length := by omega
    simp only [Instruction.operandBytes, Int.toNat_natCast, length, behind, List.take_left]
    exact stored

end Cut

theorem Decoder.exists_decode_outlined (one other : Decoder) (lenient : other.strict = false)
    (limits : other.limitReached = one.limitReached) {callee : Int32 → Option Signature} {code : List UInt8}
    {start : Int} {insts : List Instruction} (decoded : one.decode callee code start = .ok insts)
    (readable : ∀ inst ∈ insts, ∀ raw, one.Stores inst.desc inst.operand raw →
      ∃ operand, other.Stores (other.registry.lookup inst.op) operand raw) :
    ∃ others, other.decode callee code start = .ok others ∧
      others.map Instruction.outline = insts.map Instruction.outline := by
  obtain ⟨notNegative, notAfter, cut, falls, traced⟩ := (one.decode_eq_ok_iff callee code start insts).1 decoded
  obtain ⟨otherCut, otherFalls, same⟩ := falls.exists_outlined limits
    ((traced.forall_mem_iff fun _ _ _ => Iff.rfl).1 readable)
  obtain ⟨others, otherTraced⟩ := exists_traced callee (some {}) otherCut
  rw [← lenient] at otherTraced
  refine ⟨others, (other.decode_eq_ok_iff callee code start others).2
    ⟨notNegative, notAfter, otherCut, otherFalls, otherTraced⟩, ?_⟩
  rw [otherTraced.map_eq Instruction.outline fun _ _ _ => rfl, same,
    traced.map_eq Instruction.outline fun _ _ _ => rfl]

theorem Decoder.stores_of_decode {decoder : Decoder} {callee : Int32 → Option Signature} {code : List UInt8}
    {start : Int} {insts : List Instruction} (decoded : decoder.decode callee code start = .ok insts) :
    ∀ inst ∈ insts, 0 ≤ inst.op.code ∧ inst.desc = decoder.registry.lookup inst.op ∧
      decoder.Stores inst.desc inst.operand (inst.operandBytes code) := by
  obtain ⟨-, -, cut, falls, traced⟩ := (decoder.decode_eq_ok_iff callee code start insts).1 decoded
  refine (traced.forall_mem_iff fun _ _ _ => Iff.rfl).2 fun inst member => ?_
  obtain ⟨word, -, described, -, -⟩ := falls.exists_stored inst member
  have op : inst.op = .ofWord word := by
    rw [Instruction.op, described, Registry.lookup_op]
  rw [op]
  exact ⟨Int.natCast_nonneg _, described, falls.stores_operandBytes rfl inst member⟩

/-- A lenient decoder that knows nothing cuts code without constant strings, and without tables in the code, as the one
that knows all operations does, and keeps the bytes of the operands. The other way round, code that is cut without
knowledge into pieces without the codes of constant strings and switches is cut in the same way with it. -/
theorem decode_outline_empty (callee : Int32 → Option Signature) (decoder : Decoder) (code : List UInt8) (start : Int)
    (lenient : decoder.strict = false) :
    (∀ insts, Decoder.decode callee { decoder with registry := .standard } code start = .ok insts →
      (∀ inst ∈ insts, inst.op ≠ .pushConstantString) →
      (decoder.switches ≠ .indexed → ∀ inst ∈ insts, inst.op ≠ .switch) →
      ∃ others, Decoder.decode callee { decoder with registry := .empty } code start = .ok others ∧
        others.map Instruction.outline = insts.map Instruction.outline ∧
        ∀ other ∈ others, other.operand = .raw (other.operandBytes code)) ∧
    (∀ others, Decoder.decode callee { decoder with registry := .empty } code start = .ok others →
      (∀ other ∈ others, other.op ≠ .pushConstantString ∧ other.op ≠ .switch) →
      ∃ insts, Decoder.decode callee { decoder with registry := .standard } code start = .ok insts ∧
        insts.map Instruction.outline = others.map Instruction.outline) := by
  constructor
  · intro insts decoded noText noTable
    have readable : ∀ inst ∈ insts, ∀ raw,
        Decoder.Stores { decoder with registry := .standard } inst.desc inst.operand raw →
        ∃ operand, Decoder.Stores { decoder with registry := .empty } (.opaqueOf inst.op) operand raw := by
      intro inst member raw stored
      obtain ⟨notNegative, described, -⟩ := Decoder.stores_of_decode decoded inst member
      rw [described] at stored
      have long := stored.length_of_standard notNegative (noText inst member) fun inline => noTable inline inst member
      exact ⟨.raw raw, raw, rfl, long, rfl⟩
    obtain ⟨others, emptyDecoded, same⟩ := Decoder.exists_decode_outlined { decoder with registry := .standard }
      { decoder with registry := .empty } lenient rfl decoded readable
    refine ⟨others, emptyDecoded, same, fun other member => ?_⟩
    obtain ⟨-, described, stored⟩ := Decoder.stores_of_decode emptyDecoded other member
    rw [described] at stored
    obtain ⟨raw, kept, -, whole⟩ := stored
    rw [kept, whole]
  · intro others decoded plain
    refine Decoder.exists_decode_outlined { decoder with registry := .empty } { decoder with registry := .standard }
      lenient rfl decoded ?_
    intro other member raw stored
    obtain ⟨notNegative, described, -⟩ := Decoder.stores_of_decode decoded other member
    obtain ⟨noText, noSwitch⟩ := plain other member
    rw [described] at stored
    have long := (Decoder.exists_stores_iff rfl raw).1 ⟨_, stored⟩
    exact (Decoder.exists_stores_iff (Registry.width_standard notNegative noText noSwitch) raw).2 long

/-- A constant, the number of a table and a return keep their places without knowledge of any operation. A constant and
a return alone keep them with it as well. -/
theorem decode_outline_empty_switch :
    (∃ insts others,
      Decoder.decode (fun _ => none) { switches := .indexed, tables := [[⟨7, 1⟩]] }
        [0, 0, 0, 0, 0, 7, 0, 60, 0, 0, 0, 0, 0, 21, 9] 0 = .ok insts ∧
      Decoder.decode (fun _ => none) { registry := .empty, switches := .indexed, tables := [[⟨7, 1⟩]] }
        [0, 0, 0, 0, 0, 7, 0, 60, 0, 0, 0, 0, 0, 21, 9] 0 = .ok others ∧
      others.map Instruction.outline = [(0, ⟨0⟩, 6), (6, ⟨60⟩, 6), (12, ⟨21⟩, 3)] ∧
      others.map Instruction.outline = insts.map Instruction.outline ∧
      ∀ other ∈ others, other.operand =
        .raw (other.operandBytes [0, 0, 0, 0, 0, 7, 0, 60, 0, 0, 0, 0, 0, 21, 9])) ∧
    ∃ others insts,
      Decoder.decode (fun _ => none) { registry := .empty } [0, 0, 0, 0, 0, 7, 0, 21, 9] 0 = .ok others ∧
      Decoder.decode (fun _ => none) {} [0, 0, 0, 0, 0, 7, 0, 21, 9] 0 = .ok insts ∧
      insts.map Instruction.outline = others.map Instruction.outline := by
  constructor
  · have decoded : Decoder.decode (fun _ => none) { switches := .indexed, tables :=
        [[⟨7, 1⟩]] } [0, 0, 0, 0, 0, 7, 0, 60, 0, 0, 0, 0, 0, 21, 9] 0 = .ok _ :=
      Decoder.decode_of_within 3 (by decide) rfl rfl
    obtain ⟨others, emptyDecoded, same, kept⟩ := (decode_outline_empty (fun _ => none)
      { switches := .indexed, tables := [[⟨7, 1⟩]] } _ 0 rfl).1 _ decoded (by decide) (fun inline => absurd rfl inline)
    exact ⟨_, others, decoded, emptyDecoded, same, same, kept⟩
  · have decoded : Decoder.decode (fun _ => none) { registry := .empty } [0, 0, 0, 0, 0, 7, 0, 21, 9] 0 = .ok _ :=
      Decoder.decode_of_within 2 (by decide) rfl rfl
    obtain ⟨insts, known, same⟩ := (decode_outline_empty (fun _ => none) {} _ 0 rfl).2 _ decoded (by decide)
    exact ⟨_, insts, decoded, known, same⟩

end ClientScript
