import ClientScript.Proofs.Decoding

/-!
Decoded instructions cover the code. They are numbered from zero, the first one stands at the start, every
other one where the one before it ends, and the last one ends with the code. Each takes three bytes at least,
so there are at most a third as many of them as bytes.
-/

namespace ClientScript

/-- The instructions stand in a row, from a start to a stop. -/
structure Tiles (start stop : Int) (insts : List Instruction) : Prop where
  index : ∀ (place : Nat) (inst : Instruction), insts[place]? = some inst → inst.index = place
  first : ∀ inst : Instruction, insts[0]? = some inst → inst.offset = start
  next : ∀ (place : Nat) (inst follower : Instruction),
    insts[place]? = some inst → insts[place + 1]? = some follower → follower.offset = inst.next
  last : ∀ inst : Instruction, insts.getLast? = some inst → inst.next = stop
  empty : insts = [] → start = stop

theorem wordBytes_length (word : UInt16) : (wordBytes word).length = 2 := rfl

theorem longBytes_length (word : UInt32) : (longBytes word).length = 4 := rfl

theorem add_length_inst (offset : Nat) (word : UInt16) (raw rest : List UInt8) :
    offset + (wordBytes word ++ (raw ++ rest)).length = offset + 2 + raw.length + rest.length := by
  rw [List.length_append, List.length_append, wordBytes_length]
  omega

theorem Opcode.assumedWidth_pos (op : Opcode) : 0 < op.assumedWidth := by
  unfold assumedWidth
  split <;> decide

theorem Decoder.Stores.length_pos {decoder : Decoder} {desc : Descriptor} {operand : Operand} {raw : List UInt8}
    (stored : decoder.Stores desc operand raw) (present : desc.shape ≠ .none) : 0 < raw.length := by
  revert stored
  unfold Decoder.Stores
  cases shape : desc.shape with
  | none => exact absurd shape present
  | int | slot _ =>
    intro parts
    rcases parts with ⟨value, -, rfl⟩
    rw [longBytes_length]
    decide
  | string =>
    intro parts
    rcases parts with ⟨value, -, body, -, rfl⟩
    rw [List.length_append]
    exact Nat.succ_pos _
  | byte =>
    intro parts
    rcases parts with ⟨value, -, rfl⟩
    exact Nat.one_pos
  | switch =>
    intro parts
    rcases parts with ⟨table, -, stored⟩
    unfold Decoder.StoresTable at stored
    split at stored
    · obtain ⟨-, rfl⟩ := stored
      rw [SwitchOperand.stored, List.length_append, wordBytes_length]
      omega
    · obtain ⟨-, rfl, -⟩ := stored
      rw [longBytes_length]
      decide
  | unknown =>
    intro parts
    rcases parts with ⟨data, -, width, rfl⟩
    rw [width]
    exact desc.op.assumedWidth_pos

theorem Registry.lookup_plain {registry : Registry} (known : registry = .standard ∨ registry = .empty) {op : Opcode}
    (notNegative : 0 ≤ op.code) :
    (registry.lookup op).isPseudo = false ∧ (registry.lookup op).shape ≠ .none := by
  have rows : ∀ row ∈ registry.rows, 0 ≤ row.op.code → row.isPseudo = false ∧ row.shape ≠ .none := by
    rcases known with rfl | rfl
    · decide +kernel
    · exact List.forall_mem_nil _
  have plain := lookup_of_rows rows (fun _ _ => ⟨rfl, nofun⟩) op
  rw [lookup_op] at plain
  exact plain notNegative

namespace Cut

variable {decoder : Decoder} {offset index : Nat} {bytes : List UInt8} {insts : List Instruction}

theorem exists_stored (cut : Cut decoder offset index bytes insts) :
    ∀ inst ∈ insts, ∃ word raw, inst.desc = decoder.registry.lookup (.ofWord word) ∧
      decoder.Stores inst.desc inst.operand raw ∧ inst.size = 2 + raw.length := by
  induction cut with
  | done => exact List.forall_mem_nil _
  | @inst offset index word operand raw rest more allowed stored later ih =>
    exact List.forall_mem_cons.2 ⟨⟨word, raw, rfl, stored, rfl⟩, ih⟩

theorem eq_nil_iff (cut : Cut decoder offset index bytes insts) : insts = [] ↔ bytes = [] := by
  cases cut with
  | done => exact iff_of_true rfl rfl
  | inst => exact iff_of_false nofun nofun

theorem offset_first (cut : Cut decoder offset index bytes insts) {inst : Instruction}
    (found : insts[0]? = some inst) : inst.offset = offset := by
  cases cut with
  | done => cases found
  | inst =>
    cases found
    rfl

theorem offset_next (cut : Cut decoder offset index bytes insts) {place : Nat} {inst follower : Instruction}
    (found : insts[place]? = some inst) (follows : insts[place + 1]? = some follower) :
    follower.offset = inst.next := by
  induction cut generalizing place with
  | done => cases found
  | @inst offset index word operand raw rest more allowed stored later ih =>
    cases place with
    | zero =>
      cases found
      rw [later.offset_first follows, Instruction.next]
      push_cast
      omega
    | succ place => exact ih found follows

theorem next_last (cut : Cut decoder offset index bytes insts) {inst : Instruction}
    (last : insts.getLast? = some inst) : inst.next = offset + bytes.length := by
  induction cut with
  | done => cases last
  | @inst offset index word operand raw rest more allowed stored later ih =>
    simp only [List.length_append, wordBytes_length]
    cases more with
    | nil =>
      rw [List.getLast?_singleton, Option.some.injEq] at last
      subst last
      rw [later.eq_nil_iff.1 rfl, List.length_nil, Instruction.next]
      push_cast
      omega
    | cons follower more =>
      rw [List.getLast?_cons_cons] at last
      rw [ih last]
      push_cast
      omega

theorem forall_plain (cut : Cut decoder offset index bytes insts)
    (known : decoder.registry = .standard ∨ decoder.registry = .empty) :
    ∀ inst ∈ insts,
      0 ≤ inst.op.code ∧ inst.op.code ≤ 65535 ∧ inst.desc.isPseudo = false ∧ 3 ≤ inst.size := by
  intro inst member
  obtain ⟨word, raw, described, stored, size⟩ := cut.exists_stored inst member
  have op : inst.op.code = word.toNat := by
    rw [Instruction.op, described, Registry.lookup_op]
    rfl
  have bound : word.toNat < 65536 := word.toNat_lt
  have notNegative : 0 ≤ (Opcode.ofWord word).code := Int.natCast_nonneg word.toNat
  obtain ⟨real, present⟩ := Registry.lookup_plain known notNegative
  rw [← described] at real present
  have long := stored.length_pos present
  refine ⟨?_, ?_, real, ?_⟩ <;> omega

theorem three_mul_length_le (cut : Cut decoder offset index bytes insts) (long : ∀ inst ∈ insts, 3 ≤ inst.size) :
    3 * insts.length ≤ bytes.length := by
  induction cut with
  | done => exact le_rfl
  | @inst offset index word operand raw rest more allowed stored later ih =>
    obtain ⟨head, tail⟩ := List.forall_mem_cons.1 long
    have others := ih tail
    simp only [List.length_append, List.length_cons, wordBytes_length]
    dsimp only at head
    omega

theorem tiles (cut : Cut decoder offset 0 bytes insts) : Tiles offset (offset + bytes.length) insts where
  index place inst found := (cut.index_eq found).trans (Nat.zero_add place)
  first inst found := cut.offset_first found
  next place inst follower found follows := cut.offset_next found follows
  last inst last := cut.next_last last
  empty none := by rw [cut.eq_nil_iff.1 none, List.length_nil, Int.natCast_zero, Int.add_zero]

end Cut

theorem Traced.forall_mem_iff {callee : Int32 → Option Signature} {strict : Bool} {state : StackState}
    {cut insts : List Instruction} (traced : Traced callee strict state cut insts) {property : Instruction → Prop}
    (kept : ∀ inst before after, property (inst.traced before after) ↔ property inst) :
    (∀ inst ∈ insts, property inst) ↔ ∀ inst ∈ cut, property inst := by
  induction traced with
  | done => exact Iff.rfl
  | step moved later ih => rw [List.forall_mem_cons, List.forall_mem_cons, kept, ih]

theorem Tiles.traced {callee : Int32 → Option Signature} {strict : Bool} {state : StackState}
    {cut insts : List Instruction} {start stop : Int} (tiles : Tiles start stop cut)
    (traced : Traced callee strict state cut insts) : Tiles start stop insts where
  index place inst found := by
    obtain ⟨source, origin, kept, -⟩ := traced.of_getElem found
    rw [kept]
    exact tiles.index place source origin
  first inst found := by
    obtain ⟨source, origin, kept, -⟩ := traced.of_getElem found
    rw [kept]
    exact tiles.first source origin
  next place inst follower found follows := by
    obtain ⟨source, origin, kept, -⟩ := traced.of_getElem found
    obtain ⟨nextSource, nextOrigin, nextKept, -⟩ := traced.of_getElem follows
    rw [kept, nextKept]
    exact tiles.next place source nextSource origin nextOrigin
  last inst last := by
    rw [List.getLast?_eq_getElem?] at last
    obtain ⟨source, origin, kept, -⟩ := traced.of_getElem last
    rw [traced.length_eq, ← List.getLast?_eq_getElem?] at origin
    rw [kept]
    exact tiles.last source origin
  empty none := by
    have same := traced.length_eq
    rw [none, List.length_nil, eq_comm, List.length_eq_zero_iff] at same
    exact tiles.empty same

/-- Decoded instructions cover the code from the start to its end. Each of them has a code of two bytes, which
is no pseudo operation, and takes three bytes at least. -/
theorem decode_tiles (callee : Int32 → Option Signature) (decoder : Decoder) (code : List UInt8) (start : Int)
    (insts : List Instruction) (known : decoder.registry = .standard ∨ decoder.registry = .empty)
    (decoded : decoder.decode callee code start = .ok insts) :
    Tiles start code.length insts ∧
      (∀ inst ∈ insts,
        0 ≤ inst.op.code ∧ inst.op.code ≤ 65535 ∧ inst.desc.isPseudo = false ∧ 3 ≤ inst.size) ∧
      (insts.Pairwise fun one other => one.offset < other.offset) ∧
      3 * (insts.length : Int) ≤ code.length - start := by
  obtain ⟨notNegative, notAfter, cut, falls, traced⟩ :=
    (decoder.decode_eq_ok_iff callee code start insts).1 decoded
  have plain := falls.forall_plain known
  have stop : (start.toNat : Int) + (code.drop start.toNat).length = code.length := by
    rw [List.length_drop]
    omega
  refine ⟨?_, ?_, traced.ascending falls.ascending, ?_⟩
  · have row := falls.tiles.traced traced
    rwa [stop, Int.toNat_of_nonneg notNegative] at row
  · exact (traced.forall_mem_iff fun _ _ _ => Iff.rfl).2 plain
  · have few := falls.three_mul_length_le fun inst member => (plain inst member).2.2.2
    rw [traced.length_eq]
    omega

/-- Two operations of which nothing is known, after a first byte that is left out. -/
theorem decode_tiles_opaque :
    ∃ insts, Decoder.decode (fun _ => none) { registry := .empty } [0xff, 0, 3, 1, 2, 3, 4, 1, 0, 9] 1 = .ok insts ∧
      insts.length = 2 ∧ Tiles 1 10 insts ∧ (∀ inst ∈ insts, 3 ≤ inst.size) ∧ 3 * insts.length ≤ 9 := by
  have decoded : Decoder.decode (fun _ => none) { registry := .empty } [0xff, 0, 3, 1, 2, 3, 4, 1, 0, 9] 1 = .ok _ :=
    Decoder.decode_of_within 2 (by decide) rfl rfl
  obtain ⟨row, plain, -, few⟩ := decode_tiles (fun _ => none) _ _ 1 _ (.inr rfl) decoded
  exact ⟨_, decoded, rfl, row, fun inst member => (plain inst member).2.2.2, Int.ofNat_le.1 few⟩

end ClientScript
