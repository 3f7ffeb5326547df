import ClientScript.Proofs.ForwardPass
import ClientScript.Proofs.ShortReads

/-!
Code that is cut off, and code that is continued. Up to the end of an instruction, decoded code is decoded to
the instructions before that end; cut off anywhere else it fails at the instruction that lost its end, for want
of bytes. The other way round, a failure is at the exact end of what can be decoded, and unless it is for want
of bytes nothing that follows can change it.
-/

namespace ClientScript

namespace Cut

variable {decoder : Decoder} {offset index : Nat} {bytes : List UInt8} {insts one other : List Instruction}

theorem exists_split (cut : Cut decoder offset index bytes (one ++ other)) :
    ∃ front back, bytes = front ++ back ∧ Cut decoder offset index front one ∧
      Cut decoder (offset + front.length) (index + one.length) back other := by
  induction one generalizing offset index bytes with
  | nil => exact ⟨[], bytes, rfl, .done offset index, cut⟩
  | cons inst one ih =>
    cases cut with
    | @inst _ _ word operand raw rest more allowed stored later =>
      obtain ⟨front, back, rfl, falls, behind⟩ := ih later
      refine ⟨wordBytes word ++ (raw ++ front), back, ?_, .inst allowed stored falls, ?_⟩
      · simp only [List.append_assoc]
      · rw [add_length_inst, List.length_cons, Nat.add_comm one.length, ← Nat.add_assoc]
        exact behind

theorem exists_inside (cut : Cut decoder offset index bytes insts) {place : Int} (above : offset < place)
    (below : place ≤ offset + bytes.length) (apart : ∀ inst ∈ insts, inst.next ≠ place) :
    ∃ one inst other, insts = one ++ inst :: other ∧ inst.offset < place ∧ place < inst.next := by
  induction cut with
  | done offset index =>
    rw [List.length_nil] at below
    omega
  | @inst offset index word operand raw rest more allowed stored later ih =>
    obtain ⟨head, tail⟩ := List.forall_mem_cons.1 apart
    simp only [Instruction.next] at head
    by_cases within : place < offset + (2 + raw.length)
    · exact ⟨[], _, more, rfl, above, within⟩
    · simp only [List.length_append, wordBytes_length] at below
      obtain ⟨one, inst, other, rfl, inside⟩ := ih (by push_cast; omega) (by push_cast at below ⊢; omega) tail
      exact ⟨_ :: one, inst, other, rfl, inside⟩

end Cut

theorem Traced.exists_split {callee : Int32 → Option Signature} {strict : Bool} {state : StackState}
    {one other insts : List Instruction} (traced : Traced callee strict state (one ++ other) insts) :
    ∃ front back, insts = front ++ back ∧ Traced callee strict state one front ∧
      Traced callee strict (stackBefore state front front.length) other back := by
  induction one generalizing state insts with
  | nil => exact ⟨[], insts, rfl, .done state, traced⟩
  | cons inst one ih =>
    cases traced with
    | step moved later =>
      obtain ⟨front, back, rfl, goes, behind⟩ := ih later
      refine ⟨_ :: front, back, rfl, .step moved goes, ?_⟩
      rw [List.length_cons, stackBefore_cons]
      exact behind

namespace Decoder

variable {callee : Int32 → Option Signature} {decoder : Decoder} {offset index : Nat} {state : StackState}

/-- An instruction without its end fails for want of bytes. Its code is known once both bytes of it are. -/
theorem exists_fails_take {bytes : List UInt8} {inst : Instruction} {more : List Instruction}
    (cut : Cut decoder offset index bytes (inst :: more)) (callee : Int32 → Option Signature) (state : StackState)
    (size : Nat) (positive : 0 < size) (within : size < inst.size) :
    ∃ error, decoder.Fails callee offset index state (bytes.take size) error ∧ error.cause.IsTruncation ∧
      error.op = if size = 1 then none else some inst.op := by
  cases cut with
  | @inst _ _ word operand raw rest more allowed stored later =>
    match size with
    | 1 => exact ⟨_, .opcode allowed, trivial, rfl⟩
    | count + 2 =>
      have room : count < raw.length := by
        dsimp only at within
        omega
      have halves : decoder.Stores (decoder.registry.lookup (.ofWord word)) operand
          (raw.take count ++ raw.drop count) := by
        rwa [List.take_append_drop]
      have lost : raw.drop count ≠ [] := by
        rw [ne_eq, List.drop_eq_nil_iff]
        omega
      obtain ⟨cause, refused, truncated⟩ :=
        (decoder.readOperand_firm _).exists_short (decoder.readOperand_accepts _) halves lost
      have taken : (wordBytes word ++ (raw ++ rest)).take (count + 2) = wordBytes word ++ raw.take count :=
        congrArg (wordBytes word ++ ·) (List.take_append_of_le_length room.le)
      rw [taken]
      refine ⟨_, .operand allowed refused, truncated, ?_⟩
      rw [if_neg (by omega), Instruction.op, Registry.lookup_op]

/-- What follows cannot mend an instruction that fails, unless it fails for want of bytes. -/
theorem Fails.append {bytes : List UInt8} {error : DecodeError}
    (fails : decoder.Fails callee offset index state bytes error) (more : List UInt8) :
    error.cause.IsTruncation ∨ decoder.Fails callee offset index state (bytes ++ more) error := by
  cases fails with
  | limit reached => exact .inr (.limit reached)
  | opcode allowed => exact .inl trivial
  | operand allowed refused =>
    rcases decoder.readOperand_firm _ _ more _ refused with truncated | same
    · exact .inl truncated
    · rw [List.append_assoc]
      exact .inr (.operand allowed same)
  | stack allowed stored refused =>
    rw [List.append_assoc, List.append_assoc]
    exact .inr (.stack allowed stored refused)

theorem decode_take_of_cut {code front back : List UInt8} {start : Int} {cut insts : List Instruction} {size : Nat}
    (notNegative : 0 ≤ start) (notAfter : start ≤ code.length) (split : code.drop start.toNat = front ++ back)
    (stop : size = start + front.length) (falls : Cut decoder start.toNat 0 front cut)
    (traced : Traced callee decoder.strict (some {}) cut insts) :
    decoder.decode callee (code.take size) start = .ok insts := by
  have total := congrArg List.length split
  rw [List.length_drop, List.length_append] at total
  have taken : (code.take size).drop start.toNat = front := by
    rw [List.drop_take, split, show size - start.toNat = front.length by omega, List.take_left]
  refine (decoder.decode_eq_ok_iff callee _ start insts).2 ⟨notNegative, ?_, cut, ?_, traced⟩
  · rw [List.length_take]
    omega
  · rwa [taken]

theorem decode_take_of_fails {code front back : List UInt8} {start : Int} {cut insts : List Instruction}
    {error : DecodeError} {size more : Nat} (notNegative : 0 ≤ start)
    (split : code.drop start.toNat = front ++ back) (stop : size = start + front.length + more)
    (falls : Cut decoder start.toNat 0 front cut) (traced : Traced callee decoder.strict (some {}) cut insts)
    (fails : decoder.Fails callee (start.toNat + front.length) insts.length
      (stackBefore (some {}) insts insts.length) (back.take more) error) :
    decoder.decode callee (code.take size) start = .error error := by
  have remains := List.length_pos_iff.2 fails.ne_nil
  have total := congrArg List.length split
  rw [List.length_drop, List.length_append] at total
  rw [List.length_take] at remains
  have taken : (code.take size).drop start.toNat = front ++ back.take more := by
    rw [List.drop_take, split, show size - start.toNat = front.length + more by omega, List.take_length_add_append]
  refine (decode_eq_error_iff notNegative ?_).2 ⟨front, _, cut, insts, taken, falls, traced, fails⟩
  rw [List.length_take]
  omega

end Decoder

section

variable {callee : Int32 → Option Signature} {decoder : Decoder} {code : List UInt8} {start : Int}
  {cut insts : List Instruction} {size : Nat}

theorem exists_split_next {bytes : List UInt8} {offset index : Nat} {strict : Bool} {state : StackState}
    (falls : Cut decoder offset index bytes cut) (traced : Traced callee strict state cut insts) {place : Nat}
    {inst : Instruction} (found : insts[place]? = some inst) :
    ∃ front back one other, bytes = front ++ back ∧ Cut decoder offset index front one ∧
      Cut decoder (offset + front.length) (index + (place + 1)) back other ∧
      Traced callee strict state one (insts.take (place + 1)) ∧
      Traced callee strict inst.stack other (insts.drop (place + 1)) ∧ inst.next = offset + front.length := by
  obtain ⟨source, origin, kept, -⟩ := traced.of_getElem found
  obtain ⟨bound, -⟩ := List.getElem?_eq_some_iff.1 origin
  have size : (cut.take (place + 1)).length = place + 1 := by
    rw [List.length_take]
    omega
  rw [← List.take_append_drop (place + 1) cut] at falls traced
  obtain ⟨front, back, split, frontFalls, backFalls⟩ := falls.exists_split
  obtain ⟨first, others, rfl, firstTraced, othersTraced⟩ := traced.exists_split
  have count : first.length = place + 1 := by rw [firstTraced.length_eq, size]
  have last : (cut.take (place + 1)).getLast? = some source := by
    simp [List.getLast?_take, origin]
  have left : stackBefore state first (place + 1) = inst.stack := by
    rw [List.getElem?_append_left (by omega)] at found
    rw [stackBefore, found]
    rfl
  rw [size] at backFalls
  rw [count, left] at othersTraced
  have stop := frontFalls.next_last last
  rw [List.take_left' count, List.drop_left' count]
  refine ⟨front, back, _, _, split, frontFalls, backFalls, firstTraced, othersTraced, ?_⟩
  rw [kept]
  exact stop

theorem decode_take_next (notNegative : 0 ≤ start) (notAfter : start ≤ code.length)
    (falls : Cut decoder start.toNat 0 (code.drop start.toNat) cut)
    (traced : Traced callee decoder.strict (some {}) cut insts) {place : Nat} {inst : Instruction}
    (found : insts[place]? = some inst) (ends : inst.next = size) :
    decoder.decode callee (code.take size) start = .ok (insts.take (place + 1)) := by
  obtain ⟨front, back, one, -, split, frontFalls, -, frontTraced, -, stop⟩ := exists_split_next falls traced found
  exact Decoder.decode_take_of_cut notNegative notAfter split (by omega) frontFalls frontTraced

theorem decode_take_inside (notNegative : 0 ≤ start)
    (falls : Cut decoder start.toNat 0 (code.drop start.toNat) cut)
    (traced : Traced callee decoder.strict (some {}) cut insts) (after : start < size) (within : size ≤ code.length)
    (between : ∀ inst ∈ insts, inst.next ≠ size) :
    ∃ (place : Nat) (inst : Instruction) (error : DecodeError), insts[place]? = some inst ∧
      inst.offset < size ∧ size < inst.next ∧
      decoder.decode callee (code.take size) start = .error error ∧ error.cause.IsTruncation ∧
      error.offset = inst.offset ∧
      error.op = if (size : Int) = inst.offset + 1 then none else some inst.op := by
  have cutBetween : ∀ inst ∈ cut, inst.next ≠ size := (traced.forall_mem_iff fun _ _ _ => Iff.rfl).1 between
  obtain ⟨one, source, other, rfl, above, below⟩ := falls.exists_inside (by omega)
    (by rw [List.length_drop]; omega) cutBetween
  obtain ⟨front, back, split, frontFalls, behind⟩ := falls.exists_split
  obtain ⟨first, others, rfl, firstTraced, othersTraced⟩ := traced.exists_split
  have offset := behind.offset_first rfl
  have width : source.next = source.offset + source.size := rfl
  cases othersTraced with
  | step moved further =>
    obtain ⟨error, fails, truncated, op⟩ := Decoder.exists_fails_take behind callee
      (stackBefore (some {}) first first.length) (size - (start.toNat + front.length)) (by omega) (by omega)
    rw [Nat.zero_add, ← firstTraced.length_eq] at fails
    have found (inst : Instruction) (more : List Instruction) :
        (first ++ inst :: more)[first.length]? = some inst := by simp
    refine ⟨first.length, _, error, found _ _, above, below, ?_, truncated,
      fails.offset_eq.trans offset.symm, ?_⟩
    · exact Decoder.decode_take_of_fails notNegative split (by omega) frontFalls firstTraced fails
    · rw [op]
      refine if_congr ?_ rfl rfl
      change _ ↔ (size : Int) = source.offset + 1
      omega

end

/-- Decoded code up to the end of an instruction gives the instructions up to that end. Cut off within one, it
fails at that instruction for want of bytes. -/
theorem decode_take (callee : Int32 → Option Signature) (decoder : Decoder) (code : List UInt8) (start : Int)
    (insts : List Instruction) (decoded : decoder.decode callee code start = .ok insts) (size : Nat)
    (after : start ≤ size) (within : size ≤ code.length) :
    (start = size → decoder.decode callee (code.take size) start = .ok []) ∧
    (∀ (place : Nat) (inst : Instruction), insts[place]? = some inst → inst.next = size →
      decoder.decode callee (code.take size) start = .ok (insts.take (place + 1))) ∧
    (start ≠ size → (∀ inst ∈ insts, inst.next ≠ size) →
      ∃ (place : Nat) (inst : Instruction) (error : DecodeError), insts[place]? = some inst ∧
        inst.offset < size ∧ size < inst.next ∧
        decoder.decode callee (code.take size) start = .error error ∧ error.cause.IsTruncation ∧
        error.offset = inst.offset ∧
        error.op = if (size : Int) = inst.offset + 1 then none else some inst.op) := by
  obtain ⟨notNegative, notAfter, cut, falls, traced⟩ :=
    (decoder.decode_eq_ok_iff callee code start insts).1 decoded
  refine ⟨fun same => ?_, fun place inst found ends => ?_, fun apart between => ?_⟩
  · exact Decoder.decode_take_of_cut notNegative notAfter (List.nil_append _).symm (by simp [same])
      (.done _ _) (.done _)
  · exact decode_take_next notNegative notAfter falls traced found ends
  · exact decode_take_inside notNegative falls traced (lt_of_le_of_ne after apart) within between

/-- A switch that is cut off right behind the number of its groups, and one that is whole. -/
theorem decode_take_switch :
    ∃ insts error,
      Decoder.decode (fun _ => none) {} [0, 60, 0, 1, 1, 0, 0, 0, 7, 0, 0, 0, 0, 0, 21, 0] 0 = .ok insts ∧
      Decoder.decode (fun _ => none) {} [0, 60, 0, 1, 1, 0, 0, 0, 7, 0, 0, 0, 0] 0 = .ok (insts.take 1) ∧
      Decoder.decode (fun _ => none) {} [0, 60, 0, 1] 0 = .error error ∧ error.cause.IsTruncation ∧
      error.offset = 0 ∧ error.op = some ⟨60⟩ := by
  have decoded : Decoder.decode (fun _ => none) {} [0, 60, 0, 1, 1, 0, 0, 0, 7, 0, 0, 0, 0, 0, 21, 0] 0 = .ok _ :=
    Decoder.decode_of_within 2 (by decide) rfl rfl
  have whole := (decode_take (fun _ => none) {} _ 0 _ decoded 13 (by decide) (by decide)).2.1 0 _ rfl rfl
  obtain ⟨place, inst, error, found, above, -, failed, truncated, offset, op⟩ :=
    (decode_take (fun _ => none) {} _ 0 _ decoded 4 (by decide) (by decide)).2.2 (by decide)
      (List.forall_mem_cons.2 ⟨by decide, List.forall_mem_singleton.2 (by decide)⟩)
  match place with
  | 0 =>
    cases found
    exact ⟨_, error, decoded, whole, failed, truncated, offset, op⟩
  | 1 =>
    cases found
    cases above

/-- A failure is where the code that can be decoded ends. Unless it is for want of bytes, code that goes on fails
in the same way. -/
theorem decode_error_local (callee : Int32 → Option Signature) (decoder : Decoder) (code : List UInt8) (start : Int)
    (notNegative : 0 ≤ start) (notAfter : start ≤ code.length) (error : DecodeError)
    (failed : decoder.decode callee code start = .error error) :
    start ≤ error.offset ∧ error.offset < code.length ∧
      (∃ insts, decoder.decode callee (code.take error.offset.toNat) start = .ok insts) ∧
      (¬error.cause.IsTruncation → ∀ more, decoder.decode callee (code ++ more) start = .error error) := by
  obtain ⟨front, back, cut, insts, split, falls, traced, fails⟩ :=
    (Decoder.decode_eq_error_iff notNegative notAfter).1 failed
  have place : error.offset = (start.toNat + front.length : Nat) := fails.offset_eq
  have remains := List.length_pos_iff.2 fails.ne_nil
  have total := congrArg List.length split
  rw [List.length_drop, List.length_append] at total
  refine ⟨by omega, by omega, ⟨insts, ?_⟩, ?_⟩
  · rw [place, Int.toNat_natCast]
    exact Decoder.decode_take_of_cut notNegative notAfter split (by push_cast; omega) falls traced
  · intro enough more
    have longer : (code ++ more).drop start.toNat = front ++ (back ++ more) := by
      rw [List.drop_append_of_le_length (by omega), split, List.append_assoc]
    refine (Decoder.decode_eq_error_iff notNegative ?_).2
      ⟨front, _, cut, insts, longer, falls, traced, (fails.append more).resolve_left enough⟩
    rw [List.length_append]
    omega

/-- A constant, and then a switch with a group of no labels: bytes behind it do not matter. -/
theorem decode_error_local_switch :
    (∃ insts, Decoder.decode (fun _ => none) {} [0, 0, 0, 0, 0, 5] 0 = .ok insts) ∧
      Decoder.decode (fun _ => none) {} [0, 0, 0, 0, 0, 5, 0, 60, 0, 1, 0, 0, 21, 0] 0 =
        .error ⟨6, some ⟨60⟩, .badSwitch (.emptyGroup 0)⟩ := by
  have failed : Decoder.decode (fun _ => none) {} [0, 0, 0, 0, 0, 5, 0, 60, 0, 1, 0] 0 =
      .error ⟨6, some ⟨60⟩, .badSwitch (.emptyGroup 0)⟩ :=
    (Decoder.decode_eq_error_iff (by decide) (by decide)).2
      ⟨[0, 0, 0, 0, 0, 5], [0, 60, 0, 1, 0], _, _, rfl,
        Decoder.cut_of_within 1 rfl, .step rfl (.done _),
        @Decoder.Fails.operand _ _ _ _ _ 60 [0, 1, 0] _ rfl rfl⟩
  obtain ⟨-, -, front, same⟩ := decode_error_local (fun _ => none) {} _ 0 (by decide) (by decide) _ failed
  exact ⟨front, same id [0, 21, 0]⟩

end ClientScript
