import ClientScript.Proofs.Restart

/-!
The limit of instructions. It cuts decoding off and does nothing else: before the limit is reached a decoder with a
limit reads and follows the same instructions as one without, and fails in the same way. Where the one without a limit
comes to one instruction more, the other fails at that instruction before it looks at its code.
-/

namespace ClientScript

namespace Decoder

def limited (decoder : Decoder) (limit : Nat) : Decoder :=
  { decoder with maxInstructions := limit }

theorem limitReached_limited (decoder : Decoder) {limit : Nat} (positive : 0 < limit) (count : Nat) :
    (decoder.limited limit).limitReached count = decide (limit ≤ count) := by
  simp [limited, limitReached, positive]

theorem limitReached_limited_of_lt (decoder : Decoder) {limit count : Nat} (below : count < limit) :
    (decoder.limited limit).limitReached count = false := by
  rw [decoder.limitReached_limited (Nat.zero_lt_of_lt below), decide_eq_false_iff_not]
  exact Nat.not_le.2 below

end Decoder

variable {callee : Int32 → Option Signature} {decoder : Decoder} {limit : Nat}

theorem Cut.limited {offset index : Nat} {bytes : List UInt8} {insts : List Instruction}
    (cut : Cut decoder offset index bytes insts) (few : index + insts.length ≤ limit) :
    Cut (decoder.limited limit) offset index bytes insts := by
  induction cut with
  | done offset index => exact .done offset index
  | @inst offset index word operand raw rest more allowed stored later ih =>
    rw [List.length_cons] at few
    exact .inst (decoder.limitReached_limited_of_lt (by omega)) stored (ih (by omega))

namespace Decoder

theorem Fails.limited (unlimited : decoder.maxInstructions ≤ 0) {offset index : Nat}
    {state : StackState} {bytes : List UInt8} {error : DecodeError}
    (fails : decoder.Fails callee offset index state bytes error) (below : index < limit) :
    (decoder.limited limit).Fails callee offset index state bytes error := by
  have free := decoder.limitReached_limited_of_lt below
  cases fails with
  | limit reached =>
    rw [limitReached_of_unlimited unlimited] at reached
    cases reached
  | opcode allowed => exact .opcode free
  | operand allowed refused => exact .operand free refused
  | stack allowed stored refused => exact .stack free stored refused

variable {code front back : List UInt8} {start : Int} {cut insts : List Instruction}

theorem decode_limited_of_more (positive : 0 < limit) (notNegative : 0 ≤ start) (notAfter : start ≤ code.length)
    (split : code.drop start.toNat = front ++ back) (falls : Cut decoder start.toNat 0 front cut)
    (traced : Traced callee decoder.strict (some {}) cut insts) (many : insts.length = limit) (more : back ≠ []) :
    (decoder.limited limit).decode callee code start =
      .error ⟨(start.toNat + front.length : Nat), none, .tooManyInstructions⟩ := by
  obtain ⟨byte, rest, rfl⟩ := List.exists_cons_of_ne_nil more
  have few : 0 + cut.length ≤ limit := by
    rw [← traced.length_eq]
    omega
  have reached : (decoder.limited limit).limitReached insts.length = true := by
    rw [decoder.limitReached_limited positive, decide_eq_true_eq, many]
  exact (decode_eq_error_iff notNegative notAfter).2
    ⟨front, byte :: rest, cut, insts, split, falls.limited few, traced, .limit reached⟩

/-- Where decoding without a limit has gone through more instructions than the limit, or through so many of them and
then comes to another one, the decoder with the limit fails at the instruction that has the limit as its number. -/
theorem decode_limited_of_many (positive : 0 < limit) (notNegative : 0 ≤ start) (notAfter : start ≤ code.length)
    (split : code.drop start.toNat = front ++ back) (falls : Cut decoder start.toNat 0 front cut)
    (traced : Traced callee decoder.strict (some {}) cut insts) (many : limit ≤ insts.length)
    (more : limit < insts.length ∨ back ≠ []) :
    ∃ offset, (insts.map Instruction.offset ++ [((start.toNat + front.length : Nat) : Int)])[limit]? = some offset ∧
      (decoder.limited limit).decode callee code start = .error ⟨offset, none, .tooManyInstructions⟩ := by
  obtain ⟨inst, found⟩ : ∃ inst, insts[limit - 1]? = some inst :=
    ⟨_, List.getElem?_eq_getElem (by omega)⟩
  obtain ⟨first, second, one, other, rfl, firstFalls, secondFalls, firstTraced, secondTraced, -⟩ :=
    exists_split_next falls traced found
  rw [Nat.sub_add_cancel positive] at secondFalls firstTraced secondTraced
  have count : (insts.take limit).length = limit := List.length_take_of_le many
  rw [List.append_assoc] at split
  have remains : second ++ back ≠ [] := by
    intro none
    obtain ⟨noSecond, noBack⟩ := List.append_eq_nil_iff.1 none
    have noOther := secondTraced.length_eq
    rw [secondFalls.eq_nil_iff.2 noSecond, List.length_drop, List.length_nil] at noOther
    rcases more with less | some
    · omega
    · exact some noBack
  refine ⟨(start.toNat + first.length : Nat), ?_,
    decode_limited_of_more positive notNegative notAfter split firstFalls firstTraced count remains⟩
  rcases Nat.lt_or_eq_of_le many with less | same
  · -- The instruction with that number is the first one behind those that are allowed.
    have next := List.getElem?_eq_getElem less
    have head : (insts.drop limit)[0]? = some insts[limit] := by rw [List.getElem?_drop, Nat.add_zero, next]
    obtain ⟨source, origin, kept, -⟩ := secondTraced.of_getElem head
    have stands : insts[limit].offset = source.offset := by
      rw [kept]
      rfl
    rw [List.getElem?_append_left (by rwa [List.length_map]), List.getElem?_map, next, Option.map_some, stands,
      secondFalls.offset_first origin]
  · -- All that were gone through are allowed, and the next one stands behind them.
    have noOther := secondTraced.length_eq
    rw [same, List.drop_length, List.length_nil, eq_comm, List.length_eq_zero_iff] at noOther
    rw [secondFalls.eq_nil_iff.1 noOther, List.append_nil, List.getElem?_append_right (by rw [List.length_map, same]),
      List.length_map, same, Nat.sub_self]
    rfl

end Decoder

/-- A limit of instructions changes the outcome of decoding only where decoding without it comes to an instruction that
has the limit as its number, and there the failure is that of the limit. Before a failure that is not of the start,
decoding has gone through the instructions that the code in front of it is decoded to. -/
theorem decode_limited (callee : Int32 → Option Signature) (decoder : Decoder) (code : List UInt8) (start : Int)
    (unlimited : decoder.maxInstructions ≤ 0) (limit : Nat) (positive : 0 < limit) :
    (∀ insts, decoder.decode callee code start = .ok insts →
      if insts.length ≤ limit then (decoder.limited limit).decode callee code start = .ok insts
      else ∃ inst, insts[limit]? = some inst ∧
        (decoder.limited limit).decode callee code start = .error ⟨inst.offset, none, .tooManyInstructions⟩) ∧
    ∀ error, decoder.decode callee code start = .error error →
      ((start < 0 ∨ code.length < start) ∧ (decoder.limited limit).decode callee code start = .error error) ∨
      ∃ before, decoder.decode callee (code.take error.offset.toNat) start = .ok before ∧
        if before.length < limit then (decoder.limited limit).decode callee code start = .error error
        else ∃ offset, (before.map Instruction.offset ++ [error.offset])[limit]? = some offset ∧
          (decoder.limited limit).decode callee code start = .error ⟨offset, none, .tooManyInstructions⟩ := by
  constructor
  · intro insts decoded
    obtain ⟨notNegative, notAfter, cut, falls, traced⟩ :=
      (decoder.decode_eq_ok_iff callee code start insts).1 decoded
    split
    next few =>
      rw [traced.length_eq] at few
      exact ((decoder.limited limit).decode_eq_ok_iff callee code start insts).2
        ⟨notNegative, notAfter, cut, falls.limited (by omega), traced⟩
    next many =>
      have less : limit < insts.length := Nat.lt_of_not_le many
      obtain ⟨offset, stands, failed⟩ := Decoder.decode_limited_of_many positive notNegative notAfter
        (List.append_nil _).symm falls traced less.le (.inl less)
      rw [List.getElem?_append_left (by rwa [List.length_map]), List.getElem?_map] at stands
      obtain ⟨inst, found, rfl⟩ := Option.map_eq_some_iff.1 stands
      exact ⟨inst, found, failed⟩
  · intro error failed
    by_cases outside : start < 0 ∨ code.length < start
    · rw [Decoder.decode_outside outside] at failed ⊢
      exact .inl ⟨outside, failed⟩
    right
    have notNegative : 0 ≤ start := by omega
    have notAfter : start ≤ code.length := by omega
    obtain ⟨front, back, cut, insts, split, falls, traced, fails⟩ :=
      (Decoder.decode_eq_error_iff notNegative notAfter).1 failed
    have place : error.offset = (start.toNat + front.length : Nat) := fails.offset_eq
    refine ⟨insts, ?_, ?_⟩
    · rw [place, Int.toNat_natCast]
      exact Decoder.decode_take_of_cut notNegative notAfter split (by push_cast; omega) falls traced
    · split
      next few =>
        exact (Decoder.decode_eq_error_iff notNegative notAfter).2 ⟨front, back, cut, insts, split,
          falls.limited (by rw [← traced.length_eq]; omega), traced, fails.limited unlimited few⟩
      next many =>
        rw [place]
        exact Decoder.decode_limited_of_many positive notNegative notAfter split falls traced (Nat.le_of_not_lt many)
          (.inr fails.ne_nil)

/-- Two constants, and then a byte that is no code. -/
def constantsAndByte : List UInt8 := [0, 0, 0, 0, 0, 5, 0, 0, 0, 0, 0, 6, 9]

/-- With a limit of three the byte is reported, with a limit of two it is not looked at, and with a limit of one the
second constant is not. -/
theorem decode_limited_constants :
    Decoder.decode (fun _ => none) {} constantsAndByte 0 = .error ⟨12, none, .opcodeTruncated .cutShort⟩ ∧
      Decoder.decode (fun _ => none) { maxInstructions := 3 } constantsAndByte 0 =
        .error ⟨12, none, .opcodeTruncated .cutShort⟩ ∧
      Decoder.decode (fun _ => none) { maxInstructions := 2 } constantsAndByte 0 =
        .error ⟨12, none, .tooManyInstructions⟩ ∧
      Decoder.decode (fun _ => none) { maxInstructions := 1 } constantsAndByte 0 =
        .error ⟨6, none, .tooManyInstructions⟩ := by
  have decoded : Decoder.decode (fun _ => none) {} [0, 0, 0, 0, 0, 5, 0, 0, 0, 0, 0, 6] 0 = .ok _ :=
    Decoder.decode_of_within 2 (by decide) rfl rfl
  have failed : Decoder.decode (fun _ => none) {} constantsAndByte 0 = .error ⟨12, none, .opcodeTruncated .cutShort⟩ :=
    (Decoder.decode_eq_error_iff (by decide) (by decide)).2
      ⟨[0, 0, 0, 0, 0, 5, 0, 0, 0, 0, 0, 6], [9], _, _, rfl, Decoder.cut_of_within 2 rfl,
        .step rfl (.step rfl (.done _)), .opcode rfl⟩
  have outcome (limit : Nat) (positive : 0 < limit) :
      if 2 < limit then
        Decoder.decode (fun _ => none) (.limited {} limit) constantsAndByte 0 =
          .error ⟨12, none, .opcodeTruncated .cutShort⟩
      else ∃ offset, [0, 6, 12][limit]? = some offset ∧
        Decoder.decode (fun _ => none) (.limited {} limit) constantsAndByte 0 =
          .error ⟨offset, none, .tooManyInstructions⟩ := by
    rcases (decode_limited (fun _ => none) {} constantsAndByte 0 (by decide) limit positive).2 _ failed with
      outside | ⟨before, front, outcome⟩
    · exact absurd outside.1 (by decide)
    · cases decoded.symm.trans front
      exact outcome
  obtain ⟨offset, second, atSecond⟩ := outcome 2 (by decide)
  obtain ⟨offset', first, atFirst⟩ := outcome 1 (by decide)
  cases second
  cases first
  exact ⟨failed, outcome 3 (by decide), atSecond, atFirst⟩

end ClientScript
