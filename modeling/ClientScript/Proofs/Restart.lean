import ClientScript.Proofs.StackTrace
import ClientScript.Proofs.Truncation

/-!
Decoding that starts anew. Behind an instruction that ends a block both stacks are empty, as they are at the start of
the code. So decoding from there gives the instructions that the whole code has there, apart from their numbers, as
long as nothing depends on the numbers: the limit of instructions is the one thing that does.
-/

namespace ClientScript

/-- The instruction with its number counted from a later one on. -/
def Instruction.countedFrom (first : Nat) (inst : Instruction) : Instruction :=
  { inst with index := inst.index - first }

theorem Instruction.actsLike_countedFrom (first : Nat) (inst : Instruction) :
    inst.ActsLike (inst.countedFrom first) where
  desc := rfl
  number := rfl
  text := rfl

theorem Decoder.limitReached_of_unlimited {decoder : Decoder} (unlimited : decoder.maxInstructions ≤ 0) (count : Nat) :
    decoder.limitReached count = false := by
  simp [limitReached, Int.not_lt.2 unlimited]

theorem Cut.countedFrom {decoder : Decoder} (unlimited : decoder.maxInstructions ≤ 0) {offset index first : Nat}
    {bytes : List UInt8} {insts : List Instruction} (cut : Cut decoder offset (index + first) bytes insts) :
    Cut decoder offset index bytes (insts.map (Instruction.countedFrom first)) := by
  generalize number : index + first = total at cut
  induction cut generalizing index with
  | done offset total => exact .done offset index
  | @inst offset total word operand raw rest more allowed stored later ih =>
    have behind := ih (show index + 1 + first = total + 1 by omega)
    have head : total - first = index := by omega
    simp only [List.map_cons, Instruction.countedFrom, head]
    exact .inst (Decoder.limitReached_of_unlimited unlimited index) stored behind

theorem Traced.countedFrom {callee : Int32 → Option Signature} {strict : Bool} {state : StackState}
    {cut insts : List Instruction} (traced : Traced callee strict state cut insts) (first : Nat) :
    Traced callee strict state (cut.map (Instruction.countedFrom first))
      (insts.map (Instruction.countedFrom first)) := by
  have pairs : List.Forall₂ (fun inst other => inst.countedFrom first = other) cut
      (cut.map (Instruction.countedFrom first)) := by
    rw [← List.forall₂_map_left_iff, List.forall₂_eq_eq_eq]
  have alike (inst other : Instruction) (same : inst.countedFrom first = other) : inst.ActsLike other := by
    rw [← same]
    exact inst.actsLike_countedFrom first
  obtain ⟨results, goesOn, matched⟩ := traced.exists_forall₂ alike (fun _ _ _ _ same => same ▸ rfl) pairs
  rw [← List.forall₂_map_left_iff, List.forall₂_eq_eq_eq] at matched
  rwa [matched]

/-- Without a limit decoding can start anew behind every instruction that ends a block: it gives the instructions from
there on, numbered from there on and the same in everything else. -/
theorem decode_restart (callee : Int32 → Option Signature) (decoder : Decoder) (code : List UInt8) (start : Int)
    (insts : List Instruction) (unlimited : decoder.maxInstructions ≤ 0)
    (decoded : decoder.decode callee code start = .ok insts) (place : Nat) (inst : Instruction)
    (found : insts[place]? = some inst) (ends : inst.terminates = true) :
    decoder.decode callee code inst.next =
        .ok ((insts.drop (place + 1)).map (Instruction.countedFrom (place + 1))) ∧
      ∀ later ∈ insts.drop (place + 1), place + 1 ≤ later.index := by
  obtain ⟨notNegative, notAfter, cut, falls, traced⟩ :=
    (decoder.decode_eq_ok_iff callee code start insts).1 decoded
  have row := falls.tiles.traced traced
  obtain ⟨-, -, -, moved⟩ := traced.of_getElem found
  have empty : inst.stack = some {} := by
    rw [StackState.eq_follow_of_step moved, StackState.follow_of_terminates ends]
  obtain ⟨front, back, -, other, split, -, behind, -, goesOn, stop⟩ := exists_split_next falls traced found
  rw [empty] at goesOn
  have total := congrArg List.length split
  rw [List.length_drop, List.length_append] at total
  have stops : inst.next.toNat = start.toNat + front.length := by omega
  have rest : code.drop inst.next.toNat = back := by
    rw [stops, ← List.drop_drop, split, List.drop_left]
  constructor
  · refine (decoder.decode_eq_ok_iff callee code inst.next _).2
      ⟨by omega, by omega, _, ?_, goesOn.countedFrom (place + 1)⟩
    rw [rest, stops]
    exact behind.countedFrom unlimited
  · intro later member
    obtain ⟨distance, located⟩ := List.getElem?_of_mem member
    rw [List.getElem?_drop] at located
    rw [row.index _ later located]
    omega

/-- A string is left on the stack of a branch; behind it, and behind the return after it, decoding starts anew. -/
theorem decode_restart_branch :
    ∃ insts others,
      Decoder.decode (fun _ => none) {} [0, 3, 0x41, 0, 0, 6, 0, 0, 0, 0, 0, 38, 0, 0, 21, 0] 0 = .ok insts ∧
      Decoder.decode (fun _ => none) {} [0, 3, 0x41, 0, 0, 6, 0, 0, 0, 0, 0, 38, 0, 0, 21, 0] 10 = .ok others ∧
      others = (insts.drop 2).map (Instruction.countedFrom 2) ∧ others.length = 2 := by
  have decoded : Decoder.decode (fun _ => none) {} [0, 3, 0x41, 0, 0, 6, 0, 0, 0, 0, 0, 38, 0, 0, 21, 0] 0 = .ok _ :=
    Decoder.decode_of_within 4 (by decide) rfl rfl
  obtain ⟨anew, -⟩ := decode_restart (fun _ => none) {} _ 0 _ (by decide) decoded 1 _ rfl rfl
  exact ⟨_, _, decoded, anew, rfl, rfl⟩

end ClientScript
