import ClientScript.Proofs.RoundTrip

/-!
Which failure is reported when instructions are written. Text that cannot be encoded fails only where nothing has
failed before it, so of several such failures the first one stays. An operand that does not fit its operation is
reported in place of whatever has failed before. So a list of instructions is written if each of them can be, and
otherwise the last mismatch is reported, or the first failure if there is no mismatch.
-/

namespace ClientScript

def WriteError.isMismatch : WriteError → Bool
  | .shape _ => true
  | .nulInText | .unencodable _ | .drained | .full => false

namespace Writer

theorem overrides_groups {table : List CaseGroup} {group : CaseGroup} (member : group ∈ table)
    (uncountable : ¬group.IsCountable) :
    ∃ mismatch, Overrides (fun writer => writer.groups table) (.shape mismatch) := by
  induction table with
  | nil => cases member
  | cons head rest ih =>
    obtain ⟨terms, disp⟩ := head
    cases terms with
    | nil => exact ⟨.termCount 0, fun _ => rfl⟩
    | cons first more =>
      by_cases many : 255 < (first :: more).length
      · refine ⟨.termCount (first :: more).length, fun writer => ?_⟩
        simp only [groups, if_pos many, reject]
      · have countable : CaseGroup.IsCountable ⟨first :: more, disp⟩ :=
          ⟨Nat.le_add_left 1 more.length, Nat.not_lt.1 many⟩
        have later : group ∈ rest := by
          rcases List.mem_cons.1 member with same | later
          · exact absurd (same ▸ countable) uncountable
          · exact later
        obtain ⟨mismatch, overrides⟩ := ih later
        refine ⟨mismatch, fun writer => ?_⟩
        simp only [groups, if_neg many]
        exact overrides _

theorem overrides_switchTable {table : List CaseGroup} (uncountable : ¬CaseGroup.AreCountable table) :
    ∃ mismatch, Overrides (switchTable table) (.shape mismatch) := by
  by_cases many : 65535 < table.length
  · refine ⟨.groupCount table.length, fun writer => ?_⟩
    simp only [switchTable, if_pos many, reject]
  · have other : ¬∀ group ∈ table, group.IsCountable := fun all => uncountable ⟨Nat.not_lt.1 many, all⟩
    obtain ⟨group, member, bad⟩ : ∃ group ∈ table, ¬group.IsCountable := by simpa using other
    obtain ⟨mismatch, overrides⟩ := overrides_groups member bad
    refine ⟨mismatch, fun writer => ?_⟩
    simp only [switchTable, if_neg many]
    exact overrides _

/-- What can become of a step: it appends, it stops for text, or it is refused for a mismatch. -/
inductive Ends (step : Writer → Writer) : Except WriteError (List UInt8) → Prop where
  | appended {data : List UInt8} (appends : Appends step data) : Ends step (.ok data)
  | stopped {error : WriteError} (stops : Stops step error) (apart : error.isMismatch = false) :
      Ends step (.error error)
  | refused {mismatch : ShapeMismatch} (overrides : Overrides step (.shape mismatch)) :
      Ends step (.error (.shape mismatch))

theorem isMismatch_of_encodeText {value : String} {error : WriteError} (refused : encodeText value = .error error) :
    error.isMismatch = false := by
  unfold encodeText at refused
  split at refused
  next =>
    cases refused
    rfl
  next =>
    cases encoded : CodePage.encode value with
    | ok raw =>
      rw [encoded] at refused
      cases refused
    | error fault =>
      rw [encoded] at refused
      cases refused
      rfl

theorem exists_ends_operand (desc : Descriptor) (value : Operand) : ∃ outcome, Ends (operand desc value) outcome := by
  unfold operand
  cases desc.shape with
  | none => exact ⟨_, .appended Appends.nothing⟩
  | int | slot _ => exact ⟨_, .appended (appends_i32 value.toInt)⟩
  | string =>
    cases encoded : encodeText value.toText with
    | ok body => exact ⟨_, .appended (appends_text encoded)⟩
    | error error => exact ⟨_, .stopped (stops_text encoded) (isMismatch_of_encodeText encoded)⟩
  | byte => exact ⟨_, .appended (appends_byte value.toByte)⟩
  | switch =>
    cases value.switch? with
    | none => exact ⟨_, .refused fun _ => rfl⟩
    | some table =>
      by_cases named : 0 ≤ table.index
      · simp only [if_pos named]
        exact ⟨_, .appended (appends_i32 table.index)⟩
      · simp only [if_neg named]
        by_cases countable : CaseGroup.AreCountable table.groups
        · exact ⟨_, .appended (appends_switchTable countable)⟩
        · obtain ⟨mismatch, overrides⟩ := overrides_switchTable countable
          exact ⟨_, .refused overrides⟩
  | unknown =>
    by_cases width : value.toRaw.length = desc.op.assumedWidth
    · simp only [if_pos width]
      exact ⟨_, .appended (appends_bytes value.toRaw)⟩
    · simp only [if_neg width]
      exact ⟨_, .refused fun _ => rfl⟩

theorem Ends.after {first second : Writer → Writer} {front : List UInt8} {outcome : Except WriteError (List UInt8)}
    (start : Appends first front) (ends : Ends second outcome) :
    Ends (fun writer => second (first writer)) (outcome.map (front ++ ·)) := by
  cases ends with
  | appended appends => exact .appended (start.andThen appends)
  | stopped stops apart => exact .stopped (start.andThen_stops stops) apart
  | refused overrides => exact .refused fun writer => overrides (first writer)

theorem exists_ends_instruction (inst : Instruction) : ∃ outcome, Ends (instruction inst) outcome := by
  obtain ⟨outcome, ends⟩ := exists_ends_operand inst.desc inst.operand
  have start : Appends (opcode inst.op) _ := appends_u16 _
  have whole := Ends.after start ends
  exact ⟨_, whole⟩

end Writer

theorem encode_singleton {inst : Instruction} {outcome : Except WriteError (List UInt8)}
    (ends : Writer.Ends (Writer.instruction inst) outcome) : encode [inst] = outcome := by
  cases ends with
  | appended appends => exact encode_of_appends appends
  | stopped stops apart =>
    simp only [encode, List.foldl_cons, List.foldl_nil, stops.failure _ Writer.isOpen_buffer, Option.elim_some]
  | refused overrides =>
    simp only [encode, List.foldl_cons, List.foldl_nil, overrides Writer.buffer, Option.elim_some]

namespace Instruction

def fault (inst : Instruction) : Option WriteError :=
  match encode [inst] with
  | .ok _ => none
  | .error error => some error

def mismatch (inst : Instruction) : Option WriteError :=
  inst.fault.filter WriteError.isMismatch

theorem fault_eq_some_iff (inst : Instruction) (error : WriteError) :
    inst.fault = some error ↔ encode [inst] = .error error := by
  unfold fault
  cases encode [inst] <;> simp

end Instruction

namespace Writer

/-- After some instructions the last mismatch of them stands, else what failed before, else their first failure. -/
theorem failure_instructions (insts : List Instruction) (writer : Writer)
    (ready : writer.IsOpen ∨ writer.failure.isSome) :
    (writer.instructions insts).failure =
      (insts.reverse.findSome? Instruction.mismatch).or (writer.failure.or (insts.findSome? Instruction.fault)) := by
  induction insts generalizing writer with
  | nil => simp [instructions]
  | cons inst rest ih =>
    obtain ⟨outcome, ends⟩ := exists_ends_instruction inst
    have step : writer.instructions (inst :: rest) = (writer.instruction inst).instructions rest := rfl
    rw [step, List.reverse_cons, List.findSome?_append, List.findSome?_singleton, List.findSome?_cons,
      Instruction.mismatch, Instruction.fault, encode_singleton ends]
    cases ends with
    | appended appends =>
      rcases ready with opened | broken
      · have after := appends.isOpen writer opened
        rw [ih _ (.inl after), after.failure, opened.failure]
        simp
      · rw [appends.failed writer broken, ih writer (.inr broken)]
        simp
    | stopped stops apart =>
      rcases ready with opened | broken
      · have after := stops.failure writer opened
        rw [ih _ (.inr (by rw [after]; rfl)), after, opened.failure]
        simp [Option.filter_some, apart]
      · obtain ⟨earlier, failure⟩ := Option.isSome_iff_exists.1 broken
        rw [stops.failed writer broken, ih writer (.inr broken), failure]
        simp [Option.filter_some, apart]
    | refused overrides =>
      rw [ih _ (.inr (by rw [overrides]; rfl)), overrides]
      simp [Option.filter_some, WriteError.isMismatch]

theorem appends_of_encode {inst : Instruction} {part : List UInt8} (encoded : encode [inst] = .ok part) :
    Appends (instruction inst) part := by
  obtain ⟨outcome, ends⟩ := exists_ends_instruction inst
  rw [encode_singleton ends] at encoded
  subst encoded
  cases ends with
  | appended appends => exact appends

theorem appends_parts {insts : List Instruction} {parts : List (List UInt8)}
    (encoded : List.Forall₂ (fun inst part => encode [inst] = .ok part) insts parts) :
    Appends (instructions insts) parts.flatten := by
  induction encoded with
  | nil => exact Appends.nothing
  | cons head tail ih => exact appends_cons (appends_of_encode head) ih

end Writer

theorem encode_eq_error_iff (insts : List Instruction) (error : WriteError) :
    encode insts = .error error ↔
      (insts.reverse.findSome? Instruction.mismatch).or (insts.findSome? Instruction.fault) = some error := by
  have failure := Writer.failure_instructions insts Writer.buffer (.inl Writer.isOpen_buffer)
  rw [Writer.isOpen_buffer.failure, Option.none_or] at failure
  have outcome : encode insts = (Writer.buffer.instructions insts).failure.elim
      (.ok (Writer.buffer.instructions insts).content) .error := rfl
  rw [← failure, outcome]
  cases (Writer.buffer.instructions insts).failure <;> simp

theorem exists_encode_error {insts : List Instruction} {inst : Instruction} {error : WriteError} (member : inst ∈ insts)
    (failed : encode [inst] = .error error) : ∃ reported, encode insts = .error reported := by
  have found : (insts.findSome? Instruction.fault).isSome :=
    List.findSome?_isSome_iff.2 ⟨inst, member, by rw [(inst.fault_eq_some_iff error).2 failed]; rfl⟩
  have reported : ((insts.reverse.findSome? Instruction.mismatch).or (insts.findSome? Instruction.fault)).isSome := by
    rw [Option.isSome_or, found, Bool.or_true]
  obtain ⟨last, same⟩ := Option.isSome_iff_exists.1 reported
  exact ⟨last, (encode_eq_error_iff insts last).2 same⟩

theorem encode_eq_ok_iff (insts : List Instruction) (code : List UInt8) :
    encode insts = .ok code ↔
      ∃ parts, List.Forall₂ (fun inst part => encode [inst] = .ok part) insts parts ∧ code = parts.flatten := by
  constructor
  · intro encoded
    have each : ∀ inst ∈ insts, ∃ part, encode [inst] = .ok part := by
      intro inst member
      cases single : encode [inst] with
      | ok part => exact ⟨part, rfl⟩
      | error error =>
        obtain ⟨reported, failed⟩ := exists_encode_error member single
        rw [encoded] at failed
        cases failed
    obtain ⟨parts, written⟩ := exists_forall₂ each
    refine ⟨parts, written, ?_⟩
    rw [encode_of_appends (Writer.appends_parts written)] at encoded
    exact (Except.ok.inj encoded).symm
  · intro parts
    rcases parts with ⟨parts, written, rfl⟩
    exact encode_of_appends (Writer.appends_parts written)

/-- Instructions are written one after the other if each of them can be written alone. Otherwise the error is that of
the last one whose operand does not fit its operation, and of the first one that fails if there is none such. So it is
the first error of all exactly if no other mismatch comes last. -/
theorem encode_reports_last_mismatch (insts : List Instruction) :
    ((∃ error, encode insts = .error error) ↔ ∃ inst ∈ insts, ∃ error, encode [inst] = .error error) ∧
      (∀ code, encode insts = .ok code ↔
        ∃ parts, List.Forall₂ (fun inst part => encode [inst] = .ok part) insts parts ∧ code = parts.flatten) ∧
      (∀ error, encode insts = .error error ↔
        (insts.reverse.findSome? Instruction.mismatch).or (insts.findSome? Instruction.fault) = some error) ∧
      (∀ first, insts.findSome? Instruction.fault = some first →
        (encode insts = .error first ↔ ∀ last ∈ insts.reverse.findSome? Instruction.mismatch, last = first)) := by
  refine ⟨?_, encode_eq_ok_iff insts, encode_eq_error_iff insts, ?_⟩
  · constructor
    · intro parts
      rcases parts with ⟨error, failed⟩
      rcases Option.or_eq_some_iff.1 ((encode_eq_error_iff insts error).1 failed) with last | ⟨-, first⟩
      · obtain ⟨inst, member, mismatch⟩ := List.exists_of_findSome?_eq_some last
        have fault := (Option.filter_eq_some_iff.1 mismatch).1
        exact ⟨inst, List.mem_reverse.1 member, error, (inst.fault_eq_some_iff error).1 fault⟩
      · obtain ⟨inst, member, fault⟩ := List.exists_of_findSome?_eq_some first
        exact ⟨inst, member, error, (inst.fault_eq_some_iff error).1 fault⟩
    · intro parts
      rcases parts with ⟨inst, member, error, failed⟩
      exact exists_encode_error member failed
  · intro first found
    rw [encode_eq_error_iff, found]
    cases insts.reverse.findSome? Instruction.mismatch <;> simp

/-- Two texts that cannot be encoded: the error is that of the first one. With a switch without its table between them
it is that of the switch. -/
theorem encode_reports_last_mismatch_between :
    encode [⟨0, 0, Registry.standard.lookup .pushConstantString, .text "世", 0, .unknown, .unknown, none⟩,
        ⟨0, 0, Registry.standard.lookup .pushConstantString, .text "\x00", 0, .unknown, .unknown, none⟩] =
      .error (.unencodable ⟨'世', 0⟩) ∧
    encode [⟨0, 0, Registry.standard.lookup .pushConstantString, .text "世", 0, .unknown, .unknown, none⟩,
        ⟨0, 0, Registry.standard.lookup .switch, .none, 0, .unknown, .unknown, none⟩,
        ⟨0, 0, Registry.standard.lookup .pushConstantString, .text "\x00", 0, .unknown, .unknown, none⟩] ≠
      .error (.unencodable ⟨'世', 0⟩) := by
  constructor
  · refine ((encode_reports_last_mismatch _).2.2.2 _ ?_).2 ?_
    · decide +kernel
    · decide +kernel
  · refine mt ((encode_reports_last_mismatch _).2.2.2 _ ?_).1 ?_
    · decide +kernel
    · decide +kernel

/-- A NUL character comes first, but what is reported is that the switch after it has no table. -/
theorem encode_hides_first_failure :
    encode [⟨0, 0, Registry.standard.lookup .pushConstantString, .text "\x00", 0, .unknown, .unknown, none⟩] =
        .error .nulInText ∧
      encode [⟨0, 0, Registry.standard.lookup .pushConstantString, .text "\x00", 0, .unknown, .unknown, none⟩,
          ⟨0, 0, Registry.standard.lookup .switch, .none, 0, .unknown, .unknown, none⟩] =
        .error (.shape .noTable) := by
  decide +kernel

end ClientScript
