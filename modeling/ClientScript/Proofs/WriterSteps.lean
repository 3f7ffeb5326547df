import ClientScript.Proofs.SwitchTables

/-!
Steps of a writer. Every step is made of bytes to write and of failures to record, so a property of these that is kept
where steps are put together holds of every step; one is that nothing is added once something has failed. A step has
a code, which it appends to a writer to memory, or it fails there.
-/

namespace ClientScript

def Opcode.stored (op : Opcode) : List UInt8 :=
  wordBytes (UInt16.ofNat (op.code % 65536).toNat)

namespace Writer

inductive Step where
  | u32 (value : UInt32)
  | i32 (value : Int32)
  | u16 (value : UInt16)
  | i16 (value : Int16)
  | byte (value : UInt8)
  | bytes (data : List UInt8)
  | text (value : String)
  | rawInstruction (op : Opcode) (operand : List UInt8)
  | plainInstruction (op : Opcode)
  | intInstruction (op : Opcode) (value : Int32)
  | byteInstruction (op : Opcode) (value : UInt8)
  | stringInstruction (value : String)
  | jump (op : Opcode) (disp : Int32)
  | switchInstruction (table : List CaseGroup)
  | indexedSwitch (index : Int32)
  | instruction (inst : Instruction)

namespace Step

def run : Step → Writer → Writer
  | .u32 value => Writer.u32 value
  | .i32 value => Writer.i32 value
  | .u16 value => Writer.u16 value
  | .i16 value => Writer.i16 value
  | .byte value => Writer.byte value
  | .bytes data => Writer.bytes data
  | .text value => Writer.text value
  | .rawInstruction op operand => Writer.rawInstruction op operand
  | .plainInstruction op => Writer.plainInstruction op
  | .intInstruction op value => Writer.intInstruction op value
  | .byteInstruction op value => Writer.byteInstruction op value
  | .stringInstruction value => Writer.stringInstruction value
  | .jump op disp => Writer.jump op disp
  | .switchInstruction table => Writer.switchInstruction table
  | .indexedSwitch index => Writer.indexedSwitch index
  | .instruction inst => Writer.instruction inst

def textCode (value : String) : Option (List UInt8) :=
  (encodeText value).toOption.map (· ++ [0])

theorem textCode_eq_some_iff (value : String) (raw : List UInt8) :
    textCode value = some raw ↔ ∃ body, encodeText value = .ok body ∧ raw = body ++ [0] := by
  unfold textCode
  cases encodeText value with
  | ok body => simp [Except.toOption, eq_comm]
  | error error => simp [Except.toOption]

def zeroOperand (desc : Descriptor) : List UInt8 :=
  match desc.shape with
  | .none => []
  | .string => [0]
  | .switch => [0, 0]
  | .int | .slot _ | .byte | .unknown => List.replicate (desc.width.getD 0) 0

def code : Step → Option (List UInt8)
  | .u32 value => some (longBytes value)
  | .i32 value => some (longBytes value.toUInt32)
  | .u16 value => some (wordBytes value)
  | .i16 value => some (wordBytes value.toUInt16)
  | .byte value => some [value]
  | .bytes data => some data
  | .text value => textCode value
  | .rawInstruction op operand => some (op.stored ++ operand)
  | .plainInstruction op => some (op.stored ++ zeroOperand (Registry.standard.lookup op))
  | .intInstruction op value => some (op.stored ++ longBytes value.toUInt32)
  | .byteInstruction op value => some (op.stored ++ [value])
  | .stringInstruction value => (textCode value).map (Opcode.pushConstantString.stored ++ ·)
  | .jump op disp =>
    if (Registry.standard.lookup op).flow = .condBranch ∨ op = .branch then some (op.stored ++ longBytes disp.toUInt32)
    else none
  | .switchInstruction table => if CaseGroup.AreCountable table then some (CaseGroup.switchCode table) else none
  | .indexedSwitch index => some (Opcode.switch.stored ++ longBytes index.toUInt32)
  | .instruction inst => (encode [inst]).toOption

end Step

def perform (steps : List Step) (writer : Writer) : Writer :=
  steps.foldl (fun writer step => step.run writer) writer

theorem jump_eq (op : Opcode) (disp : Int32) :
    jump op disp = if (Registry.standard.lookup op).flow = .condBranch ∨ op = .branch then intInstruction op disp
      else reject (.shape (.notBranch op)) := by
  funext writer
  unfold jump
  split <;> rfl

theorem switchTable_eq (table : List CaseGroup) :
    switchTable table = if 65535 < table.length then reject (.shape (.groupCount table.length))
      else fun writer => (writer.u16 (UInt16.ofNat table.length)).groups table := by
  funext writer
  unfold switchTable
  split <;> rfl

/-- A property of the parts that steps are made of, which is kept where steps are put together. -/
structure Pervades (holds : (Writer → Writer) → Prop) : Prop where
  nothing : holds fun writer => writer
  bytes : ∀ data : List UInt8, holds (bytes data)
  reject : ∀ error : WriteError, holds (reject error)
  stop : ∀ error : WriteError, holds (stop error)
  andThen : ∀ {first second : Writer → Writer}, holds first → holds second → holds fun writer => second (first writer)

namespace Pervades

variable {holds : (Writer → Writer) → Prop}

theorem opcode (pervades : Pervades holds) (op : Opcode) {rest : Writer → Writer} (later : holds rest) :
    holds fun writer => rest (writer.opcode op) :=
  pervades.andThen (pervades.bytes op.stored) later

theorem text (pervades : Pervades holds) (value : String) : holds (text value) := by
  cases encoded : encodeText value with
  | ok body =>
    rw [text_of_ok encoded]
    exact pervades.andThen (pervades.bytes body) (pervades.bytes [0])
  | error error =>
    rw [text_of_error encoded]
    exact pervades.stop error

theorem foldl (pervades : Pervades holds) {α : Type} {step : Writer → α → Writer} {items : List α}
    (each : ∀ item ∈ items, holds fun writer => step writer item) : holds fun writer => items.foldl step writer := by
  induction items with
  | nil => exact pervades.nothing
  | cons item rest ih =>
    obtain ⟨first, later⟩ := List.forall_mem_cons.1 each
    exact pervades.andThen first (ih later)

theorem terms (pervades : Pervades holds) (more : List Term) : holds fun writer => writer.terms more :=
  pervades.foldl fun term _ => pervades.andThen (pervades.bytes (wordBytes term.join.code.toUInt16))
    (pervades.bytes (longBytes term.label.toUInt32))

theorem groups (pervades : Pervades holds) (table : List CaseGroup) : holds fun writer => writer.groups table := by
  induction table with
  | nil => exact pervades.nothing
  | cons group rest ih =>
    obtain ⟨terms, disp⟩ := group
    cases terms with
    | nil => exact pervades.reject _
    | cons first more =>
      by_cases many : 255 < (first :: more).length
      · simp only [Writer.groups, if_pos many]
        exact pervades.reject _
      · simp only [Writer.groups, if_neg many]
        have count := pervades.bytes [UInt8.ofNat (first :: more).length]
        have label := pervades.andThen count (pervades.bytes (longBytes first.label.toUInt32))
        have whole := pervades.andThen (pervades.andThen label (pervades.terms more))
          (pervades.bytes (longBytes disp.toUInt32))
        exact pervades.andThen whole ih

theorem switchTable (pervades : Pervades holds) (table : List CaseGroup) : holds (switchTable table) := by
  rw [switchTable_eq]
  split
  · exact pervades.reject _
  · exact pervades.andThen (pervades.bytes _) (pervades.groups table)

theorem operand (pervades : Pervades holds) (desc : Descriptor) (value : Operand) : holds (operand desc value) := by
  unfold Writer.operand
  cases desc.shape with
  | none => exact pervades.nothing
  | int | slot _ => exact pervades.bytes _
  | string => exact pervades.text _
  | byte => exact pervades.bytes _
  | switch =>
    cases value.switch? with
    | none => exact pervades.reject _
    | some table =>
      by_cases named : 0 ≤ table.index
      · simp only [if_pos named]
        exact pervades.bytes _
      · simp only [if_neg named]
        exact pervades.switchTable _
  | unknown =>
    by_cases width : value.toRaw.length = desc.op.assumedWidth
    · simp only [if_pos width]
      exact pervades.bytes _
    · simp only [if_neg width]
      exact pervades.reject _

theorem plainInstruction (pervades : Pervades holds) (op : Opcode) : holds (plainInstruction op) := by
  unfold Writer.plainInstruction
  dsimp only
  cases (Registry.standard.lookup op).shape with
  | none => exact pervades.bytes op.stored
  | string => exact pervades.opcode op (pervades.text "")
  | switch | int | slot _ | byte | unknown => exact pervades.opcode op (pervades.bytes _)

theorem jump (pervades : Pervades holds) (op : Opcode) (disp : Int32) : holds (jump op disp) := by
  rw [jump_eq]
  split
  · exact pervades.opcode op (pervades.bytes _)
  · exact pervades.reject _

theorem step (pervades : Pervades holds) (step : Step) : holds step.run := by
  cases step with
  | u32 | i32 | u16 | i16 | byte | bytes => exact pervades.bytes _
  | text value => exact pervades.text value
  | rawInstruction op | intInstruction op | byteInstruction op =>
    exact pervades.opcode op (pervades.bytes _)
  | plainInstruction op => exact pervades.plainInstruction op
  | stringInstruction value => exact pervades.opcode _ (pervades.text value)
  | jump op disp => exact pervades.jump op disp
  | switchInstruction table => exact pervades.opcode _ (pervades.switchTable table)
  | indexedSwitch index => exact pervades.opcode _ (pervades.bytes _)
  | instruction inst => exact pervades.opcode _ (pervades.operand inst.desc inst.operand)

end Pervades

theorem appends_stored (op : Opcode) : Appends (opcode op) op.stored := appends_u16 _

theorem exists_ends_text (value : String) :
    ∃ outcome, Ends (text value) outcome ∧ outcome.toOption = Step.textCode value := by
  unfold Step.textCode
  cases encoded : encodeText value with
  | ok body => exact ⟨.ok (body ++ [0]), .appended (appends_text encoded), rfl⟩
  | error error => exact ⟨.error error, .stopped (stops_text encoded) (isMismatch_of_encodeText encoded), rfl⟩

theorem appends_plainInstruction (op : Opcode) :
    Appends (plainInstruction op) (op.stored ++ Step.zeroOperand (Registry.standard.lookup op)) := by
  have start := appends_stored op
  unfold plainInstruction Step.zeroOperand
  dsimp only
  cases (Registry.standard.lookup op).shape with
  | none => simpa only [List.append_nil] using start
  | string =>
    have closed : Appends (text "") [0] := appends_text (show encodeText "" = .ok [] from rfl)
    exact start.andThen closed
  | switch => exact start.andThen (appends_u16 0)
  | int | slot _ | byte | unknown => exact start.andThen (appends_bytes _)

theorem Step.exists_ends (step : Step) : ∃ outcome, Ends step.run outcome ∧ outcome.toOption = step.code := by
  cases step with
  | u32 | i32 | u16 | i16 | byte | bytes => exact ⟨.ok _, .appended (appends_bytes _), rfl⟩
  | text value => exact exists_ends_text value
  | rawInstruction op | intInstruction op | byteInstruction op | indexedSwitch =>
    exact ⟨.ok _, .appended ((appends_stored _).andThen (appends_bytes _)), rfl⟩
  | plainInstruction op => exact ⟨.ok _, .appended (appends_plainInstruction op), rfl⟩
  | stringInstruction value =>
    obtain ⟨outcome, ends, same⟩ := exists_ends_text value
    have whole := Ends.after (appends_stored .pushConstantString) ends
    refine ⟨_, whole, ?_⟩
    rw [code, ← same]
    cases outcome <;> rfl
  | jump op disp =>
    simp only [run, code, jump_eq]
    split
    · exact ⟨.ok _, .appended ((appends_stored op).andThen (appends_i32 disp)), rfl⟩
    · exact ⟨.error _, .refused fun _ => rfl, rfl⟩
  | switchInstruction table =>
    by_cases countable : CaseGroup.AreCountable table
    · exact ⟨.ok _, .appended (appends_switchInstruction countable), (if_pos countable).symm⟩
    · obtain ⟨mismatch, overrides⟩ := overrides_switchTable countable
      exact ⟨.error _, .refused fun writer => overrides (writer.opcode .switch), (if_neg countable).symm⟩
  | instruction inst =>
    obtain ⟨outcome, ends⟩ := exists_ends_instruction inst
    exact ⟨outcome, ends, by rw [code, encode_singleton ends]⟩

theorem Step.appends_of_code {step : Step} {data : List UInt8} (written : step.code = some data) :
    Appends step.run data := by
  obtain ⟨outcome, ends, same⟩ := step.exists_ends
  rw [written] at same
  cases ends with
  | appended appends =>
    cases same
    exact appends
  | stopped | refused => cases same

theorem appends_perform {steps : List Step} {parts : List (List UInt8)}
    (written : List.Forall₂ (fun step part => step.code = some part) steps parts) :
    Appends (perform steps) parts.flatten := by
  induction written with
  | nil => exact Appends.nothing
  | cons head _ ih => exact (Step.appends_of_code head).andThen ih

/-- Once something has failed the step adds nothing, and the failure stays one. -/
def Rests (run : Writer → Writer) : Prop :=
  ∀ writer : Writer, writer.failure.isSome → (run writer).failure.isSome ∧ (run writer).chunks = writer.chunks

theorem pervades_rests : Pervades Rests where
  nothing writer broken := ⟨broken, rfl⟩
  bytes data writer broken := by
    rw [(appends_bytes data).failed writer broken]
    exact ⟨broken, rfl⟩
  reject error writer broken := ⟨rfl, rfl⟩
  stop error writer broken := by
    rw [(stops_stop error).failed writer broken]
    exact ⟨broken, rfl⟩
  andThen first second writer broken := by
    obtain ⟨still, same⟩ := first writer broken
    obtain ⟨last, alike⟩ := second _ still
    exact ⟨last, alike.trans same⟩

end Writer

end ClientScript
