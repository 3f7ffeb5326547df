import ClientScript.Bytes.Reader
import ClientScript.Proofs.Reading

/-!
Runs of a reader. A read finds a value where the bytes of one stand next, and then it moves past just these bytes. Where
they do not stand it fails, says whether any byte was left, and does not move. After that nothing is read any more: every
read gives a zero value and leaves the reader as it is.
-/

namespace ClientScript

namespace Read

variable {α β : Type}

/-- The read fails only for want of bytes, and says whether any were left. -/
def FailsAtEnd (read : Read ReadError α) : Prop :=
  ∀ bytes error, read bytes = .error error → error = .ofRest bytes

theorem failsAtEnd_byte : byte.FailsAtEnd := by
  intro bytes error failed
  cases bytes with
  | nil =>
    cases failed
    rfl
  | cons first rest => cases failed

theorem failsAtEnd_u16 : u16.FailsAtEnd := by
  intro bytes error failed
  unfold u16 at failed
  split at failed
  · cases failed
  · cases failed
    rfl

theorem failsAtEnd_u32 : u32.FailsAtEnd := by
  intro bytes error failed
  unfold u32 at failed
  split at failed
  · cases failed
  · cases failed
    rfl

theorem failsAtEnd_bytes (count : Nat) : (bytes count).FailsAtEnd := by
  intro given error failed
  unfold bytes at failed
  dsimp only at failed
  split at failed
  · cases failed
  · cases failed
    rfl

theorem failsAtEnd_text : text.FailsAtEnd := by
  intro given error failed
  unfold text at failed
  dsimp only at failed
  split at failed
  · cases failed
    rfl
  · cases failed

theorem FailsAtEnd.map {read : Read ReadError α} (fails : read.FailsAtEnd) (make : α → β) :
    (read >>= fun value => Pure.pure (make value)).FailsAtEnd := by
  intro bytes error failed
  change Read.bind read _ bytes = _ at failed
  cases outcome : read bytes with
  | ok pair => simp [Read.bind, outcome, Pure.pure, Read.pure] at failed
  | error other =>
    simp only [Read.bind, outcome] at failed
    cases failed
    exact fails bytes error outcome

end Read

namespace Stream

inductive Value where
  | u32 (value : UInt32)
  | i32 (value : Int32)
  | u16 (value : UInt16)
  | i16 (value : Int16)
  | byte (value : UInt8)
  | bytes (data : List UInt8)
  | text (value : String)
deriving DecidableEq, Repr

inductive Field where
  | u32
  | i32
  | u16
  | i16
  | byte
  | bytes (count : Nat)
  | text
deriving DecidableEq, Repr

namespace Field

def read : Field → Reader → Value × Reader
  | .u32, reader => reader.readU32.map .u32 id
  | .i32, reader => reader.readI32.map .i32 id
  | .u16, reader => reader.readU16.map .u16 id
  | .i16, reader => reader.readI16.map .i16 id
  | .byte, reader => reader.readByte.map .byte id
  | .bytes count, reader => (reader.readBytes count).map .bytes id
  | .text, reader => reader.readText.map .text id

def zero : Field → Value
  | .u32 => .u32 0
  | .i32 => .i32 0
  | .u16 => .u16 0
  | .i16 => .i16 0
  | .byte => .byte 0
  | .bytes count => .bytes (List.replicate count 0)
  | .text => .text ""

def parse : Field → Read ReadError Value
  | .u32 => do return .u32 (← Read.u32)
  | .i32 => do return .i32 (← Read.i32)
  | .u16 => do return .u16 (← Read.u16)
  | .i16 => do return .i16 (← Read.i16)
  | .byte => do return .byte (← Read.byte)
  | .bytes count => do return .bytes (← Read.bytes count)
  | .text => do return .text (← Read.text)

end Field

def readAll : List Field → Reader → List Value × Reader
  | [], reader => ([], reader)
  | field :: rest, reader =>
    let (value, next) := field.read reader
    let (values, last) := readAll rest next
    (value :: values, last)

end Stream

namespace Reader

variable {α β : Type}

theorem read_of_failed {reader : Reader} (broken : reader.failure.isSome) (zero : α) (read : Read ReadError α) :
    reader.read zero read = (zero, reader) := by
  obtain ⟨error, failure⟩ := Option.isSome_iff_exists.1 broken
  simp only [Reader.read, failure]

theorem read_of_ok {reader : Reader} {read : Read ReadError α} {value : α} {used : Nat} (sound : reader.failure = none)
    (success : read (reader.data.drop reader.position) = .ok (value, used)) (zero : α) :
    reader.read zero read = (value, { reader with position := reader.position + used }) := by
  simp only [Reader.read, sound, success]

theorem read_of_error {reader : Reader} {read : Read ReadError α} {error : ReadError} (sound : reader.failure = none)
    (failed : read (reader.data.drop reader.position) = .error error) (zero : α) :
    reader.read zero read = (zero, { reader with failure := some error }) := by
  simp only [Reader.read, sound, failed]

theorem read_map (make : α → β) (zero : α) (read : Read ReadError α) (reader : Reader) :
    (reader.read zero read).map make id = reader.read (make zero) (read >>= fun value => Pure.pure (make value)) := by
  change _ = reader.read (make zero) (Read.bind read _)
  unfold Reader.read
  cases reader.failure with
  | some error => rfl
  | none =>
    cases outcome : read (reader.data.drop reader.position) with
    | error error => simp only [Read.bind, outcome]; rfl
    | ok pair => simp only [Read.bind, outcome]; rfl

end Reader

namespace Stream

theorem Field.read_eq (field : Field) (reader : Reader) : field.read reader = reader.read field.zero field.parse := by
  cases field with
  | u32 => exact Reader.read_map Value.u32 0 Read.u32 reader
  | i32 => exact Reader.read_map Value.i32 0 Read.i32 reader
  | u16 => exact Reader.read_map Value.u16 0 Read.u16 reader
  | i16 => exact Reader.read_map Value.i16 0 Read.i16 reader
  | byte => exact Reader.read_map Value.byte 0 Read.byte reader
  | bytes count => exact Reader.read_map Value.bytes (List.replicate count 0) (Read.bytes count) reader
  | text => exact Reader.read_map Value.text "" Read.text reader

theorem Field.parse_failsAtEnd (field : Field) : field.parse.FailsAtEnd := by
  cases field with
  | u32 => exact Read.failsAtEnd_u32.map Value.u32
  | i32 => exact (Read.failsAtEnd_u32.map UInt32.toInt32).map Value.i32
  | u16 => exact Read.failsAtEnd_u16.map Value.u16
  | i16 => exact (Read.failsAtEnd_u16.map UInt16.toInt16).map Value.i16
  | byte => exact Read.failsAtEnd_byte.map Value.byte
  | bytes count => exact (Read.failsAtEnd_bytes count).map Value.bytes
  | text => exact Read.failsAtEnd_text.map Value.text

def Field.Holds (field : Field) (value : Value) (raw : List UInt8) : Prop :=
  match field with
  | .u32 => ∃ number, value = .u32 number ∧ raw = longBytes number
  | .i32 => ∃ number, value = .i32 number ∧ raw = longBytes number.toUInt32
  | .u16 => ∃ number, value = .u16 number ∧ raw = wordBytes number
  | .i16 => ∃ number, value = .i16 number ∧ raw = wordBytes number.toUInt16
  | .byte => ∃ number, value = .byte number ∧ raw = [number]
  | .bytes count => ∃ data, value = .bytes data ∧ data.length = count ∧ raw = data
  | .text => ∃ content, value = .text content ∧ ∃ body, Writer.encodeText content = .ok body ∧ raw = body ++ [0]

theorem Field.parse_accepts (field : Field) : field.parse.Accepts field.Holds := by
  cases field with
  | u32 => exact Read.accepts_u32.map Value.u32
  | i32 => exact Read.accepts_i32.map Value.i32
  | u16 => exact Read.accepts_u16.map Value.u16
  | i16 => exact Read.accepts_i16.map Value.i16
  | byte => exact Read.accepts_byte.map Value.byte
  | bytes count => exact (Read.accepts_bytes count).map Value.bytes
  | text => exact Read.accepts_text.map Value.text

/-- What a read can come to. -/
inductive Reads (field : Field) (reader : Reader) : Value × Reader → Prop where
  /-- Something has failed before. -/
  | idle (broken : reader.failure.isSome) : Reads field reader (field.zero, reader)
  /-- The bytes of a value stand next. -/
  | found {value : Value} {raw : List UInt8} (sound : reader.failure = none) (held : field.Holds value raw)
      (next : raw <+: reader.data.drop reader.position) :
      Reads field reader (value, { reader with position := reader.position + raw.length })
  /-- The bytes of no value do. -/
  | missing (sound : reader.failure = none)
      (absent : ∀ value raw, field.Holds value raw → ¬raw <+: reader.data.drop reader.position) :
      Reads field reader (field.zero, { reader with failure := some (.ofRest (reader.data.drop reader.position)) })

theorem Field.reads (field : Field) (reader : Reader) : Reads field reader (field.read reader) := by
  rw [field.read_eq]
  cases failure : reader.failure with
  | some error =>
    have broken := Option.isSome_of_eq_some failure
    rw [Reader.read_of_failed broken]
    exact .idle broken
  | none =>
    cases outcome : field.parse (reader.data.drop reader.position) with
    | ok pair =>
      obtain ⟨value, used⟩ := pair
      rw [Reader.read_of_ok failure outcome]
      obtain ⟨raw, rest, split, rfl, held⟩ := (field.parse_accepts _ _ _).1 outcome
      exact .found failure held ⟨rest, split.symm⟩
    | error error =>
      rw [Reader.read_of_error failure outcome, field.parse_failsAtEnd _ _ outcome]
      refine .missing failure fun value raw held begins => ?_
      obtain ⟨rest, split⟩ := begins
      have success := field.parse_accepts.complete held rest
      rw [split, outcome] at success
      cases success

theorem readAll_cons (field : Field) (rest : List Field) (reader : Reader) :
    readAll (field :: rest) reader =
      ((field.read reader).1 :: (readAll rest (field.read reader).2).1, (readAll rest (field.read reader).2).2) := rfl

structure IsWithin (bytes : List UInt8) (reader : Reader) : Prop where
  data : reader.data = bytes
  position : reader.position ≤ bytes.length

theorem IsWithin.read {bytes : List UInt8} {reader : Reader} (within : IsWithin bytes reader) (field : Field) :
    IsWithin bytes (field.read reader).2 := by
  have reads := field.reads reader
  generalize field.read reader = outcome at reads ⊢
  cases reads with
  | idle broken => exact within
  | missing sound absent => exact ⟨within.data, within.position⟩
  | found sound held next =>
    have fits := next.length_le
    rw [List.length_drop, within.data] at fits
    have start := within.position
    refine ⟨within.data, ?_⟩
    dsimp only
    omega

theorem IsWithin.readAll {bytes : List UInt8} {reader : Reader} (within : IsWithin bytes reader) (fields : List Field) :
    IsWithin bytes (readAll fields reader).2 := by
  induction fields generalizing reader with
  | nil => exact within
  | cons field rest ih =>
    rw [readAll_cons]
    exact ih (within.read field)

theorem readAll_of_failed {reader : Reader} (broken : reader.failure.isSome) (fields : List Field) :
    readAll fields reader = (fields.map Field.zero, reader) := by
  induction fields with
  | nil => rfl
  | cons field rest ih =>
    have same : field.read reader = (field.zero, reader) := by
      rw [field.read_eq, Reader.read_of_failed broken]
    rw [readAll_cons, same, ih, List.map_cons]

theorem message_ofRest (reader : Reader) :
    (ReadError.ofRest (reader.data.drop reader.position)).message =
      if reader.left = 0 then "EOF" else "unexpected EOF" := by
  have empty : (reader.data.drop reader.position).isEmpty ↔ reader.left = 0 := by
    rw [List.isEmpty_iff, List.drop_eq_nil_iff, Reader.left, Nat.sub_eq_zero_iff_le]
  unfold ReadError.ofRest
  by_cases none : reader.left = 0
  · rw [if_pos (empty.2 none), if_pos none, ReadError.message]
  · rw [if_neg (mt empty.1 none), if_neg none, ReadError.message]

/-- Reads from the start of some bytes never leave them. A read succeeds just if the bytes of a value that it asks for
stand next, and then it gives that value and moves past these bytes. If it fails it gives a zero value, does not move,
and says whether any byte was left. From then on all reads give zero values and change nothing. -/
theorem reads_disciplined (bytes : List UInt8) (fields : List Field) (field : Field) :
    let reader := (readAll fields { data := bytes }).2
    let value := (field.read reader).1
    let next := (field.read reader).2
    reader.position ≤ bytes.length ∧ next.position ≤ bytes.length ∧
      (reader.failure = none → (next.failure = none ↔
        ∃ value raw, field.Holds value raw ∧ raw <+: bytes.drop reader.position)) ∧
      (next.failure = none → ∃ raw, field.Holds value raw ∧ raw <+: bytes.drop reader.position ∧
        next.position = reader.position + raw.length) ∧
      (reader.failure = none → next.failure ≠ none → value = field.zero ∧ next.position = reader.position ∧
        next.failure.map ReadError.message = some (if reader.left = 0 then "EOF" else "unexpected EOF")) ∧
      (reader.failure ≠ none → ∀ later, readAll later reader = (later.map Field.zero, reader)) := by
  intro reader value next
  have start : IsWithin bytes { data := bytes } := ⟨rfl, Nat.zero_le _⟩
  have within : IsWithin bytes reader := start.readAll fields
  have nextWithin : IsWithin bytes next := within.read field
  have reads : Reads field reader (value, next) := field.reads reader
  clear_value value next reader
  refine ⟨within.position, nextWithin.position, ?_⟩
  rw [← within.data]
  cases reads with
  | idle broken =>
    have failed : reader.failure ≠ none := Option.isSome_iff_ne_none.1 broken
    exact ⟨fun sound => absurd sound failed, fun sound => absurd sound failed, fun sound => absurd sound failed,
      fun _ later => readAll_of_failed broken later⟩
  | found sound held ahead =>
    exact ⟨fun _ => iff_of_true sound ⟨value, _, held, ahead⟩, fun _ => ⟨_, held, ahead, rfl⟩,
      fun _ failed => absurd sound failed, fun failed => absurd sound failed⟩
  | missing sound absent =>
    refine ⟨fun _ => iff_of_false (Option.some_ne_none _) ?_, fun still => absurd still (Option.some_ne_none _),
      fun _ _ => ⟨rfl, rfl, congrArg some (message_ofRest reader)⟩, fun failed => absurd sound failed⟩
    intro parts
    rcases parts with ⟨other, raw, held, ahead⟩
    exact absent other raw held ahead

/-- Of three bytes a word is read. What is left is too short for another one, and after that nothing is read. -/
theorem reads_disciplined_short :
    (Field.u16.read (readAll [.u16] { data := [1, 2, 3] }).2).2.failure.map ReadError.message =
        some "unexpected EOF" ∧
      readAll [.byte, .text] (readAll [.u16, .u16] { data := [1, 2, 3] }).2 =
        ([.byte 0, .text ""], { data := [1, 2, 3], position := 2, failure := some .cutShort }) :=
  ⟨((reads_disciplined [1, 2, 3] [.u16] .u16).2.2.2.2.1 rfl (by decide)).2.2,
    (reads_disciplined [1, 2, 3] [.u16, .u16] .byte).2.2.2.2.2 (by decide) [.byte, .text]⟩

end Stream

end ClientScript
