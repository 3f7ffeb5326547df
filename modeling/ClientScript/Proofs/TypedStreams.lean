import ClientScript.Proofs.ReaderRuns
import ClientScript.Proofs.WriterRuns

/-!
Streams of values of several kinds. Values that can be written are read back in order by the reads that ask for
them, since each read finds the bytes of its value where the read before it has stopped.
-/

namespace ClientScript.Stream

def Value.field : Value → Field
  | .u32 _ => .u32
  | .i32 _ => .i32
  | .u16 _ => .u16
  | .i16 _ => .i16
  | .byte _ => .byte
  | .bytes data => .bytes data.length
  | .text _ => .text

def Value.step : Value → Writer.Step
  | .u32 value => .u32 value
  | .i32 value => .i32 value
  | .u16 value => .u16 value
  | .i16 value => .i16 value
  | .byte value => .byte value
  | .bytes data => .bytes data
  | .text value => .text value

/-- Every value but text can be written. Text is of characters of the code page, the NUL character apart. -/
def Value.IsWritable : Value → Prop
  | .text value => ∀ char ∈ value.toList, char ≠ '\x00' ∧ (CodePage.encodeChar? char).isSome
  | .u32 _ | .i32 _ | .u16 _ | .i16 _ | .byte _ | .bytes _ => True

theorem Value.IsWritable.exists_code {value : Value} (writable : value.IsWritable) :
    ∃ raw, value.step.code = some raw := by
  cases value with
  | text value =>
    obtain ⟨body, encoded⟩ := Writer.exists_encodeText writable
    exact ⟨body ++ [0], (Writer.Step.textCode_eq_some_iff value _).2 ⟨body, encoded, rfl⟩⟩
  | u32 | i32 | u16 | i16 | byte | bytes => exact ⟨_, rfl⟩

theorem Value.holds_of_code {value : Value} {raw : List UInt8} (coded : value.step.code = some raw) :
    value.field.Holds value raw := by
  cases value with
  | u32 | i32 | u16 | i16 | byte => exact ⟨_, rfl, (Option.some.inj coded).symm⟩
  | bytes data => exact ⟨data, rfl, rfl, (Option.some.inj coded).symm⟩
  | text value => exact ⟨value, rfl, (Writer.Step.textCode_eq_some_iff value raw).1 coded⟩

theorem Value.read_field {value : Value} {raw rest : List UInt8} {reader : Reader} (coded : value.step.code = some raw)
    (sound : reader.failure = none) (ahead : reader.data.drop reader.position = raw ++ rest) :
    value.field.read reader = (value, { reader with position := reader.position + raw.length }) := by
  have success := value.field.parse_accepts.complete (Value.holds_of_code coded) rest
  rw [← ahead] at success
  rw [Field.read_eq, Reader.read_of_ok sound success]

theorem readAll_ahead {values : List Value} {parts : List (List UInt8)}
    (coded : List.Forall₂ (fun value part => value.step.code = some part) values parts) {rest : List UInt8}
    {reader : Reader} (sound : reader.failure = none)
    (ahead : reader.data.drop reader.position = parts.flatten ++ rest) :
    readAll (values.map Value.field) reader =
      (values, { reader with position := reader.position + parts.flatten.length }) := by
  induction coded generalizing reader with
  | nil => rfl
  | @cons value part _ parts first later ih =>
    rw [List.flatten_cons, List.append_assoc] at ahead
    -- The next read starts where this one stops, and there the other parts stand.
    have next : reader.data.drop (reader.position + part.length) = parts.flatten ++ rest := by
      rw [← List.drop_drop, ahead, List.drop_left]
    have tail := @ih { reader with position := reader.position + part.length } sound next
    rw [List.map_cons, readAll_cons, Value.read_field first sound ahead, tail, List.flatten_cons, List.length_append,
      Nat.add_assoc]

/-- Values that can be written are written without a failure, and reading what was written gives them back in order,
without a failure and with nothing left. -/
theorem values_read_back (values : List Value) (writable : ∀ value ∈ values, value.IsWritable) :
    (Writer.buffer.perform (values.map Value.step)).failure = none ∧
      ∃ data, (Writer.buffer.perform (values.map Value.step)).take.1 = some data ∧
        readAll (values.map Value.field) { data := data } = (values, { data := data, position := data.length }) ∧
        (readAll (values.map Value.field) { data := data }).2.left = 0 := by
  obtain ⟨parts, coded⟩ := exists_forall₂ fun value member => (writable value member).exists_code
  have written := Writer.appends_perform (List.forall₂_map_left_iff.2 coded)
  obtain ⟨failure, content⟩ := written.fresh
  refine ⟨failure, parts.flatten, ?_, ?_⟩
  · rw [Writer.take_eq_some_iff]
    exact ⟨failure, content.symm⟩
  · have whole : parts.flatten.drop 0 = parts.flatten ++ [] := (List.append_nil _).symm
    have read := @readAll_ahead values parts coded [] { data := parts.flatten } rfl whole
    rw [Nat.zero_add] at read
    exact ⟨read, by rw [read, Reader.left, Nat.sub_self]⟩

/-- Numbers of every width, bytes, text of the upper half of the code page and empty text. -/
theorem values_read_back_mixed :
    ∃ data, (Writer.buffer.perform [.u16 0x1234, .i32 (-2), .i16 (-1), .u32 0xdeadbeef, .byte 0x7f, .bytes [1, 0],
        .text "é€", .text ""]).take.1 = some data ∧
      readAll [.u16, .i32, .i16, .u32, .byte, .bytes 2, .text, .text] { data := data } =
        ([.u16 0x1234, .i32 (-2), .i16 (-1), .u32 0xdeadbeef, .byte 0x7f, .bytes [1, 0], .text "é€", .text ""],
          { data := data, position := data.length }) := by
  have writable : ∀ value ∈ [Value.u16 0x1234, .i32 (-2), .i16 (-1), .u32 0xdeadbeef, .byte 0x7f, .bytes [1, 0],
      .text "é€", .text ""], value.IsWritable := by
    have encodable : (CodePage.encodeChar? 'é').isSome ∧ (CodePage.encodeChar? '€').isSome := by decide
    simpa [Value.IsWritable] using encodable
  obtain ⟨-, data, taken, read, -⟩ := values_read_back _ writable
  exact ⟨data, taken, read⟩

end ClientScript.Stream
