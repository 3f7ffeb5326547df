import ClientScript.Proofs.CodePage

/-!
What steps of a writer add. A step appends bytes if it adds them to every writer to memory on which
nothing has failed, and leaves a writer alone on which something has. Steps one after the other append
their bytes one after the other. A step that appends nothing stops the writer with an error, and it does so
either where nothing has failed before or, in place of an earlier error, on every writer.
-/

namespace ClientScript.Writer

structure IsOpen (writer : Writer) : Prop where
  failure : writer.failure = none
  room : writer.room = none

structure Appends (step : Writer → Writer) (data : List UInt8) : Prop where
  failed : ∀ writer : Writer, writer.failure.isSome → step writer = writer
  isOpen : ∀ writer : Writer, writer.IsOpen → (step writer).IsOpen
  content : ∀ writer : Writer, writer.IsOpen → (step writer).content = writer.content ++ data

/-- The step fails where nothing has failed, and leaves a writer alone on which something has. -/
structure Stops (step : Writer → Writer) (error : WriteError) : Prop where
  failed : ∀ writer : Writer, writer.failure.isSome → step writer = writer
  failure : ∀ writer : Writer, writer.IsOpen → (step writer).failure = some error

/-- The step fails on every writer, and its error takes the place of an earlier one. -/
def Overrides (step : Writer → Writer) (error : WriteError) : Prop :=
  ∀ writer : Writer, (step writer).failure = some error

theorem isOpen_buffer : buffer.IsOpen := ⟨rfl, rfl⟩

namespace Appends

theorem nothing : Appends (fun writer => writer) [] where
  failed _ _ := rfl
  isOpen _ opened := opened
  content writer _ := (List.append_nil writer.content).symm

theorem andThen {first second : Writer → Writer} {front back : List UInt8}
    (start : Appends first front) (finish : Appends second back) :
    Appends (fun writer => second (first writer)) (front ++ back) where
  failed writer broken := by
    rw [start.failed writer broken, finish.failed writer broken]
  isOpen writer opened := finish.isOpen _ (start.isOpen writer opened)
  content writer opened := by
    rw [finish.content _ (start.isOpen writer opened), start.content writer opened, List.append_assoc]

theorem foldl {α : Type} {step : Writer → α → Writer} {form : α → List UInt8} {items : List α}
    (each : ∀ item ∈ items, Appends (fun writer => step writer item) (form item)) :
    Appends (fun writer => items.foldl step writer) (items.flatMap form) := by
  induction items with
  | nil => exact nothing
  | cons item rest ih =>
    have head := each item List.mem_cons_self
    have tail := ih fun other member => each other (List.mem_cons_of_mem item member)
    exact head.andThen tail

theorem andThen_stops {first second : Writer → Writer} {front : List UInt8} {error : WriteError}
    (start : Appends first front) (finish : Stops second error) : Stops (fun writer => second (first writer)) error where
  failed writer broken := by
    rw [start.failed writer broken, finish.failed writer broken]
  failure writer opened := finish.failure _ (start.isOpen writer opened)

theorem fresh {step : Writer → Writer} {data : List UInt8} (appends : Appends step data) :
    (step buffer).failure = none ∧ (step buffer).content = data :=
  ⟨(appends.isOpen buffer isOpen_buffer).failure, appends.content buffer isOpen_buffer⟩

end Appends

theorem IsOpen.bytes_eq {writer : Writer} (opened : writer.IsOpen) (data : List UInt8) :
    writer.bytes data = writer.store data := by
  simp only [bytes, opened.failure, opened.room]

theorem content_store (data : List UInt8) (writer : Writer) :
    (writer.store data).content = writer.content ++ data := by
  simp only [store, content, List.reverse_cons, List.flatten_append, List.flatten_singleton]

theorem appends_bytes (data : List UInt8) : Appends (bytes data) data where
  failed writer broken := by
    obtain ⟨error, failure⟩ := Option.isSome_iff_exists.1 broken
    simp only [bytes, failure]
  isOpen writer opened := by
    rw [opened.bytes_eq]
    exact ⟨opened.failure, opened.room⟩
  content writer opened := by
    rw [opened.bytes_eq, content_store]

theorem appends_byte (value : UInt8) : Appends (byte value) [value] := appends_bytes _

theorem appends_u16 (value : UInt16) : Appends (u16 value) (wordBytes value) := appends_bytes _

theorem appends_i16 (value : Int16) : Appends (i16 value) (wordBytes value.toUInt16) := appends_bytes _

theorem appends_i32 (value : Int32) : Appends (i32 value) (longBytes value.toUInt32) := appends_bytes _

def stop (error : WriteError) (writer : Writer) : Writer :=
  if writer.failure.isSome then writer else writer.reject error

theorem stops_stop (error : WriteError) : Stops (stop error) error where
  failed writer broken := if_pos broken
  failure writer opened := by
    rw [stop, if_neg (by simp [opened.failure])]
    rfl

theorem text_of_ok {value : String} {body : List UInt8} (encoded : encodeText value = .ok body) :
    text value = fun writer => (writer.bytes body).byte 0 := by
  funext writer
  cases failure : writer.failure with
  | none => simp only [text, failure, encoded]
  | some error =>
    have broken := Option.isSome_of_eq_some failure
    simp only [text, failure]
    rw [(appends_bytes body).failed writer broken, (appends_byte 0).failed writer broken]

theorem text_of_error {value : String} {error : WriteError} (refused : encodeText value = .error error) :
    text value = stop error := by
  funext writer
  cases failure : writer.failure with
  | none => simp [text, stop, failure, refused]
  | some earlier => simp [text, stop, failure]

theorem appends_text {value : String} {body : List UInt8} (encoded : encodeText value = .ok body) :
    Appends (text value) (body ++ [0]) := by
  rw [text_of_ok encoded]
  exact (appends_bytes body).andThen (appends_byte 0)

theorem stops_text {value : String} {error : WriteError} (refused : encodeText value = .error error) :
    Stops (text value) error := by
  rw [text_of_error refused]
  exact stops_stop error

end ClientScript.Writer
