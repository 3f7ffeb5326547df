import ClientScript.Bytes.Read

/-!
A reader at a position of its data. After a failure every read gives the zero value and changes nothing.
-/

namespace ClientScript

structure Reader where
  data : List UInt8
  position : Nat := 0
  failure : Option ReadError := none
deriving DecidableEq, Repr

namespace Reader

variable {α : Type}

def left (reader : Reader) : Nat :=
  reader.data.length - reader.position

/-- Reads at the position, giving `zero` in place of a value that cannot be read. -/
def read (zero : α) (read : Read ReadError α) (reader : Reader) : α × Reader :=
  match reader.failure with
  | some _ => (zero, reader)
  | none =>
    match read (reader.data.drop reader.position) with
    | .ok (value, used) => (value, { reader with position := reader.position + used })
    | .error error => (zero, { reader with failure := some error })

def readU32 : Reader → UInt32 × Reader := read 0 Read.u32

def readI32 : Reader → Int32 × Reader := read 0 Read.i32

def readU16 : Reader → UInt16 × Reader := read 0 Read.u16

def readI16 : Reader → Int16 × Reader := read 0 Read.i16

def readByte : Reader → UInt8 × Reader := read 0 Read.byte

/-- As many zero bytes as were asked for stand for bytes that cannot be read. -/
def readBytes (count : Nat) : Reader → List UInt8 × Reader :=
  read (List.replicate count 0) (Read.bytes count)

def readText : Reader → String × Reader := read "" Read.text

def seek (position : Nat) (reader : Reader) : Reader :=
  { reader with position := position }

def clear (reader : Reader) : Reader :=
  { reader with failure := none }

end Reader

end ClientScript
