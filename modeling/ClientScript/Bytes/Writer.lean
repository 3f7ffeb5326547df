import ClientScript.Bytes.Read
import ClientScript.Registry
import ClientScript.Text.Quoted

/-!
Writing big-endian values. A writer keeps what it was given to write, write by write, until a write fails;
from then on it adds nothing.
-/

namespace ClientScript

inductive ShapeMismatch where
  | notBranch (op : Opcode)
  | groupCount (count : Nat)
  | termCount (count : Nat)
  | noTable
  | operandWidth (op : Opcode) (needed given : Nat)
deriving DecidableEq, Repr

inductive WriteError where
  | nulInText
  | unencodable (fault : CodePage.Unencodable)
  /-- The bytes were taken already. -/
  | drained
  /-- The destination does not take so many bytes. -/
  | full
  | shape (mismatch : ShapeMismatch)
deriving DecidableEq, Repr

namespace ShapeMismatch

def message : ShapeMismatch → String
  | .notBranch op => op.name ++ " is not a branch"
  | .groupCount count => toString count ++ " case groups"
  | .termCount count => toString count ++ " terms in a case group"
  | .noTable => "SWITCH without table"
  | .operandWidth op needed given =>
    op.name ++ " needs " ++ toString needed ++ " operand bytes, got " ++ toString given

end ShapeMismatch

namespace WriteError

def message : WriteError → String
  | .nulInText => "string contains NUL"
  | .unencodable fault =>
    "character not representable in CP1252: " ++ quoteChar fault.char ++ " at " ++ toString fault.offset
  | .drained => "buffer already drained"
  | .full => "limit reached"
  | .shape mismatch => "operand doesn't match opcode: " ++ mismatch.message

end WriteError

def wordBytes (word : UInt16) : List UInt8 :=
  [UInt8.ofNat (word.toNat / 256), UInt8.ofNat word.toNat]

def longBytes (word : UInt32) : List UInt8 :=
  [UInt8.ofNat (word.toNat / 16777216), UInt8.ofNat (word.toNat / 65536),
   UInt8.ofNat (word.toNat / 256), UInt8.ofNat word.toNat]

structure Writer where
  /-- What was written, the latest first. -/
  chunks : List (List UInt8) := []
  /-- How many more bytes the destination takes, `none` if it takes any number. -/
  room : Option Nat := none
  failure : Option WriteError := none
  /-- Whether a byte was ever stored; a reset does not undo this. -/
  touched : Bool := false
deriving DecidableEq, Repr

namespace Writer

def buffer : Writer := {}

/-- A writer to a destination that takes so many bytes. A write that does not fit is refused as a whole. -/
def limited (room : Nat) : Writer := { room := some room }

def content (writer : Writer) : List UInt8 :=
  writer.chunks.reverse.flatten

def size (writer : Writer) : Nat :=
  writer.content.length

def store (data : List UInt8) (writer : Writer) : Writer :=
  { writer with chunks := data :: writer.chunks, touched := writer.touched || !data.isEmpty }

def bytes (data : List UInt8) (writer : Writer) : Writer :=
  match writer.failure, writer.room with
  | some _, _ => writer
  | none, none => writer.store data
  | none, some room =>
    if data.length ≤ room then { writer.store data with room := some (room - data.length) }
    else { writer with failure := some .full }

/-- Records a failure, in place of an earlier one. -/
def reject (error : WriteError) (writer : Writer) : Writer :=
  { writer with failure := some error }

def u32 (value : UInt32) : Writer → Writer := bytes (longBytes value)

def i32 (value : Int32) : Writer → Writer := u32 value.toUInt32

def u16 (value : UInt16) : Writer → Writer := bytes (wordBytes value)

def i16 (value : Int16) : Writer → Writer := u16 value.toUInt16

def byte (value : UInt8) : Writer → Writer := bytes [value]

def encodeText (text : String) : Except WriteError (List UInt8) :=
  if text.toList.contains '\x00' then .error .nulInText
  else (CodePage.encode text).mapError .unencodable

def text (value : String) (writer : Writer) : Writer :=
  match writer.failure, encodeText value with
  | some _, _ => writer
  | none, .error error => writer.reject error
  | none, .ok raw => (writer.bytes raw).byte 0

/-- The bytes written, unless something failed. They can be taken once. -/
def take (writer : Writer) : Option (List UInt8) × Writer :=
  match writer.failure with
  | some _ => (none, writer)
  | none => (some writer.content, writer.reject .drained)

def reset (writer : Writer) : Writer :=
  { writer with chunks := [], failure := none }

end Writer

end ClientScript
