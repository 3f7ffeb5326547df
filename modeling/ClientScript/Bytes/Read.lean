import ClientScript.Text.CodePage

/-!
Reading big-endian values from bytes. A read looks at the bytes that are left and gives a value and
the number of bytes it used.
-/

namespace ClientScript

inductive ReadError where
  /-- Nothing was left. -/
  | atEnd
  /-- Something was left, but not enough. -/
  | cutShort
deriving DecidableEq, Repr

namespace ReadError

def message : ReadError → String
  | .atEnd => "EOF"
  | .cutShort => "unexpected EOF"

def ofRest (bytes : List UInt8) : ReadError :=
  if bytes.isEmpty then .atEnd else .cutShort

end ReadError

/-- A read of a value of type `α`, which may fail with an `ε`. -/
def Read (ε α : Type) : Type := List UInt8 → Except ε (α × Nat)

namespace Read

variable {ε α β : Type}

def pure (value : α) : Read ε α := fun _ => .ok (value, 0)

def fail (error : ε) : Read ε α := fun _ => .error error

def bind (first : Read ε α) (next : α → Read ε β) : Read ε β := fun bytes =>
  match first bytes with
  | .error error => .error error
  | .ok (value, used) =>
    match next value (bytes.drop used) with
    | .error error => .error error
    | .ok (result, more) => .ok (result, used + more)

instance : Monad (Read ε) where
  pure := pure
  bind := bind

def mapError {ε' : Type} (change : ε → ε') (read : Read ε α) : Read ε' α := fun bytes =>
  match read bytes with
  | .error error => .error (change error)
  | .ok result => .ok result

def left : Read ε Nat := fun bytes => .ok (bytes.length, 0)

def byte : Read ReadError UInt8
  | [] => .error .atEnd
  | value :: _ => .ok (value, 1)

def u16 : Read ReadError UInt16
  | high :: low :: _ => .ok (UInt16.ofNat (high.toNat * 256 + low.toNat), 2)
  | rest => .error (.ofRest rest)

def u32 : Read ReadError UInt32
  | a :: b :: c :: d :: _ =>
    .ok (UInt32.ofNat (((a.toNat * 256 + b.toNat) * 256 + c.toNat) * 256 + d.toNat), 4)
  | rest => .error (.ofRest rest)

def i16 : Read ReadError Int16 := do return (← u16).toInt16

def i32 : Read ReadError Int32 := do return (← u32).toInt32

def bytes (count : Nat) : Read ReadError (List UInt8) := fun rest =>
  let taken := rest.take count
  if taken.length = count then .ok (taken, count) else .error (.ofRest rest)

/-- Text up to a NUL byte, which is used up but is not part of the text. -/
def text : Read ReadError String := fun rest =>
  let raw := rest.takeWhile (· ≠ 0)
  if (rest.drop raw.length).isEmpty then .error (.ofRest rest)
  else .ok (CodePage.decode raw, raw.length + 1)

end Read

end ClientScript
