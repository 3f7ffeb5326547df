/-!
Characters as bytes, in the encoding UTF-8.
-/

namespace ClientScript

def charOfCode? (code : Nat) : Option Char :=
  if h : code.isValidChar then some (Char.ofNatAux code h) else none

namespace Utf8

def size? (first : UInt8) : Option Nat :=
  let code := first.toNat
  if code < 0x80 then some 1
  else if code < 0xc0 then none
  else if code < 0xe0 then some 2
  else if code < 0xf0 then some 3
  else if code < 0xf8 then some 4
  else none

/-- The code in the bytes of a character. Only the shortest form is read. -/
def code? : List UInt8 → Option Nat
  | [one] => if one < 0x80 then some one.toNat else none
  | first :: rest =>
    let start := first.toNat % Nat.pow 2 (6 - rest.length)
    let code := rest.foldl (fun code byte => code * 64 + byte.toNat % 64) start
    let least := if rest.length = 1 then 0x80 else if rest.length = 2 then 0x800 else 0x10000
    if rest.all (fun byte => byte.toNat / 64 = 2) && least ≤ code then some code else none
  | [] => none

def char? (bytes : List UInt8) : Option Char := (code? bytes).bind charOfCode?

def replacement : Char := '\ufffd'

/-- The characters of bytes. A byte where none starts is replaced. -/
def chars : Nat → List UInt8 → List Char
  | 0, _ => []
  | _ + 1, [] => []
  | fuel + 1, first :: rest =>
    let size := (size? first).getD 1
    let bytes := (first :: rest).take size
    match if bytes.length = size then char? bytes else none with
    | some char => char :: chars fuel ((first :: rest).drop size)
    | none => replacement :: chars fuel rest

def decode (bytes : List UInt8) : String := String.ofList (chars bytes.length bytes)

end Utf8

end ClientScript
