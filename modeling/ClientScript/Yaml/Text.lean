import ClientScript.Text.Utf8

/-!
The characters of a document. A document is read in blocks of bytes, so that damage in a block that nobody
looks at goes unnoticed.
-/

namespace ClientScript.Yaml

def isAllowed (char : Char) : Bool :=
  ['\t', '\n', '\r', '\u0085'].contains char || (' ' ≤ char && char ≤ '~') ||
    ('\u00a0' ≤ char && !(['\ufffe', '\uffff'].contains char))

inductive Encoding where
  | utf8
  /-- The high byte of a pair is the first if it is the big end that comes first. -/
  | utf16 (bigEnd : Bool)
deriving DecidableEq, Repr

namespace Encoding

def pairCode (bigEnd : Bool) (one two : UInt8) : Nat :=
  if bigEnd then one.toNat * 256 + two.toNat else two.toNat * 256 + one.toNat

def utf16Code? (bigEnd : Bool) : List UInt8 → Option Nat
  | [one, two] => some (pairCode bigEnd one two)
  | [one, two, three, four] =>
    let high := pairCode bigEnd one two
    let low := pairCode bigEnd three four
    if low / 1024 = 55 then some (0x10000 + high % 1024 * 1024 + low % 1024) else none
  | _ => none

def size? (encoding : Encoding) (bytes : List UInt8) : Option Nat :=
  match encoding, bytes with
  | .utf8, first :: _ => Utf8.size? first
  | .utf16 bigEnd, one :: two :: _ => some (if pairCode bigEnd one two / 1024 = 54 then 4 else 2)
  | .utf16 _, [_] => some 2
  | _, [] => none

def char? (encoding : Encoding) (bytes : List UInt8) : Option Char := do
  let code ←
    match encoding with
    | .utf8 => Utf8.code? bytes
    | .utf16 bigEnd => utf16Code? bigEnd bytes
  let char ← charOfCode? code
  if isAllowed char then return char else none

def ofBytes : List UInt8 → Encoding × Nat
  | 0xff :: 0xfe :: _ => (.utf16 false, 2)
  | 0xfe :: 0xff :: _ => (.utf16 true, 2)
  | 0xef :: 0xbb :: 0xbf :: _ => (.utf8, 3)
  | _ => (.utf8, 0)

end Encoding

/-- The characters up to the first that is damaged, and how many of them each block holds. A block that is damaged
counts as none. -/
structure Text where
  chars : List Char
  blocks : List (Option Nat)
deriving DecidableEq, Repr

namespace Text

/-- The bytes of a block. A character that does not end in a block starts the next. -/
def blockSize : Nat := 512

def cons (char : Char) (text : Text) : Text :=
  match text.blocks with
  | some count :: blocks => ⟨char :: text.chars, some (count + 1) :: blocks⟩
  | blocks => ⟨char :: text.chars, blocks⟩

/-- Decodes bytes. A number of bytes of the first block is used already. -/
def decode (encoding : Encoding) : Nat → List UInt8 → Nat → Text
  | 0, _, _ => ⟨[], [some 0]⟩
  | fuel + 1, bytes, used =>
    if bytes.isEmpty then ⟨[], [some 0]⟩
    else
      let size := (encoding.size? bytes).getD 1
      let taken := bytes.take size
      if taken.length < size then ⟨[], [some 0, none]⟩
      else
        let isFull := blockSize < used + size
        let text :=
          match encoding.char? taken with
          | none => ⟨[], [none]⟩
          | some char => cons char (decode encoding fuel (bytes.drop size) (if isFull then size else used + size))
        if isFull then { text with blocks := some 0 :: text.blocks } else text

def ofBytes (bytes : List UInt8) : Text :=
  let (encoding, mark) := Encoding.ofBytes bytes
  decode encoding bytes.length (bytes.drop mark) mark

end Text

end ClientScript.Yaml
