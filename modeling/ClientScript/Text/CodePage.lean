/-!
The code page of script text (CP1252). A byte stands for one character. The five bytes to which the
code page gives no character stand for the control character of their own number, so that every
byte string can be read as text and written back.
-/

namespace ClientScript.CodePage

/-- The characters that the published table gives to the bytes 0x80 to 0x9f, in order. -/
def published : List (Option Char) :=
  [some '€', none, some '‚', some 'ƒ', some '„', some '…', some '†', some '‡',
   some 'ˆ', some '‰', some 'Š', some '‹', some 'Œ', none, some 'Ž', none,
   none, some '‘', some '’', some '“', some '”', some '•', some '–', some '—',
   some '˜', some '™', some 'š', some '›', some 'œ', none, some 'ž', some 'Ÿ']

/-- The published table gives the replacement character for a byte that has none. -/
def publishedChar (byte : UInt8) : Char :=
  if 0x80 ≤ byte.toNat ∧ byte.toNat < 0xa0 then
    (published.getD (byte.toNat - 0x80) none).getD '\ufffd'
  else
    Char.ofNat byte.toNat

def publishedByte? (char : Char) : Option UInt8 :=
  if char.toNat < 0x80 ∨ (0xa0 ≤ char.toNat ∧ char.toNat < 0x100) then
    some (UInt8.ofNat char.toNat)
  else
    (published.idxOf? (some char)).map fun index => UInt8.ofNat (0x80 + index)

def unassigned : List UInt8 := [0x81, 0x8d, 0x8f, 0x90, 0x9d]

def decodeByte (byte : UInt8) : Char :=
  if byte ∈ unassigned then Char.ofNat byte.toNat else publishedChar byte

def encodeChar? (char : Char) : Option UInt8 :=
  if char.toNat < 0x80 then
    some (UInt8.ofNat char.toNat)
  else if char.toNat ≤ 0xff ∧ UInt8.ofNat char.toNat ∈ unassigned then
    some (UInt8.ofNat char.toNat)
  else
    publishedByte? char

def decode (bytes : List UInt8) : String :=
  String.ofList (bytes.map decodeByte)

/-- A character outside the code page, with its offset in the UTF-8 form of the text. -/
structure Unencodable where
  char : Char
  offset : Nat
deriving DecidableEq, Repr

def encodeFrom (offset : Nat) : List Char → Except Unencodable (List UInt8)
  | [] => .ok []
  | char :: rest =>
    match encodeChar? char with
    | none => .error ⟨char, offset⟩
    | some byte => (encodeFrom (offset + char.utf8Size) rest).map (byte :: ·)

def encode (text : String) : Except Unencodable (List UInt8) :=
  encodeFrom 0 text.toList

end ClientScript.CodePage
