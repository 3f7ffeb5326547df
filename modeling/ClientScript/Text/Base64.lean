/-!
Bytes as text: four characters of 64 kinds stand for three bytes.
-/

namespace ClientScript.Base64

def digit? (char : Char) : Option Nat :=
  if 'A' ≤ char && char ≤ 'Z' then some (char.toNat - 'A'.toNat)
  else if 'a' ≤ char && char ≤ 'z' then some (char.toNat - 'a'.toNat + 26)
  else if char.isDigit then some (char.toNat - '0'.toNat + 52)
  else if char = '+' then some 62
  else if char = '/' then some 63
  else none

def bytes (count one two three four : Nat) : List UInt8 :=
  let group := ((one * 64 + two) * 64 + three) * 64 + four
  [group / 65536, group / 256, group].take count |>.map UInt8.ofNat

/-- Decodes groups. The last may be filled up with one or two equals signs. -/
def groups? : List Char → Option (List UInt8)
  | [] => some []
  | [one, two, '=', '='] => do
    return bytes 1 (← digit? one) (← digit? two) 0 0
  | [one, two, three, '='] => do
    return bytes 2 (← digit? one) (← digit? two) (← digit? three) 0
  | one :: two :: three :: four :: rest => do
    let group := bytes 3 (← digit? one) (← digit? two) (← digit? three) (← digit? four)
    return group ++ (← groups? rest)
  | _ => none

/-- Decodes a text, in which line breaks may stand anywhere. -/
def decode? (text : String) : Option (List UInt8) :=
  groups? (text.toList.filter fun char => char ≠ '\n' && char ≠ '\r')

end ClientScript.Base64
