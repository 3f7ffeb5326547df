import ClientScript.Text.Number
import ClientScript.Text.Printable

/-!
Quoted text. A printable character stands for itself, the quote and the backslash follow a backslash,
and any other character is written as an escape that names its code point.
-/

namespace ClientScript.Quoted

def controlLetter? (char : Char) : Option Char :=
  match char.toNat with
  | 7 => some 'a'
  | 8 => some 'b'
  | 9 => some 't'
  | 10 => some 'n'
  | 11 => some 'v'
  | 12 => some 'f'
  | 13 => some 'r'
  | _ => none

def escape (quote char : Char) : List Char :=
  if char = quote ∨ char = '\\' then ['\\', char]
  else if isPrintable char then [char]
  else match controlLetter? char with
    | some letter => ['\\', letter]
    | none =>
      if char.toNat < 0x80 then '\\' :: 'x' :: hexDigits 2 char.toNat
      else if char.toNat < 0x10000 then '\\' :: 'u' :: hexDigits 4 char.toNat
      else '\\' :: 'U' :: hexDigits 8 char.toNat

def encode (quote : Char) (text : List Char) : List Char :=
  quote :: (text.flatMap (escape quote) ++ [quote])

end ClientScript.Quoted

namespace ClientScript

def quoteText (text : String) : String :=
  String.ofList (Quoted.encode '"' text.toList)

def quoteChar (char : Char) : String :=
  String.ofList (Quoted.encode '\'' [char])

end ClientScript
