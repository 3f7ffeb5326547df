/-!
Numbers as text: hexadecimal digits, signed decimals, and the labels of numbered things.
-/

namespace ClientScript

/-- The last `width` hexadecimal digits of a number, leading zeros included. -/
def hexDigits (width number : Nat) : List Char :=
  (List.range width).reverse.map fun place => Nat.digitChar (number / Nat.pow 16 place % 16)

def hexText (bytes : List UInt8) : String :=
  String.ofList (bytes.flatMap fun byte => hexDigits 2 byte.toNat)

def signedText (number : Int) : String :=
  if number < 0 then toString number else "+" ++ toString number

/-- The name that goes with a code, or the type's name and the code where no name does. -/
def codeLabel (type : String) (code : Int) (name : Option String) : String :=
  name.getD s!"{type}({code})"

def idList (ids : List Int) : String :=
  if ids.isEmpty then "-" else String.intercalate "," (ids.map toString)

end ClientScript
