import ClientScript.Text.Base64
import ClientScript.Text.Binary
import ClientScript.Yaml.Node
import ClientScript.Yaml.Timestamp

/-!
What a scalar stands for: nothing, a truth value, a number, a point in time, or a text.
-/

namespace ClientScript.Yaml

/-- Numbers are reduced to a signed word of 64 bits, if they fit into one. -/
inductive Value where
  | null
  | bool (value : Bool)
  | whole (value : Option Int)
  | fraction (value : Option Int)
  | time
  | text (content : String)
deriving DecidableEq, Repr

namespace Value

def least : Int := -9223372036854775808

def digitsToNat? (base : Nat) (chars : List Char) : Option Nat :=
  if chars.isEmpty then none
  else chars.foldlM (fun number char =>
    (hexValue? char).bind fun digit => if digit < base then some (number * base + digit) else none) 0

/-- Digits after the mark of their base. A zero in front of digits marks base eight. -/
def unsigned? : List Char → Option Nat
  | '0' :: mark :: digits =>
    if mark = 'x' || mark = 'X' then digitsToNat? 16 digits
    else if mark = 'b' || mark = 'B' then digitsToNat? 2 digits
    else if mark = 'o' || mark = 'O' then digitsToNat? 8 digits
    else digitsToNat? 8 (mark :: digits)
  | digits => digitsToNat? 10 digits

def sign : List Char → Bool × List Char
  | '-' :: chars => (true, chars)
  | '+' :: chars => (false, chars)
  | chars => (false, chars)

def signed (negative : Bool) (size : Nat) : Int := if negative then -(size : Int) else size

def isWord (number : Int) : Bool := least ≤ number && number < -least

/-- Reads a whole number of 64 bits, with a sign or without. Without one it may have no room for a sign. -/
def whole? (chars : List Char) : Option Value :=
  let (negative, digits) := sign chars
  match unsigned? digits with
  | none => none
  | some size =>
    if isWord (signed negative size) then some (.whole (some (signed negative size)))
    else if digits = chars && size < 18446744073709551616 then some (.whole none)
    else none

/-- A sign may stand after the mark of the base. -/
def marked? : List Char → Option Value
  | '0' :: 'b' :: chars => ofBase 2 (sign chars)
  | '0' :: 'o' :: chars => ofBase 8 (sign chars)
  | _ => none
where
  ofBase (base : Nat) (parts : Bool × List Char) : Option Value :=
    (digitsToNat? base parts.2).bind fun size =>
      if isWord (signed parts.1 size) then some (.whole (some (signed parts.1 size))) else none

/-- The word for a fraction: its whole part, and the least word for what is out of range below. The first
number above the range wraps to the least word as well. -/
def ofBinary (negative : Bool) (number : Binary) : Value :=
  let whole := signed negative number.truncate
  if -least < whole then .fraction none
  else if isWord whole then .fraction (some whole)
  else .fraction (some least)

def decimal? (digits : List Char) (exponent : Int) : Option Binary :=
  let digits := digits.dropWhile (· = '0')
  let size := (digitsToNat? 10 digits).getD 0
  let magnitude := digits.length + exponent
  if size = 0 || magnitude < -400 then some ⟨0, 0⟩
  else if 400 < magnitude then none
  else
    let number :=
      if exponent < 0 then Binary.ofQuotient size (Nat.pow 10 exponent.natAbs)
      else Binary.ofQuotient (size * Nat.pow 10 exponent.natAbs) 1
    if number.mantissa.log2 + number.exponent < 1024 then some number else none

def exponent? : List Char → Option Int
  | [] => some 0
  | char :: chars =>
    if char = 'e' || char = 'E' then
      let (negative, digits) := sign chars
      if digits.all Char.isDigit then (digitsToNat? 10 digits).map (signed negative) else none
    else none

def fraction? (chars : List Char) : Option Value := do
  let (negative, rest) := sign chars
  let whole := rest.takeWhile Char.isDigit
  let rest := rest.dropWhile Char.isDigit
  let (places, rest) :=
    match rest with
    | '.' :: rest => (rest.takeWhile Char.isDigit, rest.dropWhile Char.isDigit)
    | rest => ([], rest)
  if whole.isEmpty && places.isEmpty then none
  else
    let exponent ← exponent? rest
    let number ← decimal? (whole ++ places) (exponent - places.length)
    return ofBinary negative number

def dividesDigits : List Char → Bool
  | [] => true
  | '_' :: _ => false
  | digit :: '_' :: next :: rest => digit.isDigit && next.isDigit && dividesDigits (next :: rest)
  | [_, '_'] => false
  | _ :: rest => dividesDigits rest

/-- Numbers may have underscores anywhere after their first character; those that start with a point, only between
two digits. -/
def number? (chars : List Char) : Option Value :=
  match chars with
  | '.' :: _ => if dividesDigits chars then fraction? (chars.filter (· ≠ '_')) else none
  | first :: _ =>
    if first.isDigit || first = '+' || first = '-' then
      let chars := chars.filter (· ≠ '_')
      whole? chars <|> fraction? chars <|> marked? chars
    else none
  | [] => none

/-- The value of an unquoted scalar. A point in time counts as a text unless a tag demands it. -/
def ofPlain (text : String) : Value :=
  if ["", "~", "null", "Null", "NULL"].contains text then .null
  else if ["true", "True", "TRUE"].contains text then .bool true
  else if ["false", "False", "FALSE"].contains text then .bool false
  else if [".nan", ".NaN", ".NAN", ".inf", ".Inf", ".INF", "+.inf", "+.Inf", "+.INF"].contains text then
    .fraction none
  else if ["-.inf", "-.Inf", "-.INF"].contains text then .fraction (some least)
  else (number? text.toList).getD (.text text)

/-- The value as a tag demands it, if it can be one of that kind. A tag that is not known leaves the text. -/
def tagged? (tag text : String) : Option Value :=
  match tag, ofPlain text with
  | "!!null", .null => some .null
  | "!!bool", .bool value => some (.bool value)
  | "!!int", .whole value => some (.whole value)
  | "!!float", .whole (some number) => some (ofBinary (number < 0) (.ofNat number.natAbs))
  | "!!float", .fraction value => some (.fraction value)
  | "!!null", _ | "!!bool", _ | "!!int", _ | "!!float", _ => none
  | "!!timestamp", _ => if Timestamp.isTimestamp text then some .time else none
  | "!!binary", _ => (Base64.decode? text).map fun bytes => .text (Utf8.decode bytes)
  | _, _ => some (.text text)

def ofScalar? (tag : Option String) (quoted : Bool) (text : String) : Option Value :=
  match tag with
  | some "!" | none => some (if quoted then .text text else ofPlain text)
  | some tag => tagged? tag text

end Value

end ClientScript.Yaml
