import ClientScript.Text.Binary

/-!
Spans of time as text: decimal numbers with units, such as `1h30m0.5s`.
-/

namespace ClientScript

structure Duration where
  nanoseconds : Int
deriving DecidableEq, Repr

namespace Duration

def second : Nat := 1000000000

/-- A number of thousandths, millionths and so on, without zeros at the end of the fraction. -/
def decimalText (places number : Nat) : String :=
  let digits := (Nat.toDigits 10 (number % Nat.pow 10 places)).reverse
  let padded := digits ++ List.replicate (places - digits.length) '0'
  let fraction := (padded.dropWhile (· = '0')).reverse
  toString (number / Nat.pow 10 places) ++
    if places = 0 || fraction.isEmpty then "" else "." ++ String.ofList fraction

/-- Less than a second is written in the largest unit that gives a whole part. -/
def shortText (nanoseconds : Nat) : String :=
  if nanoseconds = 0 then "0s"
  else if nanoseconds < 1000 then decimalText 0 nanoseconds ++ "ns"
  else if nanoseconds < 1000000 then decimalText 3 nanoseconds ++ "µs"
  else decimalText 6 nanoseconds ++ "ms"

def longText (nanoseconds : Nat) : String :=
  let minutes := nanoseconds / (60 * second)
  let hours := minutes / 60
  let seconds := decimalText 9 (nanoseconds % (60 * second)) ++ "s"
  if minutes = 0 then seconds
  else if hours = 0 then toString minutes ++ "m" ++ seconds
  else toString hours ++ "h" ++ toString (minutes % 60) ++ "m" ++ seconds

def text (duration : Duration) : String :=
  let size := duration.nanoseconds.natAbs
  (if duration.nanoseconds < 0 then "-" else "") ++
    if size < second then shortText size else longText size

def unit? : List Char → Option Nat
  | ['n', 's'] => some 1
  | ['u', 's'] => some 1000
  | ['µ', 's'] => some 1000
  | ['μ', 's'] => some 1000
  | ['m', 's'] => some 1000000
  | ['s'] => some second
  | ['m'] => some (60 * second)
  | ['h'] => some (3600 * second)
  | _ => none

def isNumeral (char : Char) : Bool := char.isDigit || char = '.'

def digit (char : Char) : Nat := char.toNat - '0'.toNat

def most : Nat := 9223372036854775808

def whole? (digits : List Char) : Option Nat :=
  digits.foldlM (fun number char =>
    let next := number * 10 + digit char
    if next ≤ most then some next else none) 0

/-- The digits of a decimal fraction as a number, and the power of ten to divide it by. The power is kept at the
precision of 53 bits. Once a digit is dropped because the number is too large, so are those after it. -/
structure Fraction where
  number : Nat := 0
  scale : Binary := .ofNat 1
  full : Bool := false
deriving DecidableEq, Repr

namespace Fraction

def add (fraction : Fraction) (char : Char) : Fraction :=
  let next := fraction.number * 10 + digit char
  if fraction.full then fraction
  else if fraction.number > (most - 1) / 10 || next > most then { fraction with full := true }
  else { fraction with number := next, scale := fraction.scale.mul (.ofNat 10) }

/-- The part of a unit that a fraction stands for. Each step is rounded to 53 bits, and the result down. -/
def partOf (fraction : Fraction) (unit : Nat) : Nat :=
  ((Binary.ofNat fraction.number).mul ((Binary.ofNat unit).div fraction.scale)).truncate

end Fraction

/-- A number of units. The number has digits before or after a point, or both. -/
def term? (number unit : List Char) : Option Nat := do
  let size ← unit? unit
  let digits := number.takeWhile Char.isDigit
  let fraction := (number.dropWhile Char.isDigit).drop 1
  if (digits.isEmpty && fraction.isEmpty) || !fraction.all Char.isDigit then none
  else
    let count ← whole? digits
    let total := count * size + (fraction.foldl Fraction.add {}).partOf size
    if total ≤ most then some total else none

/-- Adds up numbers, each followed by its unit. Sums are kept to 64 bits. -/
def sum? (total : Nat) : List (List Char) → Option Nat
  | [] => some total
  | [_] => none
  | number :: unit :: rest => do
    let total := (total + (← term? number unit)) % (2 * most)
    if total ≤ most then sum? total rest else none

def size? (chars : List Char) : Option Nat :=
  if chars.isEmpty then none
  else if chars = ['0'] then some 0
  else sum? 0 (chars.splitBy fun left right => isNumeral left == isNumeral right)

def parse? (text : String) : Option Duration :=
  match text.toList with
  | '-' :: chars => (size? chars).map fun size => ⟨-(size : Int)⟩
  | '+' :: chars => (size? chars).bind fun size => if size < most then some ⟨size⟩ else none
  | chars => (size? chars).bind fun size => if size < most then some ⟨size⟩ else none

end Duration

end ClientScript
