/-!
Fractions at the precision of 53 significant bits.
-/

namespace ClientScript

/-- A whole number times a power of two. -/
structure Binary where
  mantissa : Nat
  exponent : Int
deriving DecidableEq, Repr

namespace Binary

/-- A quotient to the nearest whole number. A tie goes to the even one. -/
def divNearest (num den : Nat) : Nat :=
  let rest := 2 * (num % den)
  if rest < den || (rest == den && num / den % 2 == 0) then num / den else num / den + 1

def scaleDown (num den : Nat) (exponent : Int) : Nat × Nat :=
  if exponent < 0 then (num * Nat.pow 2 exponent.natAbs, den) else (num, den * Nat.pow 2 exponent.natAbs)

/-- The number of 53 significant bits that is nearest to a quotient. -/
def ofQuotient (num den : Nat) : Binary :=
  if num = 0 then ⟨0, 0⟩
  else
    let high : Int := num.log2 - den.log2 - 52
    let (top, bottom) := scaleDown num den high
    let exponent := if top / bottom < 4503599627370496 then high - 1 else high
    let (top, bottom) := scaleDown num den exponent
    ⟨divNearest top bottom, exponent⟩

def ofNat (number : Nat) : Binary := ofQuotient number 1

def mul (left right : Binary) : Binary :=
  let (top, bottom) := scaleDown (left.mantissa * right.mantissa) 1 (-(left.exponent + right.exponent))
  ofQuotient top bottom

def div (left right : Binary) : Binary :=
  let (top, bottom) := scaleDown left.mantissa right.mantissa (right.exponent - left.exponent)
  ofQuotient top bottom

def truncate (number : Binary) : Nat :=
  if number.exponent < 0 then number.mantissa / Nat.pow 2 number.exponent.natAbs
  else number.mantissa * Nat.pow 2 number.exponent.natAbs

end Binary

end ClientScript
