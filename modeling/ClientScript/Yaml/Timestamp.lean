/-!
The forms of a point in time: a date, and a time of day with a zone or without.
-/

namespace ClientScript.Yaml.Timestamp

def number? (limit : Nat) (chars : List Char) : Option (Nat × List Char) :=
  let digits := (chars.take 2).takeWhile Char.isDigit
  let number := digits.foldl (fun number char => number * 10 + (char.toNat - '0'.toNat)) 0
  if digits.isEmpty || limit ≤ number then none else some (number, chars.drop digits.length)

def isLeap (year : Nat) : Bool := year % 4 = 0 && (year % 100 ≠ 0 || year % 400 = 0)

def monthLength (year month : Nat) : Nat :=
  if month = 2 then (if isLeap year then 29 else 28)
  else if [4, 6, 9, 11].contains month then 30
  else 31

def expect? (char : Char) : List Char → Option (List Char)
  | first :: rest => if first = char then some rest else none
  | [] => none

def date? (chars : List Char) : Option (List Char) := do
  let year := chars.takeWhile Char.isDigit
  if year.length ≠ 4 then none
  else
    let (century, _) ← number? 100 year
    let (decade, _) ← number? 100 (year.drop 2)
    let (month, rest) ← number? 13 (← expect? '-' (chars.drop 4))
    let (day, rest) ← number? 100 (← expect? '-' rest)
    if month = 0 || day = 0 || monthLength (century * 100 + decade) month < day then none else some rest

def fraction : List Char → List Char
  | mark :: digit :: rest =>
    if (mark = '.' || mark = ',') && digit.isDigit then rest.dropWhile Char.isDigit else mark :: digit :: rest
  | chars => chars

def time? (chars : List Char) : Option (List Char) := do
  let (_, rest) ← number? 24 chars
  let (_, rest) ← number? 60 (← expect? ':' rest)
  let (_, rest) ← number? 60 (← expect? ':' rest)
  return fraction rest

def isZone : List Char → Bool
  | ['Z'] => true
  | [sign, hourHigh, hourLow, ':', minuteHigh, minuteLow] =>
    (sign = '+' || sign = '-') && hourLow.isDigit && minuteLow.isDigit &&
      (number? 25 [hourHigh, hourLow]).isSome && (number? 61 [minuteHigh, minuteLow]).isSome
  | _ => false

/-- Whether a text is a point in time. Between date and time stands a letter if a zone follows, and blanks if none
does. -/
def isTimestamp (text : String) : Bool :=
  match date? text.toList with
  | none => false
  | some [] => true
  | some (mark :: rest) =>
    if mark = 'T' || mark = 't' then (time? rest).any isZone
    else mark = ' ' && (time? (rest.dropWhile (· = ' '))).any List.isEmpty

end ClientScript.Yaml.Timestamp
