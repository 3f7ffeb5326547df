import ClientScript.Yaml.Text

/-!
Where a reader of a document stands, and the steps it takes.
-/

namespace ClientScript.Yaml

def isBlank (char : Char) : Bool := char = ' ' || char = '\t'

def isBreak (char : Char) : Bool := ['\r', '\n', '\u0085', '\u2028', '\u2029'].contains char

def plainBreak (char : Char) : Char := if char = '\r' || char = '\u0085' then '\n' else char

def breakLength : List Char → Nat
  | '\r' :: '\n' :: _ => 2
  | _ => 1

def atGap : List Char → Bool
  | [] => true
  | char :: _ => isBlank char || isBreak char

def atMark (mark : Char) (chars : List Char) : Bool :=
  chars.take 3 = [mark, mark, mark] && atGap (chars.drop 3)

structure Place where
  rest : List Char
  /-- The blocks that are not fetched yet. -/
  blocks : List (Option Nat)
  /-- The number of characters that are fetched and not passed. -/
  held : Nat := 0
  /-- The last fetch was at a byte order mark. Until the next one, the first character of a line may be passed over. -/
  marked : Bool := false
  index : Nat := 0
  line : Nat := 0
  column : Nat := 0
  /-- Only blanks were passed since the last line break. -/
  fresh : Bool := false
deriving Repr

abbrev Reading := StateT Place Option

namespace Place

def ofText (text : Text) : Place := { rest := text.chars, blocks := text.blocks }

/-- The character some way ahead. The end of the text counts as a character that is in no text. -/
def ahead (place : Place) (count : Nat) : Char := place.rest.getD count '\x00'

def next (place : Place) : Char := place.ahead 0

def advance (count : Nat) (place : Place) : Place :=
  { place with
    rest := place.rest.drop count
    held := place.held - count
    index := place.index + count
    column := place.column + count
    fresh := place.fresh && (place.rest.take count).all isBlank }

def nextLine (place : Place) : Place :=
  { place.advance (breakLength place.rest) with line := place.line + 1, column := 0, fresh := true }

/-- Fetches blocks until a number of characters is held, or up to the end, which is held as one more character. Fails
at a block that is damaged. -/
def fetch? (count : Nat) (held : Nat) : List (Option Nat) → Option (Nat × List (Option Nat))
  | [] => some (held + 1, [])
  | none :: _ => none
  | some more :: blocks =>
    if count ≤ held + more then some (held + more, blocks) else fetch? count (held + more) blocks

end Place

namespace Reading

def need (count : Nat) : Reading Unit := do
  let place ← get
  if place.held < count then
    match Place.fetch? count place.held place.blocks with
    | none => failure
    | some (held, blocks) => set { place with held, blocks, marked := place.next = '\ufeff' }

def pass (ahead : Nat) : Nat → Reading Unit
  | 0 => return ()
  | count + 1 => do
    modify (·.advance 1)
    need ahead
    pass ahead count

def takeWhile (isOne : Char → Bool) : Reading (List Char) := do
  need 1
  let taken := (← get).rest.takeWhile isOne
  pass 1 taken.length
  return taken

def take? (char : Char) : Reading Bool := do
  need 1
  if (← get).next = char then
    modify (·.advance 1)
    return true
  else return false

def lineBreak : Reading (List Char) := do
  need 2
  let place ← get
  if isBreak place.next then
    set place.nextLine
    return [plainBreak place.next]
  else return []

def skip : List Char → Reading Unit
  | [] => need 1
  | '\r' :: '\n' :: chars => do
    need 1
    let _ ← lineBreak
    skip chars
  | char :: chars => do
    need 1
    if isBreak char then
      let _ ← lineBreak
    else modify (·.advance 1)
    skip chars

def ensure (condition : Bool) : Reading Unit :=
  if condition then return () else failure

end Reading

end ClientScript.Yaml
