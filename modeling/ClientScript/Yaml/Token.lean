import ClientScript.Yaml.Scalar

/-!
The tokens of a document. A scalar or a bracket turns out to be a key when a colon follows it on the same line, so
the tokens that open a mapping may be put in front of others that wait already.
-/

namespace ClientScript.Yaml

inductive Token where
  | streamStart
  | streamEnd
  | version (major minor : Nat)
  /-- What a short form of tags stands for. -/
  | handle (short long : String)
  | documentStart
  | documentEnd
  | sequenceStart
  | mappingStart
  | blockEnd
  | openSequence
  | closeSequence
  | openMapping
  | closeMapping
  | entry
  | comma
  | key
  | value
  | alias (name : String)
  | anchor (name : String)
  | tag (handle suffix : String)
  | scalar (quoted : Bool) (text : String)
deriving DecidableEq, Repr

/-- What may turn out to be a key: the number of its token and its place. In a block mapping a key has to follow. -/
structure PossibleKey where
  possible : Bool := false
  required : Bool := false
  token : Nat := 0
  index : Nat := 0
  line : Nat := 0
  column : Nat := 0
deriving DecidableEq, Repr

structure Scanner where
  place : Place
  /-- More than the steps that any reading takes. -/
  size : Nat
  waiting : List Token := [.streamStart]
  /-- The number of tokens that were taken. -/
  taken : Nat := 0
  indent : Int := -1
  outer : List Int := []
  keyAllowed : Bool := true
  /-- The number of brackets that are open. -/
  depth : Nat := 0
  /-- The latest possible key inside each pair of brackets and outside of all, the innermost first. -/
  keys : List PossibleKey := [{}]
  /-- Possible keys by their tokens, with the number of brackets around them. -/
  levels : List (Nat × Nat) := []
deriving Repr

abbrev Scan := StateT Scanner Option

namespace Scanner

def ofText (text : Text) : Scanner := { place := .ofText text, size := text.chars.length + 8 }

def inBrackets (scanner : Scanner) : Bool := 0 < scanner.depth

def maxDepth : Nat := 10000

def nextToken (scanner : Scanner) : Nat := scanner.taken + scanner.waiting.length

def dropLevel (token : Nat) (scanner : Scanner) : Scanner :=
  { scanner with levels := scanner.levels.filter fun level => level.1 ≠ token }

def setKey (key : PossibleKey) (scanner : Scanner) : Scanner :=
  { scanner with keys := key :: scanner.keys.drop 1 }

/-- The longest way from the start of a key to its colon. -/
def keyLimit : Nat := 1024

/-- Whether a key may still be completed. It has to end on its line and not too far away. -/
def isLive (scanner : Scanner) (key : PossibleKey) : Bool :=
  key.possible && key.line = scanner.place.line && scanner.place.index ≤ key.index + keyLimit

end Scanner

namespace Scan

def inside {α : Type} (action : Reading α) : Scan α := fun scanner =>
  (action.run scanner.place).map fun (value, place) => (value, { scanner with place })

def place : Scan Place := return (← get).place

def move (step : Place → Place) : Scan Unit :=
  modify fun scanner => { scanner with place := step scanner.place }

def ensure (condition : Bool) : Scan Unit := inside (Reading.ensure condition)

def allowKey (allowed : Bool) : Scan Unit :=
  modify ({ · with keyAllowed := allowed })

def emit (token : Token) : Scan Unit :=
  modify fun scanner => { scanner with waiting := scanner.waiting ++ [token] }

def insert (number : Nat) (token : Token) : Scan Unit :=
  modify fun scanner => { scanner with waiting := scanner.waiting.insertIdx (number - scanner.taken) token }

/-! Comments. -/

def commentReach : Nat := 512

def commentAt (count look : Nat) : Scan Bool := do
  inside (Reading.need (min look commentReach))
  return count < commentReach && (← place).ahead count = '#'

def passComment (count : Nat) : Scan Unit := do
  let rest := (← place).rest
  inside (Reading.skip (rest.take count ++ (rest.drop count).takeWhile fun char => !isBreak char))

/-- Passes a comment and those after it, with blanks and empty lines between them. The line breaks of no more than one
byte are meant. At least a number of characters is looked at. -/
def passComments : Nat → Nat → Scan Unit
  | 0, _ => failure
  | fuel + 1, least => do
    let rest := (← place).rest
    let gap := (rest.takeWhile fun char => isBlank char || char = '\n' || char = '\r').length
    let isWide := (rest.drop gap).head?.any isBreak
    if ← commentAt gap (max least (if isWide then gap + 2 else gap + 1)) then
      passComment gap
      passComments fuel 2

def passLineComment : Scan Unit := do
  let place ← place
  if !place.fresh then
    let gap := (place.rest.takeWhile isBlank).length
    if ← commentAt gap (gap + 1) then passComment gap

/-- Passes blanks, line breaks and comments. Tabs do not indent a line, unless brackets enclose it. -/
def passGap : Nat → Scan Unit
  | 0 => failure
  | fuel + 1 => do
    inside (Reading.need 1)
    let place ← place
    if place.column = 0 && place.marked then move (·.advance 1)
    let scanner ← get
    let tabs := scanner.inBrackets || !scanner.keyAllowed
    let _ ← inside (Reading.takeWhile fun char => char = ' ' || (tabs && char = '\t'))
    if (← get).place.next = '#' then passComments (fuel + 1) 1
    if isBreak (← get).place.next then
      let _ ← inside Reading.lineBreak
      if !scanner.inBrackets then allowKey true
      passGap fuel

/-! Keys. -/

def dropKey : Scan Unit := do
  match (← get).keys with
  | [] => failure
  | key :: _ =>
    if key.possible then
      ensure (!key.required)
      modify fun scanner => (scanner.setKey { key with possible := false }).dropLevel key.token

def saveKey : Scan Unit := do
  let scanner ← get
  if scanner.keyAllowed then
    dropKey
    let key : PossibleKey :=
      { possible := true
        required := !scanner.inBrackets && scanner.indent = scanner.place.column
        token := scanner.nextToken
        index := scanner.place.index
        line := scanner.place.line
        column := scanner.place.column }
    modify fun scanner =>
      { scanner.setKey key with
        levels := (key.token, scanner.depth) :: (scanner.dropLevel key.token).levels }

def checkKey (level : Nat) : Scan Bool := do
  let scanner ← get
  let slot := scanner.depth - level
  match scanner.keys[slot]? with
  | none => return false
  | some key =>
    if scanner.isLive key then return true
    else
      ensure (!(key.possible && key.required))
      modify fun scanner => { scanner with keys := scanner.keys.set slot { key with possible := false } }
      return false

/-! Indentation. -/

/-- Opens a block in a column further right, at the end or in front of a token that waits. -/
def indentTo (column : Nat) (number : Option Nat) (token : Token) : Scan Unit := do
  let scanner ← get
  if !scanner.inBrackets && scanner.indent < column then
    set { scanner with indent := column, outer := scanner.indent :: scanner.outer }
    ensure (scanner.outer.length < Scanner.maxDepth)
    match number with
    | none => emit token
    | some number => insert number token

def closeTo (column : Int) : List Int → Scan Unit
  | [] => return ()
  | indent :: outer => do
    let scanner ← get
    if !scanner.inBrackets && column < scanner.indent then
      set { scanner with indent, outer }
      emit .blockEnd
      closeTo column outer

def unindentTo (column : Int) : Scan Unit := do
  closeTo column (← get).outer

/-! Names, tags and directives. -/

def isNameChar (char : Char) : Bool := char.isAlphanum || char = '_' || char = '-'

def anchorName : Reading String := do
  modify (·.advance 1)
  let name ← Reading.takeWhile isNameChar
  let rest := (← get).rest
  Reading.ensure (!name.isEmpty && (atGap rest || "?:,]\x7d%@`".toList.contains (rest.headD ' ')))
  return String.ofList name

def isTagChar (char : Char) : Bool := isNameChar char || ";/?:@&=+$,.!~*'()[]".toList.contains char

/-- The short form that a tag starts with, up to a second exclamation mark. -/
def tagHandle : Reading (List Char) := do
  modify (·.advance 1)
  let name ← Reading.takeWhile isNameChar
  if ← Reading.take? '!' then return '!' :: name ++ ['!'] else return '!' :: name

def escapedByte : Reading UInt8 := do
  Reading.need 3
  let place ← get
  Reading.ensure (place.next = '%')
  match hexValue? (place.ahead 1), hexValue? (place.ahead 2) with
  | some high, some low =>
    modify (·.advance 3)
    return UInt8.ofNat (high * 16 + low)
  | _, _ => failure

def escapedMore : Nat → Reading (List UInt8)
  | 0 => return []
  | count + 1 => do
    let byte ← escapedByte
    Reading.ensure (byte.toNat / 64 = 2)
    return byte :: (← escapedMore count)

def escapedChar : Reading Char := do
  let first ← escapedByte
  match Utf8.size? first with
  | none => failure
  | some size => return (Utf8.char? (first :: (← escapedMore (size - 1)))).getD Utf8.replacement

def tagChars : Nat → Reading (List Char)
  | 0 => failure
  | fuel + 1 => do
    let chars ← Reading.takeWhile isTagChar
    if (← get).next = '%' then
      let char ← escapedChar
      return chars ++ char :: (← tagChars fuel)
    else return chars

def tagText : Reading (List Char) := do
  tagChars ((← get).rest.length + 1)

/-- A tag: a short form and what follows it. A tag between angles has no short form. -/
def tagName : Reading Token := do
  Reading.need 2
  if (← get).ahead 1 = '<' then
    modify (·.advance 2)
    let suffix ← tagText
    Reading.ensure (!suffix.isEmpty)
    Reading.ensure (← Reading.take? '>')
    Reading.need 1
    Reading.ensure (atGap (← get).rest)
    return .tag "" (String.ofList suffix)
  else
    let handle ← tagHandle
    let suffix ← tagText
    Reading.ensure (atGap (← get).rest)
    if 1 < handle.length && handle.getLast? = some '!' then
      Reading.ensure (!suffix.isEmpty)
      return .tag (String.ofList handle) (String.ofList suffix)
    else
      let suffix := handle.drop 1 ++ suffix
      if suffix.isEmpty then return .tag "" "!" else return .tag "!" (String.ofList suffix)

def versionNumber : Reading Nat := do
  let digits ← Reading.takeWhile Char.isDigit
  Reading.ensure (!digits.isEmpty && digits.length ≤ 2)
  return digits.foldl (fun number char => number * 10 + (char.toNat - '0'.toNat)) 0

def directive : Reading Token := do
  modify (·.advance 1)
  let name ← Reading.takeWhile isNameChar
  Reading.ensure (atGap (← get).rest)
  let blanks := Reading.takeWhile isBlank
  if name = "YAML".toList then
    let _ ← blanks
    let major ← versionNumber
    Reading.ensure (← Reading.take? '.')
    let minor ← versionNumber
    endLine
    return .version major minor
  else if name = "TAG".toList then
    let _ ← blanks
    Reading.ensure ((← get).next = '!')
    let short ← tagHandle
    Reading.ensure (short = ['!'] || short.getLast? = some '!')
    Reading.need 1
    Reading.ensure (isBlank (← get).next)
    let _ ← blanks
    let long ← tagText
    Reading.ensure (!long.isEmpty && atGap (← get).rest)
    endLine
    return .handle (String.ofList short) (String.ofList long)
  else failure

/-! Tokens. -/

def closeAll : Scan Unit := do
  unindentTo (-1)
  dropKey
  allowKey false

def readEnd : Scan Unit := do
  move fun place => if place.column = 0 then place else { place with line := place.line + 1, column := 0 }
  closeAll
  emit .streamEnd

def readMark (token : Token) : Scan Unit := do
  closeAll
  move (·.advance 3)
  emit token

def readDirective : Scan Unit := do
  closeAll
  emit (← inside directive)

def openBracket (token : Token) : Scan Unit := do
  saveKey
  modify fun scanner =>
    { scanner with depth := scanner.depth + 1, keys := { token := scanner.nextToken } :: scanner.keys }
  ensure ((← get).depth ≤ Scanner.maxDepth)
  allowKey true
  move (·.advance 1)
  emit token

def closeBracket (token : Token) : Scan Unit := do
  dropKey
  let scanner ← get
  match scanner.keys with
  | key :: outer :: more =>
    set { scanner.dropLevel key.token with depth := scanner.depth - 1, keys := outer :: more }
  | _ => pure ()
  allowKey false
  move (·.advance 1)
  emit token

def readComma : Scan Unit := do
  dropKey
  allowKey true
  move (·.advance 1)
  emit .comma

/-- A dash opens a sequence, or adds an item to one. -/
def readEntry : Scan Unit := do
  let scanner ← get
  if !scanner.inBrackets then
    ensure scanner.keyAllowed
    indentTo scanner.place.column none .sequenceStart
  dropKey
  allowKey true
  move (·.advance 1)
  emit .entry

def readKey : Scan Unit := do
  let scanner ← get
  if !scanner.inBrackets then
    ensure scanner.keyAllowed
    indentTo scanner.place.column none .mappingStart
  dropKey
  allowKey (!scanner.inBrackets)
  move (·.advance 1)
  emit .key

/-- A colon makes a key of what was noted, or follows an announced key. -/
def readValue : Scan Unit := do
  let scanner ← get
  if ← checkKey scanner.depth then
    match scanner.keys with
    | [] => failure
    | key :: _ =>
      insert key.token .key
      indentTo key.column (some key.token) .mappingStart
      modify fun scanner => (scanner.setKey { key with possible := false }).dropLevel key.token
      allowKey false
  else
    if !scanner.inBrackets then
      ensure scanner.keyAllowed
      indentTo scanner.place.column none .mappingStart
    allowKey (!scanner.inBrackets)
  move (·.advance 1)
  emit .value

def readName (read : Reading Token) : Scan Unit := do
  saveKey
  allowKey false
  emit (← inside read)

def readBlock (literal : Bool) : Scan Unit := do
  dropKey
  allowKey true
  emit (.scalar true (String.ofList (← inside (block literal (← get).indent))))

def readQuoted (single : Bool) : Scan Unit := do
  saveKey
  allowKey false
  emit (.scalar true (String.ofList (← inside (quoted single))))

def readPlain : Scan Unit := do
  saveKey
  allowKey false
  let scanner ← get
  let (text, broken) ← inside (plainFrom scanner.inBrackets (scanner.indent + 1) scanner.size [] {})
  emit (.scalar false (String.ofList text))
  if broken then allowKey true

def readAt (char : Char) (rest : List Char) : Scan Unit := do
  let flow := (← get).inBrackets
  if char = '[' then openBracket .openSequence
  else if char = '\x7b' then openBracket .openMapping
  else if char = ']' then closeBracket .closeSequence
  else if char = '\x7d' then closeBracket .closeMapping
  else if char = ',' then readComma
  else if char = '-' && atGap rest then readEntry
  else if char = '?' && (flow || atGap rest) then readKey
  else if char = ':' && (flow || atGap rest) then readValue
  else if char = '*' then readName (Token.alias <$> anchorName)
  else if char = '&' then readName (Token.anchor <$> anchorName)
  else if char = '!' then readName tagName
  else if char = '|' && !flow then readBlock true
  else if char = '>' && !flow then readBlock false
  else if char = '\'' then readQuoted true
  else if char = '"' then readQuoted false
  else if startsPlain flow (char :: rest) then readPlain
  else failure

def readToken : Scan Unit := do
  inside (Reading.need 1)
  passGap (← get).size
  unindentTo (← place).column
  inside (Reading.need 4)
  let place ← place
  match place.rest with
  | [] => readEnd
  | char :: rest =>
    if place.column = 0 && char = '%' then readDirective
    else if place.column = 0 && atMark '-' place.rest then readMark .documentStart
    else if place.column = 0 && atMark '.' place.rest then readMark .documentEnd
    else
      readAt char rest
      if (← get).waiting.getLast? ≠ some .entry then passLineComment

/-- Reads tokens until two wait behind the first and the first is no possible key. -/
def fill : Nat → Scan Unit
  | 0 => failure
  | fuel + 1 => do
    let scanner ← get
    if scanner.waiting.length < 3 then
      readToken
      fill fuel
    else
      match scanner.levels.lookup scanner.taken with
      | none => return ()
      | some level =>
        if ← checkKey level then
          readToken
          fill fuel

def peek : Scan Token := do
  fill (← get).size
  match (← get).waiting with
  | [] => failure
  | token :: _ => return token

def drop : Scan Unit :=
  modify fun scanner => { scanner with waiting := scanner.waiting.drop 1, taken := scanner.taken + 1 }

end Scan

end ClientScript.Yaml
