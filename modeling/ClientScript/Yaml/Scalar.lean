import ClientScript.Yaml.Place

/-!
Scalars: plain ones, ones between quotes, and blocks of indented lines.
-/

namespace ClientScript.Yaml

/-- The text that the line breaks between two lines leave: one line break becomes a blank, and of several the
first is dropped. A line break of a paragraph or a page stays. -/
def foldBreaks : List Char → List Char
  | [] => []
  | ['\n'] => [' ']
  | '\n' :: more => more
  | breaks => breaks

/-! Plain scalars. -/

/-- The start of a plain scalar up to a blank, a colon or a bracket. -/
def takeWord (flow : Bool) : List Char → List Char
  | [] => []
  | char :: rest =>
    if isBlank char || isBreak char || (char = ':' && atGap rest) ||
        (flow && [',', '?', '[', ']', '\x7b', '\x7d'].contains char) then []
    else char :: takeWord flow rest

structure Gap where
  blanks : List Char := []
  breaks : List Char := []
  length : Nat := 0
deriving DecidableEq, Repr

namespace Gap

/-- Adds the characters of a gap, in which no tab may stand left of the indentation. -/
def extend (indent : Int) (gap : Gap) (column : Nat) : List Char → Option Gap
  | [] => some gap
  | '\r' :: '\n' :: rest => extend indent ⟨[], gap.breaks ++ ['\n'], gap.length + 2⟩ 0 rest
  | char :: rest =>
    if isBreak char then
      extend indent ⟨[], gap.breaks ++ [plainBreak char], gap.length + 1⟩ 0 rest
    else if isBlank char then
      if char = '\t' && !gap.breaks.isEmpty && column < indent then none
      else
        let blanks := if gap.breaks.isEmpty then gap.blanks ++ [char] else []
        extend indent ⟨blanks, gap.breaks, gap.length + 1⟩ (column + 1) rest
    else some gap

def folded (gap : Gap) : List Char :=
  if gap.breaks.isEmpty then gap.blanks else foldBreaks gap.breaks

def read (indent : Int) : Reading Gap := do
  let place ← get
  match extend indent {} place.column place.rest with
  | none => failure
  | some gap =>
    Reading.skip (place.rest.take gap.length)
    return gap

end Gap

/-- Reads the words of a plain scalar after the text so far, which is given from its end on. Each further line is
indented. Tells also whether the scalar ends with a line break. -/
def plainFrom (flow : Bool) (indent : Int) : Nat → List Char → Gap → Reading (List Char × Bool)
  | 0, _, _ => failure
  | fuel + 1, text, gap => do
    Reading.need 4
    let place ← get
    if (place.column = 0 && (atMark '-' place.rest || atMark '.' place.rest)) || place.next = '#' then
      return (text.reverse, !gap.breaks.isEmpty)
    else
      let word := takeWord flow place.rest
      if word.isEmpty then return (text.reverse, !gap.breaks.isEmpty)
      else
        Reading.pass 2 word.length
        let text := (gap.folded ++ word).reverse ++ text
        let place ← get
        if isBlank place.next || isBreak place.next then
          let gap ← Gap.read indent
          if !flow && (← get).column < indent then return (text.reverse, !gap.breaks.isEmpty)
          else plainFrom flow indent fuel text gap
        else return (text.reverse, false)

def startsPlain (flow : Bool) : List Char → Bool
  | [] => false
  | char :: rest =>
    if char = '-' then !(rest.head?.any isBlank)
    else if char = '?' || char = ':' then !flow && !atGap rest
    else !(isBlank char || isBreak char || ",[]\x7b\x7d#&*!|>'\"%@`".toList.contains char)

/-! Quoted scalars. -/

inductive Piece where
  | letter (char : Char)
  | blank (char : Char)
  | lineBreak (char : Char)
  /-- A line break that a backslash hides. -/
  | splice
deriving DecidableEq, Repr

namespace Piece

def ofChar (char : Char) : Piece :=
  if isBreak char then .lineBreak (plainBreak char) else if isBlank char then .blank char else .letter char

def isGap : Piece → Bool
  | .blank _ | .lineBreak _ => true
  | _ => false

/-- Joins the lines of a quoted scalar, after blanks, or after line breaks that a spliced one may precede. -/
def fold (blanks breaks : List Char) (spliced : Bool) : List Piece → List Char
  | [] => flush
  | .letter char :: rest => flush ++ char :: fold [] [] false rest
  | .blank char :: rest =>
    fold (if breaks.isEmpty && !spliced then blanks ++ [char] else []) breaks spliced rest
  | .lineBreak char :: rest => fold [] (breaks ++ [char]) spliced rest
  | .splice :: rest => flush ++ fold [] [] true rest
where
  flush : List Char :=
    if spliced then breaks else if breaks.isEmpty then blanks else foldBreaks breaks

/-- Passes a piece that is written with a number of characters. The digits of a code follow two of them. -/
def pass (length : Nat) : Piece → Reading Unit
  | .letter _ => do
    modify (·.advance (min length 2))
    if 2 < length then
      Reading.need (length - 2)
      modify (·.advance (length - 2))
    Reading.need 2
  | .blank _ => Reading.pass 1 1
  | .lineBreak _ => do
    let _ ← Reading.lineBreak
    Reading.need 1
  | .splice => do
    Reading.need 3
    modify (·.advance 1)
    modify Place.nextLine
    Reading.need 1

/-- Whether a mark that divides documents is looked for between two pieces, or before the closing quote. -/
def endsGap (piece : Piece) : Option Piece → Bool
  | none => piece.isGap
  | some next => (piece.isGap || piece = .splice) && !next.isGap

end Piece

abbrev Pieces := List (Piece × Nat)

namespace Pieces

def widen : Pieces → Pieces
  | [] => []
  | (piece, length) :: rest => (piece, length + 1) :: rest

def pass : Pieces → Reading Unit
  | [] => return ()
  | (piece, length) :: rest => do
    piece.pass length
    if piece.endsGap (rest.head?.map (·.1)) then Reading.need 4
    pass rest

end Pieces

/-- Where a reader of quoted text stands: in the text, at the start of a line, after a backslash, or before the
last digits of a character code. -/
inductive QuoteState where
  | text
  | lineStart
  | escape
  | code (left value : Nat)
deriving DecidableEq, Repr

def QuoteState.after (char : Char) : QuoteState := if isBreak char then .lineStart else .text

def QuoteState.atMark (state : QuoteState) (chars : List Char) : Bool :=
  state = .lineStart && (Yaml.atMark '-' chars || Yaml.atMark '.' chars)

def atPair (chars : List Char) : Bool := chars.take 2 = ['\r', '\n']

/-- The pieces up to the closing quote, which is written twice to stand for itself. -/
def singleQuoted (state : QuoteState) : List Char → Option Pieces
  | [] => none
  | '\'' :: '\'' :: rest => (singleQuoted .text rest).map fun pieces => (.letter '\'', 2) :: pieces
  | '\'' :: _ => some []
  | char :: rest =>
    if state.atMark (char :: rest) then none
    else if atPair (char :: rest) then (singleQuoted state rest).map Pieces.widen
    else (singleQuoted (.after char) rest).map fun pieces => (.ofChar char, 1) :: pieces

def escaped? : Char → Option Char
  | '0' => some '\x00'
  | 'a' => some '\x07'
  | 'b' => some '\x08'
  | 't' => some '\t'
  | '\t' => some '\t'
  | 'n' => some '\n'
  | 'v' => some '\x0b'
  | 'f' => some '\x0c'
  | 'r' => some '\r'
  | 'e' => some '\x1b'
  | ' ' => some ' '
  | '"' => some '"'
  | '\'' => some '\''
  | '\\' => some '\\'
  | 'N' => some '\u0085'
  | '_' => some '\u00a0'
  | 'L' => some '\u2028'
  | 'P' => some '\u2029'
  | _ => none

def codeLength? : Char → Option Nat
  | 'x' => some 2
  | 'u' => some 4
  | 'U' => some 8
  | _ => none

def hexValue? (char : Char) : Option Nat :=
  if char.isDigit then some (char.toNat - '0'.toNat)
  else if 'a' ≤ char && char ≤ 'f' then some (char.toNat - 'a'.toNat + 10)
  else if 'A' ≤ char && char ≤ 'F' then some (char.toNat - 'A'.toNat + 10)
  else none

def doubleQuoted (state : QuoteState) : List Char → Option Pieces
  | [] => none
  | char :: rest =>
    let onward (state : QuoteState) : Option Pieces := (doubleQuoted state rest).map Pieces.widen
    let more (piece : Piece) (state : QuoteState) : Option Pieces :=
      (doubleQuoted state rest).map fun pieces => (piece, 1) :: pieces
    if state.atMark (char :: rest) then none
    else if atPair (char :: rest) then onward state
    else
      match state with
      | .escape =>
        if isBreak char then more .splice .lineStart
        else
          match codeLength? char, escaped? char with
          | some length, _ => onward (.code length 0)
          | none, some char => more (.letter char) .text
          | none, none => none
      | .code left value =>
        match hexValue? char with
        | none => none
        | some digit =>
          if 1 < left then onward (.code (left - 1) (value * 16 + digit))
          else
            match charOfCode? (value * 16 + digit) with
            | none => none
            | some char => more (.letter char) .text
      | _ =>
        if char = '"' then some []
        else if char = '\\' then onward .escape
        else more (.ofChar char) (.after char)

def quoted (single : Bool) : Reading (List Char) := do
  modify (·.advance 1)
  Reading.need 4
  let inner := (← get).rest
  match if single then singleQuoted .text inner else doubleQuoted .text inner with
  | none => failure
  | some pieces =>
    pieces.pass
    modify (·.advance 1)
    return Piece.fold [] [] false (pieces.map (·.1))

/-! Blocks of lines. -/

/-- What is kept of the line breaks at the end of a block: none, the first, or all. -/
inductive Chomping where
  | strip
  | clip
  | keep
deriving DecidableEq, Repr

def chomping? : Reading (Option Chomping) := do
  if ← Reading.take? '+' then return some .keep
  else if ← Reading.take? '-' then return some .strip
  else return none

/-- A digit that says how far a block is indented. Zero is none. -/
def increment? : Reading (Option Nat) := do
  Reading.need 1
  let char := (← get).next
  if char.isDigit then
    Reading.ensure (char ≠ '0')
    modify (·.advance 1)
    return some (char.toNat - '0'.toNat)
  else return none

def blockHeader : Reading (Chomping × Nat) := do
  match ← chomping? with
  | some chomping => return (chomping, (← increment?).getD 0)
  | none =>
    let increment ← increment?
    let chomping ← if increment.isSome then chomping? else pure none
    return (chomping.getD .clip, increment.getD 0)

def endLine : Reading Unit := do
  let _ ← Reading.takeWhile isBlank
  if (← get).next = '#' then
    let _ ← Reading.takeWhile fun char => !isBreak char
  Reading.ensure (atGap (← get).rest)
  if isBreak (← get).next then
    let _ ← Reading.lineBreak

/-- Passes indentation and empty lines. Gives the widest indentation and the line breaks. An indentation of zero is
not known yet. -/
def blockGap (indent : Nat) : Nat → Nat → List Char → Reading (Nat × List Char)
  | 0, _, _ => failure
  | fuel + 1, widest, breaks => do
    Reading.need 1
    let place ← get
    let spaces := (place.rest.takeWhile (· = ' ')).length
    Reading.pass 1 (if indent = 0 then spaces else min spaces (indent - place.column))
    let place ← get
    Reading.ensure (!((indent = 0 || place.column < indent) && place.next = '\t'))
    if isBreak place.next then
      let lineBreak ← Reading.lineBreak
      blockGap indent fuel (max widest place.column) (breaks ++ lineBreak)
    else return (max widest place.column, breaks)

/-- The lines of a block after those so far, which end with a line break and empty lines. -/
def blockLines (literal : Bool) (indent : Nat) :
    Nat → List Char → List Char → List Char → Bool → Reading (List Char × List Char × List Char)
  | 0, _, _, _, _ => failure
  | fuel + 1, text, ending, breaks, indented => do
    let place ← get
    if place.column = indent && !place.rest.isEmpty then
      let blank := isBlank place.next
      let joint :=
        if !literal && !indented && !blank && ending = ['\n'] then
          if breaks.isEmpty then [' '] else []
        else ending
      let line ← Reading.takeWhile fun char => !isBreak char
      let ending ← Reading.lineBreak
      let (_, after) ← blockGap indent fuel 0 []
      blockLines literal indent fuel (text ++ joint ++ breaks ++ line) ending after blank
    else return (text, ending, breaks)

def block (literal : Bool) (outer : Int) : Reading (List Char) := do
  modify (·.advance 1)
  let (chomping, increment) ← blockHeader
  endLine
  let size := (← get).rest.length + 1
  let indent := if increment = 0 then 0 else (max outer 0).toNat + increment
  let (widest, breaks) ← blockGap indent size 0 []
  let indent := if indent = 0 then max (max widest (outer + 1).toNat) 1 else indent
  let (text, ending, breaks) ← blockLines literal indent size [] [] breaks false
  match chomping with
  | .strip => return text
  | .clip => return text ++ ending
  | .keep => return text ++ ending ++ breaks

end ClientScript.Yaml
