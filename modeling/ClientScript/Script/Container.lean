import ClientScript.Bytes.Writer
import ClientScript.Operand

/-!
Compiled scripts. A script is stored as its name, closed by a NUL byte, its code, and a trailer: the
number of instructions (32 bits), the numbers of integer and string locals and of integer and string
arguments (16 bits each), the switch section, and the length of that section (16 bits). The section is
the number of its tables (a byte), and for each table the number of its cases (16 bits) and the label
and displacement of each case (32 bits each).
-/

namespace ClientScript

structure Script where
  name : String := ""
  code : List UInt8 := []
  instructionCount : Int := 0
  localInts : Int := 0
  localStrings : Int := 0
  intArgs : Int := 0
  stringArgs : Int := 0
  switches : List RawTable := []
deriving DecidableEq, Repr

inductive ContainerError where
  | tooSmall (size : Nat)
  | name (error : ReadError)
  | sectionLength (length : Nat)
  | tableCases (table cases : Nat)
  | trailer (error : ReadError)
  | strayBytes (count : Nat)
  | instructionCount (count : Int)
  | headerValue (value : Int)
  | tableCount (count : Nat)
  | caseCount (count : Nat)
deriving DecidableEq, Repr

namespace ContainerError

def detail : ContainerError → String
  | .tooSmall size => toString size ++ " bytes"
  | .name error => "name: " ++ error.message
  | .sectionLength length => "switch section of " ++ toString length ++ " bytes"
  | .tableCases table cases => "switch " ++ toString table ++ " has " ++ toString cases ++ " cases"
  | .trailer error => "trailer: " ++ error.message
  | .strayBytes count => toString count ++ " stray bytes in the switch section"
  | .instructionCount count => "instruction count " ++ toString count
  | .headerValue value => "header value " ++ toString value
  | .tableCount count => toString count ++ " switch tables"
  | .caseCount count => toString count ++ " cases"

def message (error : ContainerError) : String :=
  "malformed script container: " ++ error.detail

end ContainerError

namespace Script

/-- The length of a trailer apart from its switch section. -/
def fixedTrailer : Nat := 4 + 4 * 2 + 2

def part {α : Type} (read : Read ReadError α) : Read ContainerError α :=
  read.mapError .trailer

def readCases : Nat → Read ContainerError RawTable
  | 0 => pure []
  | count + 1 => do
    let label ← part Read.i32
    let disp ← part Read.i32
    let more ← readCases count
    return ⟨label, disp⟩ :: more

def readTables (number : Nat) : Nat → Read ContainerError (List RawTable)
  | 0 => pure []
  | count + 1 => do
    let cases ← part Read.u16
    let left ← Read.left
    if left < cases.toNat * 8 then
      Read.fail (.tableCases number cases.toNat)
    else
      let table ← readCases cases.toNat
      let more ← readTables (number + 1) count
      return table :: more

/-- Reads a whole trailer without its last two bytes, into a script without name and code. -/
def readTrailer : Read ContainerError Script := do
  let count ← part Read.i32
  let localInts ← part Read.u16
  let localStrings ← part Read.u16
  let intArgs ← part Read.u16
  let stringArgs ← part Read.u16
  let tables ← part Read.byte
  let switches ← readTables 0 tables.toNat
  let left ← Read.left
  if left ≠ 0 then
    Read.fail (.strayBytes left)
  else if count < 0 then
    Read.fail (.instructionCount count.toInt)
  else
    return {
      instructionCount := count.toInt
      localInts := localInts.toNat
      localStrings := localStrings.toNat
      intArgs := intArgs.toNat
      stringArgs := stringArgs.toNat
      switches := switches }

def lastWord (bytes : List UInt8) : Nat :=
  match bytes.drop (bytes.length - 2) with
  | [high, low] => high.toNat * 256 + low.toNat
  | _ => 0

def read (bytes : List UInt8) : Except ContainerError Script :=
  if bytes.length < fixedTrailer + 1 then
    .error (.tooSmall bytes.length)
  else
    match Read.text bytes with
    | .error error => .error (.name error)
    | .ok (name, codeStart) =>
      let length := lastWord bytes
      if length < 1 ∨ bytes.length < codeStart + length + fixedTrailer then
        .error (.sectionLength length)
      else
        let codeEnd := bytes.length - length - fixedTrailer
        match readTrailer ((bytes.drop codeEnd).take (length + fixedTrailer - 2)) with
        | .error error => .error error
        | .ok (script, _) =>
          .ok { script with name := name, code := (bytes.take codeEnd).drop codeStart }

def sectionLength (script : Script) : Nat :=
  script.switches.foldr (fun table length => 2 + 8 * table.length + length) 1

/-- The first thing that cannot be stored, the name apart. -/
def unstorable (script : Script) : Option ContainerError :=
  ([script.localInts, script.localStrings, script.intArgs, script.stringArgs].findSome? fun value =>
      if value < 0 ∨ 65535 < value then some (.headerValue value) else none)
    <|> (if 255 < script.switches.length then some (.tableCount script.switches.length) else none)
    <|> (script.switches.findSome? fun table =>
      if 65535 < table.length then some (.caseCount table.length) else none)
    <|> (if 65535 < script.sectionLength then some (.sectionLength script.sectionLength) else none)

def writeTable (writer : Writer) (table : RawTable) : Writer :=
  table.foldl (fun writer row => (writer.i32 row.label).i32 row.disp)
    (writer.u16 (UInt16.ofNat table.length))

/-- Writes a script. Of the number of instructions the last 32 bits are kept. -/
def write (script : Script) (writer : Writer) : Writer :=
  let header := ((writer.text script.name).bytes script.code).i32 (Int32.ofInt script.instructionCount)
  let header := (header.u16 (UInt16.ofNat script.localInts.toNat)).u16 (UInt16.ofNat script.localStrings.toNat)
  let header := (header.u16 (UInt16.ofNat script.intArgs.toNat)).u16 (UInt16.ofNat script.stringArgs.toNat)
  let tables := script.switches.foldl writeTable (header.byte (UInt8.ofNat script.switches.length))
  tables.u16 (UInt16.ofNat script.sectionLength)

inductive StoreError where
  | format (error : ContainerError)
  | write (error : WriteError)
deriving DecidableEq, Repr

def StoreError.message : StoreError → String
  | .format error => error.message
  | .write error => error.message

def bytes (script : Script) : Except StoreError (List UInt8) :=
  match script.unstorable with
  | some error => .error (.format error)
  | none =>
    let writer := script.write Writer.buffer
    writer.failure.elim (.ok writer.content) fun error => .error (.write error)

end Script

end ClientScript
