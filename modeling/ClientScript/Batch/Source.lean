import ClientScript.Files

/-!
Where scripts come from. A script has a number, and a directory keeps it in the file named by that
number and an extension.
-/

namespace ClientScript

inductive LoadError where
  | missing (id : Int32)
  | file (error : FileError)
  | other (text : String)
deriving DecidableEq, Repr

namespace LoadError

def message : LoadError → String
  | .missing id => "script " ++ toString id.toInt ++ ": file does not exist"
  | .file error => error.message
  | .other text => text

end LoadError

/-- What comes of asking for a script. The last two never give an answer, and the last one calls the
whole run off. -/
inductive Load where
  | found (bytes : List UInt8)
  | failed (error : LoadError)
  | stalled
  | calledOff
deriving DecidableEq, Repr

namespace Load

def ofExcept : Except LoadError (List UInt8) → Load
  | .ok bytes => .found bytes
  | .error error => .failed error

end Load

/-- The scripts and a clock that counts nanoseconds. -/
structure Source (m : Type → Type) where
  load : Int32 → m Load
  now : m Nat

def scriptFile (ext : String) (id : Int32) : String := toString id.toInt ++ ext

namespace Files

variable {m : Type → Type} [Monad m]

def loadScript (files : Files m) (dir ext : String) (id : Int32) : m (Except LoadError (List UInt8)) := do
  return (← files.read (Path.join dir (scriptFile ext id))).mapError .file

end Files

/-- Reads digits as a number of that sign, unless it has no room in 32 bits. -/
def signedId? (negative : Bool) (digits : List Char) : Option Int32 :=
  if digits.isEmpty || !digits.all Char.isDigit then none
  else
    let size : Int := Nat.ofDigitChars 10 digits 0
    let number := if negative then -size else size
    if -2147483648 ≤ number && number < 2147483648 then some (Int32.ofInt number) else none

def scriptId? : List Char → Option Int32
  | '-' :: digits => signedId? true digits
  | '+' :: digits => signedId? false digits
  | digits => signedId? false digits

namespace DirEntry

def scriptId? (ext : String) (entry : DirEntry) : Option Int32 :=
  if entry.isDir || Path.extension entry.name ≠ ext then none
  else ClientScript.scriptId? (entry.name.toList.take (entry.name.length - ext.length))

end DirEntry

def scriptIds (ext : String) (entries : List DirEntry) : List Int32 :=
  (entries.filterMap (DirEntry.scriptId? ext)).mergeSort (· ≤ ·)

end ClientScript
