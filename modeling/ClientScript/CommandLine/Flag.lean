import ClientScript.Text.Duration
import ClientScript.Yaml.Value

/-!
Flags of a command line. A flag has one or more names, each written after one dash or two. Its value
follows after an equals sign or as the next word. Words that are no flags are operands.
-/

namespace ClientScript

inductive FlagKind where
  /-- The flag is on if it is given. -/
  | switch
  | text
  | int
  | duration
deriving DecidableEq, Repr

structure Flag where
  names : List String
  kind : FlagKind
deriving DecidableEq, Repr

inductive FlagValue where
  | switch (on : Bool)
  | text (value : String)
  | int (value : Int)
  | duration (value : Duration)
deriving DecidableEq, Repr

inductive FlagError where
  | unknown (name : String)
  | badSyntax (word : String)
  | noValue (name : String)
  | badValue (name value : String)
  | twoForms (one other : String)
deriving DecidableEq, Repr

namespace FlagError

def message : FlagError → String
  | .unknown name => "flag provided but not defined: -" ++ name
  | .badSyntax word => "bad flag syntax: " ++ word
  | .noValue name => "flag needs an argument: -" ++ name
  | .badValue name value => "invalid value \"" ++ value ++ "\" for flag -" ++ name ++ ": parse error"
  | .twoForms one other => "Cannot use two forms of the same flag: " ++ one ++ " " ++ other

end FlagError

namespace FlagValue

def truth? (text : String) : Option Bool :=
  if ["1", "t", "T", "TRUE", "true", "True"].contains text then some true
  else if ["0", "f", "F", "FALSE", "false", "False"].contains text then some false
  else none

def integer? (text : String) : Option Int :=
  match Yaml.Value.whole? (text.toList.filter (· ≠ '_')) with
  | some (.whole value) => value
  | _ => none

def read? (kind : FlagKind) (text : String) : Option FlagValue :=
  match kind with
  | .switch => (truth? text).map .switch
  | .text => some (.text text)
  | .int => (integer? text).map .int
  | .duration => (Duration.parse? text).map .duration

end FlagValue

structure GivenFlag where
  flag : Flag
  name : String
  value : FlagValue
deriving DecidableEq, Repr

/-- A command line taken apart. The flags are the latest first. -/
structure Arguments where
  given : List GivenFlag := []
  operands : List String := []
deriving DecidableEq, Repr

namespace Arguments

/-- The value given last under any name of a flag. -/
def value? (args : Arguments) (name : String) : Option FlagValue :=
  (args.given.find? fun given => given.flag.names.contains name).map (·.value)

def isOn (args : Arguments) (name : String) : Bool :=
  args.value? name = some (.switch true)

def text (args : Arguments) (name : String) : String :=
  match args.value? name with
  | some (.text value) => value
  | _ => ""

def int? (args : Arguments) (name : String) : Option Int :=
  match args.value? name with
  | some (.int value) => some value
  | _ => none

def duration? (args : Arguments) (name : String) : Option Duration :=
  match args.value? name with
  | some (.duration value) => some value
  | _ => none

end Arguments

namespace Flag

def wordName (word : String) : String :=
  let letters := word.toList
  let letters := if letters.take 2 = ['-', '-'] then letters.drop 2 else letters.drop 1
  String.ofList (letters.takeWhile (· ≠ '='))

def find? (flags : List Flag) (name : String) : Option Flag :=
  flags.find? fun flag => flag.names.contains name

def isFlag (flags : List Flag) (word : String) : Bool :=
  word ≠ "-" && word ≠ "--" && word.startsWith "-" && (find? flags (wordName word)).isSome

/-- Parts the words into flags, each with the next word that has no dash in case that is its value, and the rest.
Nothing is moved past a double dash. -/
def part (flags : List Flag) (mayBeValue : Bool) : List String → List String × List String
  | [] => ([], [])
  | word :: words =>
    if word = "--" then ([], word :: words)
    else if mayBeValue && !word.startsWith "-" then
      let (moved, rest) := part flags false words
      (word :: moved, rest)
    else if isFlag flags word then
      let (moved, rest) := part flags (!word.contains '=') words
      (word :: moved, rest)
    else
      let (moved, rest) := part flags mayBeValue words
      (moved, word :: rest)

def readAll (flags : List Flag) (given : List GivenFlag) : List String → Except FlagError Arguments
  | [] => .ok ⟨given, []⟩
  | word :: words =>
    if word.length < 2 || !word.startsWith "-" then .ok ⟨given, word :: words⟩
    else if word = "--" then .ok ⟨given, words⟩
    else
      let name := wordName word
      let inline? := if word.contains '=' then some ((word.toList.dropWhile (· ≠ '=')).drop 1) else none
      if name = "" || name.startsWith "-" then .error (.badSyntax word)
      else
        match find? flags name with
        | none => .error (.unknown name)
        | some flag =>
          match inline?, flag.kind with
          | some text, kind =>
            match FlagValue.read? kind (String.ofList text) with
            | some value => readAll flags (⟨flag, name, value⟩ :: given) words
            | none => .error (.badValue name (String.ofList text))
          | none, .switch => readAll flags (⟨flag, name, .switch true⟩ :: given) words
          | none, kind =>
            match words with
            | [] => .error (.noValue name)
            | text :: rest =>
              match FlagValue.read? kind text with
              | some value => readAll flags (⟨flag, name, value⟩ :: given) rest
              | none => .error (.badValue name text)

def twoForms? (given : List GivenFlag) : Option FlagError :=
  given.findSome? fun one =>
    (given.find? fun other => other.flag = one.flag && other.name ≠ one.name).map fun other =>
      .twoForms other.name one.name

/-- Takes a command line apart. Flags may stand after operands, but a word that could be the value of
the flag before it stays with that flag. -/
def parse (flags : List Flag) (words : List String) : Except FlagError Arguments := do
  let (moved, rest) := part flags false words
  let args ← readAll flags [] (moved ++ rest)
  match twoForms? args.given with
  | some error => throw error
  | none => return args

end Flag

end ClientScript
