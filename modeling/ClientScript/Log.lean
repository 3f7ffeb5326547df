import ClientScript.Text.Quoted

/-!
Log records, and their lines in a log.
-/

namespace ClientScript

inductive LogLevel where
  | debug
  | info
  | warn
  | error
  | dpanic
  | panic
  | fatal
deriving DecidableEq, Repr

namespace LogLevel

def rank : LogLevel → Nat
  | .debug => 0
  | .info => 1
  | .warn => 2
  | .error => 3
  | .dpanic => 4
  | .panic => 5
  | .fatal => 6

def name : LogLevel → String
  | .debug => "debug"
  | .info => "info"
  | .warn => "warn"
  | .error => "error"
  | .dpanic => "dpanic"
  | .panic => "panic"
  | .fatal => "fatal"

def all : List LogLevel := [.debug, .info, .warn, .error, .dpanic, .panic, .fatal]

/-- The small letter for a large one, as far as that is a plain letter. One of them has a dot. -/
def smallLetter (char : Char) : Char := if char = '\u0130' then 'i' else char.toLower

def ofName? (text : String) : Option LogLevel :=
  all.find? fun level => level.name.toList = text.toList.map smallLetter

end LogLevel

inductive LogValue where
  | text (value : String)
  | int (value : Int)
  | flag (value : Bool)
deriving DecidableEq, Repr

namespace LogValue

def escapeChar (char : Char) : List Char :=
  if char = '"' || char = '\\' then ['\\', char]
  else if char = '\n' then ['\\', 'n']
  else if char = '\r' then ['\\', 'r']
  else if char = '\t' then ['\\', 't']
  else if char.toNat < 0x20 then ['\\', 'u'] ++ hexDigits 4 char.toNat
  else [char]

def encodeText (text : String) : String :=
  "\"" ++ String.ofList (text.toList.flatMap escapeChar) ++ "\""

def encode : LogValue → String
  | .text value => encodeText value
  | .int value => toString value
  | .flag value => toString value

end LogValue

structure LogRecord where
  level : LogLevel
  message : String
  fields : List (String × LogValue)
deriving DecidableEq, Repr

namespace LogRecord

def fieldsText (record : LogRecord) : String :=
  "\x7b" ++ String.intercalate ", " (record.fields.map fun field =>
    LogValue.encodeText field.1 ++ ": " ++ field.2.encode) ++ "\x7d"

/-- The line of a record: the time, the level, the message and the fields, with tabs between them. -/
def line (time : String) (record : LogRecord) : String :=
  String.intercalate "\t" [time, record.level.name.toUpper, record.message, record.fieldsText] ++ "\n"

end LogRecord

end ClientScript
