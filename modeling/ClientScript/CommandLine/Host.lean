import ClientScript.Batch.Event
import ClientScript.CommandLine.Flag
import ClientScript.CommandLine.LogTarget
import ClientScript.Settings

/-!
What commands share: the machine they run on, their failures, their settings and their log.
-/

namespace ClientScript

structure Host (m : Type → Type) where
  files : Files m
  /-- A clock that counts nanoseconds. -/
  now : m Nat
  /-- The time of day, for the log. -/
  time : m String
  out : String → m Unit
  err : String → m Unit

inductive CommandError where
  | unknownCommand (name : String)
  | flag (error : FlagError)
  | noFile
  | noDirectory
  | settingsFile (error : FileError)
  | settings (error : SettingsError)
  | logLevel (name : String)
  | logTarget (path : String) (error : LogTargetError)
  | makeDir (purpose : String) (error : FileError)
  | readScript (error : FileError)
  | container (error : ContainerError)
  /-- Bare code is bad. -/
  | code (error : AnalysisError)
  /-- The code of a script is bad. -/
  | script (error : AnalysisError)
  | writeListing (error : FileError)
  | listDir (error : FileError)
  | scriptsFailed (failed total : Nat)
  | interrupted (cause : Interruption)
deriving DecidableEq, Repr

namespace CommandError

def message : CommandError → String
  | .unknownCommand name => "No help topic for '" ++ name ++ "'"
  | .flag error => error.message
  | .noFile => "missing script file"
  | .noDirectory => "no script directory specified"
  | .settingsFile error => "unable to read config: " ++ error.message
  | .settings error => error.message
  | .logLevel name => "log setting: unrecognized level: " ++ quoteText name
  | .logTarget path error => "open sink " ++ quoteText path ++ ": " ++ error.message
  | .makeDir purpose error => "could not create dir for " ++ purpose ++ ": " ++ error.message
  | .readScript error => "failed to read file: " ++ error.message
  | .container error => error.message
  | .code error => error.detail
  | .script error => error.message
  | .writeListing error => error.message
  | .listDir error => "failed to list scripts: " ++ error.message
  | .scriptsFailed failed total => toString failed ++ " of " ++ toString total ++ " scripts failed"
  | .interrupted cause => cause.message

def exitCode : CommandError → UInt8
  | .unknownCommand _ => 3
  | _ => 1

end CommandError

abbrev Command (m : Type → Type) := ExceptT CommandError m

namespace Command

variable {m : Type → Type} [Monad m]

def file {α : Type} (wrap : FileError → CommandError) (action : m (Except FileError α)) : Command m α := do
  match ← (action : m (Except FileError α)) with
  | .ok value => return value
  | .error error => throw (wrap error)

def take {ε α : Type} (wrap : ε → CommandError) : Except ε α → Command m α
  | .ok value => return value
  | .error error => throw (wrap error)

def makeDirFor (host : Host m) (purpose path : String) : Command m Unit :=
  file (.makeDir purpose) (host.files.makeDirs (Path.parent path))

end Command

/-! Settings. -/

def decoderFlags : List Flag :=
  [⟨["strict"], .switch⟩, ⟨["switches"], .text⟩, ⟨["addressing"], .text⟩, ⟨["max-instructions"], .int⟩]

def commonFlags : List Flag :=
  [⟨["config-file"], .text⟩, ⟨["debug", "d"], .switch⟩]

namespace DecoderSettings

def withFlags (args : Arguments) (settings : DecoderSettings) : DecoderSettings where
  switches := if args.text "switches" = "" then settings.switches else args.text "switches"
  addressing := if args.text "addressing" = "" then settings.addressing else args.text "addressing"
  strict := args.isOn "strict" || settings.strict
  maxInstructions := (args.int? "max-instructions").getD settings.maxInstructions
  maxSwitchRange := settings.maxSwitchRange

end DecoderSettings

namespace Command

variable {m : Type → Type} [Monad m]

def settingsOf (host : Host m) (path : String) : Command m Settings := do
  if path = "" then return {}
  else
    let bytes ← file .settingsFile (host.files.read path)
    take .settings (Settings.ofBytes bytes)

def settings (host : Host m) (args : Arguments) : Command m Settings := do
  let settings ← settingsOf host (args.text "config-file")
  let settings := { settings with decoder := settings.decoder.withFlags args }
  take .settings settings.validate
  return settings

end Command

/-! Logging. -/

/-- Records below the level are dropped. -/
structure Logger where
  level : LogLevel
  target : LogTarget
deriving DecidableEq, Repr

namespace Logger

variable {m : Type → Type} [Monad m]

def write (host : Host m) (logger : Logger) (record : LogRecord) : m Unit := do
  if logger.level.rank ≤ record.level.rank then
    let line := record.line (← host.time)
    match logger.target with
    | .out => host.out line
    | .err => host.err line
    | .file path => discard (host.files.append path line.toUTF8.toList)

end Logger

namespace Command

variable {m : Type → Type} [Monad m]

def logLevel (debug : Bool) (name : String) : Except CommandError LogLevel :=
  if name = "" then .ok (if debug then .debug else .info)
  else
    match LogLevel.ofName? name with
    | none => .error (.logLevel name)
    | some level => .ok (if debug then .debug else level)

/-- Opens the log. A log file is made even if nothing is going to be logged. -/
def openLog (host : Host m) (args : Arguments) (settings : LoggerSettings) : Command m Logger := do
  let level ← take id (logLevel (args.isOn "debug") settings.level)
  if settings.path = "" then return ⟨level, .err⟩
  else
    makeDirFor host "logger" settings.path
    let target ← take (.logTarget settings.path) (LogTarget.ofPath settings.path)
    match target with
    | .file path => file (fun error => .logTarget settings.path (.file error)) (host.files.append path [])
    | _ => pure ()
    return ⟨level, target⟩

def log (host : Host m) (logger : Logger) (records : List LogRecord) : Command m Unit :=
  (records.forM (logger.write host) : m Unit)

end Command

end ClientScript
