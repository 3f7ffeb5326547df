import ClientScript.Flow.Resolve
import ClientScript.Naming
import ClientScript.Settings.Section

/-!
The settings of the tools: how code is decoded, how directories are worked through, and what is logged.
-/

namespace ClientScript

structure DecoderSettings where
  switches : String := ""
  addressing : String := ""
  strict : Bool := false
  maxInstructions : Int := 0
  maxSwitchRange : Int := defaultMaxSwitchRange
deriving DecidableEq, Repr

structure BatchSettings where
  workers : Int := 4
  timeout : Duration := ⟨5 * Duration.second⟩
  signatureCacheSize : Int := 4096
  programCacheSize : Int := 1024
  dir : String := ""
  ext : String := ".cs2"
deriving DecidableEq, Repr

structure LoggerSettings where
  level : String := ""
  path : String := ""
deriving DecidableEq, Repr

structure Settings where
  decoder : DecoderSettings := {}
  batch : BatchSettings := {}
  logger : LoggerSettings := {}
deriving DecidableEq, Repr

inductive SettingsError where
  /-- The document is no YAML or holds what no setting can be. -/
  | document
  | unknownName (name : UnknownName)
  | maxInstructions (value : Int)
  | maxSwitchRange (value : Int)
  | workers (value : Int)
  | timeout (value : Duration)
  | cacheSize
deriving DecidableEq, Repr

namespace SettingsError

def message : SettingsError → String
  | .document => "failed to unmarshal config YAML"
  | .unknownName name => "invalid Decoder: " ++ name.message
  | .maxInstructions value => "invalid Decoder: negative MaxInstructions " ++ toString value
  | .maxSwitchRange value => "invalid Decoder: negative MaxSwitchRange " ++ toString value
  | .workers value => "invalid Batch: Workers must be positive, got " ++ toString value
  | .timeout value => "invalid Batch: negative Timeout " ++ value.text
  | .cacheSize => "invalid Batch: cache sizes must be positive"

end SettingsError

namespace DecoderSettings

def decoder (settings : DecoderSettings) : Except UnknownName Decoder :=
  (SwitchEncoding.parse settings.switches).map fun switches =>
    { switches, maxInstructions := settings.maxInstructions, strict := settings.strict }

def flowOptions (settings : DecoderSettings) : Except UnknownName FlowOptions :=
  (Addressing.parse settings.addressing).map fun addressing => ⟨addressing, settings.maxSwitchRange⟩

end DecoderSettings

namespace Settings

def validate (settings : Settings) : Except SettingsError Unit := do
  let _ ← (SwitchEncoding.parse settings.decoder.switches).mapError .unknownName
  let _ ← (Addressing.parse settings.decoder.addressing).mapError .unknownName
  if settings.decoder.maxInstructions < 0 then throw (.maxInstructions settings.decoder.maxInstructions)
  else if settings.decoder.maxSwitchRange < 0 then throw (.maxSwitchRange settings.decoder.maxSwitchRange)
  else if settings.batch.workers < 1 then throw (.workers settings.batch.workers)
  else if settings.batch.timeout.nanoseconds < 0 then throw (.timeout settings.batch.timeout)
  else if settings.batch.signatureCacheSize < 1 || settings.batch.programCacheSize < 1 then throw .cacheSize
  else return ()

end Settings

namespace DecoderSettings

def set (settings : DecoderSettings) (key : String) (value : Yaml.Node) : Option DecoderSettings :=
  match key with
  | "Switches" => (value.stringOr settings.switches).map ({ settings with switches := · })
  | "Addressing" => (value.stringOr settings.addressing).map ({ settings with addressing := · })
  | "Strict" => (value.boolOr settings.strict).map ({ settings with strict := · })
  | "MaxInstructions" => (value.intOr settings.maxInstructions).map ({ settings with maxInstructions := · })
  | "MaxSwitchRange" => (value.intOr settings.maxSwitchRange).map ({ settings with maxSwitchRange := · })
  | _ => none

end DecoderSettings

namespace BatchSettings

def set (settings : BatchSettings) (key : String) (value : Yaml.Node) : Option BatchSettings :=
  match key with
  | "Workers" => (value.intOr settings.workers).map ({ settings with workers := · })
  | "Timeout" => (value.durationOr settings.timeout).map ({ settings with timeout := · })
  | "SignatureCacheSize" =>
    (value.intOr settings.signatureCacheSize).map ({ settings with signatureCacheSize := · })
  | "ProgramCacheSize" => (value.intOr settings.programCacheSize).map ({ settings with programCacheSize := · })
  | "Dir" => (value.stringOr settings.dir).map ({ settings with dir := · })
  | "Ext" => (value.stringOr settings.ext).map ({ settings with ext := · })
  | _ => none

end BatchSettings

namespace LoggerSettings

def set (settings : LoggerSettings) (key : String) (value : Yaml.Node) : Option LoggerSettings :=
  match key with
  | "LogLevel" => (value.stringOr settings.level).map ({ settings with level := · })
  | "LogPath" => (value.stringOr settings.path).map ({ settings with path := · })
  | _ => none

end LoggerSettings

namespace Settings

def set (settings : Settings) (key : String) (value : Yaml.Node) : Option Settings :=
  match key with
  | "Decoder" =>
    (value.sectionOr settings.decoder DecoderSettings.set).map ({ settings with decoder := · })
  | "Batch" => (value.sectionOr settings.batch BatchSettings.set).map ({ settings with batch := · })
  | "Logger" => (value.sectionOr settings.logger LoggerSettings.set).map ({ settings with logger := · })
  | _ => none

def ofNode? (node : Yaml.Node) : Option Settings :=
  node.sectionOr {} set

/-- Reads settings from the bytes of a file. What is not named keeps its default, and the whole has to be
valid. -/
def ofBytes (bytes : List UInt8) : Except SettingsError Settings := do
  match (Yaml.Node.ofBytes? bytes).bind ofNode? with
  | none => throw .document
  | some settings =>
    settings.validate
    return settings

def parse (text : String) : Except SettingsError Settings := ofBytes text.toUTF8.toList

end Settings

end ClientScript
