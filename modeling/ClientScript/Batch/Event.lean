import ClientScript.Batch.Source
import ClientScript.Log
import ClientScript.Script.Analysis
import ClientScript.Text.Duration

/-!
What happens while scripts are worked through: failures, and the events that are counted and logged.
-/

namespace ClientScript

inductive Interruption where
  | deadline
  | canceled
deriving DecidableEq, Repr

namespace Interruption

def message : Interruption → String
  | .deadline => "context deadline exceeded"
  | .canceled => "context canceled"

end Interruption

inductive Failure where
  | load (error : LoadError)
  | read (error : ContainerError)
  | analysis (error : AnalysisError)
  | timeout (cause : Interruption)
deriving DecidableEq, Repr

namespace Failure

def stage : Failure → Stage
  | .load _ => .load
  | .read _ => .read
  | .analysis error => error.stage
  | .timeout _ => .timeout

def detail : Failure → String
  | .load error => error.message
  | .read error => error.message
  | .analysis error => error.detail
  | .timeout cause => cause.message

def message (failure : Failure) : String :=
  failure.stage.name ++ ": " ++ failure.detail

end Failure

inductive SignatureError where
  | load (error : LoadError)
  | read (error : ContainerError)
  | decode (error : ScriptError)
deriving DecidableEq, Repr

namespace SignatureError

def message : SignatureError → String
  | .load error => error.message
  | .read error => error.message
  | .decode error => error.message

end SignatureError

inductive Event where
  /-- The signature of a callee was at hand. -/
  | signatureHit (id : Int32)
  | noSignature (id : Int32) (error : SignatureError)
  | failed (id : Int32) (failure : Failure)
  | decoded (id : Int32) (instructions blocks : Nat) (cached : Bool) (took : Duration)
  | processed (scripts failures : Nat) (took : Duration)
deriving DecidableEq, Repr

namespace Event

def record? : Event → Option LogRecord
  | .signatureHit _ => none
  | .noSignature id error =>
    some ⟨.debug, "no signature for callee", [("id", .int id.toInt), ("error", .text error.message)]⟩
  | .failed id failure =>
    some ⟨.warn, "failed to decode script", [("id", .int id.toInt), ("error", .text failure.message)]⟩
  | .decoded id instructions blocks cached took =>
    some ⟨.debug, "script decoded", [("id", .int id.toInt), ("instructions", .int instructions),
      ("blocks", .int blocks), ("cached", .flag cached), ("took", .text took.text)]⟩
  | .processed scripts failures took =>
    some ⟨.info, "batch processed", [("scripts", .int scripts), ("failed", .int failures),
      ("took", .text took.text)]⟩

end Event

inductive Counter where
  | scriptsDecoded
  | decodeTimes
  | scriptsFailed (stage : Stage)
  | signatureHits
  | programHits
deriving DecidableEq, Repr

namespace Counter

def name : Counter → String
  | .scriptsDecoded => "cs2_scripts_decoded"
  | .decodeTimes => "cs2_script_decode_time"
  | .scriptsFailed stage => "cs2_scripts_failed " ++ stage.name
  | .signatureHits => "cs2_cache_hits signature"
  | .programHits => "cs2_cache_hits program"

def all : List Counter :=
  [.scriptsDecoded, .decodeTimes, .signatureHits, .programHits] ++
    [Stage.load, .read, .decode, .flow, .block, .timeout].map .scriptsFailed

def ofEvent : Event → List Counter
  | .signatureHit _ => [.signatureHits]
  | .noSignature _ _ | .processed _ _ _ => []
  | .failed _ failure => [.scriptsFailed failure.stage]
  | .decoded _ _ _ cached _ =>
    [.scriptsDecoded, .decodeTimes] ++ if cached then [.programHits] else []

def value (events : List Event) (counter : Counter) : Nat :=
  (events.flatMap ofEvent).count counter

end Counter

end ClientScript
