import ClientScript.Batch.Event
import ClientScript.Batch.Murmur
import ClientScript.Batch.Recent
import ClientScript.Settings

/-!
Working through many scripts, one after another. Callee signatures and finished analyses are kept, so
that neither is computed again while it is remembered.
-/

namespace ClientScript

structure Analyzed where
  script : Script
  graph : Graph

structure Pool where
  decoder : Decoder
  options : FlowOptions

structure Caches where
  /-- Stands for a container. -/
  hash : List UInt8 → UInt64
  /-- Signatures by callee. One that is known not to be there counts as well. -/
  signatures : Cache Int32 (Option Signature)
  /-- Analyses by the hash of the container. -/
  programs : Cache UInt64 Analyzed

def Caches.standard : Caches := ⟨Murmur.hash, Recent.cache, Recent.cache⟩

structure PoolState (caches : Caches) where
  signatures : caches.signatures.Store
  programs : caches.programs.Store
  /-- An analysis never came to its end, so the pool has no room for another. -/
  stuck : Bool := false
  /-- The scripts to come are called off. -/
  canceled : Bool := false
  /-- What happened, the latest first. -/
  events : List Event := []

namespace PoolState

variable {caches : Caches}

def log (event : Event) (state : PoolState caches) : PoolState caches :=
  { state with events := event :: state.events }

def interruption (state : PoolState caches) : Interruption :=
  if state.canceled then .canceled else .deadline

end PoolState

inductive Outcome where
  | done (result : Analyzed) (cached : Bool)
  | failed (failure : Failure)
  /-- The script was called off before its turn. -/
  | skipped (cause : Interruption)

namespace Outcome

def isFailure : Outcome → Bool
  | .done _ _ => false
  | .failed _ | .skipped _ => true

end Outcome

structure Result where
  id : Int32
  outcome : Outcome
  took : Duration := ⟨0⟩

namespace Result

def message? (result : Result) : Option String :=
  match result.outcome with
  | .done _ _ => none
  | .failed failure => some ("script " ++ toString result.id.toInt ++ ": " ++ failure.message)
  | .skipped cause => some ("script " ++ toString result.id.toInt ++ ": " ++ cause.message)

end Result

namespace Pool

def new (caches : Caches) (settings : Settings) : Except SettingsError (Pool × PoolState caches) := do
  settings.validate
  let decoder ← settings.decoder.decoder.mapError .unknownName
  let options ← settings.decoder.flowOptions.mapError .unknownName
  return (⟨decoder, options⟩,
    { signatures := caches.signatures.new settings.batch.signatureCacheSize.toNat
      programs := caches.programs.new settings.batch.programCacheSize.toNat })

/-- Analysis changes the memory of the pool and may be given up. -/
abbrev Analysis (caches : Caches) (m : Type → Type) := ExceptT Interruption (StateT (PoolState caches) m)

variable {caches : Caches} {m : Type → Type} [Monad m]

def load (source : Source m) (id : Int32) : Analysis caches m (Except LoadError (List UInt8)) := do
  match ← (source.load id : m Load) with
  | .found bytes => return .ok bytes
  | .failed error => return .error error
  | .stalled => throw .deadline
  | .calledOff =>
    modify fun state => { state with canceled := true }
    throw .canceled

def signatureOf : Except LoadError (List UInt8) → Except SignatureError Signature
  | .error error => .error (.load error)
  | .ok bytes =>
    match Script.read bytes with
    | .error error => .error (.read error)
    | .ok script => script.signature.mapError .decode

def signature (source : Source m) (id : Int32) : Analysis caches m (Option Signature) := do
  let (found?, signatures) := caches.signatures.get? id (← get).signatures
  modify fun state => { state with signatures }
  match found? with
  | some found =>
    modify (·.log (.signatureHit id))
    return found
  | none =>
    match signatureOf (← load source id) with
    | .ok found =>
      modify fun state => { state with signatures := caches.signatures.add id (some found) state.signatures }
      return some found
    | .error error =>
      modify fun state =>
        { state with signatures := caches.signatures.add id none state.signatures }.log (.noSignature id error)
      return none

/-- Analyses a container that is not remembered. -/
def analyzeBytes (pool : Pool) (source : Source m) (bytes : List UInt8) :
    Analysis caches m (Except Failure Analyzed) := do
  match Script.read bytes with
  | .error error => return .error (.read error)
  | .ok script =>
    match ← script.analyzeM (signature source) pool.decoder pool.options with
    | .error error => return .error (.analysis error)
    | .ok graph =>
      modify fun state =>
        { state with programs := caches.programs.add (caches.hash bytes) ⟨script, graph⟩ state.programs }
      return .ok ⟨script, graph⟩

def analyze (pool : Pool) (source : Source m) (id : Int32) : Analysis caches m Outcome := do
  match ← load source id with
  | .error error => return .failed (.load error)
  | .ok bytes =>
    let (found?, programs) := caches.programs.get? (caches.hash bytes) (← get).programs
    modify fun state => { state with programs }
    match found? with
    | some found => return .done found true
    | none =>
      match ← analyzeBytes pool source bytes with
      | .error failure => return .failed failure
      | .ok result => return .done result false

/-- The outcome of a script. It is given up if its analysis does not end or there is no room for it. -/
def attempt (pool : Pool) (source : Source m) (id : Int32) : StateT (PoolState caches) m Outcome := do
  if (← get).stuck then return .failed (.timeout (← get).interruption)
  else
    match ← (analyze pool source id).run with
    | .ok outcome => return outcome
    | .error cause =>
      modify fun state => { state with stuck := true }
      return .failed (.timeout cause)

def elapsed (start stop : Nat) : Duration := ⟨(stop : Int) - start⟩

def process (pool : Pool) (source : Source m) (id : Int32) : StateT (PoolState caches) m Result := do
  let start ← (source.now : m Nat)
  let outcome ← attempt pool source id
  let took := elapsed start (← (source.now : m Nat))
  match outcome with
  | .done result cached =>
    modify (·.log (.decoded id result.graph.program.insts.length result.graph.blocks.length cached took))
  | .failed failure => modify (·.log (.failed id failure))
  | .skipped _ => pure ()
  return ⟨id, outcome, took⟩

/-- Works on scripts in their order. The turn of a script is settled when work on the one before it
starts, so calling off in the middle of one script leaves the next one its turn. -/
def processAll (pool : Pool) (source : Source m) (canceled : Bool) :
    List Int32 → StateT (PoolState caches) m (List Result)
  | [] => return []
  | id :: rest => do
    let canceledNext := (← get).canceled
    let result ← if canceled then pure ⟨id, .skipped .canceled, ⟨0⟩⟩ else process pool source id
    return result :: (← processAll pool source canceledNext rest)

def run (pool : Pool) (source : Source m) (ids : List Int32) : StateT (PoolState caches) m (List Result) := do
  let start ← (source.now : m Nat)
  let results ← processAll pool source (← get).canceled ids
  let failed := results.countP fun result => result.outcome.isFailure
  let took := elapsed start (← (source.now : m Nat))
  modify (·.log (.processed results.length failed took))
  return results

end Pool

end ClientScript
