import ClientScript.Batch.Pool
import ClientScript.Proofs.Analysis
import ClientScript.Proofs.CacheLaws

/-!
Remembering changes no outcome. A pool remembers signatures and analyses, in caches of which nothing is assumed but that
they return what was last added, and under hashes that tell the containers of the loader apart. What is remembered is
then what would be found anew, and every step of the pool keeps it so, whatever is forgotten in between. So every
script comes out as if it were the only one: loaded, read, and analysed with the signatures that its callees have by
their own containers.
-/

namespace ClientScript

namespace Script

theorem decode_eq (callee : Int32 → Option Signature) (decoder : Decoder) (script : Script) :
    script.decode callee decoder =
      match { decoder with switches := .indexed, tables := script.switches }.decode callee script.code 0 with
      | .error error => .error (.decode error)
      | .ok insts =>
        if insts.length = script.instructionCount then .ok insts
        else .error (.instructionCount script.instructionCount insts.length) := rfl

theorem analyze_eq (callee : Int32 → Option Signature) (decoder : Decoder) (options : FlowOptions)
    (script : Script) :
    script.analyze callee decoder options =
      match script.decode callee decoder with
      | .error error => .error (.decode error)
      | .ok insts =>
        match resolve options insts with
        | .error error => .error (.flow error)
        | .ok program => (Graph.build program).mapError .block := rfl

end Script

theorem traceM_cons {n : Type → Type} [Monad n] (callee : Int32 → n (Option Signature)) (strict : Bool)
    (state : StackState) (inst : Instruction) (rest : List Instruction) :
    traceM callee strict state (inst :: rest) =
      (if state.asksCallee inst then callee inst.operand.toInt else pure none) >>= fun signature =>
        match state.step strict signature inst with
        | .error error => pure (.error ⟨inst, error⟩)
        | .ok next => do
          match ← traceM callee strict next rest with
          | .error fault => return .error fault
          | .ok traced => return .ok (inst.traced state next :: traced) := by
  rw [traceM]
  split
  next => rfl
  next => rfl

/-- A way to say what actions give that goes through sequences of actions. -/
structure IsSequential {n : Type → Type} [Monad n] (gives : ∀ {α : Type}, n α → (α → Prop) → Prop) : Prop where
  pure : ∀ {α : Type} {value : α} {holds : α → Prop}, holds value → gives (Pure.pure value) holds
  bind : ∀ {α β : Type} {action : n α} {next : α → n β} {holds : α → Prop} {follows : β → Prop},
    gives action holds → (∀ value, holds value → gives (next value) follows) → gives (action >>= next) follows

/-- What holds of the answers for callees leaves them no choice but these signatures. -/
def Settles (holds : Int32 → Option Signature → Prop) (signatures : Int32 → Option Signature) : Prop :=
  ∀ id found, holds id found → found = signatures id

namespace IsSequential

variable {n : Type → Type} [Monad n] {gives : ∀ {α : Type}, n α → (α → Prop) → Prop}
  {callee : Int32 → n (Option Signature)} {holds : Int32 → Option Signature → Prop}

theorem traceM (sequential : IsSequential @gives) (answers : ∀ id, gives (callee id) (holds id)) (strict : Bool)
    (state : StackState) (insts : List Instruction) :
    gives (ClientScript.traceM callee strict state insts)
      fun outcome => ∀ signatures, Settles holds signatures → outcome = trace signatures strict state insts := by
  induction insts generalizing state with
  | nil => exact sequential.pure fun _ _ => rfl
  | cons inst rest ih =>
    -- A callee that is not asked makes no difference to the step, so both ways go on alike.
    have goesOn (signature : Option Signature) (same : ∀ signatures, Settles holds signatures →
        state.step strict signature inst = state.step strict (signatures inst.operand.toInt) inst) :
        gives (match state.step strict signature inst with
          | .error error => Pure.pure (.error ⟨inst, error⟩)
          | .ok next => do
            match ← ClientScript.traceM callee strict next rest with
            | .error fault => return .error fault
            | .ok traced => return .ok (inst.traced state next :: traced))
          fun outcome => ∀ signatures, Settles holds signatures →
            outcome = trace signatures strict state (inst :: rest) := by
      simp only [trace_cons]
      cases stepped : state.step strict signature inst with
      | error error =>
        refine sequential.pure fun signatures settled => ?_
        rw [← same signatures settled, stepped]
      | ok next =>
        refine sequential.bind (ih next) fun outcome given => ?_
        cases outcome with
        | error fault =>
          refine sequential.pure fun signatures settled => ?_
          rw [← same signatures settled, stepped]
          dsimp only
          rw [← given signatures settled]
        | ok traced =>
          refine sequential.pure fun signatures settled => ?_
          rw [← same signatures settled, stepped]
          dsimp only
          rw [← given signatures settled]
    rw [traceM_cons]
    by_cases asked : state.asksCallee inst = true
    · rw [if_pos asked]
      refine sequential.bind (answers _) fun signature held => goesOn signature fun signatures settled => ?_
      rw [settled _ _ held]
    · rw [if_neg asked]
      have unasked : gives (Pure.pure none : n (Option Signature)) (· = none) := sequential.pure rfl
      refine sequential.bind unasked fun signature _ => ?_
      refine goesOn signature fun signatures _ => ?_
      exact StackState.step_of_not_asked (Bool.eq_false_of_not_eq_true asked) _ _

theorem decodeM (sequential : IsSequential @gives) (answers : ∀ id, gives (callee id) (holds id))
    (decoder : Decoder) (code : List UInt8) (start : Int) :
    gives (decoder.decodeM callee code start)
      fun outcome => ∀ signatures, Settles holds signatures → outcome = decoder.decode signatures code start := by
  by_cases outside : start < 0 ∨ code.length < start
  · rw [Decoder.decodeM, if_pos outside]
    refine sequential.pure fun signatures _ => ?_
    rw [Decoder.decode, Decoder.decodeM, if_pos outside]
    rfl
  · rw [Decoder.decodeM, if_neg outside]
    refine sequential.bind (sequential.traceM answers decoder.strict (some {}) _) fun outcome given => ?_
    cases outcome with
    | error fault =>
      refine sequential.pure fun signatures settled => ?_
      rw [decoder.decode_eq signatures code start outside, ← given signatures settled]
    | ok insts =>
      refine sequential.pure fun signatures settled => ?_
      rw [decoder.decode_eq signatures code start outside, ← given signatures settled]

theorem decodeScriptM (sequential : IsSequential @gives) (answers : ∀ id, gives (callee id) (holds id))
    (decoder : Decoder) (script : Script) :
    gives (script.decodeM callee decoder)
      fun outcome => ∀ signatures, Settles holds signatures → outcome = script.decode signatures decoder := by
  simp only [Script.decode_eq]
  refine sequential.bind (sequential.decodeM answers _ script.code 0) fun outcome given => ?_
  cases outcome with
  | error error =>
    refine sequential.pure fun signatures settled => ?_
    rw [← given signatures settled]
  | ok insts =>
    dsimp only
    split
    next counted =>
      refine sequential.pure fun signatures settled => ?_
      rw [← given signatures settled]
      exact (if_pos counted).symm
    next miscounted =>
      refine sequential.pure fun signatures settled => ?_
      rw [← given signatures settled]
      exact (if_neg miscounted).symm

theorem analyzeM (sequential : IsSequential @gives) (answers : ∀ id, gives (callee id) (holds id))
    (decoder : Decoder) (options : FlowOptions) (script : Script) :
    gives (script.analyzeM callee decoder options)
      fun outcome => ∀ signatures, Settles holds signatures →
        outcome = script.analyze signatures decoder options := by
  simp only [Script.analyze_eq]
  refine sequential.bind (sequential.decodeScriptM answers decoder script) fun outcome given => ?_
  cases outcome with
  | error error =>
    refine sequential.pure fun signatures settled => ?_
    rw [← given signatures settled]
  | ok insts =>
    dsimp only
    cases resolved : resolve options insts with
    | error error =>
      refine sequential.pure fun signatures settled => ?_
      rw [← given signatures settled]
      dsimp only
      rw [resolved]
    | ok program =>
      refine sequential.pure fun signatures settled => ?_
      rw [← given signatures settled]
      dsimp only
      rw [resolved]

end IsSequential

section

variable {caches : Caches} {m : Type → Type} [Monad m] [LawfulMonad m] {α β : Type}
  {good : PoolState caches → Prop} {holds : α → Prop} {follows : β → Prop}

/-- With a memory that is good, an action gives what holds and leaves a memory that is good. -/
def Keeps (good : PoolState caches → Prop) (holds : α → Prop) (action : StateT (PoolState caches) m α) : Prop :=
  ∀ state, good state → SatisfiesM (fun outcome => holds outcome.1 ∧ good outcome.2) (action.run state)

namespace Keeps

theorem pure {value : α} (held : holds value) : Keeps good holds (Pure.pure value : StateT (PoolState caches) m α) :=
  fun _ kept => .pure ⟨held, kept⟩

theorem bind {action : StateT (PoolState caches) m α} {next : α → StateT (PoolState caches) m β}
    (first : Keeps good holds action) (second : ∀ value, holds value → Keeps good follows (next value)) : Keeps good follows (action >>= next) := by
  intro state kept
  rw [StateT.run_bind]
  exact (first state kept).bind fun outcome both => second outcome.1 both.1 outcome.2 both.2

theorem get : Keeps good good (MonadState.get : StateT (PoolState caches) m (PoolState caches)) :=
  fun _ kept => .pure ⟨kept, kept⟩

theorem change {change : PoolState caches → PoolState caches} (keeps : ∀ state, good state → good (change state)) :
    Keeps good (fun _ => True) (modify change : StateT (PoolState caches) m PUnit) :=
  fun state kept => .pure ⟨trivial, keeps state kept⟩

theorem lift {action : m α} (satisfied : SatisfiesM holds action) :
    Keeps good holds (liftM action : StateT (PoolState caches) m α) :=
  fun _ kept => satisfied.bind fun _ held => .pure ⟨held, kept⟩

end Keeps

/-- An analysis comes to its end, and is an action that keeps a memory good. -/
def Completes (good : PoolState caches → Prop) (holds : α → Prop) (action : Pool.Analysis caches m α) : Prop :=
  Keeps good (fun outcome => ∃ value, outcome = .ok value ∧ holds value) action.run

namespace Completes

theorem pure {value : α} (held : holds value) : Completes good holds (Pure.pure value : Pool.Analysis caches m α) :=
  Keeps.pure ⟨value, rfl, held⟩

theorem bind {action : Pool.Analysis caches m α} {next : α → Pool.Analysis caches m β}
    (first : Completes good holds action) (second : ∀ value, holds value → Completes good follows (next value)) :
    Completes good follows (action >>= next) := by
  refine Keeps.bind first fun outcome ended => ?_
  obtain ⟨value, rfl, held⟩ := ended
  exact second value held

theorem lift {action : StateT (PoolState caches) m α} (kept : Keeps good holds action) :
    Completes good holds (ExceptT.lift action) :=
  Keeps.bind kept fun value held => Keeps.pure ⟨value, rfl, held⟩

theorem get : Completes good good (MonadState.get : Pool.Analysis caches m (PoolState caches)) :=
  lift Keeps.get

theorem change {change : PoolState caches → PoolState caches} (keeps : ∀ state, good state → good (change state)) :
    Completes good (fun _ => True) (modify change : Pool.Analysis caches m PUnit) :=
  lift (Keeps.change keeps)

theorem isSequential : IsSequential fun action holds => Completes (m := m) good holds action where
  pure held := pure held
  bind first second := first.bind second

end Completes

end

namespace Outcome

/-- What comes of a script, however it was come by. There is no answer for a script that was called off. -/
def answer? : Outcome → Option (Except Failure Analyzed)
  | .done result _ => some (.ok result)
  | .failed failure => some (.error failure)
  | .skipped _ => none

end Outcome

namespace Result

def answer (result : Result) : Int32 × Option (Except Failure Analyzed) := (result.id, result.outcome.answer?)

end Result

namespace Pool

def ownSignature (loader : Int32 → Except LoadError (List UInt8)) (id : Int32) : Option Signature :=
  (signatureOf (loader id)).toOption

def ofBytes (pool : Pool) (loader : Int32 → Except LoadError (List UInt8)) (bytes : List UInt8) :
    Except Failure Analyzed := do
  let script ← (Script.read bytes).mapError .read
  let graph ← (script.analyze (ownSignature loader) pool.decoder pool.options).mapError .analysis
  return ⟨script, graph⟩

theorem ofBytes_of_read {pool : Pool} {loader : Int32 → Except LoadError (List UInt8)} {bytes : List UInt8}
    {script : Script} (read : Script.read bytes = .ok script) :
    pool.ofBytes loader bytes =
      ((script.analyze (ownSignature loader) pool.decoder pool.options).mapError .analysis).map
        fun graph => ⟨script, graph⟩ := by
  rw [ofBytes, read]
  cases analysed : script.analyze (ownSignature loader) pool.decoder pool.options with
  | error error => simp only [Except.mapError, bind, Except.bind, analysed, Except.map]
  | ok graph => simp only [Except.mapError, bind, Except.bind, analysed, Except.map, pure, Except.pure]

def alone (pool : Pool) (loader : Int32 → Except LoadError (List UInt8)) (id : Int32) : Except Failure Analyzed :=
  ((loader id).mapError .load).bind (pool.ofBytes loader)

end Pool

theorem Settings.parts_of_validate {settings : Settings} (valid : settings.validate = .ok ()) :
    (∃ encoding, SwitchEncoding.parse settings.decoder.switches = .ok encoding) ∧
    (∃ unit, Addressing.parse settings.decoder.addressing = .ok unit) ∧
    0 < settings.batch.signatureCacheSize.toNat ∧ 0 < settings.batch.programCacheSize.toNat := by
  rw [validate] at valid
  cases switches : SwitchEncoding.parse settings.decoder.switches with
  | error name =>
    rw [switches] at valid
    cases valid
  | ok encoding =>
    cases addressing : Addressing.parse settings.decoder.addressing with
    | error name =>
      rw [switches, addressing] at valid
      cases valid
    | ok unit =>
      refine ⟨⟨encoding, rfl⟩, ⟨unit, rfl⟩, ?_⟩
      rw [switches, addressing] at valid
      simp only [Except.mapError, bind, Except.bind, Bool.or_eq_true, decide_eq_true_eq] at valid
      -- All limits are checked one after the other, the room of the stores last.
      split at valid
      next => cases valid
      next =>
        split at valid
        next => cases valid
        next =>
          split at valid
          next => cases valid
          next =>
            split at valid
            next => cases valid
            next =>
              split at valid
              next => cases valid
              next room => omega

def containers (loader : Int32 → Except LoadError (List UInt8)) : Set (List UInt8) :=
  {bytes | ∃ id, loader id = .ok bytes}

/-- What is remembered is what would be found anew. No analysis is stuck and none is called off. -/
structure PoolState.Recalls (caches : Caches) (pool : Pool) (loader : Int32 → Except LoadError (List UInt8))
    (state : PoolState caches) : Prop where
  signatures : caches.signatures.Holds (fun id found => found = Pool.ownSignature loader id) state.signatures
  programs : caches.programs.Holds (fun key found => ∃ bytes ∈ containers loader, caches.hash bytes = key ∧
    pool.ofBytes loader bytes = .ok found) state.programs
  free : state.stuck = false
  going : state.canceled = false

namespace Pool

/-- Stores of signatures that stay what they are known for in every use, and what holds of the signatures in them. -/
structure Serves {caches : Caches} (loader : Int32 → Except LoadError (List UInt8))
    (known : caches.signatures.Store → Prop) (holds : Int32 → Option Signature → Prop) : Prop where
  own : ∀ id, holds id (ownSignature loader id)
  found : ∀ store id found, known store → (caches.signatures.get? id store).1 = some found → holds id found
  get : ∀ store id, known store → known (caches.signatures.get? id store).2
  add : ∀ store id, known store → known (caches.signatures.add id (ownSignature loader id) store)

theorem serves_own {caches : Caches} (lawful : caches.signatures.ReturnsLastAdded)
    (loader : Int32 → Except LoadError (List UInt8)) :
    Serves loader (caches.signatures.Holds fun id found => found = ownSignature loader id)
      fun id found => found = ownSignature loader id where
  own _ := rfl
  found _ _ _ kept hit := kept.of_found lawful hit
  get _ id kept := kept.get id
  add _ _ kept := kept.add rfl

variable {caches : Caches} {m : Type → Type} [Monad m] [LawfulMonad m] {source : Source m}
  {loader : Int32 → Except LoadError (List UInt8)}
  (fixed : ∀ id, SatisfiesM (fun load => load = .ofExcept (loader id)) (source.load id)) {pool : Pool}

include fixed

theorem load_completes {good : PoolState caches → Prop} (id : Int32) :
    Completes good (· = loader id) (load source id) := by
  refine Completes.bind (Completes.lift (Keeps.lift (fixed id))) fun loaded same => ?_
  subst same
  cases loader id with
  | error error => exact Completes.pure rfl
  | ok bytes => exact Completes.pure rfl

/-- Asking for a signature changes nothing but the signatures at hand and the log. -/
theorem signature_completes {good : PoolState caches → Prop} {known : caches.signatures.Store → Prop}
    {holds : Int32 → Option Signature → Prop} (serves : Serves loader known holds)
    (own : ∀ state, good state → known state.signatures)
    (keeps : ∀ state signatures events, good state → known signatures → good { state with signatures, events })
    (id : Int32) : Completes good (holds id) (signature source id) := by
  refine Completes.bind Completes.get fun state given => ?_
  refine Completes.bind (Completes.change fun later good => ?_) fun _ _ => ?_
  · exact keeps later _ later.events good (serves.get _ id (own state given))
  · split
    next found hit =>
      refine Completes.bind (Completes.change fun state good => ?_) fun _ _ => Completes.pure ?_
      · exact keeps state state.signatures _ good (own state good)
      · exact serves.found _ id found (own state given) hit
    next =>
      refine Completes.bind (load_completes fixed id) fun loaded same => ?_
      subst same
      cases read : signatureOf (loader id) with
      | error error =>
        have absent : ownSignature loader id = none := by
          rw [ownSignature, read]
          rfl
        refine Completes.bind (Completes.change fun state good => ?_) fun _ _ => Completes.pure ?_
        · exact keeps state _ _ good (absent ▸ serves.add _ id (own state good))
        · exact absent ▸ serves.own id
      | ok found =>
        have present : ownSignature loader id = some found := by
          rw [ownSignature, read]
          rfl
        refine Completes.bind (Completes.change fun state good => ?_) fun _ _ => Completes.pure ?_
        · exact keeps state _ state.events good (present ▸ serves.add _ id (own state good))
        · exact present ▸ serves.own id

variable (lawful : caches.signatures.ReturnsLastAdded)

include lawful

theorem analyzeBytes_completes {bytes : List UInt8} (listed : bytes ∈ containers loader) :
    Completes (PoolState.Recalls caches pool loader) (· = pool.ofBytes loader bytes)
      (analyzeBytes pool source bytes) := by
  cases read : Script.read bytes with
  | error error =>
    simp only [analyzeBytes, ofBytes, read]
    exact Completes.pure rfl
  | ok script =>
    have answers (id : Int32) : Completes (PoolState.Recalls caches pool loader) (· = ownSignature loader id)
        (signature source id) :=
      signature_completes fixed (serves_own lawful loader) (fun _ recalls => recalls.signatures)
        (fun _ _ _ recalls kept => { recalls with signatures := kept }) id
    simp only [analyzeBytes, read]
    refine Completes.bind (Completes.isSequential.analyzeM answers pool.decoder pool.options script) ?_
    intro outcome given
    have same := given (ownSignature loader) fun _ _ own => own
    subst same
    cases analysed : script.analyze (ownSignature loader) pool.decoder pool.options with
    | error error =>
      have anew : pool.ofBytes loader bytes = .error (.analysis error) := by
        rw [ofBytes_of_read read, analysed]
        rfl
      exact Completes.pure anew.symm
    | ok graph =>
      have anew : pool.ofBytes loader bytes = .ok ⟨script, graph⟩ := by
        rw [ofBytes_of_read read, analysed]
        rfl
      refine Completes.bind (Completes.change fun state recalls => ?_) fun _ _ => Completes.pure anew.symm
      exact { recalls with programs := recalls.programs.add ⟨bytes, listed, rfl, anew⟩ }

variable (returning : caches.programs.ReturnsLastAdded) (distinct : Set.InjOn caches.hash (containers loader))

include returning distinct

theorem analyze_completes (id : Int32) :
    Completes (PoolState.Recalls caches pool loader)
      (fun outcome => outcome.answer? = some (pool.alone loader id)) (analyze pool source id) := by
  refine Completes.bind (load_completes fixed id) fun loaded same => ?_
  subst same
  cases loaded : loader id with
  | error error =>
    refine Completes.pure ?_
    rw [alone, loaded]
    rfl
  | ok bytes =>
    have listed : bytes ∈ containers loader := ⟨id, loaded⟩
    have same : pool.alone loader id = pool.ofBytes loader bytes := by
      rw [alone, loaded]
      rfl
    rw [same]
    refine Completes.bind Completes.get fun state recalls => ?_
    refine Completes.bind (Completes.change fun _ later => ?_) fun _ _ => ?_
    · exact { later with programs := recalls.programs.get _ }
    · split
      next found hit =>
        -- The analysis at hand was of a container with the same hash, so it was of this one.
        obtain ⟨other, known, alike, anew⟩ := recalls.programs.of_found returning hit
        obtain rfl := distinct known listed alike
        refine Completes.pure ?_
        rw [anew]
        rfl
      next =>
        refine Completes.bind (analyzeBytes_completes fixed lawful listed) fun outcome same => ?_
        rw [← same]
        cases outcome with
        | error failure => exact Completes.pure rfl
        | ok result => exact Completes.pure rfl

theorem attempt_keeps (id : Int32) :
    Keeps (PoolState.Recalls caches pool loader) (fun outcome => outcome.answer? = some (pool.alone loader id))
      (attempt pool source id) := by
  refine Keeps.bind Keeps.get fun state recalls => ?_
  simp only [recalls.free]
  refine Keeps.bind (analyze_completes fixed lawful returning distinct id) fun ended completed => ?_
  obtain ⟨outcome, rfl, same⟩ := completed
  exact Keeps.pure same

theorem process_keeps (id : Int32) :
    Keeps (PoolState.Recalls caches pool loader) (fun result => result.answer = (id, some (pool.alone loader id)))
      (process pool source id) := by
  have logged (event : Event) : Keeps (m := m) (PoolState.Recalls caches pool loader) (fun _ => True)
      (modify (·.log event)) :=
    Keeps.change fun state recalls => { recalls with }
  refine Keeps.bind (Keeps.lift .trivial) fun start _ => ?_
  refine Keeps.bind (attempt_keeps fixed lawful returning distinct id) fun outcome same => ?_
  refine Keeps.bind (Keeps.lift .trivial) fun stop _ => ?_
  have answered (took : Duration) : Result.answer ⟨id, outcome, took⟩ = (id, some (pool.alone loader id)) := by
    rw [Result.answer, same]
  cases outcome with
  | done result cached => exact Keeps.bind (logged _) fun _ _ => Keeps.pure (answered _)
  | failed failure => exact Keeps.bind (logged _) fun _ _ => Keeps.pure (answered _)
  | skipped cause => cases same

theorem processAll_keeps (ids : List Int32) :
    Keeps (PoolState.Recalls caches pool loader)
      (fun results => results.map Result.answer = ids.map fun id => (id, some (pool.alone loader id)))
      (processAll pool source false ids) := by
  induction ids with
  | nil => exact Keeps.pure rfl
  | cons id rest ih =>
    rw [processAll]
    refine Keeps.bind Keeps.get fun state recalls => ?_
    simp only [recalls.going]
    refine Keeps.bind (process_keeps fixed lawful returning distinct id) fun result same => ?_
    refine Keeps.bind ih fun results more => Keeps.pure ?_
    rw [List.map_cons, List.map_cons, same, more]

theorem run_keeps (ids : List Int32) :
    Keeps (PoolState.Recalls caches pool loader)
      (fun results => results.map Result.answer = ids.map fun id => (id, some (pool.alone loader id)))
      (run pool source ids) := by
  refine Keeps.bind (Keeps.lift .trivial) fun start _ => ?_
  refine Keeps.bind Keeps.get fun state recalls => ?_
  rw [recalls.going]
  refine Keeps.bind (processAll_keeps fixed lawful returning distinct ids) fun results same => ?_
  refine Keeps.bind (Keeps.lift .trivial) fun stop _ => ?_
  exact Keeps.bind (Keeps.change fun state recalls => { recalls with }) fun _ _ => Keeps.pure same

theorem runs_keep (batches : List (List Int32)) :
    Keeps (PoolState.Recalls caches pool loader)
      (fun outcomes => outcomes.map (·.map Result.answer) =
        batches.map (·.map fun id => (id, some (pool.alone loader id))))
      (batches.mapM (run pool source)) := by
  induction batches with
  | nil => exact Keeps.pure rfl
  | cons ids rest ih =>
    rw [List.mapM_cons]
    refine Keeps.bind (run_keeps fixed lawful returning distinct ids) fun results same => ?_
    refine Keeps.bind ih fun outcomes more => Keeps.pure ?_
    rw [List.map_cons, List.map_cons, same, more]

omit fixed lawful returning distinct

theorem exists_new (caches : Caches) {settings : Settings} (valid : settings.validate = .ok ()) :
    ∃ pool, new caches settings = .ok (pool,
      { signatures := caches.signatures.new settings.batch.signatureCacheSize.toNat
        programs := caches.programs.new settings.batch.programCacheSize.toNat }) := by
  obtain ⟨⟨encoding, switches⟩, ⟨unit, addressing⟩, -, -⟩ := settings.parts_of_validate valid
  rw [new, valid, DecoderSettings.decoder, DecoderSettings.flowOptions, switches, addressing]
  exact ⟨_, rfl⟩

end Pool

/-- Every script of every run comes out as it does by itself, whatever was worked on, remembered and forgotten
before. -/
theorem run_answers_alone {m : Type → Type} [Monad m] [LawfulMonad m] (caches : Caches)
    (recalled : caches.signatures.ReturnsLastAdded) (returned : caches.programs.ReturnsLastAdded) (source : Source m)
    (loader : Int32 → Except LoadError (List UInt8))
    (fixed : ∀ id, SatisfiesM (fun load => load = .ofExcept (loader id)) (source.load id))
    (distinct : Set.InjOn caches.hash (containers loader)) (settings : Settings) (valid : settings.validate = .ok ()) :
    ∃ pool state, Pool.new caches settings = .ok (pool, state) ∧
      ∀ batches : List (List Int32),
        SatisfiesM (fun outcome => outcome.1.map (·.map Result.answer) =
          batches.map (·.map fun id => (id, some (pool.alone loader id))))
          ((batches.mapM (pool.run source)).run state) := by
  obtain ⟨pool, created⟩ := Pool.exists_new caches valid
  obtain ⟨-, -, signatureRoom, programRoom⟩ := settings.parts_of_validate valid
  refine ⟨pool, _, created, fun batches => ?_⟩
  exact (Pool.runs_keep fixed recalled returned distinct batches _
    ⟨.new signatureRoom, .new programRoom, rfl, rfl⟩).imp fun both => both.1

/-- Script 1 calls script 2, which gives it a number. Script 3 is cut short, and there are no others. -/
def pairOfScripts : Int32 → Except LoadError (List UInt8)
  | 1 => .ok [0, 0, 40, 0, 0, 0, 2, 0, 38, 0, 0, 21, 0, 0, 0, 0, 3, 0, 0, 0, 0, 0, 0, 0, 0, 0, 0, 1]
  | 2 => .ok [0, 0, 0, 0, 0, 0, 7, 0, 21, 0, 0, 0, 0, 2, 0, 0, 0, 0, 0, 0, 0, 0, 0, 0, 1]
  | 3 => .ok [0, 0, 21]
  | id => .error (.missing id)

def tickingSource : Source (StateM Nat) where
  load id := modifyGet fun clock => (.ofExcept (pairOfScripts id), clock + 1)
  now := get

theorem tickingSource_fixed (id : Int32) :
    SatisfiesM (fun load => load = .ofExcept (pairOfScripts id)) (tickingSource.load id) :=
  SatisfiesM_StateT_eq.2 fun _ => SatisfiesM_Id_eq.2 rfl

theorem pairOfScripts_distinct : Set.InjOn Murmur.hash (containers pairOfScripts) := by
  have listed : ∀ bytes ∈ containers pairOfScripts,
      bytes ∈ ([1, 2, 3] : List Int32).filterMap fun id => (pairOfScripts id).toOption := by
    intro bytes loaded
    rcases loaded with ⟨id, loaded⟩
    unfold pairOfScripts at loaded
    split at loaded
    next => cases loaded; decide
    next => cases loaded; decide
    next => cases loaded; decide
    next => cases loaded
  intro one isOne other isOther
  have apart : ∀ one ∈ ([1, 2, 3] : List Int32).filterMap fun id => (pairOfScripts id).toOption,
      ∀ other ∈ ([1, 2, 3] : List Int32).filterMap fun id => (pairOfScripts id).toOption,
        Murmur.hash one = Murmur.hash other → one = other := by decide +kernel
  exact apart one (listed one isOne) other (listed other isOther)

/-- Two runs with room for one signature and one analysis. -/
theorem run_answers_alone_pair :
    ∃ pool state,
      Pool.new .standard { batch := { workers := 1, signatureCacheSize := 1, programCacheSize := 1 } } =
        .ok (pool, state) ∧
      (pool.alone pairOfScripts 1).isOk ∧ (pool.alone pairOfScripts 2).isOk ∧
      pool.alone pairOfScripts 3 = .error (.read (.tooSmall 3)) ∧
      pool.alone pairOfScripts 4 = .error (.load (.missing 4)) ∧
      ∀ clock, ((([[1, 2, 1], [3, 4, 1]].mapM (pool.run tickingSource)).run state).run clock).1.1.map
        (·.map Result.answer) =
          [[1, 2, 1], [3, 4, 1]].map (·.map fun id => (id, some (pool.alone pairOfScripts id))) := by
  obtain ⟨pool, state, created, answered⟩ := run_answers_alone .standard Recent.returnsLastAdded Recent.returnsLastAdded
    tickingSource pairOfScripts tickingSource_fixed pairOfScripts_distinct
    { batch := { workers := 1, signatureCacheSize := 1, programCacheSize := 1 } } rfl
  refine ⟨pool, state, created, ?_, ?_, ?_, ?_, fun clock => ?_⟩
  · cases created
    decide +kernel
  · cases created
    decide +kernel
  · rfl
  · rfl
  · have same := SatisfiesM_Id_eq.1 (SatisfiesM_StateT_eq.1 (answered [[1, 2, 1], [3, 4, 1]]) clock)
    exact same

end ClientScript
