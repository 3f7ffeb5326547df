import ClientScript.Proofs.Caching
import ClientScript.Proofs.Sequences

/-!
What a pool remembers is what it used last, with any cache that makes room by forgetting the key used longest ago. A
script that comes out well makes its container the one used latest, whether its analysis was at hand or not, and a
script that fails leaves the analyses at hand as they are. So these always belong to the containers used most recently,
as many as there is room for, and a script is spared its analysis exactly if its container is one of them.
-/

namespace ClientScript

section

variable {κ ι α : Type} [DecidableEq κ] [DecidableEq ι]

/-- The keys used last, the latest first and each of them once, up to a number of them. -/
def mostRecent (count : Nat) (used : List κ) : List κ :=
  used.dedup.reverse.take count

theorem mostRecent_concat (count : Nat) (used : List κ) (key : κ) :
    mostRecent count (used ++ [key]) = (key :: (mostRecent count used).filter (· ≠ key)).take count := by
  have distinct : used.dedup.reverse.Nodup := List.nodup_reverse.2 used.nodup_dedup
  unfold mostRecent
  rw [dedup_concat, List.reverse_append, List.reverse_singleton, ← List.filter_reverse]
  cases count with
  | zero => rfl
  | succ count =>
    rw [List.singleton_append, List.take_succ_cons, List.take_succ_cons, take_filter_take distinct]

example : mostRecent 2 [1, 2, 1, 3, 3, 1] = [1, 3] := by decide

theorem mostRecent_map {name : κ → ι} {used : List κ} (distinct : Set.InjOn name {key | key ∈ used}) (count : Nat) :
    mostRecent count (used.map name) = (mostRecent count used).map name := by
  rw [mostRecent, mostRecent, dedup_map_of_injOn distinct, ← List.map_reverse, List.map_take]

theorem mem_of_mem_mostRecent {count : Nat} {used : List κ} {key : κ} (recent : key ∈ mostRecent count used) :
    key ∈ used :=
  List.mem_dedup.1 (List.mem_reverse.1 (List.mem_of_mem_take recent))

namespace Cache

variable {cache : Cache κ α} {keys : cache.Store → List κ} {count : Nat} {used : List κ} {store : cache.Store}
  {key : κ}

structure Ranks (cache : Cache κ α) (keys : cache.Store → List κ) (count : Nat) (used : List κ)
    (store : cache.Store) : Prop where
  room : 0 < count
  reached : ∃ history, store = cache.after count history
  keys : keys store = mostRecent count used

namespace Ranks

variable (lru : cache.IsLru keys)

include lru

theorem new (room : 0 < count) : cache.Ranks keys count [] (cache.new count) :=
  ⟨room, ⟨[], rfl⟩, (lru.new count room).trans List.take_nil.symm⟩

theorem isSome_get_iff (ranks : cache.Ranks keys count used store) (key : κ) :
    (cache.get? key store).1.isSome ↔ key ∈ mostRecent count used := by
  obtain ⟨history, rfl⟩ := ranks.reached
  rw [← ranks.keys]
  exact lru.found count history key ranks.room

/-- A key that is found takes the room that it had before, so nothing has to go. -/
theorem hit (ranks : cache.Ranks keys count used store) (found : (cache.get? key store).1.isSome) :
    cache.Ranks keys count (used ++ [key]) (cache.get? key store).2 := by
  have listed := (ranks.isSome_get_iff lru key).1 found
  obtain ⟨history, rfl⟩ := ranks.reached
  have fewer : ((mostRecent count used).filter (· ≠ key)).length < (mostRecent count used).length :=
    List.length_filter_lt_length_iff_exists.2 ⟨key, listed, by simp⟩
  have room : (mostRecent count used).length ≤ count := List.length_take_le count _
  refine ⟨ranks.room, ⟨_, (cache.after_concat count history (.get key)).symm⟩, ?_⟩
  rw [lru.hit count history key ranks.room (ranks.keys ▸ listed), ranks.keys, mostRecent_concat,
    List.take_of_length_le]
  rw [List.length_cons]
  omega

theorem miss (ranks : cache.Ranks keys count used store) (absent : (cache.get? key store).1 = none) :
    cache.Ranks keys count used (cache.get? key store).2 := by
  have unlisted : key ∉ mostRecent count used := by
    rw [← ranks.isSome_get_iff lru key, absent]
    nofun
  obtain ⟨history, rfl⟩ := ranks.reached
  refine ⟨ranks.room, ⟨_, (cache.after_concat count history (.get key)).symm⟩, ?_⟩
  rw [lru.miss count history key ranks.room (ranks.keys ▸ unlisted), ranks.keys]

theorem add (ranks : cache.Ranks keys count used store) (key : κ) (value : α) :
    cache.Ranks keys count (used ++ [key]) (cache.add key value store) := by
  obtain ⟨history, rfl⟩ := ranks.reached
  refine ⟨ranks.room, ⟨_, (cache.after_concat count history (.add key value)).symm⟩, ?_⟩
  rw [lru.add count history key value ranks.room, ranks.keys, mostRecent_concat]

end Ranks

end Cache

end

namespace Outcome

def use? (loaded : Except LoadError (List UInt8)) : Outcome → Option (List UInt8)
  | .done _ _ => loaded.toOption
  | .failed _ | .skipped _ => none

end Outcome

def uses (loader : Int32 → Except LoadError (List UInt8)) (results : List Result) : List (List UInt8) :=
  results.filterMap fun result => result.outcome.use? (loader result.id)

section

variable {caches : Caches} {keys : caches.programs.Store → List UInt64}
  {loader : Int32 → Except LoadError (List UInt8)} {id : Int32} {outcome : Outcome} {count : Nat}
  {used : List UInt64} {before middle after : caches.programs.Store}

theorem mem_containers_of_mem_uses {results : List Result} {bytes : List UInt8} (listed : bytes ∈ uses loader results) :
    bytes ∈ containers loader := by
  obtain ⟨result, -, used⟩ := List.mem_filterMap.1 listed
  refine ⟨result.id, ?_⟩
  cases outcome : result.outcome with
  | done found cached =>
    rw [outcome, Outcome.use?] at used
    cases loaded : loader result.id with
    | error error =>
      rw [loaded] at used
      cases used
    | ok given =>
      rw [loaded] at used
      cases used
      rfl
  | failed failure =>
    rw [outcome] at used
    cases used
  | skipped cause =>
    rw [outcome] at used
    cases used

/-- What working on a script does to the analyses at hand. -/
inductive Turn (caches : Caches) (loader : Int32 → Except LoadError (List UInt8)) (id : Int32)
    (before : caches.programs.Store) : Outcome → caches.programs.Store → Prop where
  | recalled {bytes : List UInt8} {found : Analyzed} (loaded : loader id = .ok bytes)
      (hit : (caches.programs.get? (caches.hash bytes) before).1 = some found) :
      Turn caches loader id before (.done found true) (caches.programs.get? (caches.hash bytes) before).2
  | learned {bytes : List UInt8} (loaded : loader id = .ok bytes)
      (miss : (caches.programs.get? (caches.hash bytes) before).1 = none) (found : Analyzed) :
      Turn caches loader id before (.done found false)
        (caches.programs.add (caches.hash bytes) found (caches.programs.get? (caches.hash bytes) before).2)
  | failed {bytes : List UInt8} (miss : (caches.programs.get? (caches.hash bytes) before).1 = none)
      (failure : Failure) :
      Turn caches loader id before (.failed failure) (caches.programs.get? (caches.hash bytes) before).2
  | unloaded (failure : Failure) : Turn caches loader id before (.failed failure) before

namespace Turn

theorem ranks (lru : caches.programs.IsLru keys) (turn : Turn caches loader id before outcome after)
    (ranks : caches.programs.Ranks keys count used before) :
    caches.programs.Ranks keys count (used ++ (outcome.use? (loader id)).toList.map caches.hash) after := by
  cases turn with
  | recalled loaded hit =>
    rw [loaded]
    exact ranks.hit lru (Option.isSome_of_eq_some hit)
  | learned loaded miss found =>
    rw [loaded]
    exact (ranks.miss lru miss).add lru _ found
  | failed miss failure =>
    rw [Outcome.use?, Option.toList_none, List.map_nil, List.append_nil]
    exact ranks.miss lru miss
  | unloaded failure =>
    rw [Outcome.use?, Option.toList_none, List.map_nil, List.append_nil]
    exact ranks

theorem cached_iff (lru : caches.programs.IsLru keys) {result : Analyzed} {cached : Bool}
    (turn : Turn caches loader id before (.done result cached) after)
    (ranks : caches.programs.Ranks keys count used before) :
    ∃ bytes, loader id = .ok bytes ∧ (cached = true ↔ caches.hash bytes ∈ mostRecent count used) := by
  cases turn with
  | recalled loaded hit =>
    exact ⟨_, loaded, iff_of_true rfl ((ranks.isSome_get_iff lru _).1 (Option.isSome_of_eq_some hit))⟩
  | learned loaded miss =>
    refine ⟨_, loaded, iff_of_false nofun ?_⟩
    rw [← ranks.isSome_get_iff lru, miss]
    nofun

end Turn

inductive Turns (caches : Caches) (loader : Int32 → Except LoadError (List UInt8)) :
    caches.programs.Store → List Result → caches.programs.Store → Prop where
  | done (programs : caches.programs.Store) : Turns caches loader programs [] programs
  | turn {before middle after : caches.programs.Store} {result : Result} {rest : List Result}
      (first : Turn caches loader result.id before result.outcome middle)
      (later : Turns caches loader middle rest after) : Turns caches loader before (result :: rest) after

namespace Turns

variable {results : List Result}

theorem append {more : List Result} (first : Turns caches loader before results middle)
    (second : Turns caches loader middle more after) : Turns caches loader before (results ++ more) after := by
  induction first with
  | done => exact second
  | turn step later ih => exact .turn step (ih second)

theorem exists_split {more : List Result} (turns : Turns caches loader before (results ++ more) after) :
    ∃ middle, Turns caches loader before results middle ∧ Turns caches loader middle more after := by
  induction results generalizing before with
  | nil => exact ⟨before, .done before, turns⟩
  | cons result rest ih =>
    cases turns with
    | turn step later =>
      obtain ⟨middle, first, second⟩ := ih later
      exact ⟨middle, .turn step first, second⟩

theorem ranks (lru : caches.programs.IsLru keys) (turns : Turns caches loader before results after)
    (ranks : caches.programs.Ranks keys count used before) :
    caches.programs.Ranks keys count (used ++ (uses loader results).map caches.hash) after := by
  induction turns generalizing used with
  | done => rwa [uses, List.filterMap_nil, List.map_nil, List.append_nil]
  | @turn before middle after result rest step later ih =>
    have split : uses loader (result :: rest) =
        (result.outcome.use? (loader result.id)).toList ++ uses loader rest := by
      unfold uses
      rw [List.filterMap_cons]
      cases result.outcome.use? (loader result.id) <;> rfl
    rw [split, List.map_append, ← List.append_assoc]
    exact ih (step.ranks lru ranks)

variable (distinct : Set.InjOn caches.hash (containers loader))

include distinct

theorem mostRecent_uses (count : Nat) (results : List Result) :
    mostRecent count ((uses loader results).map caches.hash) =
      (mostRecent count (uses loader results)).map caches.hash :=
  mostRecent_map (distinct.mono fun _ listed => mem_containers_of_mem_uses listed) count

theorem cached_iff (lru : caches.programs.IsLru keys) {earlier later : List Result} {result : Result}
    {analyzed : Analyzed} {cached : Bool} (turns : Turns caches loader before (earlier ++ result :: later) after)
    (ranks : caches.programs.Ranks keys count [] before) (done : result.outcome = .done analyzed cached) :
    ∃ bytes, loader result.id = .ok bytes ∧ (cached = true ↔ bytes ∈ mostRecent count (uses loader earlier)) := by
  obtain ⟨middle, first, second⟩ := turns.exists_split
  cases second with
  | turn step further =>
    rw [done] at step
    obtain ⟨bytes, loaded, same⟩ := step.cached_iff lru (first.ranks lru ranks)
    refine ⟨bytes, loaded, same.trans ?_⟩
    rw [List.nil_append, mostRecent_uses distinct, List.mem_map]
    constructor
    · intro parts
      rcases parts with ⟨other, recent, alike⟩
      have listed := mem_containers_of_mem_uses (mem_of_mem_mostRecent recent)
      obtain rfl := distinct listed ⟨_, loaded⟩ alike
      exact recent
    · intro recent
      exact ⟨bytes, recent, rfl⟩

end Turns

end

/-- These analyses are at hand. No analysis is stuck and none is called off. -/
structure PoolState.Stands {caches : Caches} (programs : caches.programs.Store) (state : PoolState caches) :
    Prop where
  programs : state.programs = programs
  free : state.stuck = false
  going : state.canceled = false

section

variable {caches : Caches} {m : Type → Type} [Monad m] [LawfulMonad m] {α β : Type}
  {programs after : caches.programs.Store}

/-- With these analyses at hand an action gives a value, and leaves analyses that go with it. -/
def Leads (programs : caches.programs.Store) (holds : α → caches.programs.Store → Prop)
    (action : StateT (PoolState caches) m α) : Prop :=
  ∀ state : PoolState caches, state.Stands programs →
    SatisfiesM (fun outcome => ∃ after, holds outcome.1 after ∧ outcome.2.Stands after) (action.run state)

namespace Leads

variable {holds : α → caches.programs.Store → Prop} {follows : β → caches.programs.Store → Prop}
  {action : StateT (PoolState caches) m α} {next : α → StateT (PoolState caches) m β}

theorem pure {value : α} (held : holds value programs) :
    Leads programs holds (Pure.pure value : StateT (PoolState caches) m α) :=
  fun _ stands => .pure ⟨programs, held, stands⟩

theorem bind (first : Leads programs holds action)
    (second : ∀ value after, holds value after → Leads after follows (next value)) :
    Leads programs follows (action >>= next) := by
  intro state stands
  rw [StateT.run_bind]
  refine (first state stands).bind fun outcome reached => ?_
  obtain ⟨after, held, stands⟩ := reached
  exact second outcome.1 after held outcome.2 stands

theorem of_keeps {held : α → Prop} (keeps : Keeps (PoolState.Stands programs) held action) :
    Leads programs (fun value after => held value ∧ after = programs) action :=
  fun state stands => (keeps state stands).imp fun both => ⟨programs, ⟨both.1, rfl⟩, both.2⟩

theorem bind_keeps {held : α → Prop} (first : Keeps (PoolState.Stands programs) held action)
    (second : ∀ value, held value → Leads programs follows (next value)) :
    Leads programs follows (action >>= next) := by
  refine bind (of_keeps first) fun value after kept => ?_
  obtain ⟨given, rfl⟩ := kept
  exact second value given

theorem change {change : PoolState caches → PoolState caches}
    (leads : ∀ state : PoolState caches, state.Stands programs → (change state).Stands after) :
    Leads programs (fun _ next => next = after) (modify change : StateT (PoolState caches) m PUnit) :=
  fun state stands => .pure ⟨after, rfl, leads state stands⟩

end Leads

/-- An analysis comes to its end, and gives a value with which the analyses go that it leaves. -/
def Ends (programs : caches.programs.Store) (holds : α → caches.programs.Store → Prop)
    (action : Pool.Analysis caches m α) : Prop :=
  Leads programs (fun outcome after => ∃ value, outcome = .ok value ∧ holds value after) action.run

namespace Ends

variable {holds : α → caches.programs.Store → Prop} {follows : β → caches.programs.Store → Prop}
  {action : Pool.Analysis caches m α} {next : α → Pool.Analysis caches m β}

theorem pure {value : α} (held : holds value programs) :
    Ends programs holds (Pure.pure value : Pool.Analysis caches m α) :=
  Leads.pure ⟨value, rfl, held⟩

theorem bind (first : Ends programs holds action)
    (second : ∀ value after, holds value after → Ends after follows (next value)) :
    Ends programs follows (action >>= next) := by
  refine Leads.bind first fun outcome after ended => ?_
  obtain ⟨value, rfl, held⟩ := ended
  exact second value after held

theorem bind_completes {held : α → Prop} (first : Completes (PoolState.Stands programs) held action)
    (second : ∀ value, held value → Ends programs follows (next value)) :
    Ends programs follows (action >>= next) := by
  refine Leads.bind_keeps first fun outcome ended => ?_
  obtain ⟨value, rfl, given⟩ := ended
  exact second value given

theorem change_bind {change : PoolState caches → PoolState caches} {next : PUnit → Pool.Analysis caches m β}
    (leads : ∀ state : PoolState caches, state.Stands programs → (change state).Stands after)
    (second : Ends after follows (next ⟨⟩)) :
    Ends programs follows ((modify change : Pool.Analysis caches m PUnit) >>= next) := by
  have changed : Ends programs (fun _ next => next = after) (modify change : Pool.Analysis caches m PUnit) :=
    Leads.bind (Leads.change leads) fun value _ reached => Leads.pure ⟨value, rfl, reached⟩
  refine bind changed fun _ next reached => ?_
  subst reached
  exact second

end Ends

end

namespace Pool

theorem serves_any {caches : Caches} (loader : Int32 → Except LoadError (List UInt8)) :
    Serves loader (fun _ : caches.signatures.Store => True) fun _ _ => True :=
  ⟨fun _ => trivial, fun _ _ _ _ _ => trivial, fun _ _ _ => trivial, fun _ _ _ => trivial⟩

variable {caches : Caches} {m : Type → Type} [Monad m] [LawfulMonad m] {source : Source m}
  {loader : Int32 → Except LoadError (List UInt8)}
  (fixed : ∀ id, SatisfiesM (fun load => load = .ofExcept (loader id)) (source.load id)) {pool : Pool}

include fixed

/-- An analysis that was not at hand is added if it succeeds, and changes nothing if it fails. -/
theorem analyzeBytes_ends (bytes : List UInt8) (programs : caches.programs.Store) :
    Ends programs (fun outcome after => after = outcome.toOption.elim programs fun found =>
      caches.programs.add (caches.hash bytes) found programs) (analyzeBytes pool source bytes) := by
  unfold analyzeBytes
  cases Script.read bytes with
  | error error => exact Ends.pure rfl
  | ok script =>
    have answers (id : Int32) : Completes (PoolState.Stands programs) (fun _ => True) (signature source id) :=
      signature_completes fixed (serves_any loader) (fun _ _ => trivial) (fun _ _ _ stands _ => { stands with }) id
    have analysed := Completes.isSequential.analyzeM answers pool.decoder pool.options script
    refine Ends.bind_completes analysed fun outcome _ => ?_
    cases outcome with
    | error error => exact Ends.pure rfl
    | ok graph =>
      refine Ends.change_bind (fun state stands => ?_) (Ends.pure rfl)
      exact { stands with programs := congrArg (caches.programs.add _ _) stands.programs }

theorem analyze_ends (id : Int32) (programs : caches.programs.Store) :
    Ends programs (Turn caches loader id programs) (analyze pool source id) := by
  refine Ends.bind_completes (load_completes fixed id) fun loaded same => ?_
  subst same
  cases loaded : loader id with
  | error error => exact Ends.pure (.unloaded _)
  | ok bytes =>
    refine Ends.bind_completes Completes.get fun state stands => ?_
    rw [stands.programs]
    refine Ends.change_bind (fun state stands => { stands with programs := rfl }) ?_
    split
    next found hit => exact Ends.pure (.recalled loaded hit)
    next miss =>
      refine Ends.bind (analyzeBytes_ends fixed bytes _) fun outcome after reached => ?_
      subst reached
      cases outcome with
      | error failure => exact Ends.pure (.failed miss failure)
      | ok result => exact Ends.pure (.learned loaded miss result)

theorem attempt_leads (id : Int32) (programs : caches.programs.Store) :
    Leads programs (Turn caches loader id programs) (attempt pool source id) := by
  refine Leads.bind_keeps Keeps.get fun state stands => ?_
  simp only [stands.free]
  refine Leads.bind (analyze_ends fixed id programs) fun ended after reached => ?_
  obtain ⟨outcome, rfl, turn⟩ := reached
  exact Leads.pure turn

theorem process_leads (id : Int32) (programs : caches.programs.Store) :
    Leads programs (fun result after => result.id = id ∧ Turn caches loader result.id programs result.outcome after)
      (process pool source id) := by
  refine Leads.bind_keeps (Keeps.lift .trivial) fun start _ => ?_
  refine Leads.bind (attempt_leads fixed id programs) fun outcome after turn => ?_
  refine Leads.bind_keeps (Keeps.lift .trivial) fun stop _ => ?_
  have logged (event : Event) : Keeps (m := m) (PoolState.Stands after) (fun _ => True)
      (modify (·.log event)) :=
    Keeps.change fun state stands => { stands with }
  cases outcome with
  | done result cached => exact Leads.bind_keeps (logged _) fun _ _ => Leads.pure ⟨rfl, turn⟩
  | failed failure => exact Leads.bind_keeps (logged _) fun _ _ => Leads.pure ⟨rfl, turn⟩
  | skipped cause => cases turn

theorem processAll_leads (ids : List Int32) (programs : caches.programs.Store) :
    Leads programs (fun results after => results.map Result.id = ids ∧ Turns caches loader programs results after)
      (processAll pool source false ids) := by
  induction ids generalizing programs with
  | nil => exact Leads.pure ⟨rfl, .done programs⟩
  | cons id rest ih =>
    rw [processAll]
    -- Nothing is ever called off, so every script has its turn.
    refine Leads.bind_keeps Keeps.get fun state stands => ?_
    simp only [stands.going]
    refine Leads.bind (process_leads fixed id programs) fun result middle reached => ?_
    obtain ⟨named, turn⟩ := reached
    refine Leads.bind (ih middle) fun results after reached => ?_
    obtain ⟨names, turns⟩ := reached
    exact Leads.pure ⟨by rw [List.map_cons, named, names], .turn turn turns⟩

theorem run_leads (ids : List Int32) (programs : caches.programs.Store) :
    Leads programs (fun results after => results.map Result.id = ids ∧ Turns caches loader programs results after)
      (run pool source ids) := by
  refine Leads.bind_keeps (Keeps.lift .trivial) fun start _ => ?_
  refine Leads.bind_keeps Keeps.get fun state stands => ?_
  rw [stands.going]
  refine Leads.bind (processAll_leads fixed ids programs) fun results after reached => ?_
  refine Leads.bind_keeps (Keeps.lift .trivial) fun stop _ => ?_
  exact Leads.bind_keeps (Keeps.change fun state stands => { stands with }) fun _ _ => Leads.pure reached

theorem runs_lead (batches : List (List Int32)) (programs : caches.programs.Store) :
    Leads programs (fun outcomes after => outcomes.map (·.map Result.id) = batches ∧
        Turns caches loader programs outcomes.flatten after) (batches.mapM (run pool source)) := by
  induction batches generalizing programs with
  | nil => exact Leads.pure ⟨rfl, .done programs⟩
  | cons ids rest ih =>
    rw [List.mapM_cons]
    refine Leads.bind (run_leads fixed ids programs) fun results middle reached => ?_
    obtain ⟨named, first⟩ := reached
    refine Leads.bind (ih middle) fun outcomes after reached => ?_
    obtain ⟨names, second⟩ := reached
    exact Leads.pure ⟨by rw [List.map_cons, named, names], first.append second⟩

end Pool

/-- A script that comes out well is spared its analysis exactly if its container is one of those used most recently by
the scripts before it that came out well, as many as there is room for. What is at hand after any runs are the
analyses of these containers, so scripts that fail change nothing. -/
theorem cached_iff_recent {m : Type → Type} [Monad m] [LawfulMonad m] (caches : Caches)
    (keys : caches.programs.Store → List UInt64) (lru : caches.programs.IsLru keys) (source : Source m)
    (loader : Int32 → Except LoadError (List UInt8))
    (fixed : ∀ id, SatisfiesM (fun load => load = .ofExcept (loader id)) (source.load id))
    (distinct : Set.InjOn caches.hash (containers loader)) (settings : Settings) (valid : settings.validate = .ok ()) :
    ∃ pool state, Pool.new caches settings = .ok (pool, state) ∧
      ∀ batches : List (List Int32),
        SatisfiesM (fun outcome => outcome.1.map (·.map Result.id) = batches ∧
          keys outcome.2.programs =
            (mostRecent settings.batch.programCacheSize.toNat (uses loader outcome.1.flatten)).map caches.hash ∧
          ∀ earlier result later analyzed cached, outcome.1.flatten = earlier ++ result :: later →
            result.outcome = .done analyzed cached →
            ∃ bytes, loader result.id = .ok bytes ∧ (cached = true ↔
              bytes ∈ mostRecent settings.batch.programCacheSize.toNat (uses loader earlier)))
          ((batches.mapM (pool.run source)).run state) := by
  obtain ⟨pool, created⟩ := Pool.exists_new caches valid
  obtain ⟨-, -, -, room⟩ := settings.parts_of_validate valid
  have ranks := Cache.Ranks.new lru room
  refine ⟨pool, _, created, fun batches => ?_⟩
  refine (Pool.runs_lead fixed batches _ _ ⟨rfl, rfl, rfl⟩).imp fun reached => ?_
  obtain ⟨after, ⟨names, turns⟩, stands⟩ := reached
  refine ⟨names, ?_, fun earlier result later analyzed cached split done => ?_⟩
  · rw [stands.programs, (turns.ranks lru ranks).keys, List.nil_append, Turns.mostRecent_uses distinct]
  · rw [split] at turns
    exact turns.cached_iff distinct lru ranks done

def Outcome.cached? : Outcome → Option Bool
  | .done _ cached => some cached
  | .failed _ | .skipped _ => none

/-- With room for one analysis the second script takes the place of the first. The third one fails, so the second is
still at hand after it, and the first one is not. -/
theorem cached_iff_recent_evicted :
    ∃ pool state outcome clock,
      Pool.new .standard { batch := { workers := 1, programCacheSize := 1 } } = .ok (pool, state) ∧
      (([[1, 1, 2], [3, 2, 1]].mapM (pool.run tickingSource)).run state).run 0 = (outcome, clock) ∧
      outcome.1.map (·.map (·.outcome.cached?)) =
        [[some false, some true, some false], [none, some true, some false]] ∧
      Recent.keys outcome.2.programs = (mostRecent 1 (uses pairOfScripts outcome.1.flatten)).map Murmur.hash ∧
      ∀ earlier result later analyzed cached, outcome.1.flatten = earlier ++ result :: later →
        result.outcome = .done analyzed cached →
        ∃ bytes, pairOfScripts result.id = .ok bytes ∧
          (cached = true ↔ bytes ∈ mostRecent 1 (uses pairOfScripts earlier)) := by
  obtain ⟨pool, state, created, answered⟩ := cached_iff_recent .standard Recent.keys Recent.isLru tickingSource
    pairOfScripts tickingSource_fixed pairOfScripts_distinct { batch := { workers := 1, programCacheSize := 1 } } rfl
  obtain ⟨-, keys, recent⟩ :=
    SatisfiesM_Id_eq.1 (SatisfiesM_StateT_eq.1 (answered [[1, 1, 2], [3, 2, 1]]) 0)
  refine ⟨pool, state, _, _, created, rfl, ?_, keys, recent⟩
  cases created
  decide +kernel

end ClientScript
