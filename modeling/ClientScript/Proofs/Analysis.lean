import ClientScript.Proofs.Building
import ClientScript.Script.Analysis

/-!
Analysis of scripts. While code is decoded its callees are asked for their signatures, and the answers may depend on
what was asked before. Whatever they are, the instructions stay in their places. So code that was decoded and whose
control flow was resolved always has a block graph, and an analysis never fails for want of one.
-/

namespace ClientScript

section

variable {m : Type → Type} [Monad m] [LawfulMonad m]

theorem satisfiesM_error {ε α : Type} (error : ε) (holds : α → Prop) :
    SatisfiesM (fun outcome : Except ε α => ∀ value, outcome = .ok value → holds value)
      (pure (.error error) : m (Except ε α)) := by
  refine .pure fun value same => ?_
  cases same

theorem satisfiesM_ok {ε α : Type} {value : α} {holds : α → Prop} (held : holds value) :
    SatisfiesM (fun outcome : Except ε α => ∀ value, outcome = .ok value → holds value)
      (pure (.ok value) : m (Except ε α)) := by
  refine .pure fun value same => ?_
  cases same
  exact held

/-- A trace leaves instructions in their places, whatever the callees answer. -/
theorem traceM_satisfies (callee : Int32 → m (Option Signature)) (strict : Bool) (state : StackState)
    (insts : List Instruction) :
    SatisfiesM (fun outcome => ∀ traced, outcome = .ok traced →
      traced.map Instruction.place = insts.map Instruction.place) (traceM callee strict state insts) := by
  induction insts generalizing state with
  | nil =>
    rw [traceM]
    exact satisfiesM_ok rfl
  | cons inst rest ih =>
    rw [traceM]
    -- Whether a callee is asked or not, what comes after is the same.
    split
    all_goals
      refine SatisfiesM.trivial.bind fun signature _ => ?_
      dsimp only
      split
      next => exact satisfiesM_error _ _
      next next moved =>
        refine (ih next).bind fun outcome placed => ?_
        split
        next => exact satisfiesM_error _ _
        next traced =>
          apply satisfiesM_ok
          rw [List.map_cons, List.map_cons, placed traced rfl]
          rfl

theorem Decoder.decodeM_satisfies (callee : Int32 → m (Option Signature)) (decoder : Decoder) (code : List UInt8)
    (start : Int) :
    SatisfiesM (fun outcome => ∀ insts, outcome = .ok insts → InOrder insts) (decoder.decodeM callee code start) := by
  unfold decodeM
  split
  next => exact satisfiesM_error _ _
  next =>
    refine (traceM_satisfies callee decoder.strict (some {}) _).bind fun outcome placed => ?_
    split
    next => exact satisfiesM_error _ _
    next traced =>
      refine .pure fun insts same => ?_
      have kept := placed traced rfl
      generalize framed : decoder.frame start.toNat 0 (code.drop start.toNat) = framing at same kept
      obtain ⟨cut, failure⟩ := framing
      cases failure with
      | some error => cases same
      | none =>
        cases same
        exact (decoder.cut_of_frame _ _ _ _ framed).inOrder.of_map_place kept

namespace Script

theorem decodeM_satisfies (callee : Int32 → m (Option Signature)) (decoder : Decoder) (script : Script) :
    SatisfiesM (fun outcome => ∀ insts, outcome = .ok insts → InOrder insts) (script.decodeM callee decoder) := by
  unfold decodeM
  refine (Decoder.decodeM_satisfies callee _ script.code 0).bind fun outcome ordered => ?_
  split
  next => exact satisfiesM_error _ _
  next insts =>
    split
    next => exact satisfiesM_ok (ordered insts rfl)
    next => exact satisfiesM_error _ _

/-- An analysis that fails does so at another stage than building a block graph. -/
theorem analyzeM_satisfies (callee : Int32 → m (Option Signature)) (decoder : Decoder) (options : FlowOptions)
    (script : Script) :
    SatisfiesM (fun outcome => ∀ error, outcome = .error error → error.stage ≠ .block)
      (script.analyzeM callee decoder options) := by
  unfold analyzeM
  refine (script.decodeM_satisfies callee decoder).bind fun outcome ordered => ?_
  split
  next =>
    refine .pure fun error same => ?_
    cases same
    nofun
  next insts =>
    split
    next =>
      refine .pure fun error same => ?_
      cases same
      nofun
    next program resolved =>
      obtain ⟨rfl, -⟩ := exits_of_resolve resolved
      obtain ⟨graph, built⟩ := (ordered _ rfl).exists_build resolved
      rw [built]
      exact .pure nofun

end Script

end

/-- Decoded code whose control flow is resolved has a block graph. So no analysis of a script fails at that stage,
whatever the callees answer and however they come by it. -/
theorem build_of_decode_resolve :
    (∀ (callee : Int32 → Option Signature) (decoder : Decoder) (code : List UInt8) (start : Int)
        (insts : List Instruction) (options : FlowOptions) (program : Program),
      decoder.decode callee code start = .ok insts → resolve options insts = .ok program →
      ∃ graph, Graph.build program = .ok graph) ∧
    (∀ (callee : Int32 → Option Signature) (decoder : Decoder) (options : FlowOptions) (script : Script)
        (error : AnalysisError),
      script.analyze callee decoder options = .error error → error.stage ≠ .block) ∧
    ∀ (m : Type → Type) [Monad m] [LawfulMonad m] (callee : Int32 → m (Option Signature)) (decoder : Decoder)
        (options : FlowOptions) (script : Script),
      SatisfiesM (fun outcome => ∀ error, outcome = .error error → error.stage ≠ .block)
        (script.analyzeM callee decoder options) := by
  refine ⟨?_, ?_, ?_⟩
  · intro callee decoder code start insts options program decoded resolved
    obtain ⟨rfl, -⟩ := exits_of_resolve resolved
    exact (inOrder_of_decode decoded).exists_build resolved
  · intro callee decoder options script
    exact SatisfiesM_Id_eq.1 (script.analyzeM_satisfies callee decoder options)
  · intro m _ _ callee decoder options script
    exact script.analyzeM_satisfies callee decoder options

/-- A branch past a return, and a script that runs off its end, with a callee that counts how often it is asked. -/
theorem build_of_decode_resolve_runaway :
    (∃ insts program graph,
      Decoder.decode (fun _ => none) {} [0, 6, 0, 0, 0, 1, 0, 21, 0, 0, 21, 0] 0 = .ok insts ∧
      resolve {} insts = .ok program ∧ Graph.build program = .ok graph) ∧
    (∃ error, Script.analyze (fun _ => none) {} {} { code := [0, 0, 0, 0, 0, 1], instructionCount := 1 } =
      .error error ∧ error.stage ≠ .block) ∧
    ∀ (asked : Nat) (error : AnalysisError),
      ((Script.analyzeM (fun _ => modifyGet fun count : Nat => (none, count + 1)) {} {}
        { code := [0, 0, 0, 0, 0, 1], instructionCount := 1 } : StateM Nat _).run asked).1 = .error error →
      error.stage ≠ .block := by
  obtain ⟨builds, analyzes, asks⟩ := build_of_decode_resolve
  have decoded : Decoder.decode (fun _ => none) {} [0, 6, 0, 0, 0, 1, 0, 21, 0, 0, 21, 0] 0 = .ok _ :=
    Decoder.decode_of_within 3 (by decide) rfl rfl
  have failed : Script.analyze (fun _ => none) {} {} { code := [0, 0, 0, 0, 0, 1], instructionCount := 1 } =
      .error (.flow (.target ⟨0, ⟨0⟩, 1, .byIndex⟩)) := by decide +kernel
  refine ⟨?_, ⟨_, failed, analyzes _ _ _ _ _ failed⟩, fun asked => ?_⟩
  · obtain ⟨graph, built⟩ := builds _ _ _ _ _ {} _ decoded rfl
    exact ⟨_, _, graph, decoded, rfl, built⟩
  · exact SatisfiesM_Id_eq.1 (SatisfiesM_StateT_eq.1 (asks (StateM Nat) _ _ _ _) asked)

end ClientScript
