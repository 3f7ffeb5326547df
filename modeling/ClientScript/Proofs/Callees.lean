import ClientScript.Proofs.Strictness

/-!
What the signatures of callees tell. A call of a script without a known signature leaves the stacks unknown up to the
end of the block. Whoever knows more signatures finds the same instructions, and finds all that was known of
the stacks without them.
-/

namespace ClientScript

def Extends {α : Type} (less more : Option α) : Prop :=
  ∀ value, less = some value → more = some value

namespace Extends

variable {α β : Type} {less more : Option α}

theorem refl (value : Option α) : Extends value value := fun _ => id

theorem none_left (more : Option α) : Extends none more := by
  intro value told
  cases told

theorem bind (tells : Extends less more) {one other : α → Option β}
    (each : ∀ value, Extends (one value) (other value)) : Extends (less.bind one) (more.bind other) := by
  intro result told
  obtain ⟨value, given, found⟩ := Option.bind_eq_some_iff.1 told
  rw [tells value given]
  exact each value result found

end Extends

namespace StackState

variable {one other : Option Signature} {less more : StackState}

theorem left_extends (signatures : Extends one other) (frames : Extends less more) (inst : Instruction) :
    Extends (less.left one inst) (more.left other inst) := by
  apply frames.bind
  intro frame
  cases one with
  | some signature =>
    rw [signatures signature rfl]
    exact .refl _
  | none =>
    by_cases call : inst.desc.stack.rule = .call
    · have lost : frame.apply none inst = .ok none := by simp [Frame.apply, call]
      rw [lost]
      exact .none_left _
    · rw [frame.apply_of_not_call call none other]
      exact .refl _

theorem follow_extends (signatures : Extends one other) (frames : Extends less more) (inst : Instruction) :
    Extends (less.follow one inst) (more.follow other inst) := by
  unfold follow
  by_cases terminates : inst.terminates = true
  · simp only [if_pos terminates]
    exact .refl _
  · simp only [if_neg terminates]
    exact left_extends signatures frames inst

theorem depth_eq_of_extends (frames : Extends less more) (known : less.depth ≠ .unknown) : more = less := by
  cases less with
  | none => exact absurd rfl known
  | some frame => exact frames frame rfl

end StackState

/-- The same instruction in two traces, of which the other one knows all that the one knows. -/
structure Instruction.Informs (inst other : Instruction) : Prop where
  offset : other.offset = inst.offset
  index : other.index = inst.index
  desc : other.desc = inst.desc
  operand : other.operand = inst.operand
  size : other.size = inst.size
  before : inst.before ≠ .unknown → other.before = inst.before
  after : inst.after ≠ .unknown → other.after = inst.after ∧ other.stack = inst.stack

theorem Instruction.traced_informs {less more next nextMore : StackState} (frames : Extends less more)
    (nextFrames : Extends next nextMore) (inst : Instruction) :
    (inst.traced less next).Informs (inst.traced more nextMore) where
  offset := rfl
  index := rfl
  desc := rfl
  operand := rfl
  size := rfl
  before known := congrArg StackState.depth (StackState.depth_eq_of_extends frames known)
  after known := by
    have same := StackState.depth_eq_of_extends nextFrames known
    exact ⟨congrArg StackState.depth same, same⟩

section

variable {one other : Int32 → Option Signature} {less more : StackState}

theorem followed_informs (signatures : ∀ id, Extends (one id) (other id)) (frames : Extends less more)
    (insts : List Instruction) :
    List.Forall₂ Instruction.Informs (followed one less insts) (followed other more insts) := by
  induction insts generalizing less more with
  | nil => exact .nil
  | cons inst rest ih =>
    have next := StackState.follow_extends (signatures inst.operand.toInt) frames inst
    exact .cons (inst.traced_informs frames next) (ih next)

theorem stackBefore_followed_extends (signatures : ∀ id, Extends (one id) (other id)) (frames : Extends less more)
    (insts : List Instruction) (place : Nat) :
    Extends (stackBefore less (followed one less insts) place)
      (stackBefore more (followed other more insts) place) := by
  induction insts generalizing less more place with
  | nil =>
    cases place with
    | zero => exact frames
    | succ place => exact .none_left _
  | cons inst rest ih =>
    cases place with
    | zero => exact frames
    | succ place =>
      simp only [followed, stackBefore_cons]
      exact ih (StackState.follow_extends (signatures inst.operand.toInt) frames inst) place

end

/-- Lenient decoding with more signatures at hand fails in the same way, or gives the same instructions and knows all
that was known of their stacks. -/
theorem decode_more_signatures (one other : Int32 → Option Signature) (decoder : Decoder) (code : List UInt8)
    (start : Int) (lenient : decoder.strict = false)
    (known : ∀ id signature, one id = some signature → other id = some signature) :
    (∃ error, decoder.decode one code start = .error error ∧ decoder.decode other code start = .error error) ∨
      ∃ insts others, decoder.decode one code start = .ok insts ∧ decoder.decode other code start = .ok others ∧
        List.Forall₂ Instruction.Informs insts others ∧
        ∀ (place : Nat) (inst : Instruction), insts[place]? = some inst → inst.before ≠ .unknown →
          stackBefore (some {}) others place = stackBefore (some {}) insts place := by
  by_cases outside : start < 0 ∨ code.length < start
  · left
    exact ⟨_, Decoder.decode_outside outside, Decoder.decode_outside outside⟩
  · rw [Decoder.decode_lenient lenient outside, Decoder.decode_lenient lenient outside]
    generalize decoder.frame start.toNat 0 (code.drop start.toNat) = framing
    cases framing.failure with
    | some error => exact .inl ⟨error, rfl, rfl⟩
    | none =>
      right
      refine ⟨_, _, rfl, rfl, followed_informs known (.refl _) framing.insts, fun place inst found told => ?_⟩
      rw [(traced_followed one (some {}) framing.insts).before_eq found] at told
      exact StackState.depth_eq_of_extends (stackBefore_followed_extends known (.refl _) framing.insts place) told

/-- A call whose signature only the second decoding knows: the first one loses the stacks there, up to the return. -/
theorem decode_more_signatures_call :
    ∃ insts others call known,
      Decoder.decode (fun _ => none) {} [0, 0, 0, 0, 0, 7, 0, 40, 0, 0, 0, 5, 0, 21, 0] 0 = .ok insts ∧
      Decoder.decode (fun id => if id = 5 then some ⟨1, 0, [.string]⟩ else none) {}
        [0, 0, 0, 0, 0, 7, 0, 40, 0, 0, 0, 5, 0, 21, 0] 0 = .ok others ∧
      List.Forall₂ Instruction.Informs insts others ∧ insts[1]? = some call ∧ others[1]? = some known ∧
      call.before = .known 1 0 ∧ call.after = .unknown ∧ known.before = .known 1 0 ∧ known.after = .known 0 1 := by
  have one : Decoder.decode (fun _ => none) {} [0, 0, 0, 0, 0, 7, 0, 40, 0, 0, 0, 5, 0, 21, 0] 0 = .ok _ :=
    Decoder.decode_of_within 3 (by decide) rfl rfl
  have other : Decoder.decode (fun id => if id = 5 then some ⟨1, 0, [.string]⟩ else none) {}
      [0, 0, 0, 0, 0, 7, 0, 40, 0, 0, 0, 5, 0, 21, 0] 0 = .ok _ :=
    Decoder.decode_of_within 3 (by decide) rfl rfl
  rcases decode_more_signatures (fun _ => none) (fun id => if id = 5 then some ⟨1, 0, [.string]⟩ else none) {}
    [0, 0, 0, 0, 0, 7, 0, 40, 0, 0, 0, 5, 0, 21, 0] 0 rfl nofun with failed | success
  · obtain ⟨error, refused, -⟩ := failed
    rw [one] at refused
    cases refused
  · obtain ⟨insts, others, first, second, informs, -⟩ := success
    rw [one] at first
    rw [other] at second
    cases first
    cases second
    exact ⟨_, _, _, _, one, other, informs, rfl, rfl, rfl, rfl, rfl, rfl⟩

end ClientScript
