import ClientScript.Proofs.StoredForm

/-!
Reads of too few bytes. A read that fails either finds its bytes cut short or has seen enough to fail: then
it fails in the same way whatever follows. So a read that accepts a form finds every proper beginning of that
form cut short, and never takes it for something else. That operands are read so follows from their parts, as
any property does that pervades these reads.
-/

namespace ClientScript

def DecodeCause.IsTruncation : DecodeCause → Prop
  | .outside | .opcodeTruncated _ | .operandTruncated _ _ => True
  | .badSwitch _ | .tooManyInstructions | .stack _ => False

namespace Read

variable {ε α β : Type} {short : ε → Prop}

/-- More bytes can mend a failure only if it is for want of bytes. -/
def Firm (short : ε → Prop) (read : Read ε α) : Prop :=
  ∀ bytes more error, read bytes = .error error → short error ∨ read (bytes ++ more) = .error error

theorem firm_pure (value : α) : (Pure.pure value : Read ε α).Firm short := by
  intro bytes more error failed
  cases failed

theorem firm_fail (error : ε) : (Read.fail error : Read ε α).Firm short := by
  intro bytes more other failed
  exact .inr failed

theorem Accepts.append {read : Read ε α} {form : α → List UInt8 → Prop} (accepts : read.Accepts form)
    {bytes : List UInt8} {value : α} {used : Nat} (success : read bytes = .ok (value, used)) (more : List UInt8) :
    used ≤ bytes.length ∧ read (bytes ++ more) = .ok (value, used) := by
  obtain ⟨raw, rest, rfl, rfl, formed⟩ := (accepts _ _ _).1 success
  refine ⟨?_, ?_⟩
  · rw [List.length_append]
    exact Nat.le_add_right _ _
  · rw [List.append_assoc]
    exact accepts.complete formed _

theorem Firm.bind {first : Read ε α} {next : α → Read ε β} {form : α → List UInt8 → Prop}
    (accepts : first.Accepts form) (firm : first.Firm short) (nextFirm : ∀ value, (next value).Firm short) :
    (first >>= next).Firm short := by
  intro bytes more error failed
  change Read.bind first next bytes = _ at failed
  change _ ∨ Read.bind first next (bytes ++ more) = _
  unfold Read.bind at failed ⊢
  cases start : first bytes with
  | error reason =>
    rw [start] at failed
    cases failed
    rcases firm bytes more error start with mended | same
    · exact .inl mended
    · rw [same]
      exact .inr rfl
  | ok pair =>
    obtain ⟨value, used⟩ := pair
    obtain ⟨within, again⟩ := accepts.append start more
    simp only [start] at failed
    simp only [again, List.drop_append_of_le_length within]
    cases finish : next value (bytes.drop used) with
    | ok pair => simp [finish] at failed
    | error reason =>
      rw [finish] at failed
      cases failed
      rcases nextFirm value _ more error finish with mended | same
      · exact .inl mended
      · rw [same]
        exact .inr rfl

theorem Firm.exists_short {read : Read ε α} {form : α → List UInt8 → Prop} (firm : read.Firm short)
    (accepts : read.Accepts form) {value : α} {front back : List UInt8} (formed : form value (front ++ back))
    (cut : back ≠ []) : ∃ error, read front = .error error ∧ short error := by
  have whole := accepts.complete formed []
  rw [List.append_nil] at whole
  cases outcome : read front with
  | ok pair =>
    obtain ⟨other, used⟩ := pair
    -- A read that was content with the front would use no more than that of the whole.
    obtain ⟨within, again⟩ := accepts.append outcome back
    rw [whole] at again
    cases again
    rw [List.length_append] at within
    have positive := List.length_pos_iff.2 cut
    omega
  | error error =>
    rcases firm front back error outcome with mended | same
    · exact ⟨error, rfl, mended⟩
    · rw [whole] at same
      cases same

end Read

namespace Decoder

/-- A property that the reads of the parts of an operand have, and that is kept where reads are put together. -/
structure Pervades (holds : ∀ α : Type, Read DecodeCause α → Prop) : Prop where
  pure : ∀ {α : Type} (value : α), holds α (Pure.pure value)
  refuse : ∀ {α : Type} (fault : SwitchFault), holds α (Read.fail (.badSwitch fault))
  part : ∀ {α : Type} (shape : Shape) (read : Read ReadError α), holds α (part shape read)
  bind : ∀ {α β : Type} {first : Read DecodeCause α} {next : α → Read DecodeCause β} {form : α → List UInt8 → Prop},
    first.Accepts form → holds α first → (∀ value, holds β (next value)) → holds β (first >>= next)

namespace Pervades

variable {holds : ∀ α : Type, Read DecodeCause α → Prop}

theorem map (pervades : Pervades holds) {α β : Type} {read : Read DecodeCause α} {form : α → List UInt8 → Prop}
    (accepts : read.Accepts form) (known : holds α read) (make : α → β) :
    holds β (read >>= fun value => Pure.pure (make value)) :=
  pervades.bind accepts known fun value => pervades.pure (make value)

theorem readTerms (pervades : Pervades holds) (group count : Nat) : holds _ (readTerms group count) := by
  induction count with
  | zero => exact pervades.pure []
  | succ count ih =>
    refine pervades.bind (part_accepts .switch Read.accepts_i16) (pervades.part _ _) fun code => ?_
    dsimp only
    split
    · refine pervades.bind (part_accepts .switch Read.accepts_i32) (pervades.part _ _) fun label => ?_
      exact pervades.map (readTerms_accepts group count) ih _
    · exact pervades.refuse _

theorem readGroup (pervades : Pervades holds) (group : Nat) : holds _ (readGroup group) := by
  refine pervades.bind (part_accepts .switch Read.accepts_byte) (pervades.part _ _) fun count => ?_
  split
  · exact pervades.refuse _
  · refine pervades.bind (part_accepts .switch Read.accepts_i32) (pervades.part _ _) fun label => ?_
    refine pervades.bind (readTerms_accepts group _) (pervades.readTerms group _) fun more => ?_
    exact pervades.map (part_accepts .switch Read.accepts_i32) (pervades.part _ _) _

theorem readGroups (pervades : Pervades holds) (group count : Nat) : holds _ (readGroups group count) := by
  induction count generalizing group with
  | zero => exact pervades.pure []
  | succ count ih =>
    refine pervades.bind (readGroup_accepts group) (pervades.readGroup group) fun first => ?_
    exact pervades.map (readGroups_accepts (group + 1) count) (ih (group + 1)) _

theorem readSwitch (pervades : Pervades holds) (decoder : Decoder) : holds _ decoder.readSwitch := by
  unfold Decoder.readSwitch
  cases decoder.switches with
  | inline =>
    refine pervades.bind (part_accepts .switch Read.accepts_u16) (pervades.part _ _) fun count => ?_
    exact pervades.map (readGroups_accepts 0 count.toNat) (pervades.readGroups 0 count.toNat) _
  | indexed =>
    refine pervades.bind (part_accepts .switch Read.accepts_i32) (pervades.part _ _) fun index => ?_
    split
    · exact pervades.refuse _
    · exact pervades.pure _

theorem readOperand (pervades : Pervades holds) (decoder : Decoder) (desc : Descriptor) :
    holds _ (decoder.readOperand desc) := by
  unfold Decoder.readOperand
  cases desc.shape with
  | none => exact pervades.pure _
  | int | slot _ => exact pervades.map (part_accepts _ Read.accepts_i32) (pervades.part _ _) _
  | string => exact pervades.map (part_accepts _ Read.accepts_text) (pervades.part _ _) _
  | byte => exact pervades.map (part_accepts _ Read.accepts_byte) (pervades.part _ _) _
  | switch => exact pervades.map decoder.readSwitch_accepts (pervades.readSwitch decoder) _
  | unknown => exact pervades.map (part_accepts _ (Read.accepts_bytes _)) (pervades.part _ _) _

end Pervades

theorem part_firm {α : Type} (shape : Shape) (read : Read ReadError α) :
    (part shape read).Firm DecodeCause.IsTruncation := by
  intro bytes more error failed
  unfold part Read.mapError at failed
  split at failed
  · cases failed
    exact .inl trivial
  · cases failed

theorem readOperand_firm (decoder : Decoder) (desc : Descriptor) :
    (decoder.readOperand desc).Firm DecodeCause.IsTruncation := by
  have pervades : Pervades fun _ read => read.Firm DecodeCause.IsTruncation :=
    { pure := Read.firm_pure
      refuse := fun fault => Read.firm_fail (DecodeCause.badSwitch fault)
      part := part_firm
      bind := fun accepts firm nextFirm => firm.bind accepts nextFirm }
  exact pervades.readOperand decoder desc

end Decoder

end ClientScript
