import ClientScript.Proofs.Classification
import ClientScript.Proofs.WriteFailures

/-!
Tables of switches that are written and read back. The writer refuses exactly the tables whose groups or labels
cannot be counted. It does not look at what joins the labels: what joins the first label of a group is not stored and
is lost, and a later label that no combinator joins is stored all the same, so that the decoder refuses the table.
-/

namespace ClientScript

namespace CaseGroup

def freed (group : CaseGroup) : CaseGroup :=
  { group with terms := group.terms.modifyHead fun first => { first with join := .none } }

/-- The first of the later labels that neither combinator joins to the one before it. -/
def strayTerm? (group : CaseGroup) : Option Term :=
  group.terms.tail.find? fun term => ¬term.IsJoined

def stray? (number : Nat) : List CaseGroup → Option (Nat × Term)
  | [] => none
  | group :: rest =>
    match group.strayTerm? with
    | some term => some (number, term)
    | none => stray? (number + 1) rest

theorem stored_freed (group : CaseGroup) : group.freed.stored = group.stored := by
  obtain ⟨terms, disp⟩ := group
  cases terms <;> rfl

def switchCode (groups : List CaseGroup) : List UInt8 :=
  wordBytes 60 ++ (SwitchOperand.mk (-1) groups).stored

theorem switchCode_freed (groups : List CaseGroup) : switchCode (groups.map freed) = switchCode groups := by
  simp only [switchCode, SwitchOperand.stored, List.length_map, List.flatMap_map, stored_freed]

theorem strayTerm_eq_none_iff (group : CaseGroup) :
    group.strayTerm? = none ↔ ∀ term ∈ group.terms.tail, term.IsJoined := by
  simp only [strayTerm?, List.find?_eq_none, decide_eq_true_eq, not_not]

theorem stray_eq_none_iff (number : Nat) (groups : List CaseGroup) :
    stray? number groups = none ↔ ∀ group ∈ groups, group.strayTerm? = none := by
  induction groups generalizing number with
  | nil => simp [stray?]
  | cons group rest ih =>
    rw [List.forall_mem_cons, ← ih (number + 1), stray?]
    cases group.strayTerm? <;> simp

theorem isStorable_freed {group : CaseGroup} (countable : group.IsCountable) (clean : group.strayTerm? = none) :
    group.freed.IsStorable := by
  have joined := group.strayTerm_eq_none_iff.1 clean
  obtain ⟨terms, disp⟩ := group
  obtain ⟨someTerm, fewTerms⟩ := countable
  obtain ⟨first, more, rfl⟩ := List.exists_cons_of_length_pos someTerm
  exact {
    some_term := someTerm
    few_terms := fewTerms
    first_join := by simp [freed]
    later_join := joined }

theorem isStorable_iff (group : CaseGroup) :
    group.IsStorable ↔ group.IsCountable ∧ group.strayTerm? = none ∧ group.freed = group := by
  constructor
  · intro storable
    refine ⟨storable.isCountable, group.strayTerm_eq_none_iff.2 storable.later_join, ?_⟩
    obtain ⟨terms, disp⟩ := group
    cases terms with
    | nil => rfl
    | cons first more =>
      have alone : first.join = .none := storable.first_join first rfl
      simp [freed, ← alone]
  · intro parts
    rcases parts with ⟨countable, clean, same⟩
    exact same ▸ isStorable_freed countable clean

end CaseGroup

namespace Decoder

theorem readTerms_stray {more : List Term} {term : Term} (number : Nat) (rest : List UInt8)
    (stray : more.find? (fun term => ¬term.IsJoined) = some term) :
    readTerms number more.length (more.flatMap Term.stored ++ rest) =
      .error (.badSwitch (.badCombinator term.join.code number)) := by
  induction more with
  | nil => cases stray
  | cons head more ih =>
    rw [List.flatMap_cons, Term.stored, List.append_assoc, List.append_assoc]
    refine (part_accepts .switch Read.accepts_i16).bind_error rfl ?_
    by_cases joined : head.IsJoined
    · have later : more.find? (fun term => ¬term.IsJoined) = some term := by simpa [joined] using stray
      refine (congrFun (if_pos joined) _).trans ?_
      exact (part_accepts .switch Read.accepts_i32).bind_error rfl (Read.bind_of_error (ih later))
    · have same : head = term := by simpa [joined] using stray
      subst same
      exact congrFun (if_neg joined) _

theorem readGroup_stray {group : CaseGroup} {term : Term} (number : Nat) (rest : List UInt8)
    (countable : group.IsCountable) (stray : group.strayTerm? = some term) :
    readGroup number (group.stored ++ rest) = .error (.badSwitch (.badCombinator term.join.code number)) := by
  obtain ⟨terms, disp⟩ := group
  obtain ⟨someTerm, fewTerms⟩ := countable
  obtain ⟨first, more, rfl⟩ := List.exists_cons_of_length_pos someTerm
  obtain ⟨count, positive⟩ := CaseGroup.toNat_count fewTerms
  simp only [CaseGroup.stored, List.length_cons, List.append_assoc]
  refine (part_accepts .switch Read.accepts_byte).bind_error rfl ?_
  refine (congrFun (if_neg positive) _).trans ?_
  refine (part_accepts .switch Read.accepts_i32).bind_error rfl ?_
  rw [count, Nat.add_sub_cancel]
  exact Read.bind_of_error (readTerms_stray number _ stray)

theorem readGroups_stray {groups : List CaseGroup} {number place : Nat} {term : Term} (rest : List UInt8)
    (countable : ∀ group ∈ groups, group.IsCountable) (stray : CaseGroup.stray? number groups = some (place, term)) :
    readGroups number groups.length (groups.flatMap CaseGroup.stored ++ rest) =
      .error (.badSwitch (.badCombinator term.join.code place)) := by
  induction groups generalizing number with
  | nil => cases stray
  | cons group more ih =>
    obtain ⟨here, later⟩ := List.forall_mem_cons.1 countable
    rw [List.flatMap_cons, List.append_assoc]
    rw [CaseGroup.stray?] at stray
    cases found : group.strayTerm? with
    | some other =>
      rw [found] at stray
      cases stray
      exact Read.bind_of_error (readGroup_stray place _ here found)
    | none =>
      rw [found] at stray
      -- The group is read, though not as it was given: only its stored form is the same.
      rw [← group.stored_freed]
      exact (readGroup_accepts number).bind_error ⟨CaseGroup.isStorable_freed here found, rfl⟩
        (Read.bind_of_error (ih later stray))

variable (callee : Int32 → Option Signature) {groups : List CaseGroup}

def ReadsSwitch (code : List UInt8) (groups : List CaseGroup) : Prop :=
  ∃ inst, decode callee {} code 0 = .ok [inst] ∧ inst.op = .switch ∧ inst.operand = .switch ⟨-1, groups⟩

theorem readsSwitch_of_storable (few : groups.length ≤ 65535) (storable : ∀ group ∈ groups, group.IsStorable) :
    ReadsSwitch callee (CaseGroup.switchCode groups) groups := by
  have stored : Stores {} (Registry.standard.lookup .switch) (.switch ⟨-1, groups⟩)
      (SwitchOperand.mk (-1) groups).stored := by
    rw [Stores, Registry.shape_switch]
    exact ⟨_, rfl, ⟨rfl, few, storable⟩, rfl⟩
  have cut : Cut {} 0 0 (wordBytes 60 ++ ((SwitchOperand.mk (-1) groups).stored ++ []))
      [instAt {} 0 0 60 (.switch ⟨-1, groups⟩) (SwitchOperand.mk (-1) groups).stored] :=
    .inst rfl stored (.done _ _)
  rw [List.append_nil] at cut
  have success := (decode_eq_ok_iff callee {} (CaseGroup.switchCode groups) 0 _).2
    ⟨le_rfl, Int.natCast_nonneg _, _, cut, traced_followed callee (some {}) _⟩
  exact ⟨_, success, Registry.lookup_op _ _, rfl⟩

/-- A table without a stray label is read back with the first label of every group joined to nothing. -/
theorem readsSwitch_freed (countable : CaseGroup.AreCountable groups) (clean : CaseGroup.stray? 0 groups = none) :
    ReadsSwitch callee (CaseGroup.switchCode groups) (groups.map CaseGroup.freed) := by
  rw [← CaseGroup.switchCode_freed]
  apply readsSwitch_of_storable
  · rw [List.length_map]
    exact countable.1
  · intro freed member
    obtain ⟨group, given, rfl⟩ := List.mem_map.1 member
    have joined := (CaseGroup.stray_eq_none_iff 0 groups).1 clean group given
    exact CaseGroup.isStorable_freed (countable.2 group given) joined

theorem decode_stray {number : Nat} {term : Term} (countable : CaseGroup.AreCountable groups)
    (stray : CaseGroup.stray? 0 groups = some (number, term)) :
    decode callee {} (CaseGroup.switchCode groups) 0 =
      .error ⟨0, some .switch, .badSwitch (.badCombinator term.join.code number)⟩ := by
  have count : (UInt16.ofNat groups.length).toNat = groups.length :=
    UInt16.toNat_ofNat_of_lt' (Nat.lt_succ_of_le countable.1)
  have refused := readGroups_stray [] countable.2 stray
  rw [List.append_nil] at refused
  have operand : readOperand {} (Registry.standard.lookup (.ofWord 60)) (SwitchOperand.mk (-1) groups).stored =
      .error (.badSwitch (.badCombinator term.join.code number)) := by
    change readOperand {} (Registry.standard.lookup .switch) _ = _
    rw [readOperand, Registry.shape_switch]
    refine Read.bind_of_error ((part_accepts .switch Read.accepts_u16).bind_error rfl ?_)
    rw [count]
    exact Read.bind_of_error refused
  exact (decode_eq_error_iff le_rfl (Int.natCast_nonneg _)).2
    ⟨[], _, [], [], rfl, .done _ _, .done _, .operand rfl operand⟩

theorem readsSwitch_iff (countable : CaseGroup.AreCountable groups) :
    ReadsSwitch callee (CaseGroup.switchCode groups) groups ↔
      ∀ group ∈ groups, group.IsStorable := by
  constructor
  · intro parts
    rcases parts with ⟨inst, success, -, operand⟩
    cases stray : CaseGroup.stray? 0 groups with
    | some found =>
      rw [decode_stray callee countable stray] at success
      cases success
    | none =>
      obtain ⟨other, read, -, freed⟩ := readsSwitch_freed callee countable stray
      rw [success] at read
      cases read
      rw [operand, Operand.switch.injEq, SwitchOperand.mk.injEq] at freed
      have same := List.map_inj_left.1 (freed.2.symm.trans (List.map_id groups).symm)
      have clean := (CaseGroup.stray_eq_none_iff 0 groups).1 stray
      exact fun group member =>
        group.isStorable_iff.2 ⟨countable.2 group member, clean group member, same group member⟩
  · exact readsSwitch_of_storable callee countable.1

end Decoder

namespace Writer

theorem appends_switchInstruction {groups : List CaseGroup} (countable : CaseGroup.AreCountable groups) :
    Appends (switchInstruction groups) (CaseGroup.switchCode groups) :=
  (appends_opcode 60).andThen (@appends_switchTable ⟨-1, groups⟩ countable)

end Writer

/-- A switch that is written to a fresh buffer is refused exactly if its groups or labels cannot be counted. Otherwise
it is decoded as one switch, with the first labels of its groups joined to nothing, or decoding fails at the first later
label that is not joined. So it is refused or read back as it was exactly if it cannot be counted or every group of it
has a stored form. -/
theorem switchInstruction_checks_counts (callee : Int32 → Option Signature) (groups : List CaseGroup) :
    ((∃ mismatch, (Writer.buffer.switchInstruction groups).failure = some (.shape mismatch)) ↔
        ¬CaseGroup.AreCountable groups) ∧
      (CaseGroup.AreCountable groups →
        (Writer.buffer.switchInstruction groups).failure = none ∧
        (CaseGroup.stray? 0 groups = none →
          Decoder.ReadsSwitch callee (Writer.buffer.switchInstruction groups).content (groups.map CaseGroup.freed)) ∧
        ∀ number term, CaseGroup.stray? 0 groups = some (number, term) →
          Decoder.decode callee {} (Writer.buffer.switchInstruction groups).content 0 =
            .error ⟨0, some .switch, .badSwitch (.badCombinator term.join.code number)⟩) ∧
      (((∃ mismatch, (Writer.buffer.switchInstruction groups).failure = some (.shape mismatch)) ∨
          Decoder.ReadsSwitch callee (Writer.buffer.switchInstruction groups).content groups) ↔
        (CaseGroup.AreCountable groups → ∀ group ∈ groups, group.IsStorable)) := by
  by_cases countable : CaseGroup.AreCountable groups
  · obtain ⟨accepted, content⟩ := (Writer.appends_switchInstruction countable).fresh
    rw [accepted, content]
    refine ⟨by simp [countable], fun _ => ⟨rfl, Decoder.readsSwitch_freed callee countable,
      fun number term stray => Decoder.decode_stray callee countable stray⟩, ?_⟩
    simp only [reduceCtorEq, exists_false, false_or, countable, forall_const]
    exact Decoder.readsSwitch_iff callee countable
  · obtain ⟨mismatch, overrides⟩ := Writer.overrides_switchTable countable
    have refused : ∃ mismatch, (Writer.buffer.switchInstruction groups).failure = some (.shape mismatch) :=
      ⟨mismatch, overrides _⟩
    exact ⟨iff_of_true refused countable, fun fits => absurd fits countable,
      iff_of_true (.inl refused) fun fits => absurd fits countable⟩

/-- Two labels of which the first one is joined too are read back with that one joined to nothing. After a second group
with a combinator of its own the table is written but refused when it is read. -/
theorem switchInstruction_checks_counts_joined :
    Decoder.ReadsSwitch (fun _ => none) (Writer.buffer.switchInstruction [⟨[⟨.and, 1⟩, ⟨.or, 2⟩], 3⟩]).content
        [⟨[⟨.none, 1⟩, ⟨.or, 2⟩], 3⟩] ∧
      (Writer.buffer.switchInstruction [⟨[⟨.and, 1⟩, ⟨.or, 2⟩], 3⟩, ⟨[⟨.none, 4⟩, ⟨⟨7⟩, 5⟩], 0⟩]).failure = none ∧
      Decoder.decode (fun _ => none) {}
          (Writer.buffer.switchInstruction [⟨[⟨.and, 1⟩, ⟨.or, 2⟩], 3⟩, ⟨[⟨.none, 4⟩, ⟨⟨7⟩, 5⟩], 0⟩]).content 0 =
        .error ⟨0, some .switch, .badSwitch (.badCombinator 7 1)⟩ := by
  have one : CaseGroup.AreCountable [⟨[⟨.and, 1⟩, ⟨.or, 2⟩], 3⟩] := by
    simp [CaseGroup.AreCountable, CaseGroup.IsCountable]
  have two : CaseGroup.AreCountable [⟨[⟨.and, 1⟩, ⟨.or, 2⟩], 3⟩, ⟨[⟨.none, 4⟩, ⟨⟨7⟩, 5⟩], 0⟩] := by
    simp [CaseGroup.AreCountable, CaseGroup.IsCountable]
  obtain ⟨-, read, -⟩ := (switchInstruction_checks_counts (fun _ => none) _).2.1 one
  obtain ⟨accepted, -, refused⟩ := (switchInstruction_checks_counts (fun _ => none) _).2.1 two
  exact ⟨read (by decide), accepted, refused 1 ⟨⟨7⟩, 5⟩ (by decide)⟩

/-- Two labels under a combinator that has no meaning are written, and what is written cannot be read. -/
theorem switchInstruction_unchecked_join :
    (Writer.buffer.switchInstruction [⟨[⟨.none, 1⟩, ⟨⟨5⟩, 2⟩], 3⟩]).failure = none ∧
      (Writer.buffer.switchInstruction [⟨[⟨.none, 1⟩, ⟨⟨5⟩, 2⟩], 3⟩]).content =
        [0, 60, 0, 1, 2, 0, 0, 0, 1, 0, 5, 0, 0, 0, 2, 0, 0, 0, 3] ∧
      Decoder.decode (fun _ => none) {} [0, 60, 0, 1, 2, 0, 0, 0, 1, 0, 5, 0, 0, 0, 2, 0, 0, 0, 3] 0 =
        .error ⟨0, some .switch, .badSwitch (.badCombinator 5 0)⟩ := by
  have countable : CaseGroup.AreCountable [⟨[⟨.none, 1⟩, ⟨⟨5⟩, 2⟩], 3⟩] := by
    simp [CaseGroup.AreCountable, CaseGroup.IsCountable]
  obtain ⟨accepted, content⟩ := (Writer.appends_switchInstruction countable).fresh
  have stray : CaseGroup.stray? 0 [⟨[⟨.none, 1⟩, ⟨⟨5⟩, 2⟩], 3⟩] = some (0, ⟨⟨5⟩, 2⟩) := by decide
  exact ⟨accepted, content, Decoder.decode_stray _ countable stray⟩

end ClientScript
