import ClientScript.Decoder
import ClientScript.Encoder
import ClientScript.Proofs.Reading
import ClientScript.Proofs.Writing

/-!
The stored form of operands: the bytes that stand after an opcode. It is stated here once, apart from
the reads and the writes; the decoder accepts exactly this form and the writer appends it.
-/

namespace ClientScript

def Term.stored (term : Term) : List UInt8 :=
  wordBytes term.join.code.toUInt16 ++ longBytes term.label.toUInt32

def Term.IsJoined (term : Term) : Prop :=
  term.join = .or ∨ term.join = .and

instance (term : Term) : Decidable term.IsJoined :=
  inferInstanceAs (Decidable (term.join = .or ∨ term.join = .and))

namespace CaseGroup

/-- A group that has a stored form: from one label to as many as a byte can count, of which just the
first one is joined to nothing. -/
structure IsStorable (group : CaseGroup) : Prop where
  some_term : 1 ≤ group.terms.length
  few_terms : group.terms.length ≤ 255
  first_join : ∀ term ∈ group.terms.head?, term.join = .none
  later_join : ∀ term ∈ group.terms.tail, term.IsJoined

def IsCountable (group : CaseGroup) : Prop :=
  1 ≤ group.terms.length ∧ group.terms.length ≤ 255

instance (group : CaseGroup) : Decidable group.IsCountable :=
  inferInstanceAs (Decidable (1 ≤ group.terms.length ∧ group.terms.length ≤ 255))

theorem IsStorable.isCountable {group : CaseGroup} (storable : group.IsStorable) : group.IsCountable :=
  ⟨storable.some_term, storable.few_terms⟩

def AreCountable (groups : List CaseGroup) : Prop :=
  groups.length ≤ 65535 ∧ ∀ group ∈ groups, group.IsCountable

instance (groups : List CaseGroup) : Decidable (AreCountable groups) :=
  inferInstanceAs (Decidable (groups.length ≤ 65535 ∧ ∀ group ∈ groups, group.IsCountable))

theorem toNat_count {more : Nat} (fewTerms : more + 1 ≤ 255) :
    (UInt8.ofNat (more + 1)).toNat = more + 1 ∧ UInt8.ofNat (more + 1) ≠ 0 := by
  have count : (UInt8.ofNat (more + 1)).toNat = more + 1 := UInt8.toNat_ofNat_of_lt' (Nat.lt_succ_of_le fewTerms)
  refine ⟨count, ?_⟩
  intro zero
  rw [zero] at count
  cases count

def stored (group : CaseGroup) : List UInt8 :=
  match group.terms with
  | [] => []
  | first :: more =>
    [UInt8.ofNat group.terms.length] ++ longBytes first.label.toUInt32 ++ more.flatMap Term.stored
      ++ longBytes group.disp.toUInt32

end CaseGroup

namespace SwitchOperand

structure IsStorable (table : SwitchOperand) : Prop where
  index : table.index = -1
  few_groups : table.groups.length ≤ 65535
  groups : ∀ group ∈ table.groups, group.IsStorable

def stored (table : SwitchOperand) : List UInt8 :=
  wordBytes (UInt16.ofNat table.groups.length) ++ table.groups.flatMap CaseGroup.stored

end SwitchOperand

namespace Decoder

/-- The bytes stand for the table in code that the decoder reads. -/
def StoresTable (decoder : Decoder) (table : SwitchOperand) (raw : List UInt8) : Prop :=
  match decoder.switches with
  | .inline => table.IsStorable ∧ raw = table.stored
  | .indexed =>
    0 ≤ table.index ∧ raw = longBytes table.index.toUInt32 ∧
      ∃ rows, decoder.tables[table.index.toInt.toNat]? = some rows ∧ table.groups = RawTable.groups rows

def Stores (decoder : Decoder) (desc : Descriptor) (operand : Operand) (raw : List UInt8) : Prop :=
  match desc.shape with
  | .none => operand = .none ∧ raw = []
  | .int | .slot _ => ∃ value, operand = .int value ∧ raw = longBytes value.toUInt32
  | .string => ∃ value, operand = .text value ∧
      ∃ body, Writer.encodeText value = .ok body ∧ raw = body ++ [0]
  | .byte => ∃ value, operand = .byte value ∧ raw = [value]
  | .switch => ∃ table, operand = .switch table ∧ decoder.StoresTable table raw
  | .unknown => ∃ data, operand = .raw data ∧ data.length = desc.op.assumedWidth ∧ raw = data

theorem part_accepts {α : Type} {read : Read ReadError α} {form : α → List UInt8 → Prop} (shape : Shape)
    (accepts : read.Accepts form) : (part shape read).Accepts form :=
  accepts.mapError _

theorem readTerms_accepts (group count : Nat) :
    (readTerms group count).Accepts (Read.Counted Term.IsJoined Term.stored count) := by
  induction count with
  | zero => exact (Read.accepts_pure []).congr fun terms raw => Read.counted_zero.symm
  | succ count ih =>
    have later (join : Combinator) := (part_accepts .switch Read.accepts_i32).bind fun label =>
      ih.map fun more => (⟨join, label⟩ : Term) :: more
    refine ((part_accepts .switch Read.accepts_i16).bind fun code =>
      Read.Accepts.guard fun _ => later ⟨code⟩).congr fun terms raw => ?_
    rw [Read.counted_succ]
    constructor
    · intro parts
      rcases parts with ⟨code, _, _, rfl, rfl, joined, label, _, back, rfl, rfl, more, rfl, counted⟩
      exact ⟨⟨⟨code⟩, label⟩, more, back, rfl, (List.append_assoc _ _ _).symm, joined, counted⟩
    · intro parts
      rcases parts with ⟨⟨⟨code⟩, label⟩, more, back, rfl, rfl, joined, counted⟩
      exact ⟨code, _, _, List.append_assoc _ _ _, rfl, joined, label, _, back, rfl, rfl, more, rfl, counted⟩

theorem readGroup_accepts (group : Nat) :
    (readGroup group).Accepts fun value raw => value.IsStorable ∧ raw = value.stored := by
  have later (count : UInt8) := (part_accepts .switch Read.accepts_i32).bind fun label =>
    (readTerms_accepts group (count.toNat - 1)).bind fun more =>
      (part_accepts .switch Read.accepts_i32).map fun disp =>
        (⟨⟨.none, label⟩ :: more, disp⟩ : CaseGroup)
  refine ((part_accepts .switch Read.accepts_byte).bind fun count =>
    Read.Accepts.unless fun _ => later count).congr fun value raw => ?_
  constructor
  · intro parts
    rcases parts with ⟨count, front, back, rfl, rfl, positive, label, labelBytes, rest, rfl, rfl, more, moreBytes, last,
      rfl, ⟨size, joins, rfl⟩, disp, rfl, rfl⟩
    have bound := count.toNat_lt
    have nonzero : count.toNat ≠ 0 := fun zero => positive (UInt8.toNat_inj.1 zero)
    have total : more.length + 1 = count.toNat := by omega
    constructor
    · exact {
        some_term := Nat.le_add_left 1 more.length
        few_terms := by rw [List.length_cons]; omega
        first_join := by simp
        later_join := joins }
    · simp only [CaseGroup.stored, List.length_cons, total, UInt8.ofNat_toNat, List.append_assoc]
  · intro parts
    rcases parts with ⟨storable, rfl⟩
    obtain ⟨terms, disp⟩ := value
    obtain ⟨someTerm, fewTerms, firstJoin, laterJoin⟩ := storable
    obtain ⟨⟨join, label⟩, more, rfl⟩ := List.exists_cons_of_length_pos someTerm
    have unjoined : join = .none := firstJoin ⟨join, label⟩ rfl
    subst join
    obtain ⟨count, positive⟩ := CaseGroup.toNat_count fewTerms
    refine ⟨UInt8.ofNat (more.length + 1), _, _, ?_, rfl, positive, label, _, _, rfl, rfl, more, _, _, rfl,
      ⟨?_, laterJoin, rfl⟩, disp, rfl, rfl⟩
    · simp only [CaseGroup.stored, List.length_cons, List.append_assoc]
    · rw [count, Nat.add_sub_cancel]

theorem readGroups_accepts (group count : Nat) :
    (readGroups group count).Accepts (Read.Counted CaseGroup.IsStorable CaseGroup.stored count) := by
  induction count generalizing group with
  | zero => exact (Read.accepts_pure []).congr fun groups raw => Read.counted_zero.symm
  | succ count ih =>
    refine ((readGroup_accepts group).bind fun first =>
      (ih (group + 1)).map fun more => first :: more).congr fun groups raw => ?_
    rw [Read.counted_succ]
    constructor
    · intro parts
      rcases parts with ⟨first, _, back, rfl, ⟨storable, rfl⟩, more, rfl, counted⟩
      exact ⟨first, more, back, rfl, rfl, storable, counted⟩
    · intro parts
      rcases parts with ⟨first, more, back, rfl, rfl, storable, counted⟩
      exact ⟨first, _, back, rfl, ⟨storable, rfl⟩, more, rfl, counted⟩

theorem tableAt_accepts (decoder : Decoder) (index : Int32) :
    (match if index < 0 then none else decoder.tables[index.toInt.toNat]? with
      | none => Read.fail (.badSwitch (.noSuchTable index decoder.tables.length))
      | some table => Pure.pure ⟨index, RawTable.groups table⟩ : Read DecodeCause SwitchOperand).Accepts
      fun table raw => 0 ≤ index ∧ ∃ rows, decoder.tables[index.toInt.toNat]? = some rows ∧
        table = ⟨index, RawTable.groups rows⟩ ∧ raw = [] := by
  by_cases negative : index < 0
  · rw [if_pos negative]
    refine (Read.accepts_fail _).congr fun table raw => (iff_false_left id).2 ?_
    intro parts
    rcases parts with ⟨named, -⟩
    exact absurd negative (Int32.not_lt.2 named)
  · rw [if_neg negative]
    cases found : decoder.tables[index.toInt.toNat]? with
    | none => exact (Read.accepts_fail _).congr fun table raw => by simp
    | some rows =>
      refine (Read.accepts_pure _).congr fun table raw => ?_
      constructor
      · intro parts
        rcases parts with ⟨rfl, rfl⟩
        exact ⟨Int32.not_lt.1 negative, rows, rfl, rfl, rfl⟩
      · intro parts
        rcases parts with ⟨-, _, ⟨⟩, rfl, rfl⟩
        exact ⟨rfl, rfl⟩

theorem readSwitch_accepts (decoder : Decoder) : decoder.readSwitch.Accepts decoder.StoresTable := by
  unfold readSwitch StoresTable
  cases decoder.switches with
  | inline =>
    refine ((part_accepts .switch Read.accepts_u16).bind fun count =>
      (readGroups_accepts 0 count.toNat).map fun groups => (⟨-1, groups⟩ : SwitchOperand)).congr
        fun table raw => ?_
    constructor
    · intro parts
      rcases parts with ⟨count, _, _, rfl, rfl, groups, rfl, size, storables, rfl⟩
      have bound := count.toNat_lt
      refine ⟨⟨rfl, ?_, storables⟩, ?_⟩
      · change groups.length ≤ 65535
        omega
      · rw [SwitchOperand.stored, size, UInt16.ofNat_toNat]
    · intro parts
      rcases parts with ⟨⟨inline, few, storables⟩, rfl⟩
      obtain ⟨index, groups⟩ := table
      subst inline
      have count : (UInt16.ofNat groups.length).toNat = groups.length :=
        UInt16.toNat_ofNat_of_lt' (Nat.lt_succ_of_le few)
      exact ⟨UInt16.ofNat groups.length, _, _, rfl, rfl, groups, rfl, count.symm, storables, rfl⟩
  | indexed =>
    refine ((part_accepts .switch Read.accepts_i32).bind fun index =>
      decoder.tableAt_accepts index).congr fun table raw => ?_
    constructor
    · intro parts
      rcases parts with ⟨index, _, _, rfl, rfl, named, rows, found, rfl, rfl⟩
      exact ⟨named, List.append_nil _, rows, found, rfl⟩
    · intro parts
      rcases parts with ⟨named, rfl, rows, found, same⟩
      obtain ⟨index, groups⟩ := table
      subst same
      exact ⟨index, _, [], (List.append_nil _).symm, rfl, named, rows, found, rfl, rfl⟩

/-- The decoder reads an operand exactly where its stored form stands. -/
theorem readOperand_accepts (decoder : Decoder) (desc : Descriptor) :
    (decoder.readOperand desc).Accepts (decoder.Stores desc) := by
  unfold readOperand Stores
  cases desc.shape with
  | none => exact Read.accepts_pure _
  | int => exact (part_accepts _ Read.accepts_i32).map Operand.int
  | slot kind => exact (part_accepts _ Read.accepts_i32).map Operand.int
  | string => exact (part_accepts _ Read.accepts_text).map Operand.text
  | byte => exact (part_accepts _ Read.accepts_byte).map Operand.byte
  | switch => exact decoder.readSwitch_accepts.map Operand.switch
  | unknown => exact (part_accepts _ (Read.accepts_bytes _)).map Operand.raw

end Decoder

namespace Writer

theorem appends_terms (more : List Term) : Appends (fun writer => writer.terms more) (more.flatMap Term.stored) :=
  Appends.foldl fun term _ => (appends_i16 term.join.code).andThen (appends_i32 term.label)

theorem appends_groups {table : List CaseGroup} (countable : ∀ group ∈ table, group.IsCountable) :
    Appends (fun writer => writer.groups table) (table.flatMap CaseGroup.stored) := by
  induction table with
  | nil => exact Appends.nothing
  | cons group rest ih =>
    have tail := ih fun other member => countable other (List.mem_cons_of_mem group member)
    obtain ⟨terms, disp⟩ := group
    obtain ⟨someTerm, fewTerms⟩ := countable ⟨terms, disp⟩ List.mem_cons_self
    obtain ⟨first, more, rfl⟩ := List.exists_cons_of_length_pos someTerm
    have head := (((appends_byte (UInt8.ofNat (first :: more).length)).andThen (appends_i32 first.label)).andThen
      (appends_terms more)).andThen (appends_i32 disp)
    have fits : ¬255 < (first :: more).length := Nat.not_lt.2 fewTerms
    simp only [groups, if_neg fits, List.flatMap_cons]
    exact head.andThen tail

/-- A table is written if its groups and labels can be counted, whatever joins the labels. -/
theorem appends_switchTable {table : SwitchOperand} (countable : CaseGroup.AreCountable table.groups) :
    Appends (switchTable table.groups) table.stored := by
  have fits : ¬65535 < table.groups.length := Nat.not_lt.2 countable.1
  unfold switchTable
  simp only [if_neg fits]
  exact (appends_u16 (UInt16.ofNat table.groups.length)).andThen (appends_groups countable.2)

theorem appends_table {decoder : Decoder} {table : SwitchOperand} {raw : List UInt8}
    (stored : decoder.StoresTable table raw) :
    Appends (fun writer =>
      if 0 ≤ table.index then writer.i32 table.index else writer.switchTable table.groups) raw := by
  unfold Decoder.StoresTable at stored
  split at stored
  · obtain ⟨storable, rfl⟩ := stored
    have inline : ¬0 ≤ table.index := by rw [storable.index]; decide
    simpa only [if_neg inline] using appends_switchTable ⟨storable.few_groups,
      fun group member => (storable.groups group member).isCountable⟩
  · obtain ⟨named, rfl, -⟩ := stored
    simpa only [if_pos named] using appends_i32 table.index

theorem appends_operand {decoder : Decoder} {desc : Descriptor} {value : Operand} {raw : List UInt8}
    (stored : decoder.Stores desc value raw) : Appends (operand desc value) raw := by
  revert stored
  unfold Decoder.Stores operand
  cases desc.shape with
  | none =>
    intro parts
    rcases parts with ⟨rfl, rfl⟩
    exact Appends.nothing
  | int =>
    intro parts
    rcases parts with ⟨number, rfl, rfl⟩
    exact appends_i32 number
  | slot kind =>
    intro parts
    rcases parts with ⟨number, rfl, rfl⟩
    exact appends_i32 number
  | string =>
    intro parts
    rcases parts with ⟨text, rfl, body, encoded, rfl⟩
    exact appends_text encoded
  | byte =>
    intro parts
    rcases parts with ⟨number, rfl, rfl⟩
    exact appends_byte number
  | switch =>
    intro parts
    rcases parts with ⟨table, rfl, stored⟩
    exact appends_table stored
  | unknown =>
    intro parts
    rcases parts with ⟨data, rfl, width, rfl⟩
    simp only [Operand.toRaw, width, ↓reduceIte]
    exact appends_bytes raw

end Writer

end ClientScript
