import ClientScript.Proofs.Classification
import ClientScript.Proofs.OpcodeNames

/-!
The text of an instruction. It is the name of the operation and, after a blank, the operand, and it can be read back: in
code that decodes with the same registry and tables, instructions with one text are the same operation with the same
operand, down to what joins the labels of a switch.
-/

namespace ClientScript

theorem Term.toList_text {term : Term} (joined : term.IsJoined) :
    term.text.toList = ' ' :: (term.join.name.toList ++ ' ' :: (toString term.label.toInt).toList) := by
  have other : term.join ≠ .none := by
    intro none
    rw [Term.IsJoined, none] at joined
    revert joined
    decide
  simp [Term.text, if_neg other]

theorem Term.legible_text : Legible Term.IsJoined (fun term => term.text.toList) NoDigit := by
  intro one other joined joined' rest rest' noDigit noDigit' same
  dsimp only at same
  rw [toList_text joined, toList_text joined', List.cons_append, List.cons_append, List.append_assoc, List.append_assoc,
    List.cons_append, List.cons_append] at same
  have ofJoin (join : one.join = other.join) : one = other ∧ rest = rest' := by
    rw [join] at same
    obtain ⟨label, tail⟩ := legible_decimal _ _ trivial trivial rest rest' noDigit noDigit'
      (List.cons.inj (List.append_cancel_left (List.cons.inj same).2)).2
    cases one
    cases other
    rw [Term.mk.injEq]
    exact ⟨⟨join, Int32.toInt_inj.1 label⟩, tail⟩
  have orName : Combinator.or.name.toList = ['S', 'S', '_', 'O', 'R'] := by decide +kernel
  have andName : Combinator.and.name.toList = ['S', 'S', '_', 'A', 'N', 'D'] := by decide +kernel
  rcases joined with or | and
  · rcases joined' with or' | and'
    · exact ofJoin (or.trans or'.symm)
    · rw [or, and', orName, andName] at same
      simp at same
  · rcases joined' with or' | and'
    · rw [and, or', orName, andName] at same
      simp at same
    · exact ofJoin (and.trans and'.symm)

theorem CaseGroup.exists_toList_text {group : CaseGroup} (storable : group.IsStorable) :
    ∃ label more, group.terms = ⟨.none, label⟩ :: more ∧ (∀ term ∈ more, term.IsJoined) ∧ group.text.toList =
      (toString label.toInt).toList ++ (more.flatMap (fun term => term.text.toList) ++
        ':' :: ' ' :: (signedText group.disp.toInt).toList) := by
  obtain ⟨terms, disp⟩ := group
  obtain ⟨some_term, -, first, later⟩ := storable
  cases terms with
  | nil => cases some_term
  | cons term more =>
    obtain ⟨join, label⟩ := term
    obtain rfl : join = .none := first _ rfl
    refine ⟨label, more, rfl, later, ?_⟩
    simp [CaseGroup.text, String.toList_join, List.flatMap_map, Term.text]

theorem CaseGroup.legible_text : Legible CaseGroup.IsStorable (fun group => group.text.toList) NoDigit := by
  have labels := Term.legible_text.flatMap (fun rest => ∃ tail, rest = ':' :: tail)
    (fun term rest joined => by
      rw [Term.toList_text joined]
      exact ⟨noDigit_cons (by decide) _, fun colon => absurd (List.cons.inj colon.choose_spec).1 (by decide)⟩)
    (fun rest colon => colon.choose_spec ▸ noDigit_cons (by decide) _)
  -- After the first label comes a blank or the colon.
  have follows (more : List Term) (joined : ∀ term ∈ more, term.IsJoined) (rest : List Char) :
      NoDigit (more.flatMap (fun term => term.text.toList) ++ ':' :: rest) := by
    cases more with
    | nil => exact noDigit_cons (by decide) _
    | cons term more =>
      rw [List.flatMap_cons, Term.toList_text (joined term List.mem_cons_self)]
      exact noDigit_cons (by decide) _
  intro one other storable storable' rest rest' noDigit noDigit' same
  obtain ⟨label, more, terms, joined, written⟩ := exists_toList_text storable
  obtain ⟨label', more', terms', joined', written'⟩ := exists_toList_text storable'
  dsimp only at same
  rw [written, written'] at same
  simp only [List.append_assoc, List.cons_append] at same
  obtain ⟨first, later⟩ :=
    legible_decimal _ _ trivial trivial _ _ (follows more joined _) (follows more' joined' _) same
  obtain ⟨rfl, ending⟩ := labels more more' joined joined' _ _ ⟨_, rfl⟩ ⟨_, rfl⟩ later
  obtain ⟨disp, tail⟩ := legible_signed _ _ trivial trivial rest rest' noDigit noDigit'
    (List.cons.inj (List.cons.inj ending).2).2
  cases one
  cases other
  dsimp only at terms terms' disp
  rw [CaseGroup.mk.injEq, terms, terms', Int32.toInt_inj.1 first]
  exact ⟨⟨rfl, Int32.toInt_inj.1 disp⟩, tail⟩

theorem CaseGroup.eq_of_texts {groups groups' : List CaseGroup} (storable : ∀ group ∈ groups, group.IsStorable)
    (storable' : ∀ group ∈ groups', group.IsStorable)
    (same : String.intercalate ", " (groups.map CaseGroup.text) =
      String.intercalate ", " (groups'.map CaseGroup.text)) : groups = groups' := by
  have texts := CaseGroup.legible_text.separated ", ".toList (by decide) (fun rest => noDigit_cons (by decide) _)
    (fun _ none => by cases none) fun group storable => by
      obtain ⟨label, more, -, -, written⟩ := exists_toList_text storable
      rw [written]
      simp
  refine texts.eq rfl storable storable' ?_
  simpa [String.toList_intercalate, Function.comp_def] using congrArg String.toList same

theorem SwitchOperand.index_eq_of_text {table table' : SwitchOperand} (numbered : 0 ≤ table.index)
    (numbered' : 0 ≤ table'.index) (same : table.text = table'.text) : table.index = table'.index := by
  have chars := congrArg String.toList same
  rw [SwitchOperand.text, SwitchOperand.text, if_pos numbered, if_pos numbered'] at chars
  simp only [String.toList_append, List.append_assoc] at chars
  have index := legible_decimal _ _ trivial trivial _ _ (noDigit_cons (by decide) _) (noDigit_cons (by decide) _)
    (List.append_cancel_left chars)
  exact Int32.toInt_inj.1 index.1

namespace Decoder

theorem eq_of_table_text {one other : Decoder} (switches : one.switches = other.switches)
    (tables : one.tables = other.tables) {table table' : SwitchOperand} {raw raw' : List UInt8}
    (stored : one.StoresTable table raw) (stored' : other.StoresTable table' raw') (same : table.text = table'.text) :
    table = table' := by
  obtain ⟨index, groups⟩ := table
  obtain ⟨index', groups'⟩ := table'
  rw [SwitchOperand.mk.injEq]
  rw [StoresTable] at stored stored'
  rw [switches] at stored
  cases form : other.switches with
  | inline =>
    rw [form] at stored stored'
    obtain ⟨⟨first, -, storable⟩, -⟩ := stored
    obtain ⟨⟨first', -, storable'⟩, -⟩ := stored'
    dsimp only at first first' storable storable'
    subst first first'
    exact ⟨rfl, CaseGroup.eq_of_texts storable storable' (String.append_right_inj "" |>.1 same)⟩
  | indexed =>
    rw [form] at stored stored'
    obtain ⟨numbered, -, rows, listed, shown⟩ := stored
    obtain ⟨numbered', -, rows', listed', shown'⟩ := stored'
    have number := SwitchOperand.index_eq_of_text numbered numbered' same
    dsimp only at number listed listed' shown shown'
    rw [number, tables, listed', Option.some.injEq] at listed
    exact ⟨number, by rw [shown, shown', listed]⟩

theorem eq_of_textAs {one other : Decoder} (switches : one.switches = other.switches)
    (tables : one.tables = other.tables) {desc : Descriptor} {operand operand' : Operand} {raw raw' : List UInt8}
    (stored : one.Stores desc operand raw) (stored' : other.Stores desc operand' raw')
    (same : operand.textAs desc = operand'.textAs desc) : operand = operand' := by
  rw [Stores] at stored stored'
  rw [Operand.textAs, Operand.textAs] at same
  split at stored
  next shape =>
    rw [shape] at stored'
    rw [stored.1, stored'.1]
  next shape =>
    rw [shape] at stored' same
    obtain ⟨value, rfl, -⟩ := stored
    obtain ⟨value', rfl, -⟩ := stored'
    exact congrArg Operand.int (Int32.toInt_inj.1 (Int.repr_inj.1 same))
  next kind shape =>
    rw [shape] at stored' same
    obtain ⟨value, rfl, -⟩ := stored
    obtain ⟨value', rfl, -⟩ := stored'
    exact congrArg Operand.int (Int32.toInt_inj.1 (Int.repr_inj.1 ((String.append_right_inj _).1 same)))
  next shape =>
    rw [shape] at stored' same
    obtain ⟨value, rfl, -⟩ := stored
    obtain ⟨value', rfl, -⟩ := stored'
    exact congrArg Operand.text (legible_quoteText.eq trivial trivial trivial (congrArg String.toList same))
  next shape =>
    rw [shape] at stored' same
    obtain ⟨value, rfl, -⟩ := stored
    obtain ⟨value', rfl, -⟩ := stored'
    exact congrArg Operand.byte (UInt8.toNat_inj.1 (Nat.repr_inj.1 same))
  next shape =>
    rw [shape] at stored' same
    obtain ⟨table, rfl, stored⟩ := stored
    obtain ⟨table', rfl, stored'⟩ := stored'
    exact congrArg Operand.switch (eq_of_table_text switches tables stored stored' same)
  next shape =>
    rw [shape] at stored' same
    obtain ⟨data, rfl, -⟩ := stored
    obtain ⟨data', rfl, -⟩ := stored'
    exact congrArg Operand.raw (legible_hexText.eq rfl trivial trivial (congrArg String.toList same))

end Decoder

/-- The name ends before the blank, so the two parts of a text can be told apart. -/
theorem Instruction.parts_eq_of_text {inst other : Instruction} (same : inst.text = other.text) :
    inst.op = other.op ∧ inst.operandText = other.operandText := by
  have written (inst : Instruction) : ∃ rest, inst.text.toList = inst.op.name.toList ++ rest ∧
      rest.head?.all (· = ' ') ∧ rest.tail = inst.operandText.toList := by
    unfold Instruction.text
    dsimp only
    split
    next empty =>
      rw [String.isEmpty_iff.1 empty]
      exact ⟨[], (List.append_nil _).symm, rfl, rfl⟩
    next => exact ⟨' ' :: inst.operandText.toList, by simp [Descriptor.mnemonic, Instruction.op], rfl, rfl⟩
  obtain ⟨rest, text, blank, operand⟩ := written inst
  obtain ⟨rest', text', blank', operand'⟩ := written other
  obtain ⟨op, rfl⟩ := Opcode.legible_name _ _ trivial trivial rest rest' blank blank'
    (by rw [← text, ← text', same])
  exact ⟨op, String.toList_inj.1 (operand.symm.trans operand')⟩

/-- Two instructions that were decoded with one registry, one way of keeping switches and the same tables have one text
just if they are the same operation with the same operand. -/
theorem text_eq_iff_of_decode {one other : Decoder} (registry : one.registry = other.registry)
    (switches : one.switches = other.switches) (tables : one.tables = other.tables)
    {callee callee' : Int32 → Option Signature} {code code' : List UInt8} {start start' : Int}
    {insts others : List Instruction} (decoded : one.decode callee code start = .ok insts)
    (decoded' : other.decode callee' code' start' = .ok others) {inst inst' : Instruction} (member : inst ∈ insts)
    (member' : inst' ∈ others) : inst.text = inst'.text ↔ inst.op = inst'.op ∧ inst.operand = inst'.operand := by
  obtain ⟨-, described, stored⟩ := Decoder.stores_of_decode decoded inst member
  obtain ⟨-, described', stored'⟩ := Decoder.stores_of_decode decoded' inst' member'
  have descOf (op : inst.op = inst'.op) : inst.desc = inst'.desc := by
    rw [described, described', registry, op]
  constructor
  · intro same
    obtain ⟨op, operandText⟩ := Instruction.parts_eq_of_text same
    rw [← descOf op] at stored'
    rw [Instruction.operandText, Instruction.operandText, ← descOf op] at operandText
    exact ⟨op, Decoder.eq_of_textAs switches tables stored stored' operandText⟩
  · intro same
    rw [Instruction.text, Instruction.text, Instruction.operandText, Instruction.operandText, descOf same.1, same.2]

/-- Two switches whose tables differ in what joins two labels have different texts. -/
theorem text_eq_iff_of_decode_joins :
    ∃ inst inst',
      Decoder.decode (fun _ => none) { switches := .inline }
        [0, 60, 0, 1, 2, 0, 0, 0, 7, 0xff, 0xff, 0, 0, 0, 8, 0, 0, 0, 1] 0 = .ok [inst] ∧
      Decoder.decode (fun _ => none) { switches := .inline }
        [0, 60, 0, 1, 2, 0, 0, 0, 7, 0xff, 0xfe, 0, 0, 0, 8, 0, 0, 0, 1] 0 = .ok [inst'] ∧
      inst.op = inst'.op ∧ inst.text = "SWITCH 7 SS_OR 8: +1" ∧ inst.text ≠ inst'.text := by
  have decoded : Decoder.decode (fun _ => none) { switches := .inline }
      [0, 60, 0, 1, 2, 0, 0, 0, 7, 0xff, 0xff, 0, 0, 0, 8, 0, 0, 0, 1] 0 = .ok _ :=
    Decoder.decode_of_within 1 (by decide) rfl rfl
  have decoded' : Decoder.decode (fun _ => none) { switches := .inline }
      [0, 60, 0, 1, 2, 0, 0, 0, 7, 0xff, 0xfe, 0, 0, 0, 8, 0, 0, 0, 1] 0 = .ok _ :=
    Decoder.decode_of_within 1 (by decide) rfl rfl
  refine ⟨_, _, decoded, decoded', rfl, by decide +kernel, ?_⟩
  intro same
  have parts := (text_eq_iff_of_decode rfl rfl rfl decoded decoded' List.mem_cons_self List.mem_cons_self).1 same
  exact absurd parts.2 (by decide)

end ClientScript
