import ClientScript.Instruction
import ClientScript.Proofs.OpcodeNames

/-!
Texts of printable characters. Numbers, names and escapes are made of visible ASCII, and whatever an operand or a value
on a stack holds, its text has no character that is not printable.
-/

namespace ClientScript

def AllPrintable (text : String) : Prop := ∀ char ∈ text.toList, isPrintable char

theorem isPrintable_of_ascii {char : Char} (above : ' ' ≤ char) (below : char ≤ '~') : isPrintable char := by
  rw [isPrintable, List.any_eq_true]
  refine ⟨(0x20, 0x7e), List.mem_cons_self, ?_⟩
  rw [Bool.and_eq_true, decide_eq_true_eq, decide_eq_true_eq]
  exact ⟨above, below⟩

theorem forall_isPrintable_of_ascii {chars : List Char} (ascii : chars.all fun char => ' ' ≤ char ∧ char ≤ '~') :
    ∀ char ∈ chars, isPrintable char := by
  intro char member
  obtain ⟨above, below⟩ := of_decide_eq_true (List.all_eq_true.1 ascii char member)
  exact isPrintable_of_ascii above below

theorem isPrintable_of_isGraphic {char : Char} (graphic : IsGraphic char) : isPrintable char :=
  isPrintable_of_ascii graphic.1.le graphic.2

namespace AllPrintable

theorem of_ascii {text : String} (ascii : text.toList.all fun char => ' ' ≤ char ∧ char ≤ '~') : AllPrintable text :=
  forall_isPrintable_of_ascii ascii

theorem append {text more : String} (first : AllPrintable text) (later : AllPrintable more) :
    AllPrintable (text ++ more) := by
  rw [AllPrintable, String.toList_append, List.forall_mem_append]
  exact ⟨first, later⟩

theorem between {text more : String} (first : AllPrintable text) (sign : String)
    (ascii : sign.toList.all fun char => ' ' ≤ char ∧ char ≤ '~') (later : AllPrintable more) :
    AllPrintable (text ++ sign ++ more) :=
  append (append first (of_ascii ascii)) later

theorem join {texts : List String} (each : ∀ text ∈ texts, AllPrintable text) : AllPrintable (String.join texts) := by
  intro char member
  rw [String.toList_join] at member
  obtain ⟨text, listed, mem⟩ := List.mem_flatMap.1 member
  exact each text listed char mem

theorem intercalate {separator : String} (between : AllPrintable separator) {texts : List String}
    (each : ∀ text ∈ texts, AllPrintable text) : AllPrintable (String.intercalate separator texts) := by
  intro char member
  rw [String.toList_intercalate] at member
  cases texts with
  | nil => cases member
  | cons first texts =>
    obtain ⟨start, later⟩ := List.forall_mem_cons.1 each
    rw [List.map_cons, intercalate_cons, List.flatMap_map, List.mem_append] at member
    rcases member with mem | mem
    · exact start char mem
    · obtain ⟨text, listed, mem⟩ := List.mem_flatMap.1 mem
      exact (List.mem_append.1 mem).elim (between char) (later text listed char)

theorem int (number : Int) : AllPrintable (toString number) := fun char member =>
  isPrintable_of_isGraphic (isGraphic_of_mem_toString number char member)

theorem nat (number : Nat) : AllPrintable (toString number) := int number

theorem name (op : Opcode) : AllPrintable op.name := fun char member =>
  isPrintable_of_isGraphic (op.isGraphic_of_mem_name char member)

theorem signed (number : Int) : AllPrintable (signedText number) := by
  unfold signedText
  split
  next => exact int number
  next => exact append (of_ascii (by decide)) (int number)

theorem hexDigits (width number : Nat) : ∀ char ∈ hexDigits width number, isPrintable char := by
  have digit : ∀ digit : Fin 16, IsGraphic (Nat.digitChar digit) := by
    unfold IsGraphic
    decide
  intro char member
  obtain ⟨place, -, rfl⟩ := List.mem_map.1 member
  exact isPrintable_of_isGraphic (digit ⟨_, Nat.mod_lt _ (by decide)⟩)

theorem hex (bytes : List UInt8) : AllPrintable (hexText bytes) := by
  intro char member
  rw [hexText, String.toList_ofList] at member
  obtain ⟨byte, -, mem⟩ := List.mem_flatMap.1 member
  exact hexDigits 2 byte.toNat char mem

theorem escape (char : Char) : ∀ sign ∈ Quoted.escape '"' char, isPrintable sign := by
  have digits (mark : Char) (marked : isPrintable mark) (width : Nat) :
      ∀ sign ∈ '\\' :: mark :: ClientScript.hexDigits width char.toNat, isPrintable sign :=
    List.forall_mem_cons.2 ⟨by decide, List.forall_mem_cons.2 ⟨marked, hexDigits width _⟩⟩
  unfold Quoted.escape
  split
  next marked =>
    rcases marked with rfl | rfl
    · exact forall_isPrintable_of_ascii (by decide)
    · exact forall_isPrintable_of_ascii (by decide)
  next =>
    split
    next plain => exact List.forall_mem_singleton.2 plain
    next =>
      split
      next letter control =>
        unfold Quoted.controlLetter? at control
        split at control <;> cases control <;> exact forall_isPrintable_of_ascii (by decide)
      next =>
        split
        next => exact digits 'x' (by decide) 2
        next =>
          split
          next => exact digits 'u' (by decide) 4
          next => exact digits 'U' (by decide) 8

theorem quoted (text : String) : AllPrintable (quoteText text) := by
  intro char member
  rw [quoteText, String.toList_ofList, Quoted.encode, List.mem_cons, List.mem_append, List.mem_singleton] at member
  rcases member with rfl | mem | rfl
  · decide
  · obtain ⟨origin, -, mem⟩ := List.mem_flatMap.1 mem
    exact escape origin char mem
  · decide

theorem ids (numbers : List Int) : AllPrintable (idList numbers) := by
  unfold idList
  split
  next => exact of_ascii (by decide)
  next =>
    apply intercalate (of_ascii (by decide))
    intro text member
    obtain ⟨number, -, rfl⟩ := List.mem_map.1 member
    exact int number

theorem depth (depth : Depth) : AllPrintable depth.text := by
  cases depth with
  | unknown => exact of_ascii (by decide)
  | known ints strings =>
    exact between (append (of_ascii (by decide)) (nat ints)) " s" (by decide) (nat strings)

theorem value (value : Value) : AllPrintable value.text := by
  rcases value with constant | constant
  · cases constant with
    | none => exact of_ascii (by decide)
    | some constant => exact int _
  · cases constant with
    | none => exact of_ascii (by decide)
    | some constant => exact quoted constant

theorem frame (frame : Frame) : AllPrintable frame.text := by
  have stack (values : List Value) :
      AllPrintable ("[" ++ String.intercalate " " (values.map Value.text) ++ "]") := by
    refine append (append (of_ascii (by decide)) (intercalate (of_ascii (by decide)) ?_)) (of_ascii (by decide))
    intro text member
    obtain ⟨origin, -, rfl⟩ := List.mem_map.1 member
    exact value origin
  exact between (stack _) " " (by decide) (stack _)

theorem term (term : Term) : AllPrintable term.text := by
  have join : AllPrintable term.join.name := by
    unfold Combinator.name
    split
    next => exact of_ascii (by decide)
    next =>
      split
      next => exact name .caseOr
      next =>
        split
        next => exact name .caseAnd
        next => exact append (append (of_ascii (by decide)) (int _)) (of_ascii (by decide))
  unfold Term.text
  dsimp only
  split
  next => exact int _
  next => exact between (append (of_ascii (by decide)) join) " " (by decide) (int _)

theorem group (group : CaseGroup) : AllPrintable group.text := by
  refine between (join ?_) ": " (by decide) (signed _)
  intro text member
  obtain ⟨origin, -, rfl⟩ := List.mem_map.1 member
  exact term origin

theorem table (table : SwitchOperand) : AllPrintable table.text := by
  apply append
  · split
    next => exact append (append (of_ascii (by decide)) (int _)) (of_ascii (by decide))
    next => exact of_ascii (by decide)
  · apply intercalate (of_ascii (by decide))
    intro text member
    obtain ⟨origin, -, rfl⟩ := List.mem_map.1 member
    exact group origin

theorem operand (inst : Instruction) : AllPrintable inst.operandText := by
  have empty : AllPrintable "" := of_ascii (by decide)
  unfold Instruction.operandText Operand.textAs
  split
  next => exact empty
  next => exact int _
  next kind _ =>
    refine append ?_ (int _)
    cases kind
    · exact of_ascii (by decide)
    · exact of_ascii (by decide)
  next => exact quoted _
  next => exact nat _
  next => exact hex _
  next =>
    cases inst.operand.switch? with
    | none => exact empty
    | some switch => exact table switch

end AllPrintable

end ClientScript
