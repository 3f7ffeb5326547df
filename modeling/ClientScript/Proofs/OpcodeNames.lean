import ClientScript.Opcode
import ClientScript.Proofs.Legibility

/-!
Names of operation codes. A name of its own is made of capitals, digits and underscores, and no two codes have the same.
A known code without a name is named after its number behind `OP_`, which starts no other name, and any other code has
its number in brackets. So a name tells the code, and none has a blank in it.
-/

namespace ClientScript.Opcode

open OpcodeTable

def coreNames : List String := coreRows.filterMap CoreRow.name

def stems : List String := widgetRows.filterMap WidgetRow.stem

def named : List (Opcode × String) :=
  entries.filterMap fun entry => entry.2.map fun name => (entry.1, name)

theorem map_snd_named :
    named.map Prod.snd = ["SS_AND", "SS_OR"] ++ coreNames ++ stems.map ("CC_" ++ ·) ++ stems.map ("IF_" ++ ·) := by
  decide +kernel

def isNameChar (char : Char) : Bool := char.isUpper || char.isDigit || char = '_'

theorem isGraphic_of_isNameChar {char : Char} (nameChar : isNameChar char) : IsGraphic char := by
  simp only [isNameChar, Char.isUpper, Bool.or_eq_true, decide_eq_true_eq] at nameChar
  rcases nameChar with (upper | digit) | rfl
  · exact ⟨lt_of_lt_of_le (b := 'A') (by decide) upper.1, le_trans (b := 'Z') upper.2 (by decide)⟩
  · exact isGraphic_of_isDigit digit
  · exact ⟨by decide, by decide⟩

def StartsWith (mark : List Char) (name : String) : Prop := mark <+: name.toList

instance (mark : List Char) (name : String) : Decidable (StartsWith mark name) :=
  inferInstanceAs (Decidable (mark <+: name.toList))

theorem startsWith_append (mark stem : String) : StartsWith mark.toList (mark ++ stem) := by
  rw [StartsWith, String.toList_append]
  exact List.prefix_append _ _

theorem coreNames_checked : ∀ name ∈ coreNames, name.toList.all isNameChar ∧ ¬StartsWith ['O', 'P', '_'] name ∧
    ¬StartsWith ['I', 'F', '_'] name ∧
      (StartsWith ['C', 'C', '_'] name → name ∈ ["CC_CREATE", "CC_DELETE", "CC_DELETEALL"]) := by
  decide +kernel

theorem stems_checked : ∀ stem ∈ stems, stem.toList.all isNameChar := by decide +kernel

theorem nodup_coreNames : coreNames.Nodup := by decide +kernel

theorem nodup_stems : stems.Nodup := by decide +kernel

theorem nodup_family (mark : String) : (stems.map (mark ++ ·)).Nodup :=
  nodup_stems.map fun _ _ => (String.append_right_inj mark).1

theorem mem_family {mark name : String} (mem : name ∈ stems.map (mark ++ ·)) :
    StartsWith mark.toList name ∧ (mark.toList.all isNameChar → name.toList.all isNameChar) := by
  obtain ⟨stem, isStem, rfl⟩ := List.mem_map.1 mem
  refine ⟨startsWith_append mark stem, fun marked => ?_⟩
  rw [String.toList_append, List.all_append, marked, stems_checked stem isStem]
  rfl

theorem StartsWith.eq_of_length {mark mark' : List Char} {name : String} (starts : StartsWith mark name)
    (starts' : StartsWith mark' name) (length : mark.length = mark'.length) : mark = mark' :=
  (List.prefix_of_prefix_length_le starts starts' length.le).eq_of_length length

theorem nodup_names : (named.map Prod.snd).Nodup := by
  have pseudo : ∀ name ∈ ["SS_AND", "SS_OR"], StartsWith ['S', 'S', '_'] name ∧ name ∉ coreNames := by decide +kernel
  -- The three component operations of the core are not in the family that shares their mark.
  have component : ∀ stem ∈ stems, "CC_" ++ stem ∉ ["CC_CREATE", "CC_DELETE", "CC_DELETEALL"] := by decide +kernel
  rw [map_snd_named, List.nodup_append, List.nodup_append, List.nodup_append]
  refine ⟨⟨⟨by decide, nodup_coreNames, ?_⟩, nodup_family _, ?_⟩, nodup_family _, ?_⟩
  · intro one isPseudo other isCore same
    exact (pseudo one isPseudo).2 (same ▸ isCore)
  · intro one mem other isComponent same
    subst same
    rcases List.mem_append.1 mem with isPseudo | isCore
    · exact absurd ((pseudo one isPseudo).1.eq_of_length (mem_family isComponent).1 rfl) (by decide)
    · have listed := (coreNames_checked one isCore).2.2.2 (mem_family isComponent).1
      obtain ⟨stem, isStem, rfl⟩ := List.mem_map.1 isComponent
      exact component stem isStem listed
  · intro one mem other isInterface same
    subst same
    have starts := (mem_family isInterface).1
    rcases List.mem_append.1 mem with mem | isComponent
    · rcases List.mem_append.1 mem with isPseudo | isCore
      · exact absurd ((pseudo one isPseudo).1.eq_of_length starts rfl) (by decide)
      · exact (coreNames_checked one isCore).2.2.1 starts
    · exact absurd ((mem_family isComponent).1.eq_of_length starts rfl) (by decide)

theorem named_checked {name : String} (mem : name ∈ named.map Prod.snd) :
    name.toList.all isNameChar ∧ ¬StartsWith ['O', 'P', '_'] name := by
  have other {mark : String} (isFamily : name ∈ stems.map (mark ++ ·)) (marked : mark.toList.all isNameChar)
      (length : mark.toList.length = 3) (differs : mark.toList ≠ ['O', 'P', '_']) :
      name.toList.all isNameChar ∧ ¬StartsWith ['O', 'P', '_'] name :=
    ⟨(mem_family isFamily).2 marked, fun starts => differs ((mem_family isFamily).1.eq_of_length starts length)⟩
  rw [map_snd_named] at mem
  rcases List.mem_append.1 mem with mem | isInterface
  · rcases List.mem_append.1 mem with mem | isComponent
    · rcases List.mem_append.1 mem with isPseudo | isCore
      · have checked : ∀ name ∈ ["SS_AND", "SS_OR"], name.toList.all isNameChar ∧ ¬StartsWith ['O', 'P', '_'] name := by
          decide
        exact checked name isPseudo
      · exact ⟨(coreNames_checked name isCore).1, (coreNames_checked name isCore).2.1⟩
    · exact other isComponent (by decide) (by decide) (by decide)
  · exact other isInterface (by decide) (by decide) (by decide)

/-- A code has a name of its own, or one made of its number. -/
theorem name_cases (op : Opcode) : (op, op.name) ∈ named ∨ op.name = "OP_" ++ toString op.code ∨
    op.name = "Opcode" ++ "(" ++ toString op.code ++ ")" := by
  have shown : op.name = codeLabel "Opcode" op.code (op.entry?.map fun name => name.getD s!"OP_{op.code}") := rfl
  cases found : op.entry? with
  | none =>
    rw [found] at shown
    exact .inr (.inr shown)
  | some entry =>
    rw [found] at shown
    cases entry with
    | none => exact .inr (.inl shown)
    | some own =>
      obtain ⟨before, after, split, -⟩ := List.lookup_eq_some_iff.1 found
      left
      rw [named, List.mem_filterMap, shown]
      exact ⟨(op, some own), by rw [split]; simp, rfl⟩

theorem not_named_of_number {op other : Opcode} (mem : (op, op.name) ∈ named) :
    op.name ≠ "OP_" ++ toString other.code ∧ op.name ≠ "Opcode" ++ "(" ++ toString other.code ++ ")" := by
  obtain ⟨nameChars, noNumber⟩ := named_checked (List.mem_map.2 ⟨_, mem, rfl⟩)
  refine ⟨fun same => noNumber (same ▸ startsWith_append "OP_" _), fun same => ?_⟩
  have bracket : '(' ∈ op.name.toList := by
    rw [same]
    simp
  exact absurd (List.all_eq_true.1 nameChars _ bracket) (by decide)

theorem name_injective : Function.Injective name := by
  intro one other same
  have ofCode (code : one.code = other.code) : one = other := by
    cases one
    cases other
    rw [Opcode.mk.injEq]
    exact code
  have differ (code code' : Int) : "OP_" ++ toString code ≠ "Opcode" ++ "(" ++ toString code' ++ ")" := by
    intro same
    have head := congrArg (fun text => text.toList.take 2) same
    simp at head
  rcases name_cases one with own | number | bracketed
  · rcases name_cases other with own' | number' | bracketed'
    · exact congrArg Prod.fst (List.inj_on_of_nodup_map nodup_names own own' same)
    · exact absurd (same.trans number') (not_named_of_number own).1
    · exact absurd (same.trans bracketed') (not_named_of_number own).2
  · rcases name_cases other with own' | number' | bracketed'
    · exact absurd (same.symm.trans number) (not_named_of_number own').1
    · rw [number, number', String.append_right_inj] at same
      exact ofCode (Int.repr_inj.1 same)
    · exact absurd (number.symm.trans (same.trans bracketed')) (differ _ _)
  · rcases name_cases other with own' | number' | bracketed'
    · exact absurd (same.symm.trans bracketed) (not_named_of_number own').2
    · exact absurd (number'.symm.trans (same.symm.trans bracketed)) (differ _ _)
    · rw [bracketed, bracketed', String.append_left_inj, String.append_right_inj] at same
      exact ofCode (Int.repr_inj.1 same)

theorem isGraphic_of_mem_name (op : Opcode) : ∀ char ∈ op.name.toList, IsGraphic char := by
  have number := isGraphic_of_mem_toString op.code
  have mark : ∀ char ∈ "OP_".toList, IsGraphic char := by simp [IsGraphic]
  have opening : ∀ char ∈ ("Opcode" ++ "(").toList, IsGraphic char := by simp [IsGraphic]
  have closing : ∀ char ∈ ")".toList, IsGraphic char := by simp [IsGraphic]
  intro char mem
  rcases name_cases op with own | isNumber | bracketed
  · have nameChars := (named_checked (List.mem_map.2 ⟨_, own, rfl⟩)).1
    exact isGraphic_of_isNameChar (List.all_eq_true.1 nameChars char mem)
  · rw [isNumber, String.toList_append, List.mem_append] at mem
    exact mem.elim (mark char) (number char)
  · rw [bracketed, String.toList_append, String.toList_append, List.mem_append, List.mem_append] at mem
    exact mem.elim (fun mem => mem.elim (opening char) (number char)) (closing char)

theorem legible_name :
    Legible (fun _ => True) (fun op : Opcode => op.name.toList) (fun rest => rest.head?.all (· = ' ')) := by
  have visible (op : Opcode) {rest : List Char} (blank : rest.head?.all (· = ' ')) :
      (op.name.toList ++ rest).takeWhile (' ' < ·) = op.name.toList := by
    rw [List.takeWhile_append_of_pos fun char mem => decide_eq_true (isGraphic_of_mem_name op char mem).1]
    cases rest with
    | nil => simp
    | cons char rest =>
      obtain rfl : char = ' ' := by simpa using blank
      simp
  intro one other _ _ rest rest' blank blank' same
  have names : one.name.toList = other.name.toList := by
    rw [← visible one blank, ← visible other blank', same]
  dsimp only at same
  rw [names] at same
  exact ⟨name_injective (String.toList_inj.1 names), List.append_cancel_left same⟩

end ClientScript.Opcode
