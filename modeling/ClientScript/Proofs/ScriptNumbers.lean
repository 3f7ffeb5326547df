import Mathlib
import ClientScript.Batch.Source

/-!
The scripts that a directory lists. A script is loaded from the file that its number and an extension name, but the
number in a file name is read with other spellings too: zeros and a sign may stand before its digits. And the end of
a name from its last dot on has no other dot, so no file has an extension of two dots, or one without a dot. A directory
therefore lists exactly the scripts that can be loaded from it as long as it holds no file that shows the difference.
-/

namespace ClientScript

namespace Path

def IsExtension (ext : String) : Prop :=
  ext = "" ∨ ∃ letters, '.' ∉ letters ∧ ext.toList = '.' :: letters

theorem extension_of_plain {name : String} (plain : '.' ∉ name.toList) : extension name = "" := by
  have missing : name.toList.reverse.contains '.' = false := by simpa using plain
  simp only [extension, missing, Bool.false_eq_true, if_false]

theorem extension_of_split {name : String} {stem letters : List Char} (split : name.toList = stem ++ '.' :: letters)
    (plain : '.' ∉ letters) : extension name = String.ofList ('.' :: letters) := by
  have dotted : name.toList.reverse.contains '.' = true := by simp [split]
  have others : ∀ char ∈ letters.reverse, decide (char ≠ '.') = true := by
    intro char member
    rw [decide_eq_true_iff]
    intro dot
    exact plain (dot ▸ List.mem_reverse.1 member)
  have last : name.toList.reverse.takeWhile (· ≠ '.') = letters.reverse := by
    rw [split, List.reverse_append, List.reverse_cons, List.append_assoc, List.takeWhile_append_of_pos others]
    simp
  simp only [extension, dotted, if_true, last, List.reverse_reverse]

theorem exists_last_dot {name : String} (dotted : '.' ∈ name.toList) :
    ∃ stem letters, name.toList = stem ++ '.' :: letters ∧ '.' ∉ letters := by
  obtain ⟨letters, stem, split, plain⟩ := List.eq_append_cons_of_mem (List.mem_reverse.2 dotted)
  refine ⟨stem.reverse, letters.reverse, ?_, by simpa using plain⟩
  rw [← List.reverse_reverse name.toList, split]
  simp

theorem extension_eq_iff (name ext : String) :
    extension name = ext ↔ IsExtension ext ∧ (ext = "" → '.' ∉ name.toList) ∧ ext.toList <:+ name.toList := by
  by_cases dotted : '.' ∈ name.toList
  · obtain ⟨stem, letters, split, plain⟩ := exists_last_dot dotted
    rw [extension_of_split split plain]
    constructor
    · intro same
      subst same
      refine ⟨.inr ⟨letters, plain, by simp⟩, fun empty => ?_, stem, by simp [split]⟩
      exact absurd (congrArg String.toList empty) (by simp)
    · intro parts
      rcases parts with ⟨rfl | ⟨others, apart, dot⟩, named, front, whole⟩
      · exact absurd dotted (named rfl)
      · rw [dot] at whole
        rw [← extension_of_split split plain, extension_of_split whole.symm apart, ← dot, String.ofList_toList]
  · rw [extension_of_plain dotted]
    constructor
    · intro same
      subst same
      exact ⟨.inl rfl, fun _ => dotted, List.nil_suffix⟩
    · intro parts
      rcases parts with ⟨rfl | ⟨letters, -, dot⟩, -, ending⟩
      · rfl
      · rw [dot] at ending
        exact absurd (ending.mem List.mem_cons_self) dotted

end Path

inductive IsSign (number : Int) : List Char → Prop where
  | none (natural : 0 ≤ number) : IsSign number []
  | plus (natural : 0 ≤ number) : IsSign number ['+']
  | minus (opposite : number ≤ 0) : IsSign number ['-']

/-- The texts that are read as a number: its digits, after a sign and after zeros. -/
def Spells (id : Int32) (text : List Char) : Prop :=
  ∃ sign zeros, IsSign id.toInt sign ∧
    text = sign ++ (List.replicate zeros '0' ++ Nat.toDigits 10 id.toInt.natAbs)

theorem exists_digitChar {char : Char} (digit : char.isDigit) :
    ∃ number < 10, char = Nat.digitChar number ∧ char.toNat - '0'.toNat = number := by
  obtain ⟨low, high⟩ := Char.isDigit_iff_toNat.1 digit
  have zero : '0'.toNat = 48 := rfl
  have nine : '9'.toNat = 57 := rfl
  have small : char.toNat - '0'.toNat < 10 := by omega
  refine ⟨char.toNat - '0'.toNat, small, ?_, rfl⟩
  apply Char.toNat_inj.1
  rw [Nat.toNat_digitChar_of_lt_ten small]
  omega

theorem exists_zeros {digits : List Char} (given : digits ≠ []) (plain : ∀ char ∈ digits, char.isDigit) :
    ∃ zeros, digits = List.replicate zeros '0' ++ Nat.toDigits 10 (Nat.ofDigitChars 10 digits 0) := by
  induction digits using List.reverseRecOn with
  | nil => exact absurd rfl given
  | append_singleton front last ih =>
    obtain ⟨number, small, rfl, value⟩ := exists_digitChar (plain last (by simp))
    have whole : Nat.ofDigitChars 10 (front ++ [number.digitChar]) 0 =
        10 * Nat.ofDigitChars 10 front 0 + number := by
      rw [Nat.ofDigitChars_append, Nat.ofDigitChars_cons, Nat.ofDigitChars_nil, value]
    have single : Nat.toDigits 10 number = [number.digitChar] := Nat.toDigits_of_lt_base small
    rw [whole, ← single]
    by_cases empty : front = []
    · subst empty
      exact ⟨0, by simp⟩
    obtain ⟨zeros, digits⟩ := ih empty fun char member => plain char (List.mem_append_left _ member)
    -- The last digit is the last one of the number, but in front of it zeros belong to no number.
    by_cases zero : Nat.ofDigitChars 10 front 0 = 0
    · rw [zero, Nat.toDigits_zero] at digits
      refine ⟨zeros + 1, ?_⟩
      rw [zero, Nat.mul_zero, Nat.zero_add, List.replicate_succ', ← digits]
    · refine ⟨zeros, ?_⟩
      rw [← Nat.toDigits_append_toDigits (by decide) (Nat.pos_of_ne_zero zero) small, ← List.append_assoc, ← digits]

theorem ofDigitChars_spelled (zeros number : Nat) :
    Nat.ofDigitChars 10 (List.replicate zeros '0' ++ Nat.toDigits 10 number) 0 = number := by
  rw [Nat.ofDigitChars_append, Nat.ofDigitChars_replicate_zero, Nat.mul_zero, Nat.ofDigitChars_ten_toDigits]

theorem isDigit_spelled {zeros number : Nat} {char : Char}
    (member : char ∈ List.replicate zeros '0' ++ Nat.toDigits 10 number) : char.isDigit := by
  rcases List.mem_append.1 member with zero | digit
  · rw [List.eq_of_mem_replicate zero]
    rfl
  · exact Nat.isDigit_of_mem_toDigits (by decide) (by decide) digit

theorem signedId_eq_some_iff (negative : Bool) (digits : List Char) (id : Int32) :
    signedId? negative digits = some id ↔
      (if negative then id.toInt ≤ 0 else 0 ≤ id.toInt) ∧
        ∃ zeros, digits = List.replicate zeros '0' ++ Nat.toDigits 10 id.toInt.natAbs := by
  have readable : (digits.isEmpty || !digits.all Char.isDigit) = true ↔
      ¬(digits ≠ [] ∧ ∀ char ∈ digits, char.isDigit) := by
    simp [← or_iff_not_imp_left]
  simp only [signedId?, readable, Bool.and_eq_true, decide_eq_true_iff]
  constructor
  · intro success
    generalize size : Nat.ofDigitChars 10 digits 0 = number at success
    generalize value : (if negative = true then -(number : Int) else number) = signed at success
    split at success
    next => cases success
    next given =>
      obtain ⟨some, plain⟩ := not_not.1 given
      obtain ⟨zeros, spelled⟩ := exists_zeros some plain
      split at success
      next bounded =>
        have same := Int32.toInt_ofInt_of_le bounded.1 bounded.2
        rw [Option.some.inj success, ← value] at same
        have absolute : id.toInt.natAbs = number := by
          rw [same]
          split <;> simp
        rw [size] at spelled
        rw [absolute]
        refine ⟨?_, zeros, spelled⟩
        cases negative <;> simp [same]
      next => cases success
  · intro parts
    rcases parts with ⟨sign, zeros, rfl⟩
    have given : List.replicate zeros '0' ++ Nat.toDigits 10 id.toInt.natAbs ≠ [] ∧
        ∀ char ∈ List.replicate zeros '0' ++ Nat.toDigits 10 id.toInt.natAbs, char.isDigit :=
      ⟨List.append_ne_nil_of_right_ne_nil _ Nat.toDigits_ne_nil, fun char => isDigit_spelled⟩
    have value : (if negative = true then -(id.toInt.natAbs : Int) else id.toInt.natAbs) = id.toInt := by
      cases negative with
      | true =>
        simp only [if_true] at sign ⊢
        omega
      | false =>
        simp only [Bool.false_eq_true, if_false] at sign ⊢
        omega
    rw [if_neg (not_not.2 given), ofDigitChars_spelled, value, if_pos ⟨id.le_toInt, id.toInt_lt⟩, Int32.ofInt_toInt]

theorem scriptId_eq_some_iff (text : List Char) (id : Int32) : scriptId? text = some id ↔ Spells id text := by
  constructor
  · intro success
    unfold scriptId? at success
    split at success
    next digits =>
      obtain ⟨opposite, zeros, rfl⟩ := (signedId_eq_some_iff _ _ _).1 success
      exact ⟨['-'], zeros, .minus opposite, rfl⟩
    next digits =>
      obtain ⟨natural, zeros, rfl⟩ := (signedId_eq_some_iff _ _ _).1 success
      exact ⟨['+'], zeros, .plus natural, rfl⟩
    next =>
      obtain ⟨natural, zeros, rfl⟩ := (signedId_eq_some_iff _ _ _).1 success
      exact ⟨[], zeros, .none natural, rfl⟩
  · intro spells
    rcases spells with ⟨_, zeros, sign, rfl⟩
    cases sign with
    | minus opposite => exact (signedId_eq_some_iff _ _ _).2 ⟨opposite, zeros, rfl⟩
    | plus natural => exact (signedId_eq_some_iff _ _ _).2 ⟨natural, zeros, rfl⟩
    | none natural =>
      -- Without a sign the first character is a digit, and so neither of the signs.
      rw [List.nil_append, scriptId?]
      · exact (signedId_eq_some_iff _ _ _).2 ⟨natural, zeros, rfl⟩
      · intro digits start
        exact absurd (isDigit_spelled (start ▸ List.mem_cons_self)) (by decide)
      · intro digits start
        exact absurd (isDigit_spelled (start ▸ List.mem_cons_self)) (by decide)

theorem Spells.no_dot {id : Int32} {text : List Char} (spells : Spells id text) : '.' ∉ text := by
  rcases spells with ⟨_, zeros, sign, rfl⟩
  intro member
  rcases List.mem_append.1 member with inSign | inDigits
  · cases sign <;> simp at inSign
  · exact absurd (isDigit_spelled inDigits) (by decide)

theorem spells_toString (id : Int32) : Spells id (toString id.toInt).toList := by
  rw [Int.toString_eq_repr, Int.repr_eq_if]
  split
  next natural =>
    refine ⟨[], 0, .none natural, ?_⟩
    rw [Nat.toList_repr, show id.toInt.toNat = id.toInt.natAbs by omega]
    rfl
  next negative =>
    refine ⟨['-'], 0, .minus (by omega), ?_⟩
    rw [String.toList_append, Nat.toList_repr, show (-id.toInt).toNat = id.toInt.natAbs by omega]
    rfl

namespace DirEntry

/-- A file whose name is a spelling of a number before the extension. -/
structure IsNumbered (ext : String) (id : Int32) (entry : DirEntry) : Prop where
  file : entry.isDir = false
  name : ∃ text, Spells id text ∧ entry.name.toList = text ++ ext.toList

/-- The file that the script of a number is loaded from. -/
structure IsLoadedFor (ext : String) (id : Int32) (entry : DirEntry) : Prop where
  file : entry.isDir = false
  name : entry.name = scriptFile ext id

theorem IsLoadedFor.isNumbered {ext : String} {id : Int32} {entry : DirEntry} (loaded : entry.IsLoadedFor ext id) :
    entry.IsNumbered ext id where
  file := loaded.file
  name := ⟨_, spells_toString id, by rw [loaded.name, scriptFile, String.toList_append]⟩

theorem scriptId_eq_some_iff (ext : String) (entry : DirEntry) (id : Int32) :
    entry.scriptId? ext = some id ↔ Path.IsExtension ext ∧ entry.IsNumbered ext id := by
  have front (text : List Char) (split : entry.name.toList = text ++ ext.toList) :
      entry.name.toList.take (entry.name.length - ext.length) = text := by
    rw [← String.length_toList, ← String.length_toList, split, List.length_append, Nat.add_sub_cancel, List.take_left]
  constructor
  · intro success
    unfold scriptId? at success
    split at success
    next => cases success
    next passed =>
      simp only [Bool.or_eq_true, decide_eq_true_iff, not_or, Bool.not_eq_true, not_not] at passed
      obtain ⟨file, same⟩ := passed
      obtain ⟨extension, -, text, split⟩ := (Path.extension_eq_iff _ _).1 same
      rw [front text split.symm, ClientScript.scriptId_eq_some_iff] at success
      exact ⟨extension, file, text, success, split.symm⟩
  · intro parts
    rcases parts with ⟨extension, file, text, spells, split⟩
    have same : Path.extension entry.name = ext := by
      refine (Path.extension_eq_iff _ _).2 ⟨extension, fun empty => ?_, text, split.symm⟩
      rw [split, empty]
      simpa using spells.no_dot
    unfold scriptId?
    rw [if_neg (by simp [file, same]), front text split, ClientScript.scriptId_eq_some_iff]
    exact spells

end DirEntry

theorem mem_scriptIds_iff (ext : String) (entries : List DirEntry) (id : Int32) :
    id ∈ scriptIds ext entries ↔ Path.IsExtension ext ∧ ∃ entry ∈ entries, entry.IsNumbered ext id := by
  simp only [scriptIds, List.mem_mergeSort, List.mem_filterMap, DirEntry.scriptId_eq_some_iff]
  constructor
  · intro parts
    rcases parts with ⟨entry, member, extension, numbered⟩
    exact ⟨extension, entry, member, numbered⟩
  · intro parts
    rcases parts with ⟨extension, entry, member, numbered⟩
    exact ⟨entry, member, extension, numbered⟩

theorem ascending_scriptIds (ext : String) (entries : List DirEntry) :
    (scriptIds ext entries).Pairwise (· ≤ ·) := by
  unfold scriptIds
  refine (List.pairwise_mergeSort ?_ ?_ _).imp of_decide_eq_true
  · intro one two three
    simpa only [decide_eq_true_iff] using Int32.le_trans
  · intro one two
    simpa only [Bool.or_eq_true, decide_eq_true_iff] using Int32.le_total one two

theorem strict_scriptIds_iff (ext : String) {entries : List DirEntry} (distinct : entries.Nodup) :
    (scriptIds ext entries).Pairwise (· < ·) ↔ ∀ one ∈ entries, ∀ other ∈ entries, ∀ id,
      one.scriptId? ext = some id → other.scriptId? ext = some id → one = other := by
  have symmetric : Std.Symm fun one other : DirEntry =>
      ∀ id, one.scriptId? ext = some id → ∀ id', other.scriptId? ext = some id' → id ≠ id' :=
    ⟨fun _ _ apart id second id' first same => apart id' first id second same.symm⟩
  calc (scriptIds ext entries).Pairwise (· < ·)
    _ ↔ (scriptIds ext entries).Nodup := by
      simp only [Int32.lt_iff_le_and_ne, List.pairwise_and_iff, ascending_scriptIds, true_and]
      exact List.nodup_iff_pairwise_ne.symm
    _ ↔ (entries.filterMap (DirEntry.scriptId? ext)).Nodup := (List.mergeSort_perm _ _).nodup_iff
    _ ↔ _ := by
      rw [List.nodup_iff_pairwise_ne, List.pairwise_filterMap]
      constructor
      · intro apart one member other otherMember id first second
        by_contra differ
        exact apart.forall member otherMember differ id first id second rfl
      · intro alone
        refine distinct.pairwise_of_forall_ne fun one member other otherMember differ id first id' second same => ?_
        exact differ (alone one member other otherMember id first (same ▸ second))

/-- A directory lists the numbers that its files spell before the extension, in ascending order. These are the scripts
that can be loaded from it, each once, exactly if every file that spells a number is named by that number where the
extension is one, and no file is where it is none. -/
theorem scriptIds_spelled (ext : String) (entries : List DirEntry)
    (distinct : (entries.map DirEntry.name).Nodup) :
    (scriptIds ext entries).Pairwise (· ≤ ·) ∧
      (∀ id, id ∈ scriptIds ext entries ↔ Path.IsExtension ext ∧ ∃ entry ∈ entries, entry.IsNumbered ext id) ∧
      (((scriptIds ext entries).Pairwise (· < ·) ∧
          ∀ id, id ∈ scriptIds ext entries ↔ ∃ entry ∈ entries, entry.IsLoadedFor ext id) ↔
        ∀ entry ∈ entries, ∀ id, entry.IsNumbered ext id → (Path.IsExtension ext ↔ entry.IsLoadedFor ext id)) := by
  refine ⟨ascending_scriptIds ext entries, mem_scriptIds_iff ext entries, ?_⟩
  simp only [strict_scriptIds_iff ext (distinct.of_map _), mem_scriptIds_iff, DirEntry.scriptId_eq_some_iff]
  constructor
  · intro parts entry member id numbered
    rcases parts with ⟨alone, exactly⟩
    constructor
    · intro extension
      -- The number is listed, so some file is named by it. No other file spells it, so it is this one.
      obtain ⟨other, otherMember, loaded⟩ := (exactly id).1 ⟨extension, entry, member, numbered⟩
      rw [alone entry member other otherMember id ⟨extension, numbered⟩ ⟨extension, loaded.isNumbered⟩]
      exact loaded
    · intro loaded
      exact ((exactly id).2 ⟨entry, member, loaded⟩).1
  · intro fair
    constructor
    · intro one member other otherMember id first second
      have named := ((fair one member id first.2).1 first.1).name
      have otherNamed := ((fair other otherMember id second.2).1 second.1).name
      exact List.inj_on_of_nodup_map distinct member otherMember (named.trans otherNamed.symm)
    · intro id
      constructor
      · intro parts
        rcases parts with ⟨extension, entry, member, numbered⟩
        exact ⟨entry, member, (fair entry member id numbered).1 extension⟩
      · intro parts
        rcases parts with ⟨entry, member, loaded⟩
        exact ⟨(fair entry member id loaded.isNumbered).2 loaded, entry, member, loaded.isNumbered⟩

/-- Files of positive and negative numbers, a directory that is named like a script, and a file of no number: the
scripts that can be loaded are listed. -/
theorem scriptIds_spelled_plain :
    (scriptIds ".cs2" [⟨"10.cs2", false⟩, ⟨"-2.cs2", false⟩, ⟨"4.cs2", true⟩, ⟨"x.cs2", false⟩]).Pairwise (· < ·) ∧
      ∀ id, id ∈ scriptIds ".cs2" [⟨"10.cs2", false⟩, ⟨"-2.cs2", false⟩, ⟨"4.cs2", true⟩, ⟨"x.cs2", false⟩] ↔
        ∃ entry ∈ [(⟨"10.cs2", false⟩ : DirEntry), ⟨"-2.cs2", false⟩, ⟨"4.cs2", true⟩, ⟨"x.cs2", false⟩],
          entry.IsLoadedFor ".cs2" id := by
  obtain ⟨-, -, exactly⟩ := scriptIds_spelled ".cs2"
    [⟨"10.cs2", false⟩, ⟨"-2.cs2", false⟩, ⟨"4.cs2", true⟩, ⟨"x.cs2", false⟩] (by decide)
  have extension : Path.IsExtension ".cs2" := .inr ⟨['c', 's', '2'], by decide, by decide⟩
  have ten : DirEntry.scriptId? ".cs2" ⟨"10.cs2", false⟩ = some 10 := by decide
  have minusTwo : DirEntry.scriptId? ".cs2" ⟨"-2.cs2", false⟩ = some (-2) := by decide
  have directory : DirEntry.scriptId? ".cs2" ⟨"4.cs2", true⟩ = none := by decide
  have unnumbered : DirEntry.scriptId? ".cs2" ⟨"x.cs2", false⟩ = none := by decide
  refine exactly.2 fun entry member id numbered => iff_of_true extension ?_
  have read := (DirEntry.scriptId_eq_some_iff _ _ _).2 ⟨extension, numbered⟩
  simp only [List.mem_cons, List.not_mem_nil, or_false] at member
  rcases member with rfl | rfl | rfl | rfl
  · cases ten.symm.trans read
    exact ⟨rfl, by decide⟩
  · cases minusTwo.symm.trans read
    exact ⟨rfl, by decide⟩
  · cases directory.symm.trans read
  · cases unnumbered.symm.trans read

/-- Seven is listed for a file that is not the one it is loaded from, and twice if that one is there too. The file
that one is loaded from is not listed where its extension has two dots. -/
theorem scriptIds_other_spelling :
    scriptIds ".cs2" [⟨"007.cs2", false⟩] = [7] ∧ scriptFile ".cs2" 7 = "7.cs2" ∧
      scriptIds ".cs2" [⟨"007.cs2", false⟩, ⟨"7.cs2", false⟩] = [7, 7] ∧
      scriptIds ".2.cs2" [⟨"1.2.cs2", false⟩] = [] ∧ scriptFile ".2.cs2" 1 = "1.2.cs2" := by
  have zeros : [(⟨"007.cs2", false⟩ : DirEntry)].filterMap (DirEntry.scriptId? ".cs2") = [7] := by decide
  have twice : [(⟨"007.cs2", false⟩ : DirEntry), ⟨"7.cs2", false⟩].filterMap (DirEntry.scriptId? ".cs2") = [7, 7] := by
    decide
  have dots : [(⟨"1.2.cs2", false⟩ : DirEntry)].filterMap (DirEntry.scriptId? ".2.cs2") = [] := by decide
  unfold scriptIds
  rw [zeros, twice, dots]
  exact ⟨List.mergeSort_singleton 7, by decide, List.mergeSort_of_pairwise (by decide), List.mergeSort_nil, by decide⟩

end ClientScript
