import Mathlib
import ClientScript.Bytes.Writer

/-!
The code page is a bijection between bytes and the characters it can write. So text has one encoding,
and an encoding has one text; a NUL byte stands for the NUL character and for nothing else.
-/

namespace ClientScript.CodePage

theorem unassigned_bounds : ∀ byte ∈ unassigned, 0x80 ≤ byte.toNat ∧ byte.toNat < 0xa0 := by
  decide +kernel

theorem forall_table (property : UInt8 → Prop) (entries : ∀ index : Fin 32, property (UInt8.ofNat (0x80 + index)))
    {byte : UInt8} (inTable : 0x80 ≤ byte.toNat ∧ byte.toNat < 0xa0) : property byte := by
  have entry := entries ⟨byte.toNat - 0x80, by omega⟩
  have number : 0x80 + (byte.toNat - 0x80) = byte.toNat := by omega
  rwa [number, UInt8.ofNat_toNat] at entry

theorem toNat_ofNat_byte (byte : UInt8) : (Char.ofNat byte.toNat).toNat = byte.toNat := by
  have bound := byte.toNat_lt
  have valid : byte.toNat.isValidChar := Or.inl (by omega)
  rw [Char.toNat_ofNat, if_pos valid]

theorem decodeByte_of_outside {byte : UInt8} (outside : ¬(0x80 ≤ byte.toNat ∧ byte.toNat < 0xa0)) :
    decodeByte byte = Char.ofNat byte.toNat := by
  rw [decodeByte, if_neg fun member => outside (unassigned_bounds byte member), publishedChar, if_neg outside]

theorem encodeChar_decodeByte (byte : UInt8) : encodeChar? (decodeByte byte) = some byte := by
  by_cases inTable : 0x80 ≤ byte.toNat ∧ byte.toNat < 0xa0
  · exact forall_table (fun byte => encodeChar? (decodeByte byte) = some byte) (by decide +kernel) inTable
  · have bound := byte.toNat_lt
    rw [decodeByte_of_outside inTable, encodeChar?, toNat_ofNat_byte, UInt8.ofNat_toNat]
    split
    next => rfl
    next high =>
      rw [if_neg fun both => inTable (unassigned_bounds byte both.2), publishedByte?, toNat_ofNat_byte,
        if_pos (.inr (by omega)), UInt8.ofNat_toNat]

theorem publishedChar_of_publishedByte {char : Char} {byte : UInt8} (encoded : publishedByte? char = some byte) :
    publishedChar byte = char := by
  unfold publishedByte? at encoded
  split at encoded
  next plain =>
    have small : char.toNat < 256 := by omega
    have number : byte.toNat = char.toNat := by
      rw [← Option.some.inj encoded, UInt8.toNat_ofNat_of_lt' small]
    have outside : ¬(0x80 ≤ byte.toNat ∧ byte.toNat < 0xa0) := by omega
    rw [publishedChar, if_neg outside, number, Char.ofNat_toNat]
  next =>
    obtain ⟨index, found, rfl⟩ := Option.map_eq_some_iff.1 encoded
    obtain ⟨bound, same, -⟩ := List.idxOf?_eq_some_iff.1 found
    have short : index < 32 := bound
    have number : (UInt8.ofNat (0x80 + index)).toNat = 0x80 + index :=
      UInt8.toNat_ofNat_of_lt' (by change 0x80 + index < 256; omega)
    rw [publishedChar, number, if_pos (by omega), Nat.add_sub_cancel_left, List.getD_eq_getElem _ _ bound, same]
    rfl

theorem publishedByte_assigned {char : Char} {byte : UInt8} (encoded : publishedByte? char = some byte) :
    byte ∉ unassigned := by
  have replaced : ∀ byte ∈ unassigned, publishedByte? (publishedChar byte) = none := by decide +kernel
  intro member
  have missing := replaced byte member
  rw [publishedChar_of_publishedByte encoded, encoded] at missing
  cases missing

theorem decodeByte_of_encodeChar {char : Char} {byte : UInt8} (encoded : encodeChar? char = some byte) :
    decodeByte byte = char := by
  have own (small : char.toNat < 256) (given : some (UInt8.ofNat char.toNat) = some byte) :
      byte.toNat = char.toNat := by
    rw [← Option.some.inj given, UInt8.toNat_ofNat_of_lt' small]
  unfold encodeChar? at encoded
  split at encoded
  next ascii =>
    have number := own (by omega) encoded
    rw [decodeByte_of_outside (by omega), number, Char.ofNat_toNat]
  next =>
    split at encoded
    next control =>
      have number := own (by omega) encoded
      rw [decodeByte, if_pos (Option.some.inj encoded ▸ control.2), number, Char.ofNat_toNat]
    next => rw [decodeByte, if_neg (publishedByte_assigned encoded), publishedChar_of_publishedByte encoded]

theorem encodeChar_eq_some_iff {char : Char} {byte : UInt8} :
    encodeChar? char = some byte ↔ char = decodeByte byte := by
  constructor
  · intro encoded
    exact (decodeByte_of_encodeChar encoded).symm
  · intro same
    rw [same, encodeChar_decodeByte]

theorem decodeByte_eq_nul {byte : UInt8} : decodeByte byte = '\x00' ↔ byte = 0 := by
  rw [eq_comm, ← encodeChar_eq_some_iff]
  exact ⟨fun encoded => (Option.some.inj encoded).symm, fun zero => by rw [zero]; rfl⟩

theorem encodeFrom_append (offset : Nat) (raw : List UInt8) (after : List Char) :
    encodeFrom offset (raw.map decodeByte ++ after) =
      (encodeFrom (offset + (decode raw).utf8ByteSize) after).map (raw ++ ·) := by
  simp only [decode, String.utf8ByteSize_ofList]
  induction raw generalizing offset with
  | nil =>
    simp only [List.map_nil, List.nil_append, String.utf8Len_nil, Nat.add_zero]
    cases encodeFrom offset after with
    | error fault => rfl
    | ok bytes => rfl
  | cons byte rest ih =>
    have size : offset + (decodeByte byte).utf8Size + String.utf8Len (rest.map decodeByte) =
        offset + String.utf8Len (decodeByte byte :: rest.map decodeByte) := by
      rw [String.utf8Len_cons]
      omega
    simp only [List.map_cons, List.cons_append, encodeFrom, encodeChar_decodeByte, ih, size]
    cases encodeFrom (offset + String.utf8Len (decodeByte byte :: rest.map decodeByte)) after with
    | error fault => rfl
    | ok bytes => rfl

theorem encodeFrom_map_decodeByte (offset : Nat) (raw : List UInt8) :
    encodeFrom offset (raw.map decodeByte) = .ok raw := by
  have whole := encodeFrom_append offset raw []
  rwa [List.append_nil, encodeFrom, Except.map, List.append_nil] at whole

theorem eq_map_of_encodeFrom (offset : Nat) (chars : List Char) (raw : List UInt8)
    (written : encodeFrom offset chars = .ok raw) : chars = raw.map decodeByte := by
  induction chars generalizing offset raw with
  | nil =>
    cases written
    rfl
  | cons char rest ih =>
    cases encoded : encodeChar? char with
    | none => simp [encodeFrom, encoded] at written
    | some byte =>
      cases tail : encodeFrom (offset + char.utf8Size) rest with
      | error fault => simp [encodeFrom, encoded, tail, Except.map] at written
      | ok more =>
        simp only [encodeFrom, encoded, tail, Except.map, Except.ok.injEq] at written
        subst raw
        rw [List.map_cons, decodeByte_of_encodeChar encoded, ← ih _ _ tail]

theorem encode_eq_ok_iff (text : String) (raw : List UInt8) :
    encode text = .ok raw ↔ text = decode raw := by
  constructor
  · intro written
    rw [decode, ← eq_map_of_encodeFrom 0 text.toList raw written, String.ofList_toList]
  · intro same
    rw [same, encode, decode, String.toList_ofList, encodeFrom_map_decodeByte]

def IsOnPage (char : Char) : Prop := ∃ byte, decodeByte byte = char

theorem isSome_encodeChar_iff (char : Char) : (encodeChar? char).isSome ↔ IsOnPage char := by
  rw [Option.isSome_iff_exists]
  exact exists_congr fun byte => encodeChar_eq_some_iff.trans eq_comm

instance : DecidablePred IsOnPage := fun char => decidable_of_iff _ (isSome_encodeChar_iff char)

theorem exists_decode_iff (text : String) : (∃ raw, decode raw = text) ↔ ∀ char ∈ text.toList, IsOnPage char := by
  have page : text.toList ∈ Set.range (List.map decodeByte) ↔ ∀ char ∈ text.toList, IsOnPage char := by
    rw [Set.range_list_map]
    rfl
  rw [← page, Set.mem_range]
  constructor
  · intro parts
    rcases parts with ⟨raw, rfl⟩
    exact ⟨raw, by rw [decode, String.toList_ofList]⟩
  · intro parts
    rcases parts with ⟨raw, same⟩
    exact ⟨raw, by rw [decode, same, String.ofList_toList]⟩

end ClientScript.CodePage

namespace ClientScript.Writer

open CodePage

theorem nul_mem_decode (raw : List UInt8) : '\x00' ∈ (decode raw).toList ↔ 0 ∈ raw := by
  rw [decode, String.toList_ofList, List.mem_map]
  constructor
  · intro parts
    rcases parts with ⟨byte, member, nul⟩
    rwa [← decodeByte_eq_nul.1 nul]
  · intro member
    exact ⟨0, member, decodeByte_eq_nul.2 rfl⟩

/-- The bytes of closed text are the ones that decode to it, as long as none of them closes it earlier. -/
theorem encodeText_eq_ok_iff (text : String) (raw : List UInt8) :
    encodeText text = .ok raw ↔ 0 ∉ raw ∧ text = decode raw := by
  by_cases nul : '\x00' ∈ text.toList
  · simp only [encodeText, List.contains_iff_mem, if_pos nul, reduceCtorEq, false_iff]
    intro parts
    rcases parts with ⟨apart, rfl⟩
    exact apart ((nul_mem_decode raw).1 nul)
  · simp only [encodeText, List.contains_iff_mem, if_neg nul]
    constructor
    · intro encoded
      cases written : CodePage.encode text with
      | error fault => simp [written, Except.mapError] at encoded
      | ok bytes =>
        simp only [written, Except.mapError, Except.ok.injEq] at encoded
        subst bytes
        have same := (encode_eq_ok_iff text raw).1 written
        refine ⟨?_, same⟩
        rwa [same, nul_mem_decode] at nul
    · intro parts
      rcases parts with ⟨-, same⟩
      rw [(encode_eq_ok_iff text raw).2 same]
      rfl

theorem exists_encodeText {text : String}
    (plain : ∀ char ∈ text.toList, char ≠ '\x00' ∧ (encodeChar? char).isSome) :
    ∃ raw, encodeText text = .ok raw := by
  obtain ⟨raw, decoded⟩ := (exists_decode_iff text).2 fun char member =>
    (isSome_encodeChar_iff char).1 (plain char member).2
  refine ⟨raw, (encodeText_eq_ok_iff text raw).2 ⟨?_, decoded.symm⟩⟩
  intro nul
  rw [← nul_mem_decode, decoded] at nul
  exact (plain _ nul).1 rfl

end ClientScript.Writer
