import ClientScript.Proofs.CodePage
import ClientScript.Proofs.Legibility

/-!
Text that the code page cannot write. Encoding stops at the first character that no byte stands for. The fault it
reports names this character and counts the UTF-8 bytes before it, and the message of the fault tells both. All other
text is encoded, to the bytes that decode to it.
-/

namespace ClientScript.CodePage

theorem toNat_decodeByte_eq_iff (byte : UInt8) :
    (decodeByte byte).toNat = byte.toNat ↔ byte.toNat < 0x80 ∨ 0xa0 ≤ byte.toNat ∨ byte ∈ unassigned := by
  by_cases inTable : 0x80 ≤ byte.toNat ∧ byte.toNat < 0xa0
  · rw [forall_table (fun byte => (decodeByte byte).toNat = byte.toNat ↔ byte ∈ unassigned) (by decide) inTable]
    constructor
    · intro member
      exact .inr (.inr member)
    · intro parts
      rcases parts with low | high | member
      · omega
      · omega
      · exact member
  · rw [decodeByte_of_outside inTable, toNat_ofNat_byte]
    have outside : byte.toNat < 0x80 ∨ 0xa0 ≤ byte.toNat := by omega
    exact ⟨fun _ => or_assoc.1 (.inl outside), fun _ => rfl⟩

/-- The fault names the first character of the text that is not on the page, and the UTF-8 bytes before it. -/
def Unencodable.IsFirstIn (fault : Unencodable) (text : String) : Prop :=
  ∃ before after : String, text = before ++ String.singleton fault.char ++ after ∧
    (∀ char ∈ before.toList, IsOnPage char) ∧ ¬IsOnPage fault.char ∧ fault.offset = before.utf8ByteSize

theorem encodeFrom_outside {char : Char} (outside : ¬IsOnPage char) (offset : Nat) (after : List Char) :
    encodeFrom offset (char :: after) = .error ⟨char, offset⟩ := by
  have absent : encodeChar? char = none := by
    rwa [← Option.not_isSome_iff_eq_none, isSome_encodeChar_iff]
  simp only [encodeFrom, absent]

theorem encode_of_isFirstIn {fault : Unencodable} {text : String} (first : fault.IsFirstIn text) :
    encode text = .error fault := by
  obtain ⟨before, after, same, onPage, outside, offset⟩ := first
  obtain ⟨raw, rfl⟩ := (exists_decode_iff before).2 onPage
  have chars : text.toList = raw.map decodeByte ++ fault.char :: after.toList := by
    rw [same, decode]
    simp only [String.toList_append, String.toList_ofList, String.toList_singleton, List.append_assoc,
      List.singleton_append]
  rw [encode, chars, encodeFrom_append, encodeFrom_outside outside, Nat.zero_add, ← offset]
  rfl

theorem exists_isFirstIn_iff (text : String) :
    (∃ fault : Unencodable, fault.IsFirstIn text) ↔ ∃ char ∈ text.toList, ¬IsOnPage char := by
  constructor
  · intro parts
    rcases parts with ⟨fault, before, after, rfl, -, outside, -⟩
    exact ⟨fault.char, by simp, outside⟩
  · intro parts
    have isFound : (text.toList.find? fun char => ¬IsOnPage char).isSome := by
      simpa only [List.find?_isSome, decide_eq_true_eq] using parts
    obtain ⟨char, found⟩ := Option.isSome_iff_exists.1 isFound
    obtain ⟨outside, before, after, same, onPage⟩ := List.find?_eq_some_iff_append.1 found
    simp only [decide_eq_true_eq, Bool.not_eq_true', decide_eq_false_iff_not, not_not] at outside onPage
    refine ⟨⟨char, (String.ofList before).utf8ByteSize⟩, String.ofList before, String.ofList after, ?_, ?_, outside,
      rfl⟩
    · apply String.toList_inj.1
      simp [same]
    · rwa [String.toList_ofList]

theorem exists_encode_iff (text : String) :
    (∃ raw, encode text = .ok raw) ↔ ∀ char ∈ text.toList, IsOnPage char := by
  rw [← exists_decode_iff]
  exact exists_congr fun raw => (encode_eq_ok_iff text raw).trans eq_comm

theorem encode_eq_error_iff (text : String) (fault : Unencodable) :
    encode text = .error fault ↔ fault.IsFirstIn text := by
  constructor
  · intro refused
    have outside : ¬∀ char ∈ text.toList, IsOnPage char := by
      rw [← exists_encode_iff, refused]
      intro written
      rcases written with ⟨raw, impossible⟩
      cases impossible
    push Not at outside
    obtain ⟨first, isFirst⟩ := (exists_isFirstIn_iff text).2 outside
    rw [encode_of_isFirstIn isFirst, Except.error.injEq] at refused
    rwa [← refused]
  · exact encode_of_isFirstIn

end ClientScript.CodePage

namespace ClientScript.WriteError

theorem toList_message_unencodable (fault : CodePage.Unencodable) :
    (unencodable fault).message.toList = "character not representable in CP1252: ".toList ++
      ((quoteChar fault.char).toList ++ (" at ".toList ++ Nat.toDigits 10 fault.offset)) := by
  have digits : (toString fault.offset).toList = Nat.toDigits 10 fault.offset := Nat.toList_repr
  -- The equations of `message` take long to derive, so the case is stated and not rewritten to.
  change ("character not representable in CP1252: " ++ quoteChar fault.char ++ " at " ++
    toString fault.offset).toList = _
  rw [String.toList_append, String.toList_append, String.toList_append, digits, List.append_assoc, List.append_assoc]

/-- The first letter tells the faults of the code page from the other errors. -/
theorem exists_fault_of_head {error : WriteError} (head : error.message.toList.head? = some 'c') :
    ∃ fault, error = unencodable fault := by
  cases error with
  | unencodable fault => exact ⟨fault, rfl⟩
  | nulInText => exact absurd head (by decide)
  | drained => exact absurd head (by decide)
  | full => exact absurd head (by decide)
  | shape mismatch =>
    change ("operand doesn't match opcode: " ++ mismatch.message).toList.head? = _ at head
    rw [String.toList_append, List.head?_append] at head
    exact absurd head (by simp)

theorem message_eq_unencodable_iff (error : WriteError) (fault : CodePage.Unencodable) :
    error.message = (unencodable fault).message ↔ error = unencodable fault := by
  constructor
  · intro same
    have chars := congrArg String.toList same
    rw [toList_message_unencodable] at chars
    obtain ⟨other, rfl⟩ : ∃ other, error = unencodable other := by
      apply exists_fault_of_head
      rw [chars, List.head?_append]
      rfl
    rw [toList_message_unencodable] at chars
    -- A quoted character shows its end, so the rest starts at the same place in both messages.
    obtain ⟨char, tail⟩ := legible_quoteChar _ _ trivial trivial _ _ trivial trivial (List.append_cancel_left chars)
    have ended : NoDigit [] := by
      intro digit head
      cases head
    have offset := legible_digits.eq ended trivial trivial (List.append_cancel_left tail)
    rw [unencodable.injEq, CodePage.Unencodable.mk.injEq]
    exact ⟨char, offset⟩
  · intro same
    rw [same]

end ClientScript.WriteError

namespace ClientScript.CodePage

/-- The unassigned bytes of the table stand for the characters of their own numbers, so that every byte string is
decoded and encoded back. Text is encoded if bytes stand for all its characters, to bytes that decode to it, and is
else refused at the first character for which none does. -/
theorem encode_inverts_decode :
    (∀ byte, (decodeByte byte).toNat = byte.toNat ↔ byte.toNat < 0x80 ∨ 0xa0 ≤ byte.toNat ∨ byte ∈ unassigned) ∧
    (∀ raw, encode (decode raw) = .ok raw) ∧
    (∀ text, ((∃ raw, encode text = .ok raw) ↔ ∀ char ∈ text.toList, IsOnPage char) ∧
      (∀ raw, encode text = .ok raw → decode raw = text) ∧
      ((∃ fault, encode text = .error fault) ↔ ∃ char ∈ text.toList, ¬IsOnPage char) ∧
      (∀ fault, encode text = .error fault ↔ fault.IsFirstIn text)) ∧
    ∀ (error : WriteError) (fault : Unencodable),
      error.message = (WriteError.unencodable fault).message ↔ error = .unencodable fault := by
  refine ⟨toNat_decodeByte_eq_iff, ?_, ?_, WriteError.message_eq_unencodable_iff⟩
  · intro raw
    exact (encode_eq_ok_iff _ raw).2 rfl
  · intro text
    refine ⟨exists_encode_iff text, ?_, ?_, encode_eq_error_iff text⟩
    · intro raw written
      exact ((encode_eq_ok_iff text raw).1 written).symm
    · simp only [encode_eq_error_iff]
      exact exists_isFirstIn_iff text

theorem encode_inverts_decode_mixed :
    encode "é€\u0081" = .ok [0xe9, 0x80, 0x81] ∧ decode [0xe9, 0x80, 0x81] = "é€\u0081" ∧
    (∃ fault, encode "é€\u0081世ÿ世" = .error fault) ∧ encode "é€\u0081世ÿ世" = .error ⟨'世', 7⟩ ∧
    (WriteError.unencodable ⟨'世', 7⟩).message = "character not representable in CP1252: '世' at 7" := by
  obtain ⟨-, encoded, texts, -⟩ := encode_inverts_decode
  have written : encode "é€\u0081" = .ok [0xe9, 0x80, 0x81] := encoded [0xe9, 0x80, 0x81]
  have decoded := (texts "é€\u0081").2.1 _ written
  obtain ⟨-, -, refused, faults⟩ := texts "é€\u0081世ÿ世"
  have fails := refused.2 ⟨'世', by simp, by decide⟩
  have fault := (faults ⟨'世', 7⟩).2 ⟨"é€\u0081", "ÿ世", by decide, by simp; decide, by decide, by decide⟩
  exact ⟨written, decoded, fails, fault, by decide +kernel⟩

end ClientScript.CodePage
