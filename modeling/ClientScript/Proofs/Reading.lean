import ClientScript.Proofs.CodePage
import ClientScript.Proofs.Sequences

/-!
What reads accept. The form of a value is the bytes that stand for it. A read that accepts a form
succeeds exactly on bytes that begin with the form of some value, uses just that form, and gives that
value. Reads one after the other accept forms one after the other.
-/

namespace ClientScript

namespace Read

variable {ε ε' α β : Type}

theorem bind_eq_ok_iff {first : Read ε α} {next : α → Read ε β} {bytes : List UInt8} {result : β} {used : Nat} :
    (first >>= next) bytes = .ok (result, used) ↔
      ∃ value size more, first bytes = .ok (value, size) ∧
        next value (bytes.drop size) = .ok (result, more) ∧ used = size + more := by
  change Read.bind first next bytes = _ ↔ _
  unfold Read.bind
  constructor
  · intro success
    cases start : first bytes with
    | error error => simp [start] at success
    | ok pair =>
      obtain ⟨value, size⟩ := pair
      cases finish : next value (bytes.drop size) with
      | error error => simp [start, finish] at success
      | ok pair =>
        obtain ⟨last, more⟩ := pair
        simp only [start, finish, Except.ok.injEq, Prod.mk.injEq] at success
        obtain ⟨rfl, rfl⟩ := success
        exact ⟨value, size, more, rfl, finish, rfl⟩
  · intro parts
    rcases parts with ⟨value, size, more, start, finish, rfl⟩
    simp only [start, finish]

theorem bind_of_error {first : Read ε α} {next : α → Read ε β} {bytes : List UInt8} {error : ε}
    (failed : first bytes = .error error) : (first >>= next) bytes = .error error := by
  change Read.bind first next bytes = _
  simp only [Read.bind, failed]

/-- The read succeeds exactly where the form of a value stands first, whatever follows it. -/
def Accepts (read : Read ε α) (form : α → List UInt8 → Prop) : Prop :=
  ∀ bytes value used, read bytes = .ok (value, used) ↔
    ∃ raw rest, bytes = raw ++ rest ∧ raw.length = used ∧ form value raw

namespace Accepts

theorem complete {read : Read ε α} {form : α → List UInt8 → Prop} (accepts : read.Accepts form)
    {value : α} {raw : List UInt8} (formed : form value raw) (rest : List UInt8) :
    read (raw ++ rest) = .ok (value, raw.length) :=
  (accepts _ _ _).2 ⟨raw, rest, rfl, rfl, formed⟩

theorem congr {read : Read ε α} {form form' : α → List UInt8 → Prop} (accepts : read.Accepts form)
    (same : ∀ value raw, form value raw ↔ form' value raw) : read.Accepts form' := by
  intro bytes value used
  simp only [accepts bytes value used, same]

theorem mapError {read : Read ε α} {form : α → List UInt8 → Prop} (accepts : read.Accepts form)
    (change : ε → ε') : (read.mapError change).Accepts form := by
  intro bytes value used
  rw [← accepts bytes value used, Read.mapError]
  cases read bytes <;> simp

theorem bind {first : Read ε α} {next : α → Read ε β} {form : α → List UInt8 → Prop}
    {nextForm : α → β → List UInt8 → Prop} (accepts : first.Accepts form)
    (nextAccepts : ∀ value, (next value).Accepts (nextForm value)) :
    (first >>= next).Accepts fun result raw =>
      ∃ value front back, raw = front ++ back ∧ form value front ∧ nextForm value result back := by
  intro bytes result used
  rw [bind_eq_ok_iff]
  constructor
  · intro parts
    rcases parts with ⟨value, size, more, start, finish, rfl⟩
    obtain ⟨front, tail, rfl, rfl, formed⟩ := (accepts _ _ _).1 start
    rw [List.drop_left] at finish
    obtain ⟨back, rest, rfl, rfl, nextFormed⟩ := (nextAccepts value _ _ _).1 finish
    exact ⟨front ++ back, rest, (List.append_assoc front back rest).symm, List.length_append,
      value, front, back, rfl, formed, nextFormed⟩
  · intro parts
    rcases parts with ⟨raw, rest, rfl, rfl, value, front, back, rfl, formed, nextFormed⟩
    refine ⟨value, front.length, back.length, ?_, ?_, List.length_append⟩
    · rw [List.append_assoc]
      exact accepts.complete formed _
    · rw [List.append_assoc, List.drop_left]
      exact (nextAccepts value).complete nextFormed rest

theorem bind_error {first : Read ε α} {next : α → Read ε β} {form : α → List UInt8 → Prop}
    (accepts : first.Accepts form) {value : α} {raw rest : List UInt8} {error : ε} (formed : form value raw)
    (failed : next value rest = .error error) : (first >>= next) (raw ++ rest) = .error error := by
  change Read.bind first next (raw ++ rest) = _
  simp only [Read.bind, accepts.complete formed rest, List.drop_left, failed]

end Accepts

theorem accepts_pure (value : α) :
    (Pure.pure value : Read ε α).Accepts fun other raw => other = value ∧ raw = [] := by
  intro bytes other used
  change Except.ok (value, 0) = Except.ok (other, used) ↔ _
  simp only [Except.ok.injEq, Prod.mk.injEq]
  constructor
  · intro parts
    rcases parts with ⟨rfl, rfl⟩
    exact ⟨[], bytes, rfl, rfl, rfl, rfl⟩
  · intro parts
    rcases parts with ⟨raw, rest, -, rfl, rfl, rfl⟩
    exact ⟨rfl, rfl⟩

theorem accepts_fail (error : ε) : (Read.fail error : Read ε α).Accepts fun _ _ => False := by
  intro bytes value used
  simp [Read.fail]

theorem Accepts.map {read : Read ε α} {form : α → List UInt8 → Prop} (accepts : read.Accepts form)
    (make : α → β) :
    (read >>= fun value => Pure.pure (make value)).Accepts fun result raw =>
      ∃ value, result = make value ∧ form value raw := by
  refine (accepts.bind fun value => accepts_pure (make value)).congr fun result raw => ?_
  constructor
  · intro parts
    rcases parts with ⟨value, front, back, rfl, formed, rfl, rfl⟩
    exact ⟨value, rfl, by rwa [List.append_nil]⟩
  · intro parts
    rcases parts with ⟨value, rfl, formed⟩
    exact ⟨value, raw, [], (List.append_nil raw).symm, formed, rfl, rfl⟩

theorem Accepts.guard {condition : Prop} [Decidable condition] {read : Read ε α} {error : ε}
    {form : α → List UInt8 → Prop} (accepts : condition → read.Accepts form) :
    (if condition then read else Read.fail error).Accepts fun value raw => condition ∧ form value raw := by
  by_cases holds : condition
  · rw [if_pos holds]
    exact (accepts holds).congr fun value raw => (and_iff_right holds).symm
  · rw [if_neg holds]
    exact (accepts_fail error).congr fun value raw => (iff_false_left id).2 fun formed => holds formed.1

theorem Accepts.unless {condition : Prop} [Decidable condition] {read : Read ε α} {error : ε}
    {form : α → List UInt8 → Prop} (accepts : ¬condition → read.Accepts form) :
    (if condition then Read.fail error else read).Accepts fun value raw => ¬condition ∧ form value raw := by
  rw [← ite_not]
  exact Accepts.guard accepts

/-- A look at how much is left changes nothing if no form is shorter than that. -/
theorem Accepts.enough {read : Read ε α} {form : α → List UInt8 → Prop} {count : Nat} {error : ε}
    (accepts : read.Accepts form) (long : ∀ value raw, form value raw → count ≤ raw.length) :
    (Read.left >>= fun left => if left < count then Read.fail error else read).Accepts form := by
  intro bytes value used
  rw [← accepts bytes value used, bind_eq_ok_iff]
  constructor
  · intro parts
    rcases parts with ⟨_, _, more, ⟨⟩, finish, rfl⟩
    split at finish
    next => cases finish
    next => rwa [Nat.zero_add]
  · intro success
    obtain ⟨raw, rest, rfl, rfl, formed⟩ := (accepts _ _ _).1 success
    have bound := long value raw formed
    have room : ¬(raw ++ rest).length < count := by
      rw [List.length_append]
      omega
    refine ⟨_, 0, raw.length, rfl, ?_, (Nat.zero_add _).symm⟩
    rw [if_neg room]
    exact success

/-- The read succeeds exactly on the form of a value, with nothing after it. -/
def AcceptsWhole (read : Read ε α) (form : α → List UInt8 → Prop) : Prop :=
  ∀ bytes value used, read bytes = .ok (value, used) ↔ bytes.length = used ∧ form value bytes

theorem AcceptsWhole.congr {read : Read ε α} {form form' : α → List UInt8 → Prop}
    (accepts : read.AcceptsWhole form) (same : ∀ value raw, form value raw ↔ form' value raw) :
    read.AcceptsWhole form' := by
  intro bytes value used
  simp only [accepts bytes value used, same]

theorem Accepts.bind_whole {first : Read ε α} {next : α → Read ε β} {form : α → List UInt8 → Prop}
    {nextForm : α → β → List UInt8 → Prop} (accepts : first.Accepts form)
    (nextAccepts : ∀ value, (next value).AcceptsWhole (nextForm value)) :
    (first >>= next).AcceptsWhole fun result raw =>
      ∃ value front back, raw = front ++ back ∧ form value front ∧ nextForm value result back := by
  intro bytes result used
  rw [bind_eq_ok_iff]
  constructor
  · intro parts
    rcases parts with ⟨value, size, more, start, finish, rfl⟩
    obtain ⟨front, back, rfl, rfl, formed⟩ := (accepts _ _ _).1 start
    rw [List.drop_left] at finish
    obtain ⟨rfl, nextFormed⟩ := (nextAccepts value _ _ _).1 finish
    exact ⟨List.length_append, value, front, back, rfl, formed, nextFormed⟩
  · intro parts
    rcases parts with ⟨rfl, value, front, back, rfl, formed, nextFormed⟩
    refine ⟨value, front.length, back.length, accepts.complete formed back, ?_, List.length_append⟩
    rw [List.drop_left]
    exact (nextAccepts value _ _ _).2 ⟨rfl, nextFormed⟩

def Counted (storable : α → Prop) (stored : α → List UInt8) (count : Nat) (values : List α)
    (raw : List UInt8) : Prop :=
  values.length = count ∧ (∀ value ∈ values, storable value) ∧ raw = values.flatMap stored

theorem counted_zero {storable : α → Prop} {stored : α → List UInt8} {values : List α} {raw : List UInt8} :
    Counted storable stored 0 values raw ↔ values = [] ∧ raw = [] := by
  constructor
  · intro parts
    rcases parts with ⟨empty, -, rfl⟩
    rw [List.length_eq_zero_iff.1 empty]
    exact ⟨rfl, rfl⟩
  · intro parts
    rcases parts with ⟨rfl, rfl⟩
    exact ⟨rfl, fun value member => absurd member List.not_mem_nil, rfl⟩

theorem counted_succ {storable : α → Prop} {stored : α → List UInt8} {count : Nat} {values : List α}
    {raw : List UInt8} :
    Counted storable stored (count + 1) values raw ↔
      ∃ first more back, values = first :: more ∧ raw = stored first ++ back ∧ storable first ∧
        Counted storable stored count more back := by
  constructor
  · intro parts
    rcases parts with ⟨size, storables, rfl⟩
    obtain ⟨first, more, rfl⟩ := List.exists_cons_of_length_eq_add_one size
    exact ⟨first, more, _, rfl, rfl, storables first List.mem_cons_self, Nat.succ.inj size,
      fun value member => storables value (List.mem_cons_of_mem first member), rfl⟩
  · intro parts
    rcases parts with ⟨first, more, back, rfl, rfl, storable, size, storables, rfl⟩
    exact ⟨congrArg (· + 1) size, List.forall_mem_cons.2 ⟨storable, storables⟩, rfl⟩

theorem accepts_byte : byte.Accepts fun value raw => raw = [value] := by
  intro bytes value used
  cases bytes with
  | nil => simp [byte]
  | cons first rest =>
    simp only [byte, Except.ok.injEq, Prod.mk.injEq]
    constructor
    · intro parts
      rcases parts with ⟨rfl, rfl⟩
      exact ⟨[first], rest, rfl, rfl, rfl⟩
    · intro parts
      rcases parts with ⟨raw, tail, split, rfl, rfl⟩
      exact ⟨(List.cons.inj split).1, rfl⟩

theorem wordBytes_ofNat (high low : UInt8) :
    wordBytes (UInt16.ofNat (high.toNat * 256 + low.toNat)) = [high, low] := by
  have highBound := high.toNat_lt
  have lowBound := low.toNat_lt
  have number : (UInt16.ofNat (high.toNat * 256 + low.toNat)).toNat = high.toNat * 256 + low.toNat :=
    UInt16.toNat_ofNat_of_lt' (by change _ < 65536; omega)
  have first : UInt8.ofNat ((high.toNat * 256 + low.toNat) / 256) = high := by
    rw [show (high.toNat * 256 + low.toNat) / 256 = high.toNat by omega, UInt8.ofNat_toNat]
  have second : UInt8.ofNat (high.toNat * 256 + low.toNat) = low := by
    apply UInt8.toNat_inj.1
    rw [UInt8.toNat_ofNat']
    omega
  rw [wordBytes, number, first, second]

theorem exists_word (high low : UInt8) :
    ∃ word, [high, low] = wordBytes word ∧ high.toNat * 256 + low.toNat = word.toNat := by
  have highBound := high.toNat_lt
  have lowBound := low.toNat_lt
  refine ⟨_, (wordBytes_ofNat high low).symm, ?_⟩
  rw [UInt16.toNat_ofNat_of_lt']
  change _ < 65536
  omega

theorem toNat_wordBytes (word : UInt16) :
    (UInt8.ofNat (word.toNat / 256)).toNat * 256 + (UInt8.ofNat word.toNat).toNat = word.toNat := by
  have bound := word.toNat_lt
  rw [UInt8.toNat_ofNat', UInt8.toNat_ofNat']
  omega

theorem u16_wordBytes (word : UInt16) (rest : List UInt8) :
    u16 (wordBytes word ++ rest) = .ok (word, 2) := by
  simp only [wordBytes, List.cons_append, List.nil_append, u16, toNat_wordBytes, UInt16.ofNat_toNat]

theorem accepts_u16 : u16.Accepts fun word raw => raw = wordBytes word := by
  intro bytes word used
  constructor
  · intro success
    match bytes with
    | [] => cases success
    | [_] => cases success
    | high :: low :: rest =>
      cases success
      exact ⟨[high, low], rest, rfl, rfl, (wordBytes_ofNat high low).symm⟩
  · intro parts
    rcases parts with ⟨raw, rest, rfl, rfl, rfl⟩
    exact u16_wordBytes word rest

theorem longBytes_ofNat (a b c d : UInt8) :
    longBytes (UInt32.ofNat (((a.toNat * 256 + b.toNat) * 256 + c.toNat) * 256 + d.toNat)) =
      [a, b, c, d] := by
  have aBound := a.toNat_lt
  have bBound := b.toNat_lt
  have cBound := c.toNat_lt
  have dBound := d.toNat_lt
  generalize total : ((a.toNat * 256 + b.toNat) * 256 + c.toNat) * 256 + d.toNat = number
  have same : (UInt32.ofNat number).toNat = number :=
    UInt32.toNat_ofNat_of_lt' (by change _ < 4294967296; omega)
  have digit (byte : UInt8) (part : Nat) (equal : part % 256 = byte.toNat) : UInt8.ofNat part = byte := by
    apply UInt8.toNat_inj.1
    rw [UInt8.toNat_ofNat', equal]
  rw [longBytes, same, digit a (number / 16777216) (by omega), digit b (number / 65536) (by omega),
    digit c (number / 256) (by omega), digit d number (by omega)]

theorem u32_longBytes (word : UInt32) (rest : List UInt8) :
    u32 (longBytes word ++ rest) = .ok (word, 4) := by
  have bound := word.toNat_lt
  have number : (((UInt8.ofNat (word.toNat / 16777216)).toNat * 256 +
      (UInt8.ofNat (word.toNat / 65536)).toNat) * 256 +
      (UInt8.ofNat (word.toNat / 256)).toNat) * 256 + (UInt8.ofNat word.toNat).toNat = word.toNat := by
    simp only [UInt8.toNat_ofNat']
    omega
  simp only [longBytes, List.cons_append, List.nil_append, u32, number, UInt32.ofNat_toNat]

theorem accepts_u32 : u32.Accepts fun word raw => raw = longBytes word := by
  intro bytes word used
  constructor
  · intro success
    match bytes with
    | [] => cases success
    | [_] => cases success
    | [_, _] => cases success
    | [_, _, _] => cases success
    | a :: b :: c :: d :: rest =>
      cases success
      exact ⟨[a, b, c, d], rest, rfl, rfl, (longBytes_ofNat a b c d).symm⟩
  · intro parts
    rcases parts with ⟨raw, rest, rfl, rfl, rfl⟩
    exact u32_longBytes word rest

theorem accepts_i16 : i16.Accepts fun value raw => raw = wordBytes value.toUInt16 := by
  refine (accepts_u16.map UInt16.toInt16).congr fun value raw => ?_
  constructor
  · intro parts
    rcases parts with ⟨word, rfl, formed⟩
    rwa [UInt16.toUInt16_toInt16]
  · intro formed
    exact ⟨value.toUInt16, (Int16.toInt16_toUInt16 value).symm, formed⟩

theorem accepts_i32 : i32.Accepts fun value raw => raw = longBytes value.toUInt32 := by
  refine (accepts_u32.map UInt32.toInt32).congr fun value raw => ?_
  constructor
  · intro parts
    rcases parts with ⟨word, rfl, formed⟩
    rwa [UInt32.toUInt32_toInt32]
  · intro formed
    exact ⟨value.toUInt32, (Int32.toInt32_toUInt32 value).symm, formed⟩

theorem accepts_bytes (count : Nat) :
    (bytes count).Accepts fun value raw => value.length = count ∧ raw = value := by
  intro given value used
  simp only [bytes]
  constructor
  · intro success
    split at success
    next enough =>
      cases success
      exact ⟨given.take count, given.drop count, (List.take_append_drop count given).symm, enough,
        enough, rfl⟩
    next => cases success
  · intro parts
    rcases parts with ⟨raw, rest, rfl, rfl, rfl, rfl⟩
    rw [List.take_left, if_pos rfl]

theorem takeWhile_closed {body : List UInt8} (apart : 0 ∉ body) (rest : List UInt8) :
    (body ++ 0 :: rest).takeWhile (· ≠ 0) = body := by
  have plain : ∀ byte ∈ body, decide (byte ≠ 0) = true := by
    intro byte member
    rw [decide_eq_true_iff]
    rintro rfl
    exact apart member
  rw [List.takeWhile_append_of_pos plain, List.takeWhile_cons_of_neg (by decide), List.append_nil]

theorem exists_closed (given : List UInt8)
    (more : given.drop (given.takeWhile (· ≠ 0)).length ≠ []) :
    ∃ rest, given = given.takeWhile (· ≠ 0) ++ 0 :: rest := by
  induction given with
  | nil => exact absurd rfl more
  | cons byte tail ih =>
    by_cases nul : byte = 0
    · rw [nul, List.takeWhile_cons_of_neg (by decide)]
      exact ⟨tail, rfl⟩
    · rw [List.takeWhile_cons_of_pos (by simpa using nul)] at more ⊢
      obtain ⟨rest, split⟩ := ih more
      exact ⟨rest, congrArg (List.cons byte) split⟩

theorem accepts_text : text.Accepts fun value raw =>
    ∃ body, Writer.encodeText value = .ok body ∧ raw = body ++ [0] := by
  intro given value used
  simp only [text, Writer.encodeText_eq_ok_iff, List.isEmpty_iff]
  constructor
  · intro success
    split at success
    next => cases success
    next more =>
      cases success
      obtain ⟨rest, split⟩ := exists_closed given more
      have apart : 0 ∉ given.takeWhile (· ≠ 0) := by
        intro member
        simpa using List.mem_takeWhile_imp member
      exact ⟨given.takeWhile (· ≠ 0) ++ [0], rest, by rw [List.append_assoc]; exact split,
        List.length_append, _, ⟨apart, rfl⟩, rfl⟩
  · intro parts
    rcases parts with ⟨raw, rest, rfl, rfl, body, ⟨apart, rfl⟩, rfl⟩
    have front : (body ++ [0] ++ rest).takeWhile (· ≠ 0) = body := by
      rw [List.append_assoc]
      exact takeWhile_closed apart rest
    rw [front, List.append_assoc, List.drop_left, if_neg (by simp)]
    simp

end Read

end ClientScript
