import Mathlib
import ClientScript.Proofs.Sequences
import ClientScript.Text.Quoted

/-!
Text that can be read back. `Legible` says of a way of writing that what is written can be told from everything else
that is written so, and from what follows it. A number is legible before anything but a digit, and an escape or a
quoted text before anything. Items that are legible before each other are so in a row, and with a separator
between them.
-/

namespace ClientScript

/-- Of valid items, what is written tells the item and where its text ends, if something that may follow does. -/
def Legible {α : Type} (valid : α → Prop) (write : α → List Char) (follows : List Char → Prop) : Prop :=
  ∀ one other, valid one → valid other → ∀ rest rest', follows rest → follows rest' →
    write one ++ rest = write other ++ rest' → one = other ∧ rest = rest'

namespace Legible

variable {α : Type} {valid : α → Prop} {write : α → List Char} {follows : List Char → Prop}

theorem of_read (read : List Char → Option (α × List Char))
    (back : ∀ item rest, valid item → follows rest → read (write item ++ rest) = some (item, rest)) :
    Legible valid write follows := by
  intro one other isValid isValid' rest rest' mayFollow mayFollow' same
  have first := back one rest isValid mayFollow
  rw [same, back other rest' isValid' mayFollow', Option.some.injEq, Prod.mk.injEq] at first
  exact ⟨first.1.symm, first.2.symm⟩

theorem eq (legible : Legible valid write follows) (atEnd : follows []) {one other : α} (isValid : valid one)
    (isValid' : valid other) (same : write one = write other) : one = other :=
  (legible one other isValid isValid' [] [] atEnd atEnd (by rw [same])).1

/-- Items in a row are legible if one may follow another, and if what follows the last one looks like none. -/
theorem flatMap (legible : Legible valid write follows) (ends : List Char → Prop)
    (goesOn : ∀ item rest, valid item → follows (write item ++ rest) ∧ ¬ends (write item ++ rest))
    (closes : ∀ rest, ends rest → follows rest) :
    Legible (fun items => ∀ item ∈ items, valid item) (List.flatMap write) ends := by
  intro items others areValid areValid' rest rest' isEnd isEnd' same
  have mayFollow : ∀ (items : List α) (rest : List Char), (∀ item ∈ items, valid item) → ends rest →
      follows (items.flatMap write ++ rest) := by
    intro items rest areValid isEnd
    cases items with
    | nil => exact closes rest isEnd
    | cons item items =>
      rw [List.flatMap_cons, List.append_assoc]
      exact (goesOn item _ (areValid item List.mem_cons_self)).1
  induction items generalizing others with
  | nil =>
    cases others with
    | nil => exact ⟨rfl, same⟩
    | cons other others =>
      rw [List.flatMap_nil, List.nil_append, List.flatMap_cons, List.append_assoc] at same
      exact absurd (same ▸ isEnd) (goesOn other _ (areValid' other List.mem_cons_self)).2
  | cons item items ih =>
    obtain ⟨isValid, areValid⟩ := List.forall_mem_cons.1 areValid
    cases others with
    | nil =>
      rw [List.flatMap_nil, List.nil_append, List.flatMap_cons, List.append_assoc] at same
      exact absurd (same ▸ isEnd') (goesOn item _ isValid).2
    | cons other others =>
      obtain ⟨isValid', othersValid⟩ := List.forall_mem_cons.1 areValid'
      rw [List.flatMap_cons, List.flatMap_cons, List.append_assoc, List.append_assoc] at same
      obtain ⟨rfl, later⟩ := legible item other isValid isValid' _ _ (mayFollow items rest areValid isEnd)
        (mayFollow others rest' othersValid isEnd') same
      obtain ⟨rfl, tail⟩ := ih others areValid othersValid later
      exact ⟨rfl, tail⟩

theorem separated (legible : Legible valid write follows) (separator : List Char) (some_char : separator ≠ [])
    (apart : ∀ rest, follows (separator ++ rest)) (atEnd : follows []) (filled : ∀ item, valid item → write item ≠ []) :
    Legible (fun items => ∀ item ∈ items, valid item)
      (fun items : List α => separator.intercalate (items.map write)) (· = []) := by
  have more : Legible (fun items => ∀ item ∈ items, valid item) (List.flatMap fun item => separator ++ write item)
      (· = []) := by
    have next : Legible valid (fun item => separator ++ write item) follows := by
      intro one other isValid isValid' rest rest' mayFollow mayFollow' same
      rw [List.append_assoc, List.append_assoc] at same
      exact legible one other isValid isValid' rest rest' mayFollow mayFollow' (List.append_cancel_left same)
    refine next.flatMap (· = []) (fun item rest _ => ?_) fun rest isEnd => isEnd ▸ atEnd
    rw [List.append_assoc]
    exact ⟨apart _, fun isEnd => some_char (List.append_eq_nil_iff.1 isEnd).1⟩
  have follow : ∀ items : List α, follows (items.flatMap fun item => separator ++ write item) := by
    intro items
    cases items with
    | nil => exact atEnd
    | cons item items =>
      rw [List.flatMap_cons, List.append_assoc]
      exact apart _
  intro items others areValid areValid' rest rest' isEnd isEnd' same
  subst isEnd isEnd'
  simp only [List.append_nil] at same
  cases items with
  | nil =>
    cases others with
    | nil => exact ⟨rfl, rfl⟩
    | cons other others =>
      rw [List.map_cons, intercalate_cons] at same
      exact absurd (List.append_eq_nil_iff.1 same.symm).1 (filled other (areValid' other List.mem_cons_self))
  | cons item items =>
    obtain ⟨isValid, areValid⟩ := List.forall_mem_cons.1 areValid
    cases others with
    | nil =>
      rw [List.map_cons, intercalate_cons] at same
      exact absurd (List.append_eq_nil_iff.1 same).1 (filled item isValid)
    | cons other others =>
      obtain ⟨isValid', othersValid⟩ := List.forall_mem_cons.1 areValid'
      rw [List.map_cons, List.map_cons, intercalate_cons, intercalate_cons, List.flatMap_map, List.flatMap_map] at same
      obtain ⟨rfl, tail⟩ := legible item other isValid isValid' _ _ (follow items) (follow others) same
      exact ⟨congrArg (item :: ·) (more.eq rfl areValid othersValid tail), rfl⟩

end Legible

def NoDigit (rest : List Char) : Prop := ∀ char ∈ rest.head?, char.isDigit = false

theorem noDigit_cons {char : Char} (other : char.isDigit = false) (rest : List Char) : NoDigit (char :: rest) := by
  intro first head
  cases head
  exact other

theorem toList_toString (number : Int) :
    (toString number).toList = if number < 0 then '-' :: Nat.toDigits 10 number.natAbs
      else Nat.toDigits 10 number.natAbs := by
  rw [Int.toString_eq_repr, Int.repr_eq_if]
  by_cases negative : number < 0
  · rw [if_neg (by omega), if_pos negative, String.toList_append, Nat.toList_repr,
      show (-number).toNat = number.natAbs by omega]
    rfl
  · rw [if_pos (by omega), if_neg negative, Nat.toList_repr, show number.toNat = number.natAbs by omega]

def IsGraphic (char : Char) : Prop := ' ' < char ∧ char ≤ '~'

theorem isGraphic_of_isDigit {char : Char} (digit : char.isDigit) : IsGraphic char := by
  simp only [Char.isDigit, Bool.and_eq_true, decide_eq_true_eq] at digit
  exact ⟨lt_of_lt_of_le (b := '0') (by decide) digit.1, le_trans (b := '9') digit.2 (by decide)⟩

theorem isGraphic_of_mem_digits (number : Nat) : ∀ char ∈ Nat.toDigits 10 number, IsGraphic char := fun _ mem =>
  isGraphic_of_isDigit (Nat.isDigit_of_mem_toDigits (by decide) (by decide) mem)

theorem isGraphic_of_mem_toString (number : Int) : ∀ char ∈ (toString number).toList, IsGraphic char := by
  intro char mem
  rw [toList_toString] at mem
  split at mem
  next =>
    rcases List.mem_cons.1 mem with rfl | mem
    · exact ⟨by decide, by decide⟩
    · exact isGraphic_of_mem_digits _ char mem
  next => exact isGraphic_of_mem_digits _ char mem

theorem legible_digits : Legible (fun _ => True) (Nat.toDigits 10) NoDigit := by
  refine .of_read
    (fun text => some (Nat.ofDigitChars 10 (text.takeWhile Char.isDigit) 0, text.dropWhile Char.isDigit)) ?_
  intro number rest _ noDigit
  have digits : ∀ char ∈ Nat.toDigits 10 number, char.isDigit = true := fun char member =>
    Nat.isDigit_of_mem_toDigits (by decide) (by decide) member
  have stops : rest.takeWhile Char.isDigit = [] ∧ rest.dropWhile Char.isDigit = rest := by
    cases rest with
    | nil => exact ⟨rfl, rfl⟩
    | cons char rest => simp [noDigit char rfl]
  rw [List.takeWhile_append_of_pos digits, List.dropWhile_append_of_pos digits, stops.1, stops.2, List.append_nil,
    Nat.ofDigitChars_ten_toDigits]

theorem digits_ne_cons {char : Char} (other : char.isDigit = false) (number : Nat) (rest rest' : List Char) :
    Nat.toDigits 10 number ++ rest ≠ char :: rest' := by
  intro same
  cases digits : Nat.toDigits 10 number with
  | nil => exact Nat.toDigits_ne_nil digits
  | cons first more =>
    have digit := Nat.isDigit_of_mem_toDigits (b := 10) (n := number) (c := first) (by decide) (by decide)
      (by rw [digits]; exact List.mem_cons_self)
    rw [digits, List.cons_append] at same
    rw [(List.cons.inj same).1, other] at digit
    cases digit

theorem legible_decimal : Legible (fun _ => True) (fun number : Int => (toString number).toList) NoDigit := by
  intro one other _ _ rest rest' noDigit noDigit' same
  dsimp only at same
  rw [toList_toString, toList_toString] at same
  split at same
  next negative =>
    split at same
    next negative' =>
      obtain ⟨size, tail⟩ := legible_digits _ _ trivial trivial rest rest' noDigit noDigit' (List.cons.inj same).2
      exact ⟨by omega, tail⟩
    next => exact absurd same.symm (digits_ne_cons (by decide) _ _ _)
  next natural =>
    split at same
    next => exact absurd same (digits_ne_cons (by decide) _ _ _)
    next natural' =>
      obtain ⟨size, tail⟩ := legible_digits _ _ trivial trivial rest rest' noDigit noDigit' same
      exact ⟨by omega, tail⟩

/-- A number with its sign is legible where a number without is: a plus does not start one. -/
theorem legible_signed : Legible (fun _ => True) (fun number : Int => (signedText number).toList) NoDigit := by
  intro one other _ _ rest rest' noDigit noDigit' same
  have minus {number : Int} (negative : number < 0) : (toString number).toList =
      '-' :: Nat.toDigits 10 number.natAbs := by rw [toList_toString, if_pos negative]
  simp only [signedText] at same
  split at same
  next negative =>
    split at same
    next negative' => exact legible_decimal one other trivial trivial rest rest' noDigit noDigit' same
    next =>
      rw [minus negative, String.toList_append] at same
      exact absurd (List.cons.inj same).1 (by decide)
  next =>
    rw [String.toList_append] at same
    split at same
    next negative' =>
      rw [minus negative'] at same
      exact absurd (List.cons.inj same).1 (by decide)
    next =>
      rw [String.toList_append] at same
      exact legible_decimal one other trivial trivial rest rest' noDigit noDigit' (List.cons.inj same).2

def digitValue (digit : Char) : Nat :=
  if digit.isDigit then digit.toNat - '0'.toNat else digit.toNat - 'a'.toNat + 10

def hexValue (digits : List Char) : Nat :=
  digits.foldl (fun number digit => number * 16 + digitValue digit) 0

theorem digitValue_digitChar (digit : Fin 16) : digitValue (Nat.digitChar digit) = digit := by
  revert digit
  decide

theorem hexDigits_succ (width number : Nat) :
    hexDigits (width + 1) number = Nat.digitChar (number / 16 ^ width % 16) :: hexDigits width number := by
  simp [hexDigits, List.range_succ]

theorem length_hexDigits (width number : Nat) : (hexDigits width number).length = width := by
  simp [hexDigits]

theorem foldl_hexDigits (width number start : Nat) :
    (hexDigits width number).foldl (fun number digit => number * 16 + digitValue digit) start =
      start * 16 ^ width + number % 16 ^ width := by
  induction width generalizing start with
  | zero => simp [hexDigits, Nat.mod_one]
  | succ width ih =>
    have digit := digitValue_digitChar ⟨number / 16 ^ width % 16, Nat.mod_lt _ (by decide)⟩
    rw [hexDigits_succ, List.foldl_cons, ih, digit, Nat.mod_pow_succ, Nat.pow_succ]
    ring

theorem hexValue_hexDigits {width number : Nat} (bound : number < 16 ^ width) :
    hexValue (hexDigits width number) = number := by
  rw [hexValue, foldl_hexDigits, Nat.mod_eq_of_lt bound, Nat.zero_mul, Nat.zero_add]

theorem legible_hexDigits (width : Nat) :
    Legible (fun number => number < 16 ^ width) (hexDigits width) (fun _ => True) := by
  refine .of_read (fun text => some (hexValue (text.take width), text.drop width)) ?_
  intro number rest bound _
  have length := length_hexDigits width number
  rw [List.take_left' length, List.drop_left' length, hexValue_hexDigits bound]

theorem legible_hexText : Legible (fun _ => True) (fun bytes => (hexText bytes).toList) (· = []) := by
  have byte : Legible (fun _ => True) (fun byte : UInt8 => hexDigits 2 byte.toNat) (fun _ => True) := by
    intro one other _ _ rest rest' _ _ same
    obtain ⟨number, tail⟩ := legible_hexDigits 2 _ _ one.toNat_lt other.toNat_lt rest rest' trivial trivial same
    exact ⟨UInt8.toNat_inj.1 number, tail⟩
  have bytes := byte.flatMap (· = []) (fun byte rest _ => ⟨trivial, by simp [hexDigits_succ]⟩)
    fun _ _ => trivial
  intro one other _ _ rest rest' atEnd atEnd' same
  simp only [hexText, String.toList_ofList] at same
  exact bytes one other (fun _ _ => trivial) (fun _ _ => trivial) rest rest' atEnd atEnd' same

namespace Quoted

def controlOf? (letter : Char) : Option Char :=
  [('a', '\x07'), ('b', '\x08'), ('t', '\x09'), ('n', '\x0a'), ('v', '\x0b'), ('f', '\x0c'),
    ('r', '\x0d')].lookup letter

def IsQuote (char : Char) : Prop := char = '"' ∨ char = '\''

def unescape : List Char → Option (Char × List Char)
  | '\\' :: mark :: rest =>
    if mark = 'x' then some (Char.ofNat (hexValue (rest.take 2)), rest.drop 2)
    else if mark = 'u' then some (Char.ofNat (hexValue (rest.take 4)), rest.drop 4)
    else if mark = 'U' then some (Char.ofNat (hexValue (rest.take 8)), rest.drop 8)
    else some ((controlOf? mark).getD mark, rest)
  | char :: rest => some (char, rest)
  | [] => none

theorem controlOf_controlLetter {char letter : Char} (control : controlLetter? char = some letter) :
    controlOf? letter = some char ∧ letter ≠ 'x' ∧ letter ≠ 'u' ∧ letter ≠ 'U' := by
  have back := char.ofNat_toNat
  unfold controlLetter? at control
  split at control <;> cases control <;> rename_i number <;> rw [number] at back <;> subst back <;> decide

theorem unescape_plain {char : Char} (plain : char ≠ '\\') (rest : List Char) :
    unescape (char :: rest) = some (char, rest) := by
  unfold unescape
  split
  next same => exact absurd (List.cons.inj same).1 plain
  next same =>
    cases same
    rfl
  next same => cases same

theorem unescape_escape {quote : Char} (isQuote : IsQuote quote) (char : Char) (rest : List Char) :
    unescape (escape quote char ++ rest) = some (char, rest) := by
  unfold escape
  split
  next marked =>
    rcases marked with rfl | rfl
    · rcases isQuote with rfl | rfl
      · rfl
      · rfl
    · rfl
  next unmarked =>
    split
    next => exact unescape_plain (fun same => unmarked (.inr same)) rest
    next =>
      split
      next letter control =>
        obtain ⟨back, notX, notU, notLong⟩ := controlOf_controlLetter control
        simp [unescape, notX, notU, notLong, back]
      next =>
        have digits (width : Nat) (bound : char.toNat < 16 ^ width) :
            Char.ofNat (hexValue ((hexDigits width char.toNat ++ rest).take width)) = char ∧
              (hexDigits width char.toNat ++ rest).drop width = rest := by
          have length := length_hexDigits width char.toNat
          rw [List.take_left' length, List.drop_left' length, hexValue_hexDigits bound, Char.ofNat_toNat]
          exact ⟨rfl, rfl⟩
        split
        next small =>
          obtain ⟨value, tail⟩ := digits 2 (by omega)
          simp [unescape, value, tail]
        next =>
          split
          next small =>
            obtain ⟨value, tail⟩ := digits 4 (by omega)
            simp [unescape, value, tail]
          next =>
            have bound : char.toNat < 0x110000 := by
              rcases char.valid with low | high
              · exact low.trans (by decide)
              · exact high.2
            obtain ⟨value, tail⟩ := digits 8 (by omega)
            simp [unescape, value, tail]

theorem legible_escape {quote : Char} (isQuote : IsQuote quote) :
    Legible (fun _ => True) (escape quote) (fun _ => True) :=
  .of_read unescape fun char rest _ _ => unescape_escape isQuote char rest

/-- The quote itself is escaped, so no escape looks like the end of the text. -/
theorem escape_ne_quote {quote : Char} (isQuote : IsQuote quote) (char : Char) (rest rest' : List Char) :
    escape quote char ++ rest ≠ quote :: rest' := by
  intro same
  have plain : quote ≠ '\\' := by
    rcases isQuote with rfl | rfl
    · decide
    · decide
  have read := unescape_escape isQuote char rest
  rw [same, unescape_plain plain, Option.some.injEq, Prod.mk.injEq] at read
  obtain ⟨rfl, -⟩ := read
  rw [escape, if_pos (.inl rfl)] at same
  exact plain (List.cons.inj same).1.symm

theorem legible_encode {quote : Char} (isQuote : IsQuote quote) :
    Legible (fun _ => True) (encode quote) (fun _ => True) := by
  have chars := (legible_escape isQuote).flatMap (fun rest => ∃ tail, rest = quote :: tail)
    (fun char rest _ => ⟨trivial, fun closed => escape_ne_quote isQuote char rest _ closed.choose_spec⟩)
    fun _ _ => trivial
  intro one other _ _ rest rest' _ _ same
  simp only [encode, List.cons_append, List.append_assoc, List.nil_append] at same
  obtain ⟨text, tail⟩ := chars one other (fun _ _ => trivial) (fun _ _ => trivial) _ _ ⟨rest, rfl⟩
    ⟨rest', rfl⟩ (List.cons.inj same).2
  exact ⟨text, (List.cons.inj tail).2⟩

end Quoted

theorem legible_quoteText : Legible (fun _ => True) (fun text => (quoteText text).toList) (fun _ => True) := by
  intro one other _ _ rest rest' _ _ same
  simp only [quoteText, String.toList_ofList] at same
  obtain ⟨text, tail⟩ := Quoted.legible_encode (.inl rfl) _ _ trivial trivial rest rest' trivial trivial same
  exact ⟨String.toList_inj.1 text, tail⟩

theorem legible_quoteChar : Legible (fun _ => True) (fun char => (quoteChar char).toList) (fun _ => True) := by
  intro one other _ _ rest rest' _ _ same
  simp only [quoteChar, String.toList_ofList] at same
  obtain ⟨chars, tail⟩ := Quoted.legible_encode (.inr rfl) _ _ trivial trivial rest rest' trivial trivial same
  exact ⟨List.singleton_inj.1 chars, tail⟩

end ClientScript
