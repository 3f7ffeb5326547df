import ClientScript.Proofs.Reading
import ClientScript.Proofs.Writing
import ClientScript.Script.Container

/-!
The container of a script. Its form is stated here once: the name and a NUL byte, the code, the counts and
the switch section, and the length of that section. The reader, which looks from both ends, accepts
exactly this form, and the writer gives it; so every container has one script and one spelling.
Of the number of instructions the writer keeps 32 bits and checks nothing, so a script with a number out of
range is written as another one, or as bytes that the reader refuses.
-/

namespace ClientScript

def RawCase.stored (row : RawCase) : List UInt8 :=
  longBytes row.label.toUInt32 ++ longBytes row.disp.toUInt32

namespace RawTable

def IsStorable (table : RawTable) : Prop :=
  table.length ≤ 65535

def stored (table : RawTable) : List UInt8 :=
  wordBytes (UInt16.ofNat table.length) ++ table.flatMap RawCase.stored

theorem length_rows (table : RawTable) : (table.flatMap RawCase.stored).length = 8 * table.length := by
  induction table with
  | nil => rfl
  | cons row rest ih =>
    rw [List.flatMap_cons, List.length_append, ih, List.length_cons]
    change 8 + 8 * rest.length = 8 * (rest.length + 1)
    omega

end RawTable

namespace Script

def counts (script : Script) : List UInt8 :=
  longBytes (Int32.ofInt script.instructionCount).toUInt32 ++
    (wordBytes (UInt16.ofNat script.localInts.toNat) ++
      (wordBytes (UInt16.ofNat script.localStrings.toNat) ++
        (wordBytes (UInt16.ofNat script.intArgs.toNat) ++
          (wordBytes (UInt16.ofNat script.stringArgs.toNat) ++
            ([UInt8.ofNat script.switches.length] ++ script.switches.flatMap RawTable.stored)))))

def IsWord (value : Int) : Prop :=
  0 ≤ value ∧ value ≤ 65535

structure IsStorable (script : Script) : Prop where
  localInts : IsWord script.localInts
  localStrings : IsWord script.localStrings
  intArgs : IsWord script.intArgs
  stringArgs : IsWord script.stringArgs
  few_tables : script.switches.length ≤ 255
  tables : ∀ table ∈ script.switches, RawTable.IsStorable table

theorem IsStorable.change {script : Script} (storable : script.IsStorable) (name : String) (code : List UInt8)
    (count : Int) : IsStorable { script with name := name, code := code, instructionCount := count } :=
  ⟨storable.localInts, storable.localStrings, storable.intArgs, storable.stringArgs, storable.few_tables,
    storable.tables⟩

/-- A number of instructions that is kept as it is. -/
def IsCounted (script : Script) : Prop :=
  0 ≤ script.instructionCount ∧ script.instructionCount < 2147483648

theorem part_accepts {α : Type} {read : Read ReadError α} {form : α → List UInt8 → Prop}
    (accepts : read.Accepts form) : (part read).Accepts form :=
  accepts.mapError _

theorem readCases_accepts (count : Nat) :
    (readCases count).Accepts (Read.Counted (fun _ => True) RawCase.stored count) := by
  induction count with
  | zero => exact (Read.accepts_pure []).congr fun rows raw => Read.counted_zero.symm
  | succ count ih =>
    refine ((part_accepts Read.accepts_i32).bind fun label => (part_accepts Read.accepts_i32).bind fun disp =>
      ih.map fun more => (⟨label, disp⟩ : RawCase) :: more).congr fun rows raw => ?_
    rw [Read.counted_succ]
    constructor
    · intro parts
      rcases parts with ⟨label, _, _, rfl, rfl, disp, _, back, rfl, rfl, more, rfl, counted⟩
      exact ⟨⟨label, disp⟩, more, back, rfl, (List.append_assoc _ _ _).symm, trivial, counted⟩
    · intro parts
      rcases parts with ⟨⟨label, disp⟩, more, back, rfl, rfl, -, counted⟩
      exact ⟨label, _, _, List.append_assoc _ _ _, rfl, disp, _, back, rfl, rfl, more, rfl, counted⟩

theorem readTables_accepts (number count : Nat) :
    (readTables number count).Accepts (Read.Counted RawTable.IsStorable RawTable.stored count) := by
  induction count generalizing number with
  | zero => exact (Read.accepts_pure []).congr fun tables raw => Read.counted_zero.symm
  | succ count ih =>
    have later (cases : UInt16) := (readCases_accepts cases.toNat).bind fun table =>
      (ih (number + 1)).map fun more => table :: more
    refine ((part_accepts Read.accepts_u16).bind fun cases => (later cases).enough ?_).congr fun tables raw => ?_
    · rintro - _ ⟨table, _, back, rfl, ⟨size, -, rfl⟩, -⟩
      rw [List.length_append, RawTable.length_rows, size]
      omega
    · rw [Read.counted_succ]
      constructor
      · intro parts
        rcases parts with ⟨cases, _, _, rfl, rfl, table, _, back, rfl, ⟨size, -, rfl⟩, more, rfl, counted⟩
        have bound := cases.toNat_lt
        refine ⟨table, more, back, rfl, ?_, ?_, counted⟩
        · rw [RawTable.stored, size, UInt16.ofNat_toNat, List.append_assoc]
        · rw [RawTable.IsStorable, size]
          omega
      · intro parts
        rcases parts with ⟨table, more, back, rfl, rfl, storable, counted⟩
        have size : (UInt16.ofNat table.length).toNat = table.length :=
          UInt16.toNat_ofNat_of_lt' (Nat.lt_succ_of_le storable)
        exact ⟨UInt16.ofNat table.length, _, _, List.append_assoc _ _ _, rfl, table, _, back, rfl,
          ⟨size.symm, fun _ _ => trivial, rfl⟩, more, rfl, counted⟩

theorem finish_acceptsWhole (count : Int32) (script : Script) :
    (Read.left >>= fun left =>
      if left ≠ 0 then Read.fail (.strayBytes left)
      else if count < 0 then Read.fail (.instructionCount count.toInt)
      else Pure.pure script : Read ContainerError Script).AcceptsWhole
      fun value raw => raw = [] ∧ 0 ≤ count ∧ value = script := by
  intro bytes value used
  rw [Read.bind_eq_ok_iff]
  constructor
  · intro parts
    rcases parts with ⟨_, _, more, ⟨⟩, success, rfl⟩
    split at success
    next => cases success
    next empty =>
      split at success
      next => cases success
      next counted =>
        cases success
        have nothing : bytes = [] := List.length_eq_zero_iff.1 (not_not.1 empty)
        rw [nothing]
        exact ⟨rfl, rfl, Int32.not_lt.1 counted, rfl⟩
  · intro parts
    rcases parts with ⟨rfl, rfl, counted, rfl⟩
    refine ⟨0, 0, 0, rfl, ?_, rfl⟩
    rw [if_neg (not_not.2 rfl), if_neg (Int32.not_lt.2 counted)]
    rfl

theorem IsWord.ofNat {value : Int} (word : IsWord value) :
    ((UInt16.ofNat value.toNat).toNat : Int) = value := by
  obtain ⟨notNegative, bounded⟩ := word
  have bound : value.toNat < 65536 := by omega
  rw [UInt16.toNat_ofNat_of_lt' bound, Int.toNat_of_nonneg notNegative]

theorem isWord_toNat (word : UInt16) : IsWord (word.toNat : Int) := by
  have bound := word.toNat_lt
  exact ⟨by omega, by omega⟩

/-- The reader of a trailer accepts the counts of a script and its tables, in the one form they have. -/
theorem readTrailer_accepts : readTrailer.AcceptsWhole fun script raw =>
    script.IsStorable ∧ script.IsCounted ∧ script.name = "" ∧ script.code = [] ∧ raw = script.counts := by
  refine ((part_accepts Read.accepts_i32).bind_whole fun count =>
    (part_accepts Read.accepts_u16).bind_whole fun localInts =>
    (part_accepts Read.accepts_u16).bind_whole fun localStrings =>
    (part_accepts Read.accepts_u16).bind_whole fun intArgs =>
    (part_accepts Read.accepts_u16).bind_whole fun stringArgs =>
    (part_accepts Read.accepts_byte).bind_whole fun tables =>
    (readTables_accepts 0 tables.toNat).bind_whole fun switches =>
    finish_acceptsWhole count _).congr fun script raw => ?_
  constructor
  · intro parts
    rcases parts with ⟨count, _, _, rfl, rfl, localInts, _, _, rfl, rfl, localStrings, _, _, rfl, rfl,
      intArgs, _, _, rfl, rfl, stringArgs, _, _, rfl, rfl, tables, _, _, rfl, rfl,
      switches, _, _, rfl, ⟨size, storables, rfl⟩, rfl, counted, rfl⟩
    have tableBound := tables.toNat_lt
    refine ⟨⟨isWord_toNat _, isWord_toNat _, isWord_toNat _, isWord_toNat _, ?_, storables⟩, ?_, rfl, rfl, ?_⟩
    · change switches.length ≤ 255
      omega
    · exact ⟨Int32.le_iff_toInt_le.1 counted, Int32.toInt_lt count⟩
    · simp only [counts, Int32.ofInt_toInt, Int.toNat_natCast, UInt16.ofNat_toNat, size, UInt8.ofNat_toNat,
        List.append_nil]
  · intro parts
    rcases parts with ⟨⟨localInts, localStrings, intArgs, stringArgs, fewTables, storables⟩,
      ⟨notNegative, bounded⟩, unnamed, empty, rfl⟩
    have count : (Int32.ofInt script.instructionCount).toInt = script.instructionCount :=
      Int32.toInt_ofInt_of_le (by omega) bounded
    have counted : 0 ≤ Int32.ofInt script.instructionCount := by
      rw [Int32.le_iff_toInt_le, count]
      exact notNegative
    have size : (UInt8.ofNat script.switches.length).toNat = script.switches.length :=
      UInt8.toNat_ofNat_of_lt' (Nat.lt_succ_of_le fewTables)
    refine ⟨_, _, _, rfl, rfl, _, _, _, rfl, rfl, _, _, _, rfl, rfl,
      _, _, _, rfl, rfl, _, _, _, rfl, rfl, _, _, _, rfl, rfl,
      script.switches, _, [], (List.append_nil _).symm, ⟨size.symm, storables, rfl⟩, rfl, counted, ?_⟩
    rw [count, localInts.ofNat, localStrings.ofNat, intArgs.ofNat, stringArgs.ofNat, ← unnamed, ← empty]

theorem length_tables (tables : List RawTable) :
    (tables.flatMap RawTable.stored).length + 1 =
      tables.foldr (fun table length => 2 + 8 * table.length + length) 1 := by
  induction tables with
  | nil => rfl
  | cons table rest ih =>
    rw [List.flatMap_cons, List.length_append, List.foldr_cons, ← ih, RawTable.stored, List.length_append,
      RawTable.length_rows]
    change 2 + _ + _ + 1 = _
    omega

theorem length_counts (script : Script) : script.counts.length = script.sectionLength + 12 := by
  simp only [counts, List.length_append, sectionLength, ← length_tables]
  change 4 + (2 + (2 + (2 + (2 + (1 + _))))) = _
  omega

def stored (script : Script) (name : List UInt8) : List UInt8 :=
  name ++ [0] ++ (script.code ++ (script.counts ++ wordBytes (UInt16.ofNat script.sectionLength)))

theorem lastWord_append (front : List UInt8) (word : UInt16) :
    lastWord (front ++ wordBytes word) = word.toNat := by
  have tail : (front ++ wordBytes word).drop ((front ++ wordBytes word).length - 2) = wordBytes word := by
    rw [List.length_append]
    exact List.drop_left
  rw [lastWord, tail]
  exact Read.toNat_wordBytes word

/-- A name and a last word that leave room for the trailer between them divide the bytes. -/
theorem exists_layout {name rest : List UInt8}
    (room : name.length + lastWord (name ++ rest) + fixedTrailer ≤ (name ++ rest).length) :
    ∃ code trailer word, rest = code ++ (trailer ++ wordBytes word) ∧
      lastWord (name ++ rest) = word.toNat ∧ trailer.length = word.toNat + 12 := by
  generalize length : lastWord (name ++ rest) = size at room
  rw [List.length_append, fixedTrailer] at room
  have tail : (rest.drop (rest.length - 2)).length = 2 := by
    rw [List.length_drop]
    omega
  obtain ⟨high, low, split⟩ := List.length_eq_two.1 tail
  obtain ⟨word, spelled, -⟩ := Read.exists_word high low
  obtain ⟨front, rfl⟩ : ∃ front, rest = front ++ wordBytes word :=
    ⟨rest.take (rest.length - 2), by rw [← spelled, ← split, List.take_append_drop]⟩
  rw [← List.append_assoc, lastWord_append] at length
  have frontSize : (front ++ wordBytes word).length = front.length + 2 := List.length_append
  refine ⟨front.take (front.length - (size + 12)), front.drop (front.length - (size + 12)), word, ?_,
    length.symm, ?_⟩
  · rw [← List.append_assoc, List.take_append_drop]
  · rw [List.length_drop]
    omega

theorem read_layout {name code trailer : List UInt8} {word : UInt16} {text : String}
    (named : Read.text (name ++ (code ++ (trailer ++ wordBytes word))) = .ok (text, name.length))
    (size : trailer.length = word.toNat + 12) (counted : 1 ≤ word.toNat) :
    read (name ++ (code ++ (trailer ++ wordBytes word))) =
      (readTrailer trailer).map fun (script, _) => { script with name := text, code := code } := by
  have whole : (name ++ (code ++ (trailer ++ wordBytes word))).length =
      name.length + code.length + word.toNat + fixedTrailer := by
    simp only [List.length_append, size, fixedTrailer]
    change _ + (_ + (_ + 2)) = _
    omega
  have last : lastWord (name ++ (code ++ (trailer ++ wordBytes word))) = word.toNat := by
    simp only [← List.append_assoc, lastWord_append]
  have front : name.length + code.length + word.toNat + fixedTrailer - word.toNat - fixedTrailer =
      (name ++ code).length := by
    rw [List.length_append]
    omega
  have middle : ((name ++ (code ++ (trailer ++ wordBytes word))).drop (name ++ code).length).take
      (word.toNat + fixedTrailer - 2) = trailer := by
    rw [← List.append_assoc, List.drop_left]
    exact List.take_left' size
  have taken : ((name ++ (code ++ (trailer ++ wordBytes word))).take (name ++ code).length).drop name.length =
      code := by
    rw [← List.append_assoc, List.take_left, List.drop_left]
  have large : ¬(name.length + code.length + word.toNat + fixedTrailer < fixedTrailer + 1) := by omega
  have fits : ¬(word.toNat < 1 ∨ name.length + code.length + word.toNat + fixedTrailer <
      name.length + word.toNat + fixedTrailer) := by omega
  simp only [read, whole, if_neg large, named, last, if_neg fits, front, middle, taken]
  cases readTrailer trailer <;> rfl

theorem exists_name_of_read {bytes : List UInt8} {script : Script} (success : read bytes = .ok script) :
    ∃ text start, Read.text bytes = .ok (text, start) ∧ 1 ≤ lastWord bytes ∧
      start + lastWord bytes + fixedTrailer ≤ bytes.length := by
  unfold read at success
  split at success
  next => cases success
  next =>
    split at success
    next => cases success
    next text start named =>
      dsimp only at success
      split at success
      next => cases success
      next fits =>
        obtain ⟨positive, room⟩ := not_or.1 fits
        exact ⟨text, start, named, not_lt.1 positive, not_lt.1 room⟩

theorem read_stored {script : Script} {name : List UInt8} (short : script.sectionLength ≤ 65535)
    (encoded : Writer.encodeText script.name = .ok name) :
    read (script.stored name) =
      (readTrailer script.counts).map fun (inside, _) => { inside with name := script.name, code := script.code } := by
  have size : (UInt16.ofNat script.sectionLength).toNat = script.sectionLength :=
    UInt16.toNat_ofNat_of_lt' (Nat.lt_succ_of_le short)
  have named : Read.text (script.stored name) = .ok (script.name, (name ++ [0]).length) :=
    Read.accepts_text.complete ⟨name, encoded, rfl⟩ _
  have positive : 1 ≤ script.sectionLength := by
    rw [sectionLength, ← length_tables]
    omega
  rw [stored, read_layout named (by rw [size, length_counts]) (by rw [size]; exact positive)]

theorem read_eq_ok_iff (bytes : List UInt8) (script : Script) :
    read bytes = .ok script ↔ script.IsCounted ∧ script.IsStorable ∧ script.sectionLength ≤ 65535 ∧
      ∃ name, Writer.encodeText script.name = .ok name ∧ bytes = script.stored name := by
  constructor
  · intro success
    obtain ⟨text, start, named, positive, room⟩ := exists_name_of_read success
    obtain ⟨raw, rest, rfl, rfl, name, encoded, rfl⟩ := (Read.accepts_text _ _ _).1 named
    obtain ⟨code, trailer, word, rfl, last, size⟩ := exists_layout room
    rw [last] at positive
    rw [read_layout named size positive] at success
    cases inner : readTrailer trailer with
    | error error =>
      rw [inner] at success
      cases success
    | ok result =>
      obtain ⟨inside, used⟩ := result
      rw [inner] at success
      cases success
      obtain ⟨-, storable, counted, -, -, rfl⟩ := (readTrailer_accepts _ _ _).1 inner
      have bound := word.toNat_lt
      have length : inside.sectionLength = word.toNat := by
        rw [length_counts] at size
        omega
      refine ⟨counted, storable.change text code inside.instructionCount, ?_, name, encoded, ?_⟩
      · change inside.sectionLength ≤ 65535
        omega
      · change _ = name ++ [0] ++ (code ++ (inside.counts ++ wordBytes (UInt16.ofNat inside.sectionLength)))
        rw [length, UInt16.ofNat_toNat]
  · intro parts
    rcases parts with ⟨counted, storable, short, name, encoded, rfl⟩
    have trailer := (readTrailer_accepts script.counts { script with name := "", code := [] } _).2
      ⟨rfl, storable.change "" [] script.instructionCount, counted, rfl, rfl, rfl⟩
    rw [read_stored short encoded, trailer]
    rfl

theorem unstorable_eq_none_iff (script : Script) :
    script.unstorable = none ↔ script.IsStorable ∧ script.sectionLength ≤ 65535 := by
  have isWord (value : Int) : ¬(value < 0 ∨ 65535 < value) ↔ IsWord value := by
    rw [IsWord]
    omega
  simp only [unstorable, Option.orElse_eq_none, List.findSome?_eq_none_iff, ite_eq_right_iff, reduceCtorEq,
    imp_false, isWord, List.forall_mem_cons, not_lt]
  constructor
  · intro parts
    rcases parts with ⟨⟨localInts, localStrings, intArgs, stringArgs, -⟩, fewTables, storables, short⟩
    exact ⟨⟨localInts, localStrings, intArgs, stringArgs, fewTables, storables⟩, short⟩
  · intro parts
    rcases parts with ⟨⟨localInts, localStrings, intArgs, stringArgs, fewTables, storables⟩, short⟩
    exact ⟨⟨localInts, localStrings, intArgs, stringArgs, List.forall_mem_nil _⟩, fewTables, storables, short⟩

theorem appends_writeTable (table : RawTable) :
    Writer.Appends (fun writer => writeTable writer table) table.stored :=
  (Writer.appends_u16 _).andThen
    (Writer.Appends.foldl fun row _ => (Writer.appends_i32 row.label).andThen (Writer.appends_i32 row.disp))

theorem write_eq (script : Script) : ∃ rest : Writer → Writer,
    (∀ writer, script.write writer = rest (writer.text script.name)) ∧
      Writer.Appends rest
        (script.code ++ (script.counts ++ wordBytes (UInt16.ofNat script.sectionLength))) := by
  have tables : Writer.Appends (fun writer => script.switches.foldl writeTable writer)
      (script.switches.flatMap RawTable.stored) :=
    Writer.Appends.foldl fun table _ => appends_writeTable table
  have whole := (Writer.appends_bytes script.code).andThen
    ((Writer.appends_i32 (Int32.ofInt script.instructionCount)).andThen
      ((Writer.appends_u16 (UInt16.ofNat script.localInts.toNat)).andThen
        ((Writer.appends_u16 (UInt16.ofNat script.localStrings.toNat)).andThen
          ((Writer.appends_u16 (UInt16.ofNat script.intArgs.toNat)).andThen
            ((Writer.appends_u16 (UInt16.ofNat script.stringArgs.toNat)).andThen
              ((Writer.appends_byte (UInt8.ofNat script.switches.length)).andThen
                (tables.andThen (Writer.appends_u16 (UInt16.ofNat script.sectionLength)))))))))
  simp only [counts, List.append_assoc]
  exact ⟨_, fun _ => rfl, whole⟩

theorem bytes_eq_ok_iff (script : Script) (raw : List UInt8) :
    script.bytes = .ok raw ↔ script.IsStorable ∧ script.sectionLength ≤ 65535 ∧
      ∃ name, Writer.encodeText script.name = .ok name ∧ raw = script.stored name := by
  rw [← and_assoc, ← unstorable_eq_none_iff, bytes]
  cases script.unstorable with
  | some error => simp only [reduceCtorEq, false_and]
  | none =>
    obtain ⟨rest, written, appends⟩ := script.write_eq
    simp only [true_and, written]
    cases encoded : Writer.encodeText script.name with
    | error error =>
      -- A name that cannot be stored stops the writer, and the rest leaves it so.
      have stopped := (Writer.stops_text encoded).failure Writer.buffer Writer.isOpen_buffer
      rw [appends.failed _ (by rw [stopped]; rfl), stopped]
      simp
    | ok name =>
      obtain ⟨failure, content⟩ := ((Writer.appends_text encoded).andThen appends).fresh
      simp only [failure, content, Option.elim_none, Except.ok.injEq, exists_eq_left', stored]
      exact eq_comm

/-- A container is read as a script just when it is the stored form of that script, whose number of
instructions is one that the container keeps. -/
theorem read_eq_ok_iff_bytes (bytes : List UInt8) (script : Script) :
    read bytes = .ok script ↔
      (0 ≤ script.instructionCount ∧ script.instructionCount < 2147483648) ∧ script.bytes = .ok bytes := by
  rw [read_eq_ok_iff, bytes_eq_ok_iff]
  exact Iff.rfl

/-- The script with what 32 bits keep of its number of instructions. -/
def recounted (script : Script) : Script :=
  { script with instructionCount := (Int32.ofInt script.instructionCount).toInt }

theorem stored_recounted (script : Script) (name : List UInt8) : script.recounted.stored name = script.stored name := by
  simp only [stored, counts, sectionLength, recounted, Int32.ofInt_toInt]

theorem isCounted_recounted {script : Script} (natural : 0 ≤ Int32.ofInt script.instructionCount) :
    script.recounted.IsCounted :=
  ⟨Int32.le_iff_toInt_le.1 natural, Int32.toInt_lt _⟩

theorem readTrailer_of_negative {script : Script} (storable : script.IsStorable)
    (negative : Int32.ofInt script.instructionCount < 0) :
    readTrailer script.counts = .error (.instructionCount (Int32.ofInt script.instructionCount).toInt) := by
  have size : (UInt8.ofNat script.switches.length).toNat = script.switches.length :=
    UInt8.toNat_ofNat_of_lt' (Nat.lt_succ_of_le storable.few_tables)
  rw [counts, ← List.append_nil (script.switches.flatMap RawTable.stored)]
  refine (part_accepts Read.accepts_i32).bind_error rfl <| (part_accepts Read.accepts_u16).bind_error rfl <|
    (part_accepts Read.accepts_u16).bind_error rfl <| (part_accepts Read.accepts_u16).bind_error rfl <|
    (part_accepts Read.accepts_u16).bind_error rfl <| (part_accepts Read.accepts_byte).bind_error rfl <|
    (readTables_accepts 0 _).bind_error ⟨size.symm, storable.tables, rfl⟩ ?_
  change Read.bind Read.left _ [] = _
  simp [Read.bind, Read.left, Read.fail, negative]

/-- What was stored is read back, but for the number of instructions, of which 32 bits are kept: it is read as these
bits say, and refused if they say a negative number. So a script is read back as it was exactly if its number of
instructions is one that they hold. -/
theorem read_of_bytes (script : Script) (raw : List UInt8) (written : script.bytes = .ok raw) :
    (read raw =
      if Int32.ofInt script.instructionCount < 0 then
        .error (.instructionCount (Int32.ofInt script.instructionCount).toInt)
      else .ok script.recounted) ∧
    (read raw = .ok script ↔ 0 ≤ script.instructionCount ∧ script.instructionCount < 2147483648) := by
  obtain ⟨storable, short, name, encoded, rfl⟩ := (bytes_eq_ok_iff script raw).1 written
  constructor
  · split
    next negative =>
      rw [read_stored short encoded, readTrailer_of_negative storable negative]
      rfl
    next natural =>
      exact (read_eq_ok_iff _ script.recounted).2 ⟨isCounted_recounted (Int32.not_lt.1 natural),
        storable.change script.name script.code _, short, name, encoded, (stored_recounted script name).symm⟩
  · rw [read_eq_ok_iff]
    constructor
    · intro parts
      exact parts.1
    · intro counted
      exact ⟨counted, storable, short, name, encoded, rfl⟩

/-- A script that counts one instruction more than 32 bits hold is read back as a script of one instruction. -/
theorem read_of_bytes_recounted :
    bytes ⟨"a", [0, 21, 0], 4294967297, 65535, 0, 0, 0, [[⟨3, -1⟩], []]⟩ =
        .ok [97, 0, 0, 21, 0, 0, 0, 0, 1, 255, 255, 0, 0, 0, 0, 0, 0, 2, 0, 1, 0, 0, 0, 3, 255, 255, 255, 255, 0, 0,
          0, 13] ∧
      read [97, 0, 0, 21, 0, 0, 0, 0, 1, 255, 255, 0, 0, 0, 0, 0, 0, 2, 0, 1, 0, 0, 0, 3, 255, 255, 255, 255, 0, 0,
          0, 13] =
        .ok ⟨"a", [0, 21, 0], 1, 65535, 0, 0, 0, [[⟨3, -1⟩], []]⟩ := by
  have written : bytes ⟨"a", [0, 21, 0], 4294967297, 65535, 0, 0, 0, [[⟨3, -1⟩], []]⟩ =
      .ok [97, 0, 0, 21, 0, 0, 0, 0, 1, 255, 255, 0, 0, 0, 0, 0, 0, 2, 0, 1, 0, 0, 0, 3, 255, 255, 255, 255, 0, 0,
        0, 13] := by
    decide +kernel
  have natural : ¬Int32.ofInt 4294967297 < 0 := by decide
  obtain ⟨outcome, -⟩ := read_of_bytes _ _ written
  rw [if_neg natural] at outcome
  exact ⟨written, outcome⟩

/-- Without a check of the number of instructions, one that 32 bits do not hold is stored as another one, and a negative
one is stored though it is never read. -/
theorem bytes_unchecked_count :
    bytes { instructionCount := 4294967296 } = .ok [0, 0, 0, 0, 0, 0, 0, 0, 0, 0, 0, 0, 0, 0, 0, 1] ∧
      read [0, 0, 0, 0, 0, 0, 0, 0, 0, 0, 0, 0, 0, 0, 0, 1] = .ok { instructionCount := 0 } ∧
      bytes { instructionCount := -1 } = .ok [0, 255, 255, 255, 255, 0, 0, 0, 0, 0, 0, 0, 0, 0, 0, 1] ∧
      read [0, 255, 255, 255, 255, 0, 0, 0, 0, 0, 0, 0, 0, 0, 0, 1] = .error (.instructionCount (-1)) := by
  decide +kernel

end Script

end ClientScript
