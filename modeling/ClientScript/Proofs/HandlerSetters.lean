import ClientScript.Proofs.DepthArithmetic
import ClientScript.Proofs.EdgeDepth

/-!
What a setter of an event handler takes off the stacks. A constant text on top of the strings describes the arguments
of the handler, and a constant number may count a list of integers above them; both decide how many values are popped.
The setter goes through the bytes of the text, and so takes as many integers for a character as UTF-8 has bytes for it.
-/

namespace ClientScript

namespace Frame

variable {frame rest : Frame} {kinds : List Kind}

theorem popKinds_eq_ok_iff :
    (∃ values, frame.popKinds kinds = .ok (values, rest)) ↔ frame.Bears kinds ∧ rest = frame.below kinds := by
  by_cases bears : frame.Bears kinds
  · obtain ⟨values, popped⟩ := popKinds_of_bears bears
    simp [popped, bears, eq_comm]
  · obtain ⟨kind, failed⟩ := popKinds_of_not_bears bears
    simp [failed, bears]

/-- What a setter for the selected component pops, as the constants on top of the stacks say. -/
inductive Asks (frame : Frame) : List Kind → Prop where
  | plain {text : String} {strings : List Value} {types : List Char}
      (described : frame.strings = .string (some text) :: strings) (split : splitCounted text.toList = (types, false)) :
      Asks frame (.int :: typeKinds types ++ [.string])
  | counted {text : String} {strings ints : List Value} {types : List Char} {count : Int32}
      (described : frame.strings = .string (some text) :: strings) (split : splitCounted text.toList = (types, true))
      (number : frame.ints = .int (some count) :: ints) (natural : 0 ≤ count) :
      Asks frame (.int :: typeKinds types ++ (List.replicate count.toInt.toNat .int ++ [.int, .string]))

theorem popHandler_eq (types : List Char) (frame : Frame) :
    frame.popHandler types = (frame.popKinds (.int :: typeKinds types)).map Prod.snd := by
  unfold popHandler
  cases frame.popKinds (.int :: typeKinds types) <;> rfl

theorem popCounted_eq {ints strings : List Value} {count : Int32} (natural : 0 ≤ count) :
    popCounted ⟨.int (some count) :: ints, strings⟩ =
      (popMany .int count.toInt.toNat ⟨ints, strings⟩).map some := by
  have notNegative : ¬count < 0 := Int32.not_lt.2 natural
  simp [popCounted, pop, Value.int?, notNegative]

theorem Asks.hookArgs_eq (asks : frame.Asks kinds) :
    frame.hookArgs = (frame.popKinds kinds).map fun popped => some popped.2 := by
  obtain ⟨ints, strings⟩ := frame
  cases asks with
  | @plain text strings types described split =>
    cases described
    have top : popKinds [.string] ⟨ints, .string (some text) :: strings⟩ =
      .ok ([.string (some text)], ⟨ints, strings⟩) := rfl
    rw [popKinds_append, top]
    simp only [hookArgs, pop, Value.string?, split, popHandler_eq, bind, Except.bind]
    cases popped : popKinds (.int :: typeKinds types) ⟨ints, strings⟩ with
    | error error => simp [popped, Except.map]
    | ok outcome => simp [popped, Except.map]
  | @counted text strings ints types count described split number natural =>
    cases described
    cases number
    have tops : popKinds [.int, .string] ⟨.int (some count) :: ints, .string (some text) :: strings⟩ =
      .ok ([.int (some count), .string (some text)], ⟨ints, strings⟩) := rfl
    rw [popKinds_append, popKinds_append, tops]
    simp only [hookArgs, pop, Value.string?, split, popCounted_eq natural, popMany_eq, popHandler_eq, bind, Except.bind]
    cases popKinds (List.replicate count.toInt.toNat .int) ⟨ints, strings⟩ with
    | error error => rfl
    | ok listed =>
      simp only [if_true, Except.map]
      cases popKinds (.int :: typeKinds types) listed.2 with
      | error error => rfl
      | ok outcome => rfl

theorem Asks.hookArgs_eq_ok_iff (asks : frame.Asks kinds) :
    frame.hookArgs = .ok (some rest) ↔ frame.Bears kinds ∧ rest = frame.below kinds := by
  rw [asks.hookArgs_eq, ← popKinds_eq_ok_iff, map_eq_ok_iff]
  simp

theorem exists_count (known : frame.popCounted = .ok (some rest)) :
    ∃ count ints, frame.ints = .int (some count) :: ints ∧ 0 ≤ count := by
  unfold popCounted at known
  split at known
  next => cases known
  next value above popped =>
    split at known
    next => cases known
    next count constant =>
      split at known
      next => cases known
      next notNegative =>
        rw [pop_eq_ok_iff] at popped
        cases value with
        | string text => cases constant
        | int number =>
          obtain rfl : number = some count := constant
          exact ⟨count, above.ints, by rw [popped]; rfl, Int32.not_lt.1 notNegative⟩

theorem exists_asks (known : frame.hookArgs = .ok (some rest)) : ∃ kinds, frame.Asks kinds := by
  unfold hookArgs at known
  split at known
  next => cases known
  next value above popped =>
    split at known
    next => cases known
    next text constant =>
      rw [pop_eq_ok_iff] at popped
      cases value with
      | int number => cases constant
      | string content =>
        obtain rfl : content = some text := constant
        have described : frame.strings = .string (some text) :: above.strings := by rw [popped]; rfl
        have sameInts : frame.ints = above.ints := by rw [popped]; rfl
        cases split : splitCounted text.toList with
        | mk types counted =>
          cases counted with
          | false => exact ⟨_, .plain described split⟩
          | true =>
            simp only [split, if_true] at known
            cases listed : above.popCounted with
            | error error => simp [listed] at known
            | ok outcome =>
              cases outcome with
              | none => simp [listed] at known
              | some below =>
                obtain ⟨count, ints, number, natural⟩ := exists_count listed
                exact ⟨_, .counted described split (sameInts.trans number) natural⟩

def atop (frame below : Frame) : Frame where
  ints := frame.ints ++ below.ints
  strings := frame.strings ++ below.strings

theorem below_atop_eq_iff (kinds : List Kind) (frame below : Frame) :
    (frame.atop below).Bears kinds ∧ below = (frame.atop below).below kinds ↔
      countKind .int kinds = frame.ints.length ∧ countKind .string kinds = frame.strings.length := by
  rw [← drop_append_eq_iff frame.ints below.ints, ← drop_append_eq_iff frame.strings below.strings]
  obtain ⟨ints, strings⟩ := below
  simp only [Bears, Frame.below, atop, mk.injEq]
  exact and_and_and_comm

theorem countKind_append (kind : Kind) (one other : List Kind) :
    countKind kind (one ++ other) = countKind kind one + countKind kind other :=
  List.countP_append

theorem countKind_replicate (kind other : Kind) (count : Nat) :
    countKind kind (List.replicate count other) = if other = kind then count else 0 := by
  simp [countKind, List.countP_replicate]

theorem typeKinds_cons (char : Char) (types : List Char) :
    typeKinds (char :: types) = List.replicate char.utf8Size (typeKind char) ++ typeKinds types :=
  List.flatMap_cons

/-- A type string stands for as many integers as its characters other than `s` have bytes. -/
theorem countKind_int_typeKinds (types : List Char) :
    countKind .int (typeKinds types) = (String.ofList (types.filter (· ≠ 's'))).utf8ByteSize := by
  rw [String.utf8ByteSize_ofList]
  induction types with
  | nil => rfl
  | cons char types ih =>
    rw [typeKinds_cons, countKind_append, countKind_replicate, ih]
    by_cases text : char = 's'
    · simp [typeKind, text]
    · simp [typeKind, text, Nat.add_comm]

theorem countKind_string_typeKinds (types : List Char) : countKind .string (typeKinds types) = types.count 's' := by
  induction types with
  | nil => rfl
  | cons char types ih =>
    rw [typeKinds_cons, countKind_append, countKind_replicate, ih]
    by_cases text : char = 's'
    · have size : 's'.utf8Size = 1 := by decide
      simp [typeKind, text, size, Nat.add_comm]
    · simp [typeKind, text]

end Frame

/-- What a type string may say after the types: that a list of integers with its length lies above the arguments. -/
inductive Announces : List Char → List Value → Prop where
  | nothing : Announces [] []
  | list {count : Int32} {values : List Value} (length : count.toInt = values.length) :
      Announces ['Y'] (.int (some count) :: values)

structure SetterArgs where
  /-- The component, where it is passed. -/
  component : Option Int32
  script : Value
  ints : List Value
  strings : List Value
  /-- The list that the type string announces, its length on top. -/
  list : List Value

namespace SetterArgs

variable {args : SetterArgs} {types mark : List Char}

def described (args : SetterArgs) (text : String) : Frame where
  ints := args.list ++ args.ints ++ [args.script]
  strings := .string (some text) :: args.strings

def frame (args : SetterArgs) (referent : Referent) (text : String) : Frame :=
  if referent = .interface then (args.described text).put .int (.int args.component) else args.described text

theorem exists_asks (plain : types.getLast? ≠ some 'Y') (announced : Announces mark args.list) (below : Frame) :
    ∃ kinds, ((args.described (String.ofList (types ++ mark))).atop below).Asks kinds ∧
      countKind .int kinds =
        args.list.length + (String.ofList (types.filter (· ≠ 's'))).utf8ByteSize + 1 ∧
      countKind .string kinds = types.count 's' + 1 := by
  obtain ⟨component, script, ints, strings, list⟩ := args
  cases announced with
  | nothing =>
    have split : Frame.splitCounted (String.ofList (types ++ [])).toList = (types, false) := by
      simp [Frame.splitCounted, plain]
    refine ⟨_, .plain rfl split, ?_, ?_⟩
    · rw [Frame.countKind_append, ← Frame.countKind_int_typeKinds]
      simp [countKind]
    · rw [Frame.countKind_append, ← Frame.countKind_string_typeKinds]
      simp [countKind]
  | @list count values length =>
    have split : Frame.splitCounted (String.ofList (types ++ ['Y'])).toList = (types, true) := by
      simp [Frame.splitCounted]
    have natural : 0 ≤ count := by
      rw [Int32.le_iff_toInt_le, length]
      simp
    refine ⟨_, .counted rfl split rfl natural, ?_, ?_⟩
    · rw [Frame.countKind_append, Frame.countKind_append, Frame.countKind_replicate, length,
        ← Frame.countKind_int_typeKinds]
      simp [countKind]
      omega
    · rw [Frame.countKind_append, Frame.countKind_append, Frame.countKind_replicate,
        ← Frame.countKind_string_typeKinds]
      simp [countKind]

theorem hook_frame (args : SetterArgs) (referent : Referent) (text : String) (below : Frame) :
    ((args.frame referent text).atop below).hook referent = ((args.described text).atop below).hookArgs := by
  unfold frame Frame.hook
  split
  · rfl
  · rfl

/-- A setter leaves the stacks below its arguments exactly if there are as many arguments as the types have bytes. -/
theorem hook_frame_eq_ok_iff (plain : types.getLast? ≠ some 'Y') (announced : Announces mark args.list)
    (referent : Referent) (below : Frame) :
    ((args.frame referent (String.ofList (types ++ mark))).atop below).hook referent = .ok (some below) ↔
      args.ints.length = (String.ofList (types.filter (· ≠ 's'))).utf8ByteSize ∧
        args.strings.length = types.count 's' := by
  obtain ⟨kinds, asks, ints, strings⟩ := exists_asks plain announced below
  rw [hook_frame, asks.hookArgs_eq_ok_iff, Frame.below_atop_eq_iff, ints, strings]
  simp only [described, List.length_append, List.length_cons, List.length_nil]
  omega

end SetterArgs

namespace StackState

variable {callee : Option Signature} {inst : Instruction} {frame next : Frame}

theorem step_eq_ok_some_iff (goesOn : inst.terminates = false) (strict : Bool) :
    step strict callee inst (some frame) = .ok (some next) ↔ frame.apply callee inst = .ok (some next) := by
  refine ⟨fun moved => ?_, fun applies => step_of_apply_ok applies goesOn strict⟩
  have found := (eq_follow_of_step moved).symm
  rw [follow, if_neg (by simp [goesOn])] at found
  cases outcome : frame.apply callee inst with
  | error error => simp [left, outcome, Except.toOption] at found
  | ok state =>
    simp only [left, Option.bind_some, outcome, Except.toOption, Option.join_some] at found
    rw [found]

end StackState

theorem Instruction.goesOn_of_hook {inst : Instruction} (described : inst.desc = Registry.standard.lookup inst.op)
    (setter : inst.desc.stack.rule = .hook) : inst.terminates = false := by
  by_contra ends
  rw [terminates, Bool.not_eq_false, described] at ends
  have rule := Registry.rule_of_terminates inst.op ends
  rw [← described, setter] at rule
  simp at rule

theorem utf8Len_eq_length_iff (chars : List Char) :
    chars.length ≤ String.utf8Len chars ∧
      (chars.length = String.utf8Len chars ↔ ∀ char ∈ chars, char.toNat < 128) := by
  induction chars with
  | nil => simp
  | cons char chars ih =>
    obtain ⟨atLeast, ascii⟩ := ih
    have one := char.utf8Size_pos
    have single : char.toNat < 128 ↔ char.utf8Size = 1 := by
      rw [Char.utf8Size_eq_one_iff, UInt32.le_iff_toNat_le]
      exact Nat.lt_succ_iff
    rw [List.forall_mem_cons, ← ascii, single, String.utf8Len_cons, List.length_cons]
    omega

theorem countP_eq_utf8ByteSize_iff (types : List Char) :
    types.countP (· ≠ 's') = (String.ofList (types.filter (· ≠ 's'))).utf8ByteSize ↔
      ∀ char ∈ types, char.toNat < 128 := by
  rw [String.utf8ByteSize_ofList, List.countP_eq_length_filter, (utf8Len_eq_length_iff _).2]
  refine ⟨fun others char member => ?_, fun all char member => all char (List.mem_filter.1 member).1⟩
  by_cases text : char = 's'
  · rw [text]
    decide
  · exact others char (List.mem_filter.2 ⟨member, by simpa using text⟩)

/-- A setter leaves the stacks below its arguments exactly if it is given an integer for each byte that UTF-8 has for
the types other than `s`, and a string for each `s`. So a value for each character is what it takes exactly if all
types are ASCII. -/
theorem setter_takes_utf8_bytes (inst : Instruction) (described : inst.desc = Registry.standard.lookup inst.op)
    (setter : inst.desc.stack.rule = .hook) (strict : Bool) (callee : Option Signature) (types mark : List Char)
    (plain : types.getLast? ≠ some 'Y') (args : SetterArgs) (announced : Announces mark args.list) (below : Frame) :
    (StackState.step strict callee inst
          (some ((args.frame inst.desc.referent (String.ofList (types ++ mark))).atop below)) = .ok (some below) ↔
        args.ints.length = (String.ofList (types.filter (· ≠ 's'))).utf8ByteSize ∧
          args.strings.length = types.count 's') ∧
      (args.ints.length = types.countP (· ≠ 's') → args.strings.length = types.count 's' →
        (StackState.step strict callee inst
            (some ((args.frame inst.desc.referent (String.ofList (types ++ mark))).atop below)) = .ok (some below) ↔
          ∀ char ∈ types, char.toNat < 128)) := by
  have bytes : StackState.step strict callee inst
      (some ((args.frame inst.desc.referent (String.ofList (types ++ mark))).atop below)) = .ok (some below) ↔
      args.ints.length = (String.ofList (types.filter (· ≠ 's'))).utf8ByteSize ∧
        args.strings.length = types.count 's' := by
    rw [StackState.step_eq_ok_some_iff (inst.goesOn_of_hook described setter),
      ← SetterArgs.hook_frame_eq_ok_iff plain announced inst.desc.referent below]
    simp only [Frame.apply, setter]
  refine ⟨bytes, fun ints strings => ?_⟩
  rw [bytes, ints, strings, and_iff_left rfl, countP_eq_utf8ByteSize_iff]

/-- All operations of both families that are named after what they set a handler on are setters. -/
example : ∀ row ∈ OpcodeTable.widgetRows, row.stem.any (fun stem => "SETON".toList.isPrefixOf stem.toList) →
    (Registry.standard.lookup (.component row.offset)).stack.rule = .hook ∧
      (Registry.standard.lookup (.interface row.offset)).stack.rule = .hook := by
  decide +kernel

/-- The setter for a component that is passed, with a string, a letter of two bytes and a list of two integers: with
two integers for the letter it leaves what lies below, with one it does not. -/
theorem setter_takes_utf8_bytes_listed :
    StackState.step true none ⟨0, 0, Registry.standard.lookup ⟨2407⟩, .byte 0, 3, .unknown, .unknown, none⟩
        (some ⟨[.int (some 77), .int (some 2), .int none, .int none, .int (some 4), .int (some 3), .int (some 500),
          .int (some 1)], [.string (some "séY"), .string none, .string (some "below")]⟩) =
      .ok (some ⟨[.int (some 1)], [.string (some "below")]⟩) ∧
    StackState.step true none ⟨0, 0, Registry.standard.lookup ⟨2407⟩, .byte 0, 3, .unknown, .unknown, none⟩
        (some ⟨[.int (some 77), .int (some 2), .int none, .int none, .int (some 3), .int (some 500), .int (some 1)],
          [.string (some "séY"), .string none, .string (some "below")]⟩) ≠
      .ok (some ⟨[.int (some 1)], [.string (some "below")]⟩) := by
  have referent : (Registry.standard.lookup ⟨2407⟩).referent = .interface := by decide +kernel
  have op : (Registry.standard.lookup ⟨2407⟩).op = ⟨2407⟩ := Registry.lookup_op _ _
  have rule : (Registry.standard.lookup ⟨2407⟩).stack.rule = .hook := by decide +kernel
  obtain ⟨bytes, -⟩ := setter_takes_utf8_bytes
    ⟨0, 0, Registry.standard.lookup ⟨2407⟩, .byte 0, 3, .unknown, .unknown, none⟩ (by rw [Instruction.op, op]) rule
    true none ['s', 'é'] ['Y'] (by decide)
    ⟨some 77, .int (some 500), [.int (some 4), .int (some 3)], [.string none], [.int (some 2), .int none, .int none]⟩
    (.list rfl) ⟨[.int (some 1)], [.string (some "below")]⟩
  obtain ⟨-, chars⟩ := setter_takes_utf8_bytes
    ⟨0, 0, Registry.standard.lookup ⟨2407⟩, .byte 0, 3, .unknown, .unknown, none⟩ (by rw [Instruction.op, op]) rule
    true none ['s', 'é'] ['Y'] (by decide)
    ⟨some 77, .int (some 500), [.int (some 3)], [.string none], [.int (some 2), .int none, .int none]⟩
    (.list rfl) ⟨[.int (some 1)], [.string (some "below")]⟩
  have text : String.ofList ['s', 'é', 'Y'] = "séY" := by decide +kernel
  simp only [referent, SetterArgs.frame, SetterArgs.described, Frame.put, Frame.atop, if_true, List.cons_append,
    List.nil_append, text] at bytes chars
  have foreign : ¬∀ char ∈ ['s', 'é'], char.toNat < 128 := by simp
  exact ⟨bytes.2 (by decide), mt (chars (by decide) (by decide)).1 foreign⟩

/-- The selected component is given a handler whose only argument is described by an accented letter. Its script and
the argument are popped, and with them an integer that lies below. -/
theorem setter_takes_value_below :
    CodePage.encodeChar? 'é' = some 0xe9 ∧
      StackState.step true none ⟨0, 0, Registry.standard.lookup ⟨1400⟩, .byte 0, 3, .unknown, .unknown, none⟩
        (some ⟨[.int (some 1), .int (some 500), .int (some 7)], [.string (some "é")]⟩) = .ok (some ⟨[], []⟩) ∧
      StackState.step true none ⟨0, 0, Registry.standard.lookup ⟨1400⟩, .byte 0, 3, .unknown, .unknown, none⟩
        (some ⟨[.int (some 1), .int (some 500), .int (some 7)], [.string (some "é")]⟩) ≠
        .ok (some ⟨[.int (some 7)], []⟩) := by
  decide +kernel

end ClientScript
