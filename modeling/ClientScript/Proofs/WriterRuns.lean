import ClientScript.Proofs.WriterSteps

/-!
Runs of a writer to memory. What a step has written before it fails stays in the buffer but can no longer be taken, and
the bytes can be taken only once, until a reset makes the buffer empty. So the bytes that can be taken are the codes of
all steps since the last reset, or there are none to take.
-/

namespace ClientScript.Writer

/-- A writer to memory, which knows if it ever stored a byte. -/
structure IsMemory (writer : Writer) : Prop where
  room : writer.room = none
  touched : writer.content ≠ [] → writer.touched

theorem IsMemory.reject {writer : Writer} (memory : writer.IsMemory) (error : WriteError) :
    (writer.reject error).IsMemory :=
  ⟨memory.room, memory.touched⟩

theorem pervades_isMemory : Pervades fun run => ∀ writer : Writer, writer.IsMemory → (run writer).IsMemory where
  nothing _ memory := memory
  bytes data writer memory := by
    cases failure : writer.failure with
    | some error =>
      rw [(appends_bytes data).failed writer (Option.isSome_of_eq_some failure)]
      exact memory
    | none =>
      have opened : writer.IsOpen := ⟨failure, memory.room⟩
      rw [opened.bytes_eq]
      refine ⟨memory.room, ?_⟩
      rw [content_store]
      intro filled
      change (writer.touched || !data.isEmpty) = true
      by_cases empty : data = []
      · rw [empty, List.append_nil] at filled
        rw [memory.touched filled, Bool.true_or]
      · rw [List.isEmpty_eq_false_iff.2 empty, Bool.not_false, Bool.or_true]
  reject error writer memory := memory.reject error
  stop error writer memory := by
    unfold stop
    split
    · exact memory
    · exact memory.reject error
  andThen first second writer memory := second _ (first writer memory)

inductive Command where
  | write (step : Step)
  | take
  | reset

namespace Command

def run : Command → Writer → Writer
  | .write step, writer => step.run writer
  | .take, writer => writer.take.2
  | .reset, writer => writer.reset

def isReset : Command → Bool
  | .reset => true
  | .write _ | .take => false

/-- The bytes that the command adds to those that can be taken later. After a step that fails, and after the bytes were
taken, there are none to take. -/
def code : Command → Option (List UInt8)
  | .write step => step.code
  | .take | .reset => none

end Command

def after (commands : List Command) : Writer :=
  commands.foldl (fun writer command => command.run writer) buffer

/-- The commands after the last reset, or all of them if there is none. -/
def sinceReset (commands : List Command) : List Command :=
  commands.rtakeWhile fun command => !command.isReset

theorem take_eq_some_iff (writer : Writer) (data : List UInt8) :
    writer.take.1 = some data ↔ writer.failure = none ∧ data = writer.content := by
  unfold take
  cases writer.failure with
  | none => simp [eq_comm]
  | some error => simp

theorem take_snd (writer : Writer) : writer.take.2 = writer.stop .drained := by
  unfold take stop
  cases writer.failure <;> rfl

/-- The writer is as these commands leave one that was empty. -/
structure Reflects (commands : List Command) (writer : Writer) : Prop where
  memory : writer.IsMemory
  failure : writer.failure = none ↔ ∀ command ∈ commands, command.code.isSome
  content : writer.failure = none → writer.content = (commands.filterMap Command.code).flatten

theorem Reflects.failed {commands : List Command} {writer next : Writer} (reflects : Reflects commands writer)
    {command : Command} (memory : next.IsMemory) (broken : next.failure.isSome)
    (cause : writer.failure.isSome ∨ command.code = none) : Reflects (commands ++ [command]) next := by
  have unwritten : ¬∀ other ∈ commands ++ [command], other.code.isSome := by
    intro each
    rcases cause with earlier | now
    · have sound := reflects.failure.2 fun other member => each other (List.mem_append_left _ member)
      rw [sound] at earlier
      cases earlier
    · have written := each command (List.mem_append_right _ List.mem_cons_self)
      rw [now] at written
      cases written
  have failed : next.failure ≠ none := Option.isSome_iff_ne_none.1 broken
  exact ⟨memory, iff_of_false failed unwritten, fun sound => absurd sound failed⟩

theorem Reflects.write {commands : List Command} {writer : Writer} (reflects : Reflects commands writer)
    (step : Step) : Reflects (commands ++ [.write step]) (step.run writer) := by
  have memory := pervades_isMemory.step step writer reflects.memory
  obtain ⟨outcome, ends, same⟩ := step.exists_ends
  cases failure : writer.failure with
  | some error =>
    -- The step may have a code, but an earlier command has none.
    have broken := Option.isSome_of_eq_some failure
    exact reflects.failed memory (pervades_rests.step step writer broken).1 (.inl broken)
  | none =>
    have opened : writer.IsOpen := ⟨failure, reflects.memory.room⟩
    cases ends with
    | @appended data appends =>
      have written : Command.code (.write step) = some data := same.symm
      have each := reflects.failure.1 failure
      refine ⟨memory, iff_of_true (appends.isOpen writer opened).failure ?_, fun _ => ?_⟩
      · intro command member
        rcases List.mem_append.1 member with earlier | last
        · exact each command earlier
        · rw [List.mem_singleton.1 last, written]
          rfl
      · rw [appends.content writer opened, reflects.content failure, List.filterMap_append, List.flatten_append,
          List.filterMap_cons_some written, List.filterMap_nil, List.flatten_singleton]
    | stopped stops =>
      exact reflects.failed memory (Option.isSome_of_eq_some (stops.failure writer opened)) (.inr same.symm)
    | refused overrides =>
      exact reflects.failed memory (Option.isSome_of_eq_some (overrides writer)) (.inr same.symm)

theorem Reflects.take {commands : List Command} {writer : Writer} (reflects : Reflects commands writer) :
    Reflects (commands ++ [.take]) writer.take.2 := by
  rw [take_snd]
  refine reflects.failed (pervades_isMemory.stop .drained writer reflects.memory) ?_ (.inr rfl)
  unfold stop
  split
  next broken => exact broken
  next => rfl

theorem IsMemory.reflects_reset {writer : Writer} (memory : writer.IsMemory) : Reflects [] writer.reset :=
  ⟨⟨memory.room, fun filled => absurd rfl filled⟩, by simp [reset], fun _ => rfl⟩

theorem reflects_after (commands : List Command) : Reflects (sinceReset commands) (after commands) := by
  induction commands using List.reverseRecOn with
  | nil =>
    have fresh : buffer.IsMemory := ⟨rfl, fun filled => absurd rfl filled⟩
    exact fresh.reflects_reset
  | append_singleton commands command ih =>
    have last : after (commands ++ [command]) = command.run (after commands) := List.foldl_concat ..
    rw [last]
    cases command with
    | write step =>
      rw [sinceReset, List.rtakeWhile_concat_pos _ _ _ rfl]
      exact ih.write step
    | take =>
      rw [sinceReset, List.rtakeWhile_concat_pos _ _ _ rfl]
      exact ih.take
    | reset =>
      rw [sinceReset, List.rtakeWhile_concat_neg _ _ _ (by decide)]
      exact ih.memory.reflects_reset

theorem take_after_eq_some_iff (commands : List Command) (data : List UInt8) :
    (after commands).take.1 = some data ↔
      (∀ command ∈ sinceReset commands, command.code.isSome) ∧
        data = ((sinceReset commands).filterMap Command.code).flatten := by
  have reflects := reflects_after commands
  rw [take_eq_some_iff, ← reflects.failure]
  constructor
  · intro parts
    rcases parts with ⟨failure, rfl⟩
    exact ⟨failure, reflects.content failure⟩
  · intro parts
    rcases parts with ⟨failure, rfl⟩
    exact ⟨failure, (reflects.content failure).symm⟩

theorem Step.take_run_buffer (step : Step) : (step.run buffer).take.1 = step.code := by
  apply Option.ext
  intro data
  have alone := take_after_eq_some_iff [.write step] data
  have whole : sinceReset [.write step] = [.write step] := rfl
  rw [whole, List.forall_mem_singleton] at alone
  refine alone.trans ?_
  change step.code.isSome ∧ _ = _ ↔ _
  cases written : step.code with
  | none => simp
  | some code =>
    have listed : [Command.write step].filterMap Command.code = [code] :=
      List.filterMap_cons_some written
    rw [listed, List.flatten_singleton]
    simp [eq_comm]

theorem forall_code_iff (commands : List Command) :
    (∀ command ∈ sinceReset commands, command.code.isSome) ↔
      .take ∉ sinceReset commands ∧ ∀ step, .write step ∈ sinceReset commands → step.code.isSome := by
  constructor
  · intro each
    exact ⟨fun taken => absurd (each .take taken) Bool.false_ne_true, fun step member => each (.write step) member⟩
  · intro parts
    rcases parts with ⟨untaken, written⟩
    intro command member
    cases command with
    | write step => exact written step member
    | take => exact absurd member untaken
    | reset => cases List.mem_rtakeWhile_imp member

theorem content_after_append {commands later : List Command} (broken : (after commands).failure.isSome)
    (kept : .reset ∉ later) : (after (commands ++ later)).content = (after commands).content := by
  have rests : ∀ command ∈ later, Rests command.run := by
    intro command member
    cases command with
    | write step => exact pervades_rests.step step
    | take =>
      intro writer
      rw [Command.run, take_snd]
      exact pervades_rests.stop .drained writer
    | reset => exact absurd member kept
  have same := (pervades_rests.foldl rests (after commands) broken).2
  have further : after (commands ++ later) =
      later.foldl (fun writer command => command.run writer) (after commands) := List.foldl_append ..
  rw [further, content, same, content]

/-- The bytes that can be taken after some commands are the codes of all steps since the last reset, one after the
other, where the code of a step is what it gives alone; if there are any, the writer knows that it has stored some.
They can be taken exactly if each of these steps has a code and the bytes were not taken since the last reset, and a
step fails just if it has no code. After a step that fails, or after the bytes were taken, nothing is added to the
buffer before the next reset. -/
theorem taken_all_or_nothing (commands : List Command) :
    (∀ step : Step, (step.run buffer).take.1 = step.code ∧
        ((after (commands ++ [.write step])).failure = none ↔
          (after commands).failure = none ∧ step.code.isSome)) ∧
      ((∃ data, (after commands).take.1 = some data) ↔
        .take ∉ sinceReset commands ∧ ∀ step, .write step ∈ sinceReset commands → step.code.isSome) ∧
      (∀ data, (after commands).take.1 = some data →
        data = ((sinceReset commands).filterMap Command.code).flatten ∧ (data ≠ [] → (after commands).touched)) ∧
      ∀ later, (.take ∈ sinceReset commands ∨ ∃ step, .write step ∈ sinceReset commands ∧ step.code = none) →
        .reset ∉ later → (after (commands ++ later)).content = (after commands).content := by
  have reflects := reflects_after commands
  refine ⟨fun step => ⟨step.take_run_buffer, ?_⟩, ?_, ?_, ?_⟩
  · have longer := reflects_after (commands ++ [.write step])
    have recent : sinceReset (commands ++ [.write step]) = sinceReset commands ++ [.write step] :=
      List.rtakeWhile_concat_pos _ _ _ rfl
    rw [longer.failure, reflects.failure, recent, List.forall_mem_append, List.forall_mem_singleton]
    rfl
  · rw [← forall_code_iff]
    simp only [take_after_eq_some_iff, exists_and_left, exists_eq, and_true]
  · intro data taken
    have same := ((take_eq_some_iff _ data).1 taken).2
    refine ⟨((take_after_eq_some_iff commands data).1 taken).2, ?_⟩
    rw [same]
    exact reflects.memory.touched
  · intro later cause kept
    refine content_after_append ?_ kept
    rw [Option.isSome_iff_ne_none, ne_eq, reflects.failure, forall_code_iff]
    intro sound
    rcases cause with taken | ⟨step, member, uncoded⟩
    · exact sound.1 taken
    · have written := sound.2 step member
      rw [uncoded] at written
      cases written

/-- A byte is taken and a jump that is no branch is refused: the bytes before them stay, but cannot be taken until
after a reset. -/
theorem taken_all_or_nothing_reset :
    (after ([.write (.byte 1), .take] ++ [.write (.jump .add 5), .write (.byte 2)])).content = [1] ∧
      (¬∃ data, (after [.write (.byte 1), .write (.jump .add 5)]).take.1 = some data) ∧
      ∃ data, (after [.write (.jump .add 5), .reset, .write (.byte 3)]).take.1 = some data ∧ data = [3] := by
  have refused : (Step.jump .add 5).code = none := by decide +kernel
  refine ⟨?_, ?_, ?_⟩
  · exact (taken_all_or_nothing [.write (.byte 1), .take]).2.2.2 _ (.inl (.tail _ (.head _))) (by simp)
  · rw [(taken_all_or_nothing _).2.1]
    intro sound
    have written := sound.2 (.jump .add 5) (.tail _ (.head _))
    rw [refused] at written
    cases written
  · have recent : sinceReset [.write (.jump .add 5), .reset, .write (.byte 3)] = [.write (.byte 3)] := rfl
    obtain ⟨data, taken⟩ := (taken_all_or_nothing [.write (.jump .add 5), .reset, .write (.byte 3)]).2.1.2
      (by rw [recent]; exact ⟨by simp, by simp [Step.code]⟩)
    exact ⟨data, taken, ((taken_all_or_nothing _).2.2.1 data taken).1⟩

end ClientScript.Writer
