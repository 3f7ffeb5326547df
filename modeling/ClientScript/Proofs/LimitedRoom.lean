import ClientScript.Proofs.WriterSteps

/-!
Writing to a destination that takes only so many bytes. A step makes several writes, and a write that does not fit is
refused as a whole. The same steps are followed on such a destination and on one that takes everything: the two
agree until a write is refused, and from then on only the second one goes on. A later failure may take the place of
the refusal, but it does not let anything through. So the destination has taken the longest beginning of the writes
that fits.
-/

namespace ClientScript.Writer

def accepted (writer : Writer) : List (List UInt8) := writer.chunks.reverse

/-- The longest beginning of some writes that comes to no more than so many bytes. -/
structure IsLongestFit (limit : Nat) (writes front : List (List UInt8)) : Prop where
  begins : front <+: writes
  fits : front.flatten.length ≤ limit
  longest : ∀ other, other <+: writes → other.flatten.length ≤ limit → other <+: front

/-- Where a writer of limited room stands beside one that takes everything. -/
inductive Follows (limit : Nat) (writer free : Writer) : Prop where
  /-- Every write has fitted. -/
  | level (unlimited : free.room = none) (room : writer.room = some (limit - writer.size)) (fits : writer.size ≤ limit)
      (failure : writer.failure = free.failure) (chunks : writer.chunks = free.chunks)
  /-- A write has been refused, and the other writer has taken it. -/
  | behind (unlimited : free.room = none) (fits : writer.size ≤ limit) (broken : writer.failure.isSome)
      (write : List UInt8) (later : List (List UInt8)) (exceeds : limit < writer.size + write.length)
      (split : free.accepted = writer.accepted ++ write :: later)

theorem size_eq (writer : Writer) : writer.size = writer.accepted.flatten.length := rfl

theorem size_store (data : List UInt8) (writer : Writer) : (writer.store data).size = writer.size + data.length := by
  rw [size, content_store, List.length_append, size]

theorem bytes_of_room {writer : Writer} {room : Nat} (sound : writer.failure = none) (bounded : writer.room = some room)
    (data : List UInt8) :
    writer.bytes data = if data.length ≤ room then { writer.store data with room := some (room - data.length) }
      else writer.reject .full := by
  simp only [bytes, sound, bounded, reject]

theorem exists_accepted_bytes (data : List UInt8) {free : Writer} (unlimited : free.room = none) :
    (free.bytes data).room = none ∧ ∃ more, (free.bytes data).accepted = free.accepted ++ more := by
  cases failure : free.failure with
  | none =>
    have opened : free.IsOpen := ⟨failure, unlimited⟩
    rw [opened.bytes_eq]
    exact ⟨unlimited, [data], List.reverse_cons⟩
  | some error =>
    rw [(appends_bytes data).failed free (Option.isSome_of_eq_some failure)]
    exact ⟨unlimited, [], (List.append_nil _).symm⟩

theorem follows_bytes {limit : Nat} {writer free : Writer} (data : List UInt8) (follows : Follows limit writer free) :
    Follows limit (writer.bytes data) (free.bytes data) := by
  cases follows with
  | level unlimited room fits failure chunks =>
    cases sound : writer.failure with
    | some error =>
      rw [(appends_bytes data).failed writer (Option.isSome_of_eq_some sound),
        (appends_bytes data).failed free (Option.isSome_of_eq_some (failure.symm.trans sound))]
      exact .level unlimited room fits failure chunks
    | none =>
      have opened : free.IsOpen := ⟨failure.symm.trans sound, unlimited⟩
      have total := size_store data writer
      rw [opened.bytes_eq, bytes_of_room sound room]
      split
      next enough =>
        refine .level unlimited ?_ ?_ failure (congrArg (List.cons data) chunks)
        · change some (limit - writer.size - data.length) = some (limit - (writer.store data).size)
          rw [total, Nat.sub_add_eq]
        · change (writer.store data).size ≤ limit
          omega
      next many =>
        refine .behind unlimited fits rfl data [] ?_ ?_
        · change limit < writer.size + data.length
          omega
        · change (data :: free.chunks).reverse = writer.chunks.reverse ++ [data]
          rw [List.reverse_cons, chunks]
  | behind unlimited fits broken write later exceeds split =>
    obtain ⟨still, more, further⟩ := exists_accepted_bytes data unlimited
    rw [(appends_bytes data).failed writer broken]
    refine .behind still fits broken write (later ++ more) exceeds ?_
    rw [further, split, List.append_assoc, List.cons_append]

theorem pervades_follows (limit : Nat) :
    Pervades fun run => ∀ writer free : Writer, Follows limit writer free → Follows limit (run writer) (run free) where
  nothing _ _ follows := follows
  bytes data _ _ follows := follows_bytes data follows
  reject error writer free follows := by
    cases follows with
    | level unlimited room fits failure chunks => exact .level unlimited room fits rfl chunks
    | behind unlimited fits broken write later exceeds split => exact .behind unlimited fits rfl write later exceeds split
  stop error writer free follows := by
    cases follows with
    | level unlimited room fits failure chunks =>
      unfold stop
      rw [← failure]
      split
      · exact .level unlimited room fits failure chunks
      · exact .level unlimited room fits rfl chunks
    | behind unlimited fits broken write later exceeds split =>
      rw [(stops_stop error).failed writer broken]
      unfold stop
      split <;> exact .behind unlimited fits broken write later exceeds split
  andThen first second writer free follows := second _ _ (first writer free follows)

theorem follows_perform (limit : Nat) (steps : List Step) :
    Follows limit ((limited limit).perform steps) (buffer.perform steps) := by
  have start : Follows limit (limited limit) buffer := .level rfl rfl (Nat.zero_le limit) rfl rfl
  exact (pervades_follows limit).foldl (fun step _ => (pervades_follows limit).step step) _ _ start

theorem Follows.isLongestFit {limit : Nat} {writer free : Writer} (follows : Follows limit writer free) :
    IsLongestFit limit free.accepted writer.accepted := by
  cases follows with
  | level unlimited room fits failure chunks =>
    have same : writer.accepted = free.accepted := congrArg List.reverse chunks
    rw [same]
    exact ⟨List.prefix_refl _, same ▸ fits, fun other begins _ => begins⟩
  | behind unlimited fits broken write later exceeds split =>
    rw [split]
    refine ⟨List.prefix_append _ _, fits, ?_⟩
    intro other begins small
    have next : writer.accepted ++ [write] <+: writer.accepted ++ write :: later :=
      ⟨later, by rw [List.append_assoc, List.singleton_append]⟩
    rcases List.prefix_or_prefix_of_prefix begins next with short | long
    · rcases List.prefix_concat_iff.1 short with whole | part
      · rw [whole, List.flatten_append, List.length_append, List.flatten_singleton, ← size_eq] at small
        omega
      · exact part
    · have bound := (List.IsPrefix.flatten long).length_le
      rw [List.flatten_append, List.length_append, List.flatten_singleton, ← size_eq] at bound
      omega

/-- What is not taken next did not fit, and it has stopped the writing. -/
theorem Follows.stopped {limit : Nat} {writer free : Writer} (follows : Follows limit writer free)
    {refused : List UInt8} {rest : List (List UInt8)} (ahead : free.accepted = writer.accepted ++ refused :: rest) :
    limit < writer.size + refused.length ∧ writer.failure.isSome := by
  cases follows with
  | level unlimited room fits failure chunks =>
    have same : writer.accepted = free.accepted := congrArg List.reverse chunks
    rw [← same, List.self_eq_append_right] at ahead
    cases ahead
  | behind unlimited fits broken write later exceeds split =>
    have head := List.append_cancel_left (split.symm.trans ahead)
    rw [← (List.cons.inj head).1]
    exact ⟨exceeds, broken⟩

/-- Whatever is written, a destination of limited room takes the longest beginning of the writes that fits, of all the
writes that one takes which takes everything. The first write that it does not take would have exceeded the limit, and
nothing is taken after it, whether it would fit or not. -/
theorem accepted_longest_fit (limit : Nat) (steps : List Step) :
    IsLongestFit limit (buffer.perform steps).accepted ((limited limit).perform steps).accepted ∧
      ∀ refused rest, (buffer.perform steps).accepted = ((limited limit).perform steps).accepted ++ refused :: rest →
        limit < ((limited limit).perform steps).accepted.flatten.length + refused.length ∧
          ∀ later, ((limited limit).perform (steps ++ later)).accepted = ((limited limit).perform steps).accepted := by
  have follows := follows_perform limit steps
  refine ⟨follows.isLongestFit, fun refused rest ahead => ?_⟩
  obtain ⟨exceeds, broken⟩ := follows.stopped ahead
  refine ⟨exceeds, fun later => ?_⟩
  have rests : Rests (perform later) := pervades_rests.foldl fun step _ => pervades_rests.step step
  have further : (limited limit).perform (steps ++ later) =
      ((limited limit).perform steps).perform later := List.foldl_append ..
  rw [further, accepted, (rests _ broken).2, accepted]

/-- Of three bytes of room two are taken. The next four do not fit, and then one byte is refused that would. -/
theorem accepted_longest_fit_refused :
    (buffer.perform [.u16 258, .u32 7]).accepted =
        ((limited 3).perform [.u16 258, .u32 7]).accepted ++ [0, 0, 0, 7] :: [] ∧
      ((limited 3).perform ([.u16 258, .u32 7] ++ [.byte 9])).accepted = [[1, 2]] :=
  ⟨rfl, ((accepted_longest_fit 3 [.u16 258, .u32 7]).2 [0, 0, 0, 7] [] rfl).2 [.byte 9]⟩

end ClientScript.Writer
