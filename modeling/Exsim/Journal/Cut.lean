import Exsim.Journal.Damage

/-! # A journal cut short

However many bytes of a file reach the disk, the reader yields the records that
lie in them as a whole, and stops without an error only just behind one.
-/

namespace Exsim.Journal

open Data Protocol

variable {reader ended finish : JournalReader} {records others : List SequencedCommand}
  {sc : SequencedCommand} {size : Nat}

/-- Reading is a function of the stream. -/
theorem Reads.unique (reads : Reads reader records ended) (also : Reads reader others finish) :
    others = records ∧ finish = ended := by
  induction reads generalizing others with
  | done answered =>
      cases also with
      | done again => exact ⟨rfl, congrArg Prod.snd (again.symm.trans answered)⟩
      | more read =>
          rw [answered] at read
          cases read
  | more read later ih =>
      cases also with
      | done answered =>
          rw [answered] at read
          cases read
      | more again rest =>
          obtain ⟨isSome, rfl⟩ := Prod.mk.inj (again.symm.trans read)
          obtain rfl := Option.some.inj isSome
          obtain ⟨rfl, rfl⟩ := ih rest
          exact ⟨rfl, rfl⟩

/-- A file is written for one list of records. -/
theorem fileOf_injective (same : fileOf others = fileOf records) : others = records :=
  (Reads.unique (reads_file records) (same ▸ reads_file others)).1

theorem fileOf_append (records more : List SequencedCommand) :
    fileOf (records ++ more) = fileOf records ++ more.flatMap encodeRecord := by
  rw [fileOf, fileOf, List.flatMap_append, List.append_assoc]

/-- How the reader stops in what is left of a record. -/
theorem next_cut (short : size < (encodeRecord sc).length) : ∃ stopped,
    JournalReader.next { input := (encodeRecord sc).take size } = (none, stopped) ∧
    (stopped.error = none ↔ size < 4) := by
  have length : ((encodeRecord sc).take size).length = size := by
    rw [List.length_take, Nat.min_eq_left (Nat.le_of_lt short)]
  have step := JournalReader.next_step { input := (encodeRecord sc).take size }
  generalize answered : JournalReader.next { input := (encodeRecord sc).take size } = answer at step
  cases step with
  | failed broken => cases broken
  | ended clean few => exact ⟨_, rfl, fun _ => length ▸ few, fun _ => rfl⟩
  | broke clean long message rest =>
      refine ⟨_, rfl, fun clear => absurd clear (Option.some_ne_none message), fun few => ?_⟩
      rw [length] at long
      omega
  | yielded clean other rest record =>
      have whole := congrArg List.length record
      rw [length, List.length_append, encodeRecord_width] at whole
      rw [encodeRecord_width] at short
      omega

/-- Reading what is left of records that were written one after the other. -/
theorem reads_cut (records : List SequencedCommand) (size : Nat) : ∃ count stopped,
    Reads { input := (records.flatMap encodeRecord).take size } (records.take count) stopped ∧
    count ≤ records.length ∧ ((records.take count).flatMap encodeRecord).length ≤ size ∧
      (count < records.length → size < ((records.take (count + 1)).flatMap encodeRecord).length) ∧
      (stopped.error = none ↔
        count = records.length ∨
        size < ((records.take count).flatMap encodeRecord).length + 4) := by
  induction records generalizing size with
  | nil => exact ⟨0, { input := [] }, .done (by rw [List.flatMap_nil, List.take_nil]; rfl),
        Nat.le_refl _, Nat.zero_le _, fun less => absurd less (Nat.lt_irrefl 0), fun _ => .inl rfl,
        fun _ => rfl⟩
  | cons sc records ih =>
      by_cases short : size < (encodeRecord sc).length
      · obtain ⟨stopped, answered, clean⟩ := next_cut short
        refine ⟨0, stopped, .done ?_, Nat.zero_le _, Nat.zero_le _, fun _ => ?_, ?_⟩
        · rw [List.flatMap_cons, List.take_append_of_le_length (Nat.le_of_lt short)]
          exact answered
        · simpa using short
        · rw [clean]
          simp
      · have enough := Nat.le_of_not_lt short
        obtain ⟨count, stopped, reads, within, least, most, clean⟩ :=
          ih (size - (encodeRecord sc).length)
        refine ⟨count + 1, stopped, ?_, Nat.succ_le_succ within, ?_, fun less => ?_, ?_⟩
        · rw [List.flatMap_cons, List.take_append, List.take_of_length_le enough]
          exact .more (JournalReader.next_encodeRecord sc _) reads
        · rw [List.take_succ_cons, List.flatMap_cons, List.length_append]
          omega
        · have further := most (Nat.lt_of_succ_lt_succ less)
          rw [List.take_succ_cons, List.flatMap_cons, List.length_append]
          omega
        · rw [clean, List.take_succ_cons, List.flatMap_cons, List.length_append, List.length_cons]
          omega

/-- The header of a file, which is six bytes long. -/
theorem header_length : (fileOf []).length = 6 := rfl

/-- Reading a file that was cut anywhere. -/
theorem reads_cut_file (records : List SequencedCommand) (size : Nat) : ∃ count stopped,
    Reads (JournalReader.create ((fileOf records).take size)) (records.take count) stopped ∧
    count ≤ records.length ∧ (∀ other, other ≤ records.length →
      (fileOf (records.take other)).length ≤ size → other ≤ count) ∧
      ((fileOf (records.take count)).length ≤ size ∨ count = 0 ∧ size < 6) ∧
      (stopped.error = none ↔ 6 ≤ size ∧
        (count = records.length ∨ size < (fileOf (records.take count)).length + 4)) := by
  have split : fileOf records = fileOf [] ++ records.flatMap encodeRecord := by
    rw [← fileOf_append, List.nil_append]
  by_cases short : size < 6
  · have unopened : (JournalReader.create ((fileOf records).take size)).error.isSome = true := by
      have each : ∀ size < 6, (JournalReader.create ((fileOf []).take size)).error.isSome =
          true := by decide
      rw [split, List.take_append_of_le_length (Nat.le_of_lt (header_length ▸ short))]
      exact each size short
    refine ⟨0, _, reads_broken unopened, Nat.zero_le _, fun other _ fits => ?_, .inr ⟨rfl, short⟩,
      fun clean => ?_, fun both => absurd both.1 (Nat.not_le_of_lt short)⟩
    · rw [fileOf, List.length_append] at fits
      have header : JournalWriter.create.out.length = 6 := rfl
      omega
    · rw [clean] at unopened
      cases unopened
  · have enough := Nat.le_of_not_lt short
    obtain ⟨count, stopped, reads, within, least, most, clean⟩ := reads_cut records (size - 6)
    have opened : JournalReader.create ((fileOf records).take size) =
        { input := (records.flatMap encodeRecord).take (size - 6) } := by
      rw [split, List.take_append, List.take_of_length_le (header_length ▸ enough), header_length]
      exact JournalReader.create_append _
    have length : ∀ n, (fileOf (records.take n)).length =
        6 + ((records.take n).flatMap encodeRecord).length := fun n => by
      rw [fileOf, List.length_append]
      rfl
    refine ⟨count, stopped, opened ▸ reads, within, fun other inside fits => ?_, .inl ?_, ?_⟩
    · by_contra! beyond
      have further := most (Nat.lt_of_lt_of_le beyond inside)
      have longer : ((records.take (count + 1)).flatMap encodeRecord).length ≤
          ((records.take other).flatMap encodeRecord).length :=
        ((List.take_prefix_take_left beyond).flatMap _).length_le
      rw [length] at fits
      omega
    · rw [length]
      omega
    · rw [clean, length]
      omega

end Exsim.Journal
