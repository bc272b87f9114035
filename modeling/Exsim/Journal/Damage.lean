import Exsim.Journal.Records
import Exsim.Util.Damage

/-! # A damaged byte in a journal

Every record has the same width, and two records never differ in a single byte.
So the reader stops with an error at the record that was hit.
-/

namespace Exsim.Journal

open Data Protocol

/-- The bytes of a record before its payload. -/
def recordHeader (payload : Bytes) : Bytes :=
  Writer.pod (Writer.pod (Writer.pod [] kRecordMagic) (UInt32.ofNat payload.length))
    (fnv1a64 payload)

section

variable {records : List SequencedCommand} {sc other : SequencedCommand} {reader : JournalReader}
  {rest : Bytes} {i : Nat} {old new : UInt8}

theorem recordHeader_length (payload : Bytes) : (recordHeader payload).length = 16 := by
  simp [recordHeader, Writer.pod, Pod.size]

theorem recordHeader_checksum {left right : Bytes} (same : recordHeader left = recordHeader right) :
    fnv1a64 left = fnv1a64 right := by
  have stamps := List.append_inj_right' same (by rw [toBytes_length, toBytes_length])
  exact UInt64.toNat_inj.mp
    (toBytes_injective (Pod.bits_lt (fnv1a64 left)) (Pod.bits_lt (fnv1a64 right)) stamps)

theorem encodeRecord_eq (sc : SequencedCommand) :
    encodeRecord sc = recordHeader (encodeSequencedCommandPayload sc) ++
      encodeSequencedCommandPayload sc := rfl

theorem encodeRecord_width (sc : SequencedCommand) :
    (encodeRecord sc).length = 16 + (8 + 8 + kClientCommandPayloadBytes) := by
  rw [encodeRecord_eq, List.length_append, recordHeader_length,
    encodeSequencedCommandPayload_length]

theorem encodeRecord_set_ne (found : (encodeRecord sc)[i]? = some old) (changed : new ≠ old) :
    (encodeRecord sc).set i new ≠ encodeRecord other := by
  rw [encodeRecord_eq] at found
  rw [encodeRecord_eq, encodeRecord_eq]
  generalize encodeSequencedCommandPayload sc = payload,
    encodeSequencedCommandPayload other = stated at found ⊢
  exact stamped_set_ne recordHeader_checksum (by rw [recordHeader_length, recordHeader_length])
    (fun there => fnv1a64_set_ne there changed) found changed

/-- A reader with an error yields nothing more. -/
theorem reads_broken (broken : reader.error.isSome) : Reads reader [] reader := by
  refine .done ?_
  rw [JournalReader.next, if_pos broken]

/-- A damaged record is not yielded, and stops the reader with an error. -/
theorem next_damaged (found : (encodeRecord sc)[i]? = some old) (changed : new ≠ old)
    (rest : Bytes) :
    ∃ ended, JournalReader.next { input := (encodeRecord sc).set i new ++ rest } = (none, ended) ∧
    ended.error.isSome := by
  have step := JournalReader.next_step { input := (encodeRecord sc).set i new ++ rest }
  generalize answered : JournalReader.next { input := (encodeRecord sc).set i new ++ rest } =
    answer at step
  cases step with
  | failed broken => cases broken
  | ended clean short =>
      rw [List.length_append, List.length_set, encodeRecord_width] at short
      omega
  | broke clean long message unread => exact ⟨_, rfl, rfl⟩
  | yielded clean other unread record =>
      have same := List.append_inj_left record
        (by rw [List.length_set, encodeRecord_width, encodeRecord_width])
      exact absurd same (encodeRecord_set_ne found changed)

/-- The reader yields the records before the damaged one. -/
theorem reads_damaged (found : (records.flatMap encodeRecord)[i]? = some old)
    (changed : new ≠ old) :
    ∃ k ended, Reads { input := (records.flatMap encodeRecord).set i new } (records.take k) ended ∧
    ended.error.isSome ∧ ((records.take k).flatMap encodeRecord).length ≤ i ∧
    i < ((records.take (k + 1)).flatMap encodeRecord).length := by
  induction records generalizing i with
  | nil => simp at found
  | cons sc records ih =>
      rw [List.flatMap_cons, List.getElem?_append] at found
      rw [List.flatMap_cons, List.set_append]
      split at found
      · rename_i inside
        rw [if_pos inside]
        obtain ⟨ended, stopped, broken⟩ := next_damaged found changed (records.flatMap encodeRecord)
        refine ⟨0, ended, .done stopped, broken, Nat.zero_le _, ?_⟩
        simpa using inside
      · rename_i beyond
        rw [if_neg beyond]
        obtain ⟨k, ended, reads, broken, after, before⟩ := ih found
        refine ⟨k + 1, ended, .more (JournalReader.next_encodeRecord sc _) reads, broken, ?_, ?_⟩
        · rw [List.take_succ_cons, List.flatMap_cons, List.length_append]
          omega
        · rw [List.take_succ_cons, List.flatMap_cons, List.length_append]
          omega

theorem writer_file (records : List SequencedCommand) :
    (records.foldl JournalWriter.append .create).out = fileOf records := by
  have appended : ∀ writer : JournalWriter,
      (records.foldl JournalWriter.append writer).out = writer.out ++
        records.flatMap encodeRecord := by
    induction records with
    | nil => exact fun writer => (List.append_nil _).symm
    | cons sc records ih =>
        intro writer
        rw [List.foldl_cons, ih, List.flatMap_cons, ← List.append_assoc]
        rfl
  exact appended .create

/-- One byte of a journal replaced: the reader yields the records before the one
that was hit, none where that is the file header, and ends with an error. -/
theorem journal_detects_damage
    (found : (records.foldl JournalWriter.append .create).out[i]? = some old)
    (changed : new ≠ old) :
    ∃ k ended,
      Reads (JournalReader.create ((records.foldl JournalWriter.append .create).out.set i new))
        (records.take k) ended ∧ ended.error.isSome ∧
      (i < (fileOf []).length ∧ k = 0 ∨
        (fileOf (records.take k)).length ≤ i ∧ i < (fileOf (records.take (k + 1))).length) := by
  rw [writer_file, fileOf, List.getElem?_append] at found
  rw [writer_file, fileOf, List.set_append]
  split at found
  · rename_i inside
    rw [if_pos inside]
    have broken : (JournalReader.create (JournalWriter.create.out.set i new ++
      records.flatMap encodeRecord)).error.isSome := by
      by_contra clear
      have opened := JournalReader.create_spec _ (Option.not_isSome_iff_eq_none.mp clear)
      have same := congrArg (·[i]?) (List.append_inj_left opened (List.length_set ..))
      rw [List.getElem?_set_self inside, found, Option.some.injEq] at same
      exact changed same
    refine ⟨0, _, reads_broken broken, broken, .inl ⟨?_, rfl⟩⟩
    simpa [fileOf] using inside
  · rename_i beyond
    rw [if_neg beyond, JournalReader.create_append]
    obtain ⟨k, ended, reads, broken, after, before⟩ := reads_damaged found changed
    refine ⟨k, ended, reads, broken, .inr ⟨?_, ?_⟩⟩
    · rw [fileOf, List.length_append]
      omega
    · rw [fileOf, List.length_append]
      omega

/-- The length field of the second of three records. -/
theorem journal_detects_damage_length : ∃ k ended,
    Reads (JournalReader.create (([{}, {}, {}].foldl JournalWriter.append .create).out.set 97 0))
        (([{}, {}, {}] : List SequencedCommand).take k) ended ∧ ended.error.isSome ∧
      (97 < (fileOf []).length ∧ k = 0 ∨
        (fileOf (([{}, {}, {}] : List SequencedCommand).take k)).length ≤ 97 ∧
          97 < (fileOf (([{}, {}, {}] : List SequencedCommand).take (k + 1))).length) :=
  journal_detects_damage (show _ = some 71 by decide +kernel) (by decide)

end

end Exsim.Journal
