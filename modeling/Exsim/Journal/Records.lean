import Exsim.Journal.Journal

/-! # What the journal reader accepts

A record is read from nothing but the bytes the writer appends for it, and the
reader stops without an error only where fewer bytes are left than a record
magic takes.
-/

namespace Exsim.Journal

open Data Protocol

/-- The records `next` yields before it yields none. -/
inductive Reads : JournalReader → List SequencedCommand → JournalReader → Prop
  | done (ended : reader.next = (none, rest)) : Reads reader [] rest
  | more {sc : SequencedCommand} (read : reader.next = (some sc, middle))
      (later : Reads middle records rest) :
      Reads reader (sc :: records) rest

/-- Bytes too few for a record magic end the journal like nothing at all. -/
theorem reads_torn (records : List SequencedCommand) {torn : Bytes} (short : torn.length < 4) :
    Reads { input := records.flatMap encodeRecord ++ torn } records { input := [] } := by
  induction records with
  | nil =>
      refine .done ?_
      have unread : Reader.pod UInt32 torn = none := if_pos short
      simp only [List.flatMap_nil, List.nil_append, JournalReader.next, unread, Option.isSome_none,
        Bool.false_eq_true, ↓reduceIte]
  | cons sc records ih =>
      rw [List.flatMap_cons, List.append_assoc]
      exact .more (JournalReader.next_encodeRecord sc _) ih

/-- The file of a writer that appended `records`. -/
def fileOf (records : List SequencedCommand) : Bytes :=
  JournalWriter.create.out ++ records.flatMap encodeRecord

theorem reads_file (records : List SequencedCommand) :
    Reads (JournalReader.create (fileOf records)) records { input := [] } := by
  rw [fileOf, JournalReader.create_append, ← List.append_nil (records.flatMap encodeRecord)]
  exact reads_torn records (by decide)

/-- A payload is decoded from nothing but its own encoding. -/
theorem encode_of_decodeSequencedCommandPayload {payload : Bytes} {sc : SequencedCommand}
    (decoded : decodeSequencedCommandPayload payload = some sc) :
    encodeSequencedCommandPayload sc = payload := by
  simp only [decodeSequencedCommandPayload, Option.bind_eq_bind, Option.bind_eq_some_iff,
    Prod.exists] at decoded
  obtain ⟨seq, afterSeq, readSeq, recvTsNs, afterTs, readTs, cmd, rest, readCmd, final⟩ := decoded
  split at final
  · cases final
  · rename_i exhausted
    obtain rfl := Option.some.inj final
    have empty : rest = [] := List.length_eq_zero_iff.mp (not_not.mp exhausted)
    have command : afterTs = _ := readClientCommand_eq_some readCmd
    have stamp : afterSeq = _ := Reader.pod_eq_some readTs
    have first : payload = _ := Reader.pod_eq_some readSeq
    rw [encodeSequencedCommandPayload, writeClientCommand_append, first, stamp, command, empty]
    simp only [Writer.pod, List.nil_append, List.append_nil, List.append_assoc]

namespace JournalReader

variable {reader after : JournalReader} {sc : SequencedCommand}

/-- What one call of `next` can do. -/
inductive Step (reader : JournalReader) : Option SequencedCommand × JournalReader → Prop
  | failed (broken : reader.error.isSome) : Step reader (none, reader)
  | ended (clean : reader.error = none) (short : reader.input.length < 4) :
      Step reader (none, { reader with input := [] })
  | broke (clean : reader.error = none) (long : 4 ≤ reader.input.length) (message : String)
      (rest : Bytes) :
      Step reader (fail message rest)
  | yielded (clean : reader.error = none) (sc : SequencedCommand) (rest : Bytes)
      (record : reader.input = encodeRecord sc ++ rest) :
      Step reader (some sc, { reader with input := rest })

theorem pod_eq_none {α : Type} [Pod α] {bytes : Bytes} (short : Reader.pod α bytes = none) :
    bytes.length < Pod.size α := by
  rw [Reader.pod] at short
  split at short
  · assumption
  · cases short

/-- A record is yielded for exactly the bytes the writer appended for it, and the
journal ends without an error only on a short magic. -/
theorem next_step (reader : JournalReader) : Step reader reader.next := by
  rw [next]
  split
  · exact .failed ‹_›
  rename_i clear
  have clean : reader.error = none := Option.not_isSome_iff_eq_none.mp clear
  split
  · exact .ended clean (pod_eq_none ‹_›)
  rename_i magic afterMagic readMagic
  have first := Reader.pod_eq_some readMagic
  have long : 4 ≤ reader.input.length := by
    rw [first, List.length_append, toBytes_length]
    exact Nat.le_add_right _ _
  split
  · exact .broke clean long _ _
  rename_i len afterLen readLen
  have second : afterMagic = _ := Reader.pod_eq_some readLen
  split
  · exact .broke clean long _ _
  rename_i checksum afterChecksum readChecksum
  have third : afterLen = _ := Reader.pod_eq_some readChecksum
  split
  · exact .broke clean long _ _
  rename_i genuine
  split
  · exact .broke clean long _ _
  rename_i payload rest readPayload
  obtain ⟨width, fourth⟩ := Reader.bytes_eq_some readPayload
  split
  · exact .broke clean long _ _
  rename_i intact
  split
  · exact .broke clean long _ _
  rename_i sc decoded
  refine .yielded clean sc rest ?_
  have image : encodeSequencedCommandPayload sc = payload :=
    encode_of_decodeSequencedCommandPayload decoded
  have stated : UInt32.ofNat payload.length = len := by rw [← width, UInt32.ofNat_toNat]
  rw [encodeRecord, image, stated, not_not.mp intact, ← not_not.mp genuine, first, second,
    third, fourth]
  simp only [Writer.pod, List.nil_append, List.append_assoc]

theorem create_spec (file : Bytes) :
    (create file).error = none → file = JournalWriter.create.out ++ (create file).input := by
  rw [create]
  split
  · intro clean
    cases clean
  rename_i magic afterMagic readMagic
  have first := Reader.pod_eq_some readMagic
  split
  · intro clean
    cases clean
  rename_i version rest readVersion
  have second : afterMagic = _ := Reader.pod_eq_some readVersion
  split
  · intro clean
    cases clean
  rename_i genuine
  intro clean
  simp only [Bool.or_eq_true, decide_eq_true_eq, not_or, not_not] at genuine
  rw [first, second, genuine.1, genuine.2, JournalWriter.create]
  simp only [Writer.pod, List.nil_append, List.append_assoc]

end JournalReader

theorem encodeRecord_length (sc : SequencedCommand) : 4 ≤ (encodeRecord sc).length := by
  simp only [encodeRecord, Writer.pod, List.nil_append, List.length_append,
    toBytes_length, Pod.size]
  omega

/-- Reading the records comes to an end. -/
theorem reads_ends (reader : JournalReader) : ∃ records ended, Reads reader records ended := by
  induction size : reader.input.length using Nat.strong_induction_on generalizing reader with
  | h bytes ih =>
      have step := reader.next_step
      generalize answered : reader.next = answer at step
      cases step with
      | failed broken => exact ⟨[], _, .done answered⟩
      | ended clean short => exact ⟨[], _, .done answered⟩
      | broke clean long message rest => exact ⟨[], _, .done answered⟩
      | yielded clean sc rest record =>
          have shorter : rest.length < bytes := by
            have magic := encodeRecord_length sc
            rw [← size, record, List.length_append]
            omega
          obtain ⟨records, ended, later⟩ := ih _ shorter { reader with input := rest } rfl
          exact ⟨sc :: records, ended, .more answered later⟩

/-- What was read without an error is whole records and, at most, a torn magic. -/
theorem Reads.input {reader ended : JournalReader} {records : List SequencedCommand}
    (reads : Reads reader records ended) (clean : ended.error = none) :
    reader.error = none ∧ ∃ torn, reader.input = records.flatMap encodeRecord ++ torn ∧
    torn.length < 4 := by
  induction reads with
  | done answered =>
      rename_i rest stopped
      have step := stopped.next_step
      rw [answered] at step
      cases step with
      | failed broken =>
          rw [clean] at broken
          cases broken
      | ended clear short => exact ⟨clear, stopped.input, rfl, short⟩
      | broke => cases clean
  | more read later ih =>
      rename_i rest records middle standing sc
      have step := standing.next_step
      rw [read] at step
      cases step with
      | yielded clear sc rest record =>
          obtain ⟨torn, input, short⟩ := (ih clean).2
          refine ⟨clear, torn, ?_, short⟩
          have following : rest = records.flatMap encodeRecord ++ torn := input
          rw [record, following, List.flatMap_cons, List.append_assoc]

/-- Whole records followed by the first one, two or three bytes of another. -/
def TornMagic (file : Bytes) : Prop :=
  ∃ records torn, file = fileOf records ++ torn ∧ torn ≠ [] ∧ torn.length < 4

/-- Reading always comes to an end, and it ends without an error on exactly the
files of the journal format unless the file stops inside a record magic. -/
theorem reads_exactly (file : Bytes) :
    (∃ records ended, Reads (JournalReader.create file) records ended) ∧
    ((∀ records, (∃ ended, Reads (JournalReader.create file) records ended ∧ ended.error = none) ↔
      file = fileOf records) ↔ ¬ TornMagic file) := by
  refine ⟨reads_ends _, fun exactly torn => ?_,
    fun whole records => ⟨fun read => ?_, fun written => ?_⟩⟩
  · obtain ⟨records, torn, cut, some, short⟩ := torn
    have read : Reads (JournalReader.create file) records { input := [] } := by
      rw [cut, fileOf, List.append_assoc, JournalReader.create_append]
      exact reads_torn records short
    have written := (exactly records).mp ⟨_, read, rfl⟩
    rw [cut] at written
    exact some (List.append_right_eq_self.mp written)
  · obtain ⟨ended, reads, clean⟩ := read
    obtain ⟨opened, torn, input, short⟩ := reads.input clean
    have cut : file = fileOf records ++ torn := by
      rw [fileOf, List.append_assoc, ← input]
      exact JournalReader.create_spec file opened
    by_cases nothing : torn = []
    · rw [cut, nothing, List.append_nil]
    · exact absurd ⟨records, torn, cut, nothing, short⟩ whole
  · rw [written]
    exact ⟨_, reads_file records, rfl⟩

/-- A file cut one byte into its first record reads as an empty journal. -/
theorem reads_past_torn_magic :
    ¬ ∀ file records,
      (∃ ended, Reads (JournalReader.create file) records ended ∧ ended.error = none) ↔
      file = fileOf records := by
  intro exactly
  have read : Reads (JournalReader.create (fileOf [] ++ [0x31])) [] { input := [] } :=
    .done (by decide)
  have written := (exactly (fileOf [] ++ [0x31]) []).mp ⟨_, read, rfl⟩
  exact absurd written (by decide)

end Exsim.Journal
