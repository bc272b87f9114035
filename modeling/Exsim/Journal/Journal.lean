import Exsim.Protocol.OrderEntry

/-! # The command journal

The file is the byte string written through the writer; reading it back assumes
that it holds exactly those bytes.  A short read leaves the stream at its end
with its end-of-file flag set.
-/

namespace Exsim.Journal

open Data Protocol

def kJournalMagic : UInt32 := 0x4a4e4c31
def kRecordMagic : UInt32 := 0x52454331

/-- Seq, receive timestamp, then the command fields in the order-entry order. -/
def encodeSequencedCommandPayload (sc : SequencedCommand) : Bytes :=
  let payload := Writer.pod [] sc.seq
  let payload := Writer.pod payload sc.recvTsNs
  writeClientCommand payload sc.cmd

def decodeSequencedCommandPayload (payload : Bytes) : Option SequencedCommand := do
  let (seq, r) ← Reader.pod SeqNo payload
  let (recvTsNs, r) ← Reader.pod TimestampNs r
  let (cmd, r) ← readClientCommand r
  if r.length ≠ 0 then none else some { seq, recvTsNs, cmd }

/-- The writer, as the bytes it has put in the file. -/
structure JournalWriter where
  out : Bytes
deriving DecidableEq, Repr

def JournalWriter.create : JournalWriter where
  out := Writer.pod (Writer.pod [] kJournalMagic) kProtocolVersion

/-- The bytes of one appended record. -/
def encodeRecord (sc : SequencedCommand) : Bytes :=
  let payload := encodeSequencedCommandPayload sc
  let scratch := Writer.pod [] kRecordMagic
  let scratch := Writer.pod scratch (UInt32.ofNat payload.length)
  let scratch := Writer.pod scratch (fnv1a64 payload)
  scratch ++ payload

def JournalWriter.append (writer : JournalWriter) (sc : SequencedCommand) : JournalWriter :=
  { out := writer.out ++ encodeRecord sc }

/-- The reader: the unread bytes of its stream and its error, if any. -/
structure JournalReader where
  input : Bytes
  error : Option String := none
deriving DecidableEq, Repr

namespace JournalReader

def create (file : Bytes) : JournalReader :=
  match Reader.pod UInt32 file with
  | none => { input := [], error := some "failed to read journal header" }
  | some (magic, rest) =>
      match Reader.pod UInt16 rest with
      | none => { input := [], error := some "failed to read journal header" }
      | some (version, rest) =>
          if magic ≠ kJournalMagic || version ≠ kProtocolVersion then
            { input := rest, error := some "bad journal header" }
          else { input := rest }

def fail (message : String) (input : Bytes) : Option SequencedCommand × JournalReader :=
  (none, { input, error := some message })

/-- `next`.  A read that fails sets the end-of-file flag, so a failed read of the
record magic ends the journal without an error. -/
def next (reader : JournalReader) : Option SequencedCommand × JournalReader :=
  if reader.error.isSome then (none, reader)
  else match Reader.pod UInt32 reader.input with
    | none => (none, { reader with input := [] })
    | some (magic, rest) =>
        match Reader.pod UInt32 rest with
        | none => fail "short journal record" []
        | some (len, rest) =>
            match Reader.pod UInt64 rest with
            | none => fail "short journal record" []
            | some (checksum, rest) =>
                if magic ≠ kRecordMagic then fail "bad record magic" rest
                else match Reader.bytes rest len.toNat with
                  | none => fail "short record payload" []
                  | some (payload, rest) =>
                      if fnv1a64 payload ≠ checksum then fail "record checksum mismatch" rest
                      else match decodeSequencedCommandPayload payload with
                        | none => fail "bad sequenced command payload" rest
                        | some sc => (some sc, { reader with input := rest })

end JournalReader

theorem decodeSequencedCommandPayload_encode (sc : SequencedCommand) :
    decodeSequencedCommandPayload (encodeSequencedCommandPayload sc) = some sc := by
  have read := readClientCommand_write sc.cmd []
  rw [List.append_nil] at read
  rw [decodeSequencedCommandPayload, encodeSequencedCommandPayload, writeClientCommand_append]
  simp only [Writer.pod, List.nil_append, List.append_assoc, Reader.pod_toBytes,
    Option.bind_eq_bind, Option.bind_some, read, List.length_nil, ne_eq,
    not_true_eq_false, ↓reduceIte]

theorem encodeSequencedCommandPayload_length (sc : SequencedCommand) :
    (encodeSequencedCommandPayload sc).length = 8 + 8 + kClientCommandPayloadBytes := by
  rw [encodeSequencedCommandPayload, writeClientCommand_append, List.length_append,
    writeClientCommand_length]
  simp [Writer.pod, Pod.size]

/-- Reading past a record that was appended yields its command. -/
theorem JournalReader.next_encodeRecord (sc : SequencedCommand) (rest : Bytes) :
    JournalReader.next { input := encodeRecord sc ++ rest } = (some sc, { input := rest }) := by
  have width : (UInt32.ofNat (encodeSequencedCommandPayload sc).length).toNat =
      (encodeSequencedCommandPayload sc).length := by
    rw [encodeSequencedCommandPayload_length]
    rfl
  rw [JournalReader.next, encodeRecord]
  simp only [Option.isSome_none, Bool.false_eq_true, ↓reduceIte, Writer.pod, List.nil_append,
    List.append_assoc, Reader.pod_toBytes, ne_eq, not_true_eq_false, width, Reader.bytes_append,
    decodeSequencedCommandPayload_encode]

theorem JournalReader.create_append (rest : Bytes) :
    JournalReader.create (JournalWriter.create.out ++ rest) = { input := rest } := by
  rw [JournalReader.create, JournalWriter.create]
  simp only [Writer.pod, List.nil_append, List.append_assoc, Reader.pod_toBytes, ne_eq,
    not_true_eq_false, decide_false, Bool.or_false, Bool.false_eq_true, ↓reduceIte]

end Exsim.Journal
