import Exsim.Util.Checksum
import Exsim.Util.Codec

/-! # Checksummed frames

Order entry and market data wrap their payload in the same header: magic,
version, payload length and FNV-1a checksum, with nothing after the payload.
They differ in the constants and in the texts of their errors.
-/

namespace Exsim

open Data

def kFrameHeaderBytes : Nat := 4 + 2 + 2 + 8

structure FrameFormat where
  magic : UInt32
  version : UInt16
  shortHeader : String
  badMagic : String
  badVersion : String
  badLength : String
  badChecksum : String

namespace FrameFormat

def header (format : FrameFormat) (payload : Bytes) : Bytes :=
  let frame := Writer.pod [] format.magic
  let frame := Writer.pod frame format.version
  let frame := Writer.pod frame (UInt16.ofNat payload.length)
  Writer.pod frame (fnv1a64 payload)

def encode (format : FrameFormat) (payload : Bytes) : Bytes :=
  format.header payload ++ payload

/-- The four reads of the header. -/
def readHeader (frame : Bytes) : Option (UInt32 × UInt16 × UInt16 × UInt64 × Reader) := do
  let (magic, r) ← Reader.pod UInt32 frame
  let (version, r) ← Reader.pod UInt16 r
  let (len, r) ← Reader.pod UInt16 r
  let (checksum, r) ← Reader.pod UInt64 r
  some (magic, version, len, checksum, r)

/-- The payload of a frame, or the text of the error it is rejected with. -/
def decode (format : FrameFormat) (frame : Bytes) : Except String Bytes :=
  match readHeader frame with
  | none => .error format.shortHeader
  | some (magic, version, len, checksum, r) =>
      if magic ≠ format.magic then .error format.badMagic
      else if version ≠ format.version then .error format.badVersion
      else match r.bytes len.toNat with
        | none => .error format.badLength
        | some (payload, rest) =>
            if rest.length ≠ 0 then .error format.badLength
            else if fnv1a64 payload ≠ checksum then .error format.badChecksum
            else .ok payload

@[simp] theorem header_length (format : FrameFormat) (payload : Bytes) :
    (format.header payload).length = kFrameHeaderBytes := by
  simp [header, Writer.pod, Pod.size, kFrameHeaderBytes]

theorem readHeader_append (format : FrameFormat) (payload rest : Bytes) :
    readHeader (format.header payload ++ rest) =
      some (format.magic, format.version, UInt16.ofNat payload.length, fnv1a64 payload, rest) := by
  simp [readHeader, header, Writer.pod]

theorem readHeader_encode (format : FrameFormat) (payload : Bytes) :
    readHeader (format.encode payload) =
      some (format.magic, format.version, UInt16.ofNat payload.length, fnv1a64 payload, payload) :=
  readHeader_append format payload payload

theorem decode_encode (format : FrameFormat) {payload : Bytes} (fits : payload.length < 2 ^ 16) :
    format.decode (format.encode payload) = .ok payload := by
  have width : (UInt16.ofNat payload.length).toNat = payload.length := by
    simp only [UInt16.toNat_ofNat']
    omega
  have whole : Reader.bytes payload payload.length = some (payload, []) := by
    simpa using Reader.bytes_append payload []
  simp [decode, readHeader_encode, width, whole]

theorem readHeader_eq_some {frame : Bytes} {magic : UInt32} {version len : UInt16}
    {checksum : UInt64} {rest : Reader}
    (read : readHeader frame = some (magic, version, len, checksum, rest)) :
    frame = Writer.pod (Writer.pod (Writer.pod (Writer.pod [] magic) version) len) checksum ++
      rest := by
  simp only [readHeader, Option.bind_eq_bind, Option.bind_eq_some_iff] at read
  obtain ⟨⟨m, r₁⟩, readMagic, ⟨v, r₂⟩, readVersion, ⟨l, r₃⟩, readLen, ⟨c, r₄⟩, readChecksum,
      fields⟩ := read
  simp only [Option.some.injEq, Prod.mk.injEq] at fields
  obtain ⟨rfl, rfl, rfl, rfl, rfl⟩ := fields
  have first := Reader.pod_eq_some readMagic
  have second : r₁ = _ := Reader.pod_eq_some readVersion
  have third : r₂ = _ := Reader.pod_eq_some readLen
  have fourth : r₃ = _ := Reader.pod_eq_some readChecksum
  rw [first, second, third, fourth]
  simp [Writer.pod]

/-- An accepted frame is the encoding of its payload, byte for byte. -/
theorem encode_of_decode {format : FrameFormat} {frame payload : Bytes}
    (accepted : format.decode frame = .ok payload) : format.encode payload = frame := by
  cases read : readHeader frame with
  | none => simp [decode, read] at accepted
  | some fields =>
      obtain ⟨magic, version, len, checksum, r⟩ := fields
      simp only [decode, read] at accepted
      split at accepted
      · contradiction
      rename_i magicOk
      split at accepted
      · contradiction
      rename_i versionOk
      cases taken : Reader.bytes r len.toNat with
      | none => simp [taken] at accepted
      | some parts =>
          obtain ⟨body, rest⟩ := parts
          simp only [taken] at accepted
          split at accepted
          · contradiction
          rename_i exhausted
          split at accepted
          · contradiction
          rename_i checksumOk
          cases accepted
          have empty : rest = [] := List.length_eq_zero_iff.mp (not_not.mp exhausted)
          obtain ⟨lenIs, payloadIs⟩ := Reader.bytes_eq_some taken
          rw [readHeader_eq_some read, payloadIs, empty, List.append_nil, encode, header,
            ← lenIs, UInt16.ofNat_toNat, not_not.mp magicOk, not_not.mp versionOk,
            not_not.mp checksumOk]

end FrameFormat

/-- `put`: a `memcpy` into the fixed frame array at `pos`. -/
def put [Pod α] (frame : Bytes) (pos : Nat) (value : α) : Exec (Bytes × Nat) :=
  if pos + Pod.size α ≤ frame.length then
    .ok (frame.take pos ++ toBytes (Pod.size α) (Pod.bits value) ++ frame.drop (pos + Pod.size α),
      pos + Pod.size α)
  else .error .outOfBounds

section

variable [Pod α] {before after : Bytes} {room pos : Nat} {value : α} {next : Bytes × Nat → Exec β}

/-- A put into the zeroed room between what is written and what follows. -/
theorem put_zeroed (here : before.length = pos) (fits : Pod.size α ≤ room) :
    put (before ++ List.replicate room 0 ++ after) pos value =
      .ok (Writer.pod before value ++ List.replicate (room - Pod.size α) 0 ++ after,
        pos + Pod.size α) := by
  subst here
  have inside : before.length + Pod.size α ≤ (before ++ List.replicate room 0 ++ after).length := by
    simp only [List.length_append, List.length_replicate]
    omega
  rw [put, if_pos inside, Writer.pod]
  congr 2
  · rw [List.append_assoc before, List.take_left' rfl, ← List.drop_drop, List.drop_left' rfl,
      List.drop_append_of_le_length (by simpa using fits), List.drop_replicate]
    simp only [List.append_assoc]

theorem put_bind (here : before.length = pos) (fits : Pod.size α ≤ room) :
    (put (before ++ List.replicate room 0 ++ after) pos value >>= next) =
      next (Writer.pod before value ++ List.replicate (room - Pod.size α) 0 ++ after,
        pos + Pod.size α) := by
  rw [put_zeroed here fits, exec_ok_bind]

end

/-- The header goes into the zeroes before a payload that is in place. -/
theorem putHeader_run (format : FrameFormat) {payload : Bytes} {payloadBytes frameBytes : Nat}
    (length : payload.length = payloadBytes)
    (whole : frameBytes = kFrameHeaderBytes + payloadBytes) :
    (do
      let frame := List.replicate kFrameHeaderBytes 0 ++ payload
      let checksum := fnv1a64 ((frame.drop kFrameHeaderBytes).take payloadBytes)
      let (frame, pos) ← put frame 0 format.magic
      let (frame, pos) ← put frame pos format.version
      let (frame, pos) ← put frame pos (UInt16.ofNat payloadBytes)
      let (frame, _) ← put frame pos checksum
      .ok (frame.take frameBytes)) = .ok (format.encode payload) := by
  have span : ((List.replicate kFrameHeaderBytes 0 ++ payload).drop kFrameHeaderBytes).take
      payloadBytes = payload := by
    rw [List.drop_left' List.length_replicate]
    exact List.take_of_length_le (Nat.le_of_eq length)
  dsimp only
  rw [span, ← List.nil_append (List.replicate kFrameHeaderBytes 0)]
  iterate 4
    refine (put_bind (by simp [Writer.pod_length]) (by decide)).trans ?_
    dsimp only
  simp only [Pod.size, kFrameHeaderBytes, Nat.reduceAdd, Nat.reduceSub, List.replicate_zero,
    List.append_nil]
  rw [FrameFormat.encode, FrameFormat.header, length]
  refine congrArg Except.ok (List.take_of_length_le ?_)
  simp only [List.length_append, Writer.pod_length, length, whole, Pod.size, kFrameHeaderBytes,
    List.length_nil]
  omega

end Exsim
