import Exsim.Util.Frame

namespace Exsim.Md

open Data

def kMdMagic : UInt32 := 0x4d445349
def kMdVersion : UInt16 := 1
def kMdPayloadBytes : Nat := 8 + 1 + 4 + 8 + 8 + 4 + 1 + 8 + 4 + 1
def kMdFrameBytes : Nat := 4 + 2 + 2 + 8 + kMdPayloadBytes

structure DecodeError where
  message : String
  expected : SeqNo := 0
  actual : SeqNo := 0
deriving DecidableEq, Repr

structure DecodeResult where
  event : Option MdEvent
  error : Option DecodeError
deriving DecidableEq, Repr

def fail (message : String) (expected actual : SeqNo) : DecodeResult :=
  { event := none, error := some { message, expected, actual } }

def mdFormat : FrameFormat where
  magic := kMdMagic
  version := kMdVersion
  shortHeader := "short md frame header"
  badMagic := "bad md magic"
  badVersion := "bad md version"
  badLength := "bad md frame length"
  badChecksum := "md checksum mismatch"

/-- The payload half of `encode_md_event`. -/
def writeMdEvent (ev : MdEvent) : Bytes :=
  let payload := Writer.pod [] ev.seq
  let payload := Writer.pod payload ev.type.byte
  let payload := Writer.pod payload ev.symbolId
  let payload := Writer.pod payload ev.orderId
  let payload := Writer.pod payload ev.newOrderId
  let payload := Writer.pod payload ev.accountId
  let payload := Writer.pod payload ev.side.byte
  let payload := Writer.pod payload ev.price
  let payload := Writer.pod payload ev.qty
  Writer.pod payload ev.reason.byte

def encodeMdEvent (ev : MdEvent) : Bytes :=
  mdFormat.encode (writeMdEvent ev)

/-- `encode_md_event_frame`: the payload first, past the header, then the header
with the checksum of the payload span. -/
def encodeMdEventFrame (ev : MdEvent) : Exec Bytes := do
  let frame := List.replicate kMdFrameBytes 0
  let (frame, pos) ← put frame kFrameHeaderBytes ev.seq
  let (frame, pos) ← put frame pos ev.type.byte
  let (frame, pos) ← put frame pos ev.symbolId
  let (frame, pos) ← put frame pos ev.orderId
  let (frame, pos) ← put frame pos ev.newOrderId
  let (frame, pos) ← put frame pos ev.accountId
  let (frame, pos) ← put frame pos ev.side.byte
  let (frame, pos) ← put frame pos ev.price
  let (frame, pos) ← put frame pos ev.qty
  let (frame, _) ← put frame pos ev.reason.byte
  let checksum := fnv1a64 ((frame.drop kFrameHeaderBytes).take kMdPayloadBytes)
  let (frame, pos) ← put frame 0 kMdMagic
  let (frame, pos) ← put frame pos kMdVersion
  let (frame, pos) ← put frame pos (UInt16.ofNat kMdPayloadBytes)
  let (frame, _) ← put frame pos checksum
  .ok (frame.take kMdFrameBytes)

def readMdEvent (reader : Reader) : Option (MdEvent × Reader) := do
  let (seq, r) ← Reader.pod SeqNo reader
  let (type, r) ← Reader.pod UInt8 r
  let (symbolId, r) ← Reader.pod SymbolId r
  let (orderId, r) ← Reader.pod OrderId r
  let (newOrderId, r) ← Reader.pod OrderId r
  let (accountId, r) ← Reader.pod AccountId r
  let (side, r) ← Reader.pod UInt8 r
  let (price, r) ← Reader.pod Price r
  let (qty, r) ← Reader.pod Qty r
  let (reason, r) ← Reader.pod UInt8 r
  some ({
    seq, type := ⟨type⟩, symbolId, orderId, newOrderId, accountId, side := ⟨side⟩, price, qty
    reason := ⟨reason⟩ }, r)

def decodeMdEvent (frame : Bytes) (expectedSeq : Option SeqNo) : DecodeResult :=
  match mdFormat.decode frame with
  | .error message => fail message 0 0
  | .ok payload =>
      match readMdEvent payload with
      | none => fail "bad md payload" 0 0
      | some (ev, rest) =>
          if rest.length ≠ 0 then fail "bad md payload" 0 0
          else match expectedSeq with
            | some expected =>
                if ev.seq ≠ expected then fail "feed gap" expected ev.seq
                else { event := some ev, error := none }
            | none => { event := some ev, error := none }

structure FeedDecoder where
  expected : SeqNo := 1
deriving DecidableEq, Repr

def FeedDecoder.decode (decoder : FeedDecoder) (frame : Bytes) : FeedDecoder × DecodeResult :=
  let res := decodeMdEvent frame (some decoder.expected)
  if res.event.isSome then ({ expected := decoder.expected + 1 }, res) else (decoder, res)

theorem readMdEvent_write (ev : MdEvent) (rest : Bytes) :
    readMdEvent (writeMdEvent ev ++ rest) = some (ev, rest) := by
  simp only [readMdEvent, writeMdEvent, Writer.pod, List.nil_append, List.append_assoc,
    Reader.pod_toBytes, Option.bind_eq_bind, Option.bind_some]

theorem writeMdEvent_length (ev : MdEvent) : (writeMdEvent ev).length = kMdPayloadBytes := by
  simp [writeMdEvent, Writer.pod, Pod.size, kMdPayloadBytes]

/-- The span of `encode_md_event_frame` is the encoding of the event. -/
theorem encodeMdEventFrame_run (ev : MdEvent) : encodeMdEventFrame ev = .ok (encodeMdEvent ev) := by
  have zeroed : List.replicate kMdFrameBytes (0 : UInt8) =
      List.replicate kFrameHeaderBytes 0 ++ List.replicate kMdPayloadBytes 0 ++ [] := rfl
  have payload : ∀ out : Bytes,
      Writer.pod (Writer.pod (Writer.pod (Writer.pod (Writer.pod (Writer.pod (Writer.pod
      (Writer.pod (Writer.pod (Writer.pod out ev.seq) ev.type.byte) ev.symbolId) ev.orderId)
      ev.newOrderId) ev.accountId) ev.side.byte) ev.price) ev.qty) ev.reason.byte = out ++
      writeMdEvent ev := by
    intro out
    simp only [writeMdEvent, Writer.pod, List.append_assoc, List.nil_append]
  rw [encodeMdEventFrame, zeroed]
  iterate 10
    refine (put_bind (by simp [Writer.pod_length]) (by decide)).trans ?_
    dsimp only
  -- The payload fills its room.
  rw [payload]
  simp only [Pod.size, kMdPayloadBytes, Nat.reduceAdd, Nat.reduceSub, List.replicate_zero,
    List.append_nil]
  exact putHeader_run mdFormat (writeMdEvent_length ev) rfl

/-- An encoded event comes back unless another number is expected. -/
theorem decodeMdEvent_encoded (ev : MdEvent) (expectedSeq : Option SeqNo) :
    decodeMdEvent (encodeMdEvent ev) expectedSeq =
      match expectedSeq with
      | none => { event := some ev, error := none }
      | some expected =>
          if ev.seq = expected then { event := some ev, error := none }
          else fail "feed gap" expected ev.seq := by
  have fits : (writeMdEvent ev).length < 2 ^ 16 := by
    rw [writeMdEvent_length]
    decide
  have read := readMdEvent_write ev []
  rw [List.append_nil] at read
  rw [decodeMdEvent, encodeMdEvent, FrameFormat.decode_encode _ fits]
  simp only [read, List.length_nil, ne_eq, not_true_eq_false, ↓reduceIte]
  cases expectedSeq with
  | none => rfl
  | some expected => exact ite_not _ _ _

/-- What the ten reads take is what the ten writes put. -/
theorem readMdEvent_eq_some {reader rest : Reader} {ev : MdEvent}
    (read : readMdEvent reader = some (ev, rest)) :
    reader = writeMdEvent ev ++ rest := by
  simp only [readMdEvent, Option.bind_eq_bind, Option.bind_eq_some_iff] at read
  obtain ⟨⟨seq, r₁⟩, readSeq, ⟨type, r₂⟩, readType, ⟨symbolId, r₃⟩, readSymbolId, ⟨orderId, r₄⟩,
    readOrderId, ⟨newOrderId, r₅⟩, readNewOrderId, ⟨accountId, r₆⟩, readAccountId, ⟨side, r₇⟩,
    readSide, ⟨price, r₈⟩, readPrice, ⟨qty, r₉⟩, readQty, ⟨reason, r₁₀⟩, readReason, fields⟩ := read
  simp only [Option.some.injEq, Prod.mk.injEq] at fields
  obtain ⟨rfl, rfl⟩ := fields
  have first := Reader.pod_eq_some readSeq
  have second : r₁ = _ := Reader.pod_eq_some readType
  have third : r₂ = _ := Reader.pod_eq_some readSymbolId
  have fourth : r₃ = _ := Reader.pod_eq_some readOrderId
  have fifth : r₄ = _ := Reader.pod_eq_some readNewOrderId
  have sixth : r₅ = _ := Reader.pod_eq_some readAccountId
  have seventh : r₆ = _ := Reader.pod_eq_some readSide
  have eighth : r₇ = _ := Reader.pod_eq_some readPrice
  have ninth : r₈ = _ := Reader.pod_eq_some readQty
  have tenth : r₉ = _ := Reader.pod_eq_some readReason
  rw [first, second, third, fourth, fifth, sixth, seventh, eighth, ninth, tenth]
  simp only [writeMdEvent, Writer.pod, List.nil_append, List.append_assoc]

/-- An event is decoded from nothing but its own encoding, under the expected number. -/
theorem encode_of_decodeMdEvent {frame : Bytes} {expectedSeq : Option SeqNo} {ev : MdEvent}
    (decoded : (decodeMdEvent frame expectedSeq).event = some ev) :
    encodeMdEvent ev = frame ∧ (expectedSeq = none ∨ expectedSeq = some ev.seq) := by
  rw [decodeMdEvent] at decoded
  cases opened : mdFormat.decode frame with
  | error message =>
      rw [opened] at decoded
      cases decoded
  | ok payload =>
      cases read : readMdEvent payload with
      | none =>
          simp only [opened, read] at decoded
          cases decoded
      | some parts =>
          obtain ⟨other, rest⟩ := parts
          simp only [opened, read] at decoded
          split at decoded
          · cases decoded
          · rename_i exhausted
            have empty : rest = [] := List.length_eq_zero_iff.mp (not_not.mp exhausted)
            have whole := readMdEvent_eq_some read
            rw [empty, List.append_nil] at whole
            have encoded : encodeMdEvent other = frame := by
              rw [encodeMdEvent, ← whole]
              exact FrameFormat.encode_of_decode opened
            cases expectedSeq with
            | none =>
                obtain rfl : other = ev := Option.some.inj decoded
                exact ⟨encoded, .inl rfl⟩
            | some expected =>
                dsimp only at decoded
                split at decoded
                · cases decoded
                · rename_i inSequence
                  obtain rfl : other = ev := Option.some.inj decoded
                  exact ⟨encoded, .inr (congrArg some (not_not.mp inSequence).symm)⟩

/-- The codec is exact and the gap check precise: an encoded event comes back
unless another number is expected, which is reported with both numbers, and
nothing but the encoding of an event under the expected number is accepted. -/
theorem mdEvent_codec :
    (∀ ev expectedSeq, decodeMdEvent (encodeMdEvent ev) expectedSeq =
      if expectedSeq = none ∨ expectedSeq = some ev.seq then { event := some ev, error := none }
      else { event := none
             error :=
               some { message := "feed gap", expected := expectedSeq.getD 0, actual := ev.seq } }) ∧
    ∀ frame expectedSeq ev, (decodeMdEvent frame expectedSeq).event = some ev ↔
      encodeMdEvent ev = frame ∧ (expectedSeq = none ∨ expectedSeq = some ev.seq) := by
  have exact : ∀ (ev : MdEvent) (expectedSeq : Option SeqNo),
      decodeMdEvent (encodeMdEvent ev) expectedSeq =
      if expectedSeq = none ∨ expectedSeq = some ev.seq then { event := some ev, error := none }
      else { event := none
             error := some
               { message := "feed gap", expected := expectedSeq.getD 0, actual := ev.seq } } := by
    intro ev expectedSeq
    rw [decodeMdEvent_encoded]
    cases expectedSeq with
    | none => rfl
    | some expected =>
        by_cases inSequence : ev.seq = expected
        · subst inSequence
          simp
        · simp [inSequence, Ne.symm inSequence, fail]
  refine ⟨exact, fun frame expectedSeq ev => ⟨encode_of_decodeMdEvent, fun both => ?_⟩⟩
  obtain ⟨rfl, expected⟩ := both
  rw [exact, if_pos expected]

end Exsim.Md
