import Exsim.Util.Frame

namespace Exsim.Protocol

open Data

def kClientCommandPayloadBytes : Nat := 1 + 8 + 8 + 8 + 4 + 4 + 1 + 8 + 4 + 1 + 8
def kClientCommandFrameBytes : Nat := 4 + 2 + 2 + 8 + kClientCommandPayloadBytes

structure DecodeError where
  reason : RejectReason := .malformed
  message : String
deriving DecidableEq, Repr

structure DecodeResult where
  command : Option ClientCommand
  error : Option DecodeError
deriving DecidableEq, Repr

def fail (reason : RejectReason) (message : String) : DecodeResult :=
  { command := none, error := some { reason, message } }

def orderEntryFormat : FrameFormat where
  magic := kProtocolMagic
  version := kProtocolVersion
  shortHeader := "short frame header"
  badMagic := "bad magic"
  badVersion := "unsupported version"
  badLength := "bad frame length"
  badChecksum := "checksum mismatch"

/-- The eleven field writes, shared by the order-entry payload and the journal record. -/
def writeClientCommand (payload : Bytes) (cmd : ClientCommand) : Bytes :=
  let payload := Writer.pod payload cmd.type.byte
  let payload := Writer.pod payload cmd.clientOrderId
  let payload := Writer.pod payload cmd.orderId
  let payload := Writer.pod payload cmd.cancelOrderId
  let payload := Writer.pod payload cmd.accountId
  let payload := Writer.pod payload cmd.symbolId
  let payload := Writer.pod payload cmd.side.byte
  let payload := Writer.pod payload cmd.price
  let payload := Writer.pod payload cmd.qty
  let payload := Writer.pod payload cmd.tif.byte
  Writer.pod payload cmd.clientTsNs

def encodeClientCommand (cmd : ClientCommand) : Bytes :=
  orderEntryFormat.encode (writeClientCommand [] cmd)

/-- `encode_client_command_frame`: the payload first, past the header, then the
header with the checksum of the payload span. -/
def encodeClientCommandFrame (cmd : ClientCommand) : Exec Bytes := do
  let frame := List.replicate kClientCommandFrameBytes 0
  let (frame, pos) ← put frame kFrameHeaderBytes cmd.type.byte
  let (frame, pos) ← put frame pos cmd.clientOrderId
  let (frame, pos) ← put frame pos cmd.orderId
  let (frame, pos) ← put frame pos cmd.cancelOrderId
  let (frame, pos) ← put frame pos cmd.accountId
  let (frame, pos) ← put frame pos cmd.symbolId
  let (frame, pos) ← put frame pos cmd.side.byte
  let (frame, pos) ← put frame pos cmd.price
  let (frame, pos) ← put frame pos cmd.qty
  let (frame, pos) ← put frame pos cmd.tif.byte
  let (frame, _) ← put frame pos cmd.clientTsNs
  let checksum := fnv1a64 ((frame.drop kFrameHeaderBytes).take kClientCommandPayloadBytes)
  let (frame, pos) ← put frame 0 kProtocolMagic
  let (frame, pos) ← put frame pos kProtocolVersion
  let (frame, pos) ← put frame pos (UInt16.ofNat kClientCommandPayloadBytes)
  let (frame, _) ← put frame pos checksum
  .ok (frame.take kClientCommandFrameBytes)

def validateClientCommand (cmd : ClientCommand) : RejectReason :=
  if cmd.accountId = 0 then .malformed
  else if cmd.symbolId = 0 then .invalidSymbol
  else if cmd.type ≠ .new && cmd.type ≠ .cancel && cmd.type ≠ .replace then .malformed
  else if cmd.side ≠ .buy && cmd.side ≠ .sell then .malformed
  else if cmd.tif ≠ .gtc && cmd.tif ≠ .ioc then .malformed
  else if cmd.type = .new && cmd.orderId = kInvalidOrderId then .malformed
  else if cmd.type = .new && cmd.qty = 0 then .invalidQty
  else if cmd.type = .new && cmd.price ≤ 0 then .invalidPrice
  else if cmd.type = .cancel && cmd.cancelOrderId = kInvalidOrderId then .unknownOrder
  else if cmd.type = .replace &&
    (cmd.cancelOrderId = kInvalidOrderId || cmd.orderId = kInvalidOrderId) then
    .unknownOrder
  else if cmd.type = .replace && cmd.qty = 0 then .invalidQty
  else if cmd.type = .replace && cmd.price ≤ 0 then .invalidPrice
  else .none

theorem validateClientCommand_symbol {cmd : ClientCommand}
    (valid : validateClientCommand cmd = .none) :
    cmd.symbolId ≠ 0 := by
  intro zero
  rw [validateClientCommand, if_pos zero] at valid
  split at valid
  · exact absurd valid (by decide)
  · exact absurd valid (by decide)

theorem validateClientCommand_price {cmd : ClientCommand}
    (valid : validateClientCommand cmd = .none) (isOrder : cmd.type = .new ∨ cmd.type = .replace) :
    0 < cmd.price.toInt := by
  have passes : ∀ {failed : Prop} [Decidable failed] {rest : RejectReason} (reason : RejectReason),
      reason ≠ .none → ((if failed then reason else rest) = .none ↔ ¬failed ∧ rest = .none) := by
    intro failed _ rest reason bad
    split <;> simp [*]
  simp only [validateClientCommand, passes .malformed (by decide),
    passes .invalidSymbol (by decide), passes .invalidQty (by decide),
    passes .invalidPrice (by decide), passes .unknownOrder (by decide)] at valid
  obtain ⟨-, -, -, -, -, -, -, newPrice, -, -, -, replacePrice, -⟩ := valid
  rw [Bool.and_eq_true, decide_eq_true_iff, decide_eq_true_iff, not_and, Int64.not_le,
    Int64.lt_iff_toInt_lt] at newPrice replacePrice
  exact isOrder.elim newPrice replacePrice

/-- The eleven reads of a command, leaving the rest of the span. -/
def readClientCommand (reader : Reader) : Option (ClientCommand × Reader) := do
  let (type, r) ← Reader.pod UInt8 reader
  let (clientOrderId, r) ← Reader.pod ClientOrderId r
  let (orderId, r) ← Reader.pod OrderId r
  let (cancelOrderId, r) ← Reader.pod OrderId r
  let (accountId, r) ← Reader.pod AccountId r
  let (symbolId, r) ← Reader.pod SymbolId r
  let (side, r) ← Reader.pod UInt8 r
  let (price, r) ← Reader.pod Price r
  let (qty, r) ← Reader.pod Qty r
  let (tif, r) ← Reader.pod UInt8 r
  let (clientTsNs, r) ← Reader.pod TimestampNs r
  some ({
    type := ⟨type⟩, clientOrderId, orderId, cancelOrderId, accountId, symbolId, side := ⟨side⟩
    price, qty, tif := ⟨tif⟩, clientTsNs }, r)

def decodeClientCommand (frame : Bytes) : DecodeResult :=
  match orderEntryFormat.decode frame with
  | .error message => fail .malformed message
  | .ok payload =>
      match readClientCommand payload with
      | none => fail .malformed "bad payload"
      | some (cmd, rest) =>
          if rest.length ≠ 0 then fail .malformed "bad payload"
          else if validateClientCommand cmd ≠ .none then
            fail (validateClientCommand cmd) "semantic validation failed"
          else { command := some cmd, error := none }

theorem readClientCommand_write (cmd : ClientCommand) (rest : Bytes) :
    readClientCommand (writeClientCommand [] cmd ++ rest) = some (cmd, rest) := by
  simp only [readClientCommand, writeClientCommand, Writer.pod, List.nil_append, List.append_assoc,
    Reader.pod_toBytes, Option.bind_eq_bind, Option.bind_some]

theorem writeClientCommand_append (payload : Bytes) (cmd : ClientCommand) :
    writeClientCommand payload cmd = payload ++ writeClientCommand [] cmd := by
  simp [writeClientCommand, Writer.pod]

theorem writeClientCommand_length (cmd : ClientCommand) :
    (writeClientCommand [] cmd).length = kClientCommandPayloadBytes := by
  simp [writeClientCommand, Writer.pod, Pod.size, kClientCommandPayloadBytes]

/-- The span of `encode_client_command_frame` is the encoding of the command. -/
theorem encodeClientCommandFrame_run (cmd : ClientCommand) :
    encodeClientCommandFrame cmd = .ok (encodeClientCommand cmd) := by
  have zeroed : List.replicate kClientCommandFrameBytes (0 : UInt8) =
      List.replicate kFrameHeaderBytes 0 ++ List.replicate kClientCommandPayloadBytes 0 ++ [] := rfl
  have payload : ∀ out : Bytes,
      Writer.pod (Writer.pod (Writer.pod (Writer.pod (Writer.pod (Writer.pod (Writer.pod
        (Writer.pod (Writer.pod (Writer.pod (Writer.pod out cmd.type.byte) cmd.clientOrderId)
        cmd.orderId) cmd.cancelOrderId) cmd.accountId) cmd.symbolId) cmd.side.byte) cmd.price)
        cmd.qty) cmd.tif.byte) cmd.clientTsNs = out ++ writeClientCommand [] cmd :=
    fun out => writeClientCommand_append out cmd
  rw [encodeClientCommandFrame, zeroed]
  iterate 11
    refine (put_bind (by simp [Writer.pod_length]) (by decide)).trans ?_
    dsimp only
  -- The payload fills its room.
  rw [payload]
  simp only [Pod.size, kClientCommandPayloadBytes, Nat.reduceAdd, Nat.reduceSub,
    List.replicate_zero, List.append_nil]
  exact putHeader_run orderEntryFormat (writeClientCommand_length cmd) rfl

/-- Decoding either yields a command that passes validation, or an error with a
reason other than `None`. -/
theorem decodeClientCommand_cases (frame : Bytes) :
    (∃ cmd, decodeClientCommand frame = { command := some cmd, error := none } ∧
      validateClientCommand cmd = .none) ∨
    ∃ error, decodeClientCommand frame = { command := none, error := some error } ∧
      error.reason ≠ .none := by
  have malformed (message : String) : ∃ error, fail .malformed message =
      { command := none, error := some error } ∧ error.reason ≠ .none :=
    ⟨_, rfl, (by decide : RejectReason.malformed ≠ .none)⟩
  cases opened : orderEntryFormat.decode frame with
  | error message =>
      exact .inr (by simpa only [decodeClientCommand, opened] using malformed message)
  | ok payload =>
      cases read : readClientCommand payload with
      | none => exact .inr (by simpa only [decodeClientCommand, opened,
            read] using malformed "bad payload")
      | some parts =>
          obtain ⟨cmd, rest⟩ := parts
          simp only [decodeClientCommand, opened, read]
          split
          · exact .inr (malformed "bad payload")
          · split
            · rename_i invalid
              exact .inr ⟨_, rfl, invalid⟩
            · rename_i valid
              exact .inl ⟨cmd, rfl, not_not.mp valid⟩

/-- The encoding of a command is accepted, unchanged, if it passes validation. -/
theorem decodeClientCommand_encoded (cmd : ClientCommand) :
    decodeClientCommand (encodeClientCommand cmd) =
    if validateClientCommand cmd = .none then { command := some cmd, error := none }
    else fail (validateClientCommand cmd) "semantic validation failed" := by
  have fits : (writeClientCommand [] cmd).length < 2 ^ 16 := by
    rw [writeClientCommand_length]
    decide
  have read := readClientCommand_write cmd []
  rw [List.append_nil] at read
  rw [decodeClientCommand, encodeClientCommand, FrameFormat.decode_encode _ fits]
  simp only [read, List.length_nil, ne_eq, not_true_eq_false, ↓reduceIte, ite_not]

/-- What the eleven reads take is what the eleven writes put. -/
theorem readClientCommand_eq_some {reader rest : Reader} {cmd : ClientCommand}
    (read : readClientCommand reader = some (cmd, rest)) :
    reader = writeClientCommand [] cmd ++ rest := by
  simp only [readClientCommand, Option.bind_eq_bind, Option.bind_eq_some_iff] at read
  obtain ⟨⟨type, r₁⟩, readType, ⟨clientOrderId, r₂⟩, readClientOrderId, ⟨orderId, r₃⟩, readOrderId,
    ⟨cancelOrderId, r₄⟩, readCancelOrderId, ⟨accountId, r₅⟩, readAccountId, ⟨symbolId, r₆⟩,
    readSymbolId, ⟨side, r₇⟩, readSide, ⟨price, r₈⟩, readPrice, ⟨qty, r₉⟩, readQty,
    ⟨tif, r₁₀⟩, readTif, ⟨clientTsNs, r₁₁⟩, readClientTsNs, fields⟩ := read
  simp only [Option.some.injEq, Prod.mk.injEq] at fields
  obtain ⟨rfl, rfl⟩ := fields
  have first := Reader.pod_eq_some readType
  have second : r₁ = _ := Reader.pod_eq_some readClientOrderId
  have third : r₂ = _ := Reader.pod_eq_some readOrderId
  have fourth : r₃ = _ := Reader.pod_eq_some readCancelOrderId
  have fifth : r₄ = _ := Reader.pod_eq_some readAccountId
  have sixth : r₅ = _ := Reader.pod_eq_some readSymbolId
  have seventh : r₆ = _ := Reader.pod_eq_some readSide
  have eighth : r₇ = _ := Reader.pod_eq_some readPrice
  have ninth : r₈ = _ := Reader.pod_eq_some readQty
  have tenth : r₉ = _ := Reader.pod_eq_some readTif
  have eleventh : r₁₀ = _ := Reader.pod_eq_some readClientTsNs
  rw [first, second, third, fourth, fifth, sixth, seventh, eighth, ninth, tenth, eleventh]
  simp only [writeClientCommand, Writer.pod, List.nil_append, List.append_assoc]

/-- A command is decoded from nothing but its own encoding. -/
theorem encode_of_decodeClientCommand {frame : Bytes} {cmd : ClientCommand}
    (decoded : (decodeClientCommand frame).command = some cmd) :
    validateClientCommand cmd = .none ∧ encodeClientCommand cmd = frame := by
  rw [decodeClientCommand] at decoded
  cases opened : orderEntryFormat.decode frame with
  | error message =>
      rw [opened] at decoded
      cases decoded
  | ok payload =>
      cases read : readClientCommand payload with
      | none =>
          simp only [opened, read] at decoded
          cases decoded
      | some parts =>
          obtain ⟨other, rest⟩ := parts
          simp only [opened, read] at decoded
          split at decoded
          · cases decoded
          · rename_i exhausted
            split at decoded
            · cases decoded
            · rename_i valid
              obtain rfl : other = cmd := Option.some.inj decoded
              have empty : rest = [] := List.length_eq_zero_iff.mp (not_not.mp exhausted)
              have whole := readClientCommand_eq_some read
              rw [empty, List.append_nil] at whole
              rw [encodeClientCommand, ← whole]
              exact ⟨not_not.mp valid, FrameFormat.encode_of_decode opened⟩

/-- The codec is exact: an encoded command comes back if it is valid and is
refused with its own reason otherwise, and nothing but the encoding of a valid
command is accepted. -/
theorem clientCommand_codec :
    (∀ cmd, decodeClientCommand (encodeClientCommand cmd) =
      if validateClientCommand cmd = .none then { command := some cmd, error := none }
      else fail (validateClientCommand cmd) "semantic validation failed") ∧
    ∀ frame cmd, (decodeClientCommand frame).command = some cmd ↔
      validateClientCommand cmd = .none ∧ encodeClientCommand cmd = frame := by
  refine ⟨fun cmd => ?_, fun frame cmd => ⟨encode_of_decodeClientCommand, fun both => ?_⟩⟩
  · exact decodeClientCommand_encoded cmd
  · obtain ⟨valid, rfl⟩ := both
    rw [decodeClientCommand_encoded, if_pos valid]

end Exsim.Protocol
