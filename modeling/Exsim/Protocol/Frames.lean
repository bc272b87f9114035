import Exsim.Md.MarketData
import Exsim.Protocol.OrderEntry
import Exsim.Util.Damage

namespace Exsim

open Data Protocol Md

/-! # The two kinds of frame

Order entry and market data each encode a frame in two ways that agree, and
notice any single damaged byte.
-/

/-- The encoders with a fixed array write what the plain ones do, to its end. -/
theorem frames_match_encodings :
    (∀ cmd, encodeClientCommandFrame cmd = .ok (encodeClientCommand cmd) ∧
      (encodeClientCommand cmd).length = kClientCommandFrameBytes) ∧
    ∀ ev, encodeMdEventFrame ev = .ok (encodeMdEvent ev) ∧
    (encodeMdEvent ev).length = kMdFrameBytes := by
  refine ⟨fun cmd => ⟨encodeClientCommandFrame_run cmd, ?_⟩,
    fun ev => ⟨encodeMdEventFrame_run ev, ?_⟩⟩
  · rw [encodeClientCommand, FrameFormat.encode, List.length_append, FrameFormat.header_length,
      writeClientCommand_length]
    rfl
  · rw [encodeMdEvent, FrameFormat.encode, List.length_append, FrameFormat.header_length,
      writeMdEvent_length]
    rfl

/-- A frame with one byte replaced is decoded to an error and to nothing else. -/
theorem frames_detect_damage :
    (∀ cmd i old new, (encodeClientCommand cmd)[i]? = some old → new ≠ old →
      ∃ error, decodeClientCommand ((encodeClientCommand cmd).set i new) =
        { command := none, error := some error }) ∧
    ∀ ev expectedSeq i old new, (encodeMdEvent ev)[i]? = some old → new ≠ old →
      ∃ error, decodeMdEvent ((encodeMdEvent ev).set i new) expectedSeq =
        { event := none, error := some error } := by
  constructor
  · intro cmd i old new found changed
    obtain ⟨message, refused⟩ := FrameFormat.decode_damaged found changed
    rw [decodeClientCommand, encodeClientCommand, refused]
    exact ⟨_, rfl⟩
  · intro ev expectedSeq i old new found changed
    obtain ⟨message, refused⟩ := FrameFormat.decode_damaged found changed
    rw [decodeMdEvent, encodeMdEvent, refused]
    exact ⟨_, rfl⟩

/-- A bid and the event of its add. -/
def sentBid : ClientCommand := { orderId := 7, accountId := 1, symbolId := 1, price := 1, qty := 5 }

def sentAdd : MdEvent :=
  { seq := 1, symbolId := 1, orderId := 7, accountId := 1, price := 1, qty := 5 }

/-- The last byte of a command, and the length of an event under the expected number,
both of which decode undamaged. -/
theorem frames_detect_damage_ends :
    (decodeClientCommand (encodeClientCommand sentBid)).command = some sentBid ∧
    (decodeMdEvent (encodeMdEvent sentAdd) (some 1)).event = some sentAdd ∧
    (∃ error, decodeClientCommand ((encodeClientCommand sentBid).set 70 1) =
      { command := none, error := some error }) ∧
    ∃ error, decodeMdEvent ((encodeMdEvent sentAdd).set 6 48) (some 1) =
    { event := none, error := some error } :=
  ⟨by decide +kernel, by
    decide +kernel, frames_detect_damage.1 sentBid 70 0 1 (by decide +kernel) (by decide),
    frames_detect_damage.2 sentAdd (some 1) 6 47 48 (by decide +kernel) (by decide)⟩

end Exsim
