import Exsim.Data.Damage
import Exsim.Util.Frame

namespace Exsim

open Data

/-! # A damaged byte shows in the checksum

FNV-1a multiplies by an odd constant, so each of its steps can be undone.
-/

/-- The inverse of the FNV prime. -/
theorem fnvPrime_inverse : (1099511628211 : UInt64) * 14886173955864302971 = 1 := by
  decide

theorem fnvPrime_cancel {left right : UInt64}
    (same : left * 1099511628211 = right * 1099511628211) : left = right := by
  have undone := congrArg (· * (14886173955864302971 : UInt64)) same
  simpa only [UInt64.mul_assoc, fnvPrime_inverse, UInt64.mul_one] using undone

theorem fnvStep_reversible (byte : UInt8) : Function.Injective (fnvStep · byte) := by
  intro left right same
  exact (UInt64.xor_left_inj _).mp (fnvPrime_cancel same)

theorem fnvStep_distinguishes (h : UInt64) : Function.Injective (fnvStep h) := by
  intro left right same
  exact UInt8.toUInt64_inj.mp ((UInt64.xor_right_inj _).mp (fnvPrime_cancel same))

theorem fnv1a64_set_ne {bytes : Bytes} {i : Nat} {old new : UInt8} (found : bytes[i]? = some old)
    (changed : new ≠ old) :
    fnv1a64 (bytes.set i new) ≠ fnv1a64 bytes :=
  foldl_set_ne fnvStep_reversible fnvStep_distinguishes found changed _

namespace FrameFormat

variable {format : FrameFormat} {payload : Bytes} {i : Nat} {old new : UInt8}

theorem header_checksum {other : Bytes} (same : format.header payload = format.header other) :
    fnv1a64 payload = fnv1a64 other := by
  have read := readHeader_append format payload []
  rw [same, readHeader_append] at read
  simp only [Option.some.injEq, Prod.mk.injEq] at read
  exact read.2.2.2.1.symm

/-- A frame with one byte replaced is not accepted. -/
theorem decode_damaged (found : (format.encode payload)[i]? = some old) (changed : new ≠ old) :
    ∃ message, format.decode ((format.encode payload).set i new) = .error message := by
  cases opened : format.decode ((format.encode payload).set i new) with
  | error message => exact ⟨message, rfl⟩
  | ok other =>
      have same : format.encode other = (format.encode payload).set i new := encode_of_decode opened
      have apart : (format.encode payload).set i new ≠ format.encode other :=
        stamped_set_ne header_checksum (by rw [header_length, header_length])
          (fun there => fnv1a64_set_ne there changed) found changed
      exact absurd same.symm apart

end FrameFormat

end Exsim
