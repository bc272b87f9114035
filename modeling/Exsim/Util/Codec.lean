import Exsim.Types
import Exsim.Data.LittleEndian

namespace Exsim

open Data

/-- A trivially copyable type with its `sizeof` and its little-endian image. -/
class Pod (α : Type) where
  size : Nat
  bits : α → Nat
  ofBits : Nat → α
  bits_lt : ∀ value, bits value < 256 ^ size
  ofBits_bits : ∀ value, ofBits (bits value) = value
  bits_ofBits : ∀ n, n < 256 ^ size → bits (ofBits n) = n

instance : Pod UInt8 where
  size := 1
  bits := UInt8.toNat
  ofBits := UInt8.ofNat
  bits_lt value := value.toNat_lt
  ofBits_bits _ := UInt8.ofNat_toNat
  bits_ofBits n fits := by
    simp only [UInt8.toNat_ofNat']
    omega

instance : Pod UInt16 where
  size := 2
  bits := UInt16.toNat
  ofBits := UInt16.ofNat
  bits_lt value := value.toNat_lt
  ofBits_bits _ := UInt16.ofNat_toNat
  bits_ofBits n fits := by
    simp only [UInt16.toNat_ofNat']
    omega

instance : Pod UInt32 where
  size := 4
  bits := UInt32.toNat
  ofBits := UInt32.ofNat
  bits_lt value := value.toNat_lt
  ofBits_bits _ := UInt32.ofNat_toNat
  bits_ofBits n fits := by
    simp only [UInt32.toNat_ofNat']
    omega

instance : Pod UInt64 where
  size := 8
  bits := UInt64.toNat
  ofBits := UInt64.ofNat
  bits_lt value := value.toNat_lt
  ofBits_bits _ := UInt64.ofNat_toNat
  bits_ofBits n fits := by
    simp only [UInt64.toNat_ofNat']
    omega

/-- A signed price travels as its two's complement word. -/
instance : Pod Int64 where
  size := 8
  bits value := value.toUInt64.toNat
  ofBits n := (UInt64.ofNat n).toInt64
  bits_lt value := value.toUInt64.toNat_lt
  ofBits_bits value := by rw [UInt64.ofNat_toNat]; rfl
  bits_ofBits n fits := by
    change (UInt64.ofNat n).toNat = n
    simp only [UInt64.toNat_ofNat']
    omega

/-- `Writer::pod` on the buffer written so far. -/
def Writer.pod [Pod α] (out : Bytes) (value : α) : Bytes :=
  out ++ toBytes (Pod.size α) (Pod.bits value)

theorem Writer.pod_length [Pod α] (out : Bytes) (value : α) :
    (Writer.pod out value).length = out.length + Pod.size α := by
  rw [Writer.pod, List.length_append, toBytes_length]

/-- A reader is the part of its span past the cursor.  The decoders reject when
any read fails, so a failed read ends the decoding here. -/
abbrev Reader := Bytes

namespace Reader

def pod (α : Type) [Pod α] (reader : Reader) : Option (α × Reader) :=
  if reader.length < Pod.size α then none
  else some (Pod.ofBits (ofBytes (reader.take (Pod.size α))), reader.drop (Pod.size α))

def bytes (reader : Reader) (count : Nat) : Option (Bytes × Reader) :=
  if reader.length < count then none
  else some (reader.take count, reader.drop count)

@[simp] theorem pod_toBytes [Pod α] (value : α) (rest : Bytes) :
    Reader.pod α (toBytes (Pod.size α) (Pod.bits value) ++ rest) = some (value, rest) := by
  have enough : ¬ (toBytes (Pod.size α) (Pod.bits value) ++ rest).length < Pod.size α := by
    simp only [List.length_append, toBytes_length]
    omega
  have width : (toBytes (Pod.size α) (Pod.bits value)).length = Pod.size α := toBytes_length _ _
  rw [Reader.pod, if_neg enough, List.take_left' width, List.drop_left' width,
    ofBytes_toBytes (Pod.bits_lt value), Pod.ofBits_bits]

theorem pod_eq_some [Pod α] {reader rest : Reader} {value : α}
    (read : Reader.pod α reader = some (value, rest)) :
    reader = toBytes (Pod.size α) (Pod.bits value) ++ rest := by
  rw [Reader.pod] at read
  split at read
  · contradiction
  · rename_i enough
    simp only [Option.some.injEq, Prod.mk.injEq] at read
    obtain ⟨rfl, rfl⟩ := read
    have width : (reader.take (Pod.size α)).length = Pod.size α := by
      rw [List.length_take]
      omega
    have fits : ofBytes (reader.take (Pod.size α)) < 256 ^ Pod.size α := by
      simpa only [width] using ofBytes_lt (reader.take (Pod.size α))
    rw [Pod.bits_ofBits _ fits]
    have image := toBytes_ofBytes (reader.take (Pod.size α))
    rw [width] at image
    rw [image, List.take_append_drop]

@[simp] theorem bytes_append (first rest : Bytes) :
    Reader.bytes (first ++ rest) first.length = some (first, rest) := by
  simp [Reader.bytes]

theorem bytes_eq_some {reader payload rest : Reader} {count : Nat}
    (read : reader.bytes count = some (payload, rest)) :
    count = payload.length ∧ reader = payload ++ rest := by
  rw [Reader.bytes] at read
  split at read
  · contradiction
  · rename_i enough
    simp only [Option.some.injEq, Prod.mk.injEq] at read
    obtain ⟨rfl, rfl⟩ := read
    refine ⟨?_, (List.take_append_drop count reader).symm⟩
    rw [List.length_take]
    omega

end Reader

end Exsim
