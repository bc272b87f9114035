import Exsim.Types

namespace Exsim

/-- One byte of FNV-1a. -/
def fnvStep (h : UInt64) (byte : UInt8) : UInt64 :=
  (h ^^^ byte.toUInt64) * 1099511628211

def fnv1a64 (data : Bytes) : UInt64 :=
  data.foldl fnvStep 1469598103934665603

def mix64 (x : UInt64) : UInt64 :=
  let x := x + 0x9e3779b97f4a7c15
  let x := (x ^^^ (x >>> 30)) * 0xbf58476d1ce4e5b9
  let x := (x ^^^ (x >>> 27)) * 0x94d049bb133111eb
  x ^^^ (x >>> 31)

def hashCombine (h v : UInt64) : UInt64 :=
  h ^^^ mix64 (v + 0x9e3779b97f4a7c15 + (h <<< (6 : UInt64)) + (h >>> (2 : UInt64)))

/-- `hash_combine` over a sequence of words. -/
def hashWords (h : UInt64) (words : List UInt64) : UInt64 :=
  words.foldl hashCombine h

@[simp] theorem hashWords_cons (h word : UInt64) (words : List UInt64) :
    hashWords h (word :: words) = hashWords (hashCombine h word) words := rfl

theorem hashWords_append (h : UInt64) (first second : List UInt64) :
    hashWords h (first ++ second) = hashWords (hashWords h first) second :=
  List.foldl_append

theorem hashWords_flatMap {Item : Type} (h : UInt64) (words : Item → List UInt64)
    (items : List Item) :
    hashWords h (items.flatMap words) = items.foldl (fun h item => hashWords h (words item)) h :=
  List.foldl_flatMap

end Exsim
