import Mathlib.Data.Finmap
import Mathlib.Data.UInt

/-! # Wire and engine types

The fixed-width aliases and records shared by every component.  A scoped
enumeration over `std::uint8_t` can hold any byte, because the decoders cast
whatever arrives, so each one is its underlying byte with named enumerators.
-/

namespace Exsim

abbrev SeqNo := UInt64
abbrev OrderId := UInt64
abbrev ClientOrderId := UInt64
abbrev AccountId := UInt32
abbrev SymbolId := UInt32
/-- Integer ticks. -/
abbrev Price := Int64
abbrev Qty := UInt32
abbrev TimestampNs := UInt64

abbrev Bytes := List UInt8

def kInvalidOrderId : OrderId := 0
def kProtocolMagic : UInt32 := 0x45585349
def kProtocolVersion : UInt16 := 1

structure Side where
  byte : UInt8
deriving DecidableEq, Repr

def Side.buy : Side := ⟨1⟩
def Side.sell : Side := ⟨2⟩

/-- The test `side == Side::Buy`.  Every other byte takes the sell branch. -/
def Side.isBuy (side : Side) : Bool := side == .buy

structure CommandType where
  byte : UInt8
deriving DecidableEq, Repr

def CommandType.new : CommandType := ⟨1⟩
def CommandType.cancel : CommandType := ⟨2⟩
def CommandType.replace : CommandType := ⟨3⟩

structure TimeInForce where
  byte : UInt8
deriving DecidableEq, Repr

def TimeInForce.gtc : TimeInForce := ⟨1⟩
def TimeInForce.ioc : TimeInForce := ⟨2⟩

structure RejectReason where
  byte : UInt8
deriving DecidableEq, Repr

namespace RejectReason

def none : RejectReason := ⟨0⟩
def malformed : RejectReason := ⟨1⟩
def unknownOrder : RejectReason := ⟨2⟩
def duplicateOrder : RejectReason := ⟨3⟩
def riskMaxQty : RejectReason := ⟨4⟩
def riskMaxNotional : RejectReason := ⟨5⟩
def riskOpenOrders : RejectReason := ⟨6⟩
def riskRateLimit : RejectReason := ⟨7⟩
def invalidSymbol : RejectReason := ⟨8⟩
def invalidQty : RejectReason := ⟨9⟩
def invalidPrice : RejectReason := ⟨10⟩

end RejectReason

structure MdType where
  byte : UInt8
deriving DecidableEq, Repr

namespace MdType

def add : MdType := ⟨1⟩
def cancel : MdType := ⟨2⟩
def execute : MdType := ⟨3⟩
def replace : MdType := ⟨4⟩
def reject : MdType := ⟨5⟩

end MdType

structure ClientCommand where
  type : CommandType := .new
  clientOrderId : ClientOrderId := 0
  orderId : OrderId := 0
  /-- Target of a cancel or a replace. -/
  cancelOrderId : OrderId := 0
  accountId : AccountId := 0
  symbolId : SymbolId := 0
  side : Side := .buy
  price : Price := 0
  qty : Qty := 0
  tif : TimeInForce := .gtc
  clientTsNs : TimestampNs := 0
deriving DecidableEq, Repr

structure SequencedCommand where
  seq : SeqNo := 0
  recvTsNs : TimestampNs := 0
  cmd : ClientCommand := {}
deriving DecidableEq, Repr

structure Ack where
  seq : SeqNo := 0
  clientOrderId : ClientOrderId := 0
  orderId : OrderId := 0
  accepted : Bool := false
  reason : RejectReason := .none
deriving DecidableEq, Repr

structure Trade where
  seq : SeqNo := 0
  symbolId : SymbolId := 0
  restingOrderId : OrderId := 0
  aggressingOrderId : OrderId := 0
  price : Price := 0
  qty : Qty := 0
deriving DecidableEq, Repr

structure MdEvent where
  seq : SeqNo := 0
  type : MdType := .add
  symbolId : SymbolId := 0
  orderId : OrderId := 0
  newOrderId : OrderId := 0
  accountId : AccountId := 0
  side : Side := .buy
  price : Price := 0
  /-- Resting quantity of an add, delta of a cancel or an execute. -/
  qty : Qty := 0
  reason : RejectReason := .none
deriving DecidableEq, Repr

/-- An exception the source throws. -/
inductive Thrown where
  | invalidArgument (what : String)
  | outOfRange (what : String)
deriving DecidableEq, Repr

/-- Behaviour the language does not define: an index outside its vector, an
empty optional dereferenced, a loop that never ends. -/
inductive Fault where
  | outOfBounds
  | emptyOptional
  | divergence
deriving DecidableEq, Repr

abbrev Exec := Except Fault

@[simp] theorem exec_ok_bind (value : α) (next : α → Exec β) :
    (Except.ok value >>= next) = next value := rfl

@[simp] theorem exec_pure (value : α) : (pure value : Exec α) = .ok value := rfl

/-- A sequence that succeeds does so step by step. -/
theorem exec_bind_eq_ok {first : Exec α} {next : α → Exec β} {result : β}
    (ran : (first >>= next) = .ok result) :
    ∃ value, first = .ok value ∧ next value = .ok result := by
  cases first with
  | error fault => cases ran
  | ok value => exact ⟨value, rfl, ran⟩

/-- `v[i]`. -/
def readAt (values : Array α) (index : Nat) : Exec α :=
  match values[index]? with
  | some value => .ok value
  | none => .error .outOfBounds

/-- `v[i] = x`. -/
def writeAt (values : Array α) (index : Nat) (value : α) : Exec (Array α) :=
  if index < values.size then .ok (values.setIfInBounds index value) else .error .outOfBounds

theorem readAt_of_getElem? {values : Array α} {index : Nat} {value : α}
    (found : values[index]? = some value) : readAt values index = .ok value := by
  simp only [readAt, found]

theorem writeAt_of_lt {values : Array α} {index : Nat} (value : α) (inside : index < values.size) :
    writeAt values index value = .ok (values.setIfInBounds index value) := by
  simp only [writeAt, if_pos inside]

end Exsim
