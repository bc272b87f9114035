import Exsim.Bench.LiveIds
import Exsim.Protocol.Frames

/-! # The commands the benchmark draws

Within the ranges of its distributions every command the benchmark draws passes
validation, a cancel names a live id, and an order has an id of its own and a
symbol of the exchange.
-/

open Exsim.Core Exsim.Data Exsim.Protocol

namespace Exsim.Bench

/-- A draw from the distributions of the program. -/
structure Draw.Within (arguments : Arguments) (draw : Draw) : Prop where
  jitter : -arguments.jitterWidth.toInt ≤ draw.jitter.toInt ∧
      draw.jitter.toInt ≤ arguments.jitterWidth.toInt
  account : 1 ≤ draw.account.toInt ∧ draw.account.toInt ≤ 1024
  qty : 1 ≤ draw.qty.toInt ∧ draw.qty.toInt ≤ 100

/-- Arguments for which every constructor returns and no price drawn is below one tick. -/
structure Arguments.Sane (arguments : Arguments) : Prop where
  symbols : arguments.symbols ≠ 0
  notLargest : arguments.symbols ≠ 0xFFFFFFFF
  prices : arguments.halfSpread.toInt.natAbs + arguments.jitterWidth.toInt.natAbs < 100000

/-- What the command of an event can be. -/
inductive Chosen (arguments : Arguments) (state : State) : State → ClientCommand → Prop
  | cancel {cmd : ClientCommand} (isCancel : cmd.type = .cancel)
      (live : cmd.cancelOrderId ∈ state.liveIds) (valid : validateClientCommand cmd = .none) :
      Chosen arguments state state cmd
  | new {cmd : ClientCommand} (isNew : cmd.type = .new) (id : cmd.orderId = state.nextId)
      (known : cmd.symbolId ≠ 0 ∧ cmd.symbolId ≤ arguments.symbols) (small : cmd.qty.toNat ≤ 100)
      (valid : validateClientCommand cmd = .none) :
      Chosen arguments state { state with nextId := state.nextId + 1 } cmd

section

variable {arguments : Arguments} {draw : Draw} {state : State}

/-- A small positive integer converts to the same unsigned one. -/
theorem toUInt32_toNat {x : Int32} {most : Nat} (least : 1 ≤ x.toInt) (bound : x.toInt ≤ most) :
    x.toUInt32 ≠ 0 ∧ x.toUInt32.toNat ≤ most := by
  have same : x.toUInt32.toNat = x.toInt.toNat :=
    Int32.toNat_toUInt32_of_le (Int32.le_iff_toInt_le.mpr (by rw [Int32.toInt_zero]; omega))
  constructor
  · intro zero
    rw [zero, UInt32.toNat_zero] at same
    omega
  · omega

/-- The symbol drawn is one of the exchange's. -/
theorem symbol_drawn {symbols : SymbolId} (some : symbols ≠ 0) (roll : UInt64) :
    (roll % symbols.toUInt64 + 1).toUInt32 ≠ 0 ∧
    (roll % symbols.toUInt64 + 1).toUInt32 ≤ symbols := by
  have positive : 0 < symbols.toNat :=
    Nat.pos_of_ne_zero fun zero => some (UInt32.toNat_inj.mp zero)
  have below := Nat.mod_lt roll.toNat positive
  have bound := symbols.toNat_lt
  have value : (roll % symbols.toUInt64 + 1).toUInt32.toNat = roll.toNat % symbols.toNat + 1 := by
    rw [UInt64.toNat_toUInt32, UInt64.toNat_add, UInt64.toNat_mod, UInt32.toNat_toUInt64,
      UInt64.toNat_one, Nat.mod_eq_of_lt (a := roll.toNat % symbols.toNat + 1) (by omega),
      Nat.mod_eq_of_lt (by omega)]
  constructor
  · intro zero
    rw [zero, UInt32.toNat_zero] at value
    omega
  · rw [UInt32.le_iff_toNat_le, value]
    omega

/-- The middle of a symbol's prices. -/
theorem mid_bounds (sym : SymbolId) :
    100000 ≤ ((100000 : Price) + ((sym % 100) * 10).toUInt64.toInt64).toInt ∧
    ((100000 : Price) + ((sym % 100) * 10).toUInt64.toInt64).toInt ≤ 100990 := by
  have each : ∀ n < 100, 100000 ≤
      ((100000 : Price) + ((UInt32.ofNat n) * 10).toUInt64.toInt64).toInt ∧
      ((100000 : Price) + ((UInt32.ofNat n) * 10).toUInt64.toInt64).toInt ≤ 100990 := by
        decide +kernel
  have small : (sym % 100).toNat < 100 := Nat.mod_lt _ (by decide)
  have bounds := each _ small
  rwa [UInt32.ofNat_toNat] at bounds

/-- A price that strays from its middle by less than the least middle is positive. -/
theorem price_pos {mid spread jitter : Int64} (middle : 100000 ≤ mid.toInt ∧ mid.toInt ≤ 100990)
    (near : spread.toInt.natAbs + jitter.toInt.natAbs < 100000) :
    0 < (mid - spread + jitter).toInt ∧ 0 < (mid + spread + jitter).toInt := by
  rw [Int64.toInt_add, Int64.toInt_sub, Int64.toInt_add, Int64.toInt_add]
  constructor
  · rw [Int.bmod_eq_of_le (n := mid.toInt - spread.toInt) (by omega) (by omega),
      Int.bmod_eq_of_le (by omega) (by omega)]
    omega
  · rw [Int.bmod_eq_of_le (n := mid.toInt + spread.toInt) (by omega) (by omega),
      Int.bmod_eq_of_le (by omega) (by omega)]
    omega

/-- An order with an id, an account, a symbol, a quantity and a price passes validation. -/
theorem validate_makeNew {id : OrderId} {acct : AccountId} {sym : SymbolId} {side : Side}
    {px : Price} {qty : Qty} {ts : TimestampNs} (named : id ≠ 0) (account : acct ≠ 0)
    (symbol : sym ≠ 0) (isSide : side = .buy ∨ side = .sell)
    (price : 0 < px.toInt) (some : qty ≠ 0) :
    validateClientCommand (makeNew id acct sym side px qty ts) = .none := by
  have notBelow : ¬px ≤ 0 := by
    rw [Int64.le_iff_toInt_le, Int64.toInt_zero]
    omega
  rcases isSide with rfl | rfl <;>
    simp [validateClientCommand, makeNew, account, symbol, kInvalidOrderId, named, some, notBelow,
      show CommandType.new ≠ .cancel by decide, show CommandType.new ≠ .replace by decide]

/-- Every draw makes a command that passes validation. -/
theorem command_chosen (sane : arguments.Sane) (within : draw.Within arguments)
    (numbered : state.nextId ≠ 0) (named : ∀ id ∈ state.liveIds, id ≠ 0) :
    ∃ after cmd, state.command arguments draw = .ok (after, cmd) ∧
      cmd.clientTsNs = UInt64.ofNat (state.i + 1) ∧ Chosen arguments state after cmd := by
  have account := toUInt32_toNat within.account.1 within.account.2
  have qty := toUInt32_toNat within.qty.1 within.qty.2
  have symbol := symbol_drawn sane.symbols draw.symbolRoll
  rw [State.command]
  dsimp only
  split
  · rename_i doCancel
    rw [Bool.and_eq_true, Bool.not_eq_true', Array.isEmpty_eq_false_iff] at doCancel
    have positive : 0 < state.liveIds.size := Array.size_pos_iff.mpr doCancel.1
    have inside := Nat.mod_lt draw.pick.toNat positive
    have found := Array.getElem?_eq_getElem inside
    rw [readAt_of_getElem? found, exec_ok_bind]
    have live := Array.mem_of_getElem? found
    refine ⟨_, _, rfl, rfl, .cancel rfl live ?_⟩
    simp [validateClientCommand, account.1, kInvalidOrderId, named _ live,
      show CommandType.cancel ≠ .new by decide, show CommandType.cancel ≠ .replace by decide]
  · have near : arguments.halfSpread.toInt64.toInt.natAbs + draw.jitter.toInt64.toInt.natAbs <
        100000 := by
      have prices := sane.prices
      have jitter := within.jitter
      rw [Int32.toInt_toInt64, Int32.toInt_toInt64]
      omega
    have positive :=
      price_pos (mid_bounds (draw.symbolRoll % arguments.symbols.toUInt64 + 1).toUInt32) near
    refine ⟨_, _, rfl, rfl, .new rfl rfl symbol qty.2 ?_⟩
    refine validate_makeNew numbered account.1 symbol.1 ?_ ?_ qty.1
    · split
      · exact .inl rfl
      · exact .inr rfl
    · split
      · exact positive.1
      · exact positive.2

end

end Exsim.Bench
