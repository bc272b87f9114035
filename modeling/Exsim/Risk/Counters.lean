import Exsim.Core.Risk
import Exsim.Data.Words

/-! # What the risk engine does to its accounts

The check and the feed each change one account: the one of the command, and the
one of the event.
-/

namespace Exsim.Core.RiskEngine

open Data

section

variable {risk : RiskEngine} {ev : MdEvent} {live : Bool} {account : AccountId}
  {cmd : ClientCommand} {books : BookManager} {nowNs : TimestampNs}

/-- `a > b ? a - b : 0`. -/
theorem toNat_reduce (left right : UInt64) : (if left > right then left - right else 0).toNat =
    left.toNat - right.toNat := by
  split
  · rename_i more
    rw [gt_iff_lt, UInt64.lt_iff_toNat_lt] at more
    exact UInt64.toNat_sub_of_le _ _ (UInt64.le_iff_toNat_le.mpr (Nat.le_of_lt more))
  · rename_i less
    rw [gt_iff_lt, UInt64.lt_iff_toNat_lt] at less
    rw [UInt64.toNat_zero]
    omega

/-- The 64 bits of the product of a positive price. -/
theorem notional_toNat_mod {price : Price} (positive : 0 < price.toInt) (qty : Qty) :
    (notional price qty).toNat = price.toInt.toNat * qty.toNat % 2 ^ 64 := by
  have nonnegative : 0 ≤ price := Int64.le_iff_toInt_le.mpr (Int.le_of_lt positive)
  have notBelow : ¬price < 0 := fun below => by
    rw [Int64.lt_iff_toInt_lt, Int64.toInt_zero] at below
    omega
  have magnitude : price.toUInt64.toNat = price.toInt.toNat :=
    Int64.toNat_toUInt64_of_le nonnegative
  rw [notional, if_neg notBelow, UInt64.toNat_mul, magnitude, UInt32.toNat_toUInt64]

theorem notional_toNat {price : Price} {qty : Qty} (positive : 0 < price.toInt)
    (small : price.toInt.toNat * qty.toNat < 2 ^ 64) :
    (notional price qty).toNat = price.toInt.toNat * qty.toNat := by
  rw [notional_toNat_mod positive, Nat.mod_eq_of_lt small]

theorem onMarketData_other (other : account ≠ ev.accountId) :
    (risk.onMarketData ev live).account account = risk.account account := by
  rw [onMarketData]
  split
  · rw [account_withAccount, if_neg other]
  · split
    · rw [account_withAccount, if_neg other]
    · split
      · rw [account_withAccount, if_neg other]
      · rw [account_withAccount, if_neg other]

/-- The counters of the account an event names. -/
theorem onMarketData_add (type : ev.type = .add) :
    (risk.onMarketData ev live).account ev.accountId =
    { risk.account ev.accountId with
      openOrders := (risk.account ev.accountId).openOrders + 1
      openNotional := (risk.account ev.accountId).openNotional + notional ev.price ev.qty } := by
  rw [onMarketData, if_pos type, account_withAccount, if_pos rfl]

theorem onMarketData_cancel (type : ev.type = .cancel) :
    ((risk.onMarketData ev live).account ev.accountId).openOrders.toNat =
      (risk.account ev.accountId).openOrders.toNat - 1 ∧
      ((risk.onMarketData ev live).account ev.accountId).openNotional.toNat =
        (risk.account ev.accountId).openNotional.toNat - (notional ev.price ev.qty).toNat := by
  have notAdd : ¬MdType.cancel = .add := by decide
  rw [onMarketData, type, if_neg notAdd, if_pos rfl, account_withAccount, if_pos rfl]
  exact ⟨toNat_decrement _, toNat_reduce _ _⟩

theorem onMarketData_execute (type : ev.type = .execute) :
    ((risk.onMarketData ev live).account ev.accountId).openOrders.toNat =
        (risk.account ev.accountId).openOrders.toNat - (if live then 0 else 1) ∧
      ((risk.onMarketData ev live).account ev.accountId).openNotional.toNat =
        (risk.account ev.accountId).openNotional.toNat - (notional ev.price ev.qty).toNat := by
  have notAdd : ¬MdType.execute = .add := by decide
  have notCancel : ¬MdType.execute = .cancel := by decide
  rw [onMarketData, type, if_neg notAdd, if_neg notCancel, if_pos rfl,
    account_withAccount, if_pos rfl]
  refine ⟨?_, toNat_reduce _ _⟩
  cases live with
  | true => rfl
  | false =>
      have once := toNat_decrement (risk.account ev.accountId).openOrders
      simpa using once

theorem onMarketData_limits : (risk.onMarketData ev live).limits = risk.limits := by
  rw [onMarketData]
  split
  · rfl
  · split
    · rfl
    · split <;> rfl

/-- What an order that passes the checks keeps to. -/
theorem checkCommand_bounds {limits : RiskLimits} {state : AccountState}
    (passed : checkCommand limits state cmd books = .none)
    (notCancel : cmd.type ≠ .cancel) : cmd.qty ≤ limits.maxOrderQty ∧
    notional cmd.price cmd.qty ≤ limits.maxOrderNotional ∧
      (cmd.type = .new → state.openOrders < limits.maxOpenOrdersPerAccount) := by
  rw [checkCommand, if_neg notCancel] at passed
  split at passed
  · exact absurd passed (show RejectReason.unknownOrder ≠ .none by decide)
  split at passed
  · exact absurd passed (show RejectReason.riskMaxQty ≠ .none by decide)
  rename_i qty
  split at passed
  · exact absurd passed (show RejectReason.riskMaxNotional ≠ .none by decide)
  rename_i notional
  split at passed
  · exact absurd passed (show RejectReason.riskOpenOrders ≠ .none by decide)
  rename_i orders
  refine ⟨UInt32.not_lt.mp qty, UInt64.not_lt.mp notional, fun isNew => ?_⟩
  simpa [isNew] using orders

theorem check_bounds (passed : (risk.check cmd books nowNs).2 = .none)
    (notCancel : cmd.type ≠ .cancel) :
    cmd.qty ≤ risk.limits.maxOrderQty ∧ notional cmd.price cmd.qty ≤ risk.limits.maxOrderNotional ∧
      (cmd.type = .new → (risk.account cmd.accountId).openOrders <
        risk.limits.maxOpenOrdersPerAccount) := by
  rw [check] at passed
  dsimp only at passed
  split at passed
  · exact absurd passed (show RejectReason.riskRateLimit ≠ .none by decide)
  · exact checkCommand_bounds passed notCancel

theorem check_limits (risk : RiskEngine) (cmd : ClientCommand) (books : BookManager)
    (nowNs : TimestampNs) :
    (risk.check cmd books nowNs).1.limits = risk.limits := by
  rw [check]
  split <;> rfl

/-- The check changes no counter. -/
theorem check_counters (risk : RiskEngine) (cmd : ClientCommand) (books : BookManager)
    (nowNs : TimestampNs) (account : AccountId) :
    (((risk.check cmd books nowNs).1.account account).openOrders =
      (risk.account account).openOrders) ∧
    ((risk.check cmd books nowNs).1.account account).openNotional =
    (risk.account account).openNotional := by
  rw [check]
  by_cases own : account = cmd.accountId
  · subst own
    split <;>
      exact ⟨by rw [account_withAccount, if_pos rfl], by rw [account_withAccount, if_pos rfl]⟩
  · split <;>
      exact ⟨by rw [account_withAccount, if_neg own], by rw [account_withAccount, if_neg own]⟩

theorem check_other (other : account ≠ cmd.accountId) :
    (risk.check cmd books nowNs).1.account account = risk.account account := by
  rw [check]
  dsimp only
  split <;> rw [account_withAccount, if_neg other]

theorem check_recentMsgs :
    ((risk.check cmd books nowNs).1.account cmd.accountId).recentMsgs.length ≤
    (risk.account cmd.accountId).recentMsgs.length + 1 := by
  have fewer := (List.dropWhile_sublist (l := (risk.account cmd.accountId).recentMsgs)
    (expired risk.limits nowNs)).length_le
  rw [check]
  dsimp only
  split
  · rw [account_withAccount, if_pos rfl]
    exact Nat.le_succ_of_le fewer
  · rw [account_withAccount, if_pos rfl, List.length_append]
    exact Nat.add_le_add_right fewer 1

end

end Exsim.Core.RiskEngine
