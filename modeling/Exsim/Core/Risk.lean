import Exsim.Core.BookManager

namespace Exsim.Core

structure RiskLimits where
  maxOrderQty : Qty := 100000
  maxOrderNotional : UInt64 := 10000000000
  maxOpenOrdersPerAccount : UInt32 := 100000
  maxMsgsPerWindow : UInt32 := 100000
  rateWindowNs : TimestampNs := 1000000000
deriving DecidableEq, Repr

structure AccountState where
  openOrders : UInt32 := 0
  openNotional : UInt64 := 0
  /-- The deque, front first. -/
  recentMsgs : List TimestampNs := []
deriving DecidableEq, Repr

structure RiskEngine where
  limits : RiskLimits
  accounts : UnorderedMap AccountId AccountState := ∅
deriving DecidableEq

namespace RiskEngine

/-- `|price| * qty` in 64 bits.  The magnitude of the smallest price is the
wrapped one. -/
def notional (price : Price) (qty : Qty) : UInt64 :=
  (if price < 0 then (-price).toUInt64 else price.toUInt64) * qty.toUInt64

/-- `accounts_[id]`, default-constructed when absent. -/
def account (risk : RiskEngine) (id : AccountId) : AccountState := (risk.accounts.lookup id).getD {}

def withAccount (risk : RiskEngine) (id : AccountId) (state : AccountState) : RiskEngine :=
  { risk with accounts := risk.accounts.insert id state }

theorem lookup_withAccount (risk : RiskEngine) (id other : AccountId) (state : AccountState) :
    (risk.withAccount id state).accounts.lookup other =
      if other = id then some state else risk.accounts.lookup other := by
  rw [withAccount]
  split
  · rename_i same
    rw [same, Finmap.lookup_insert]
  · rename_i different
    rw [Finmap.lookup_insert_of_ne _ different]

theorem account_withAccount (risk : RiskEngine) (id other : AccountId) (state : AccountState) :
    (risk.withAccount id state).account other =
      if other = id then state else risk.account other := by
  rw [account, lookup_withAccount]
  split <;> rfl

/-- The condition under which `check` pops the front timestamp. -/
def expired (limits : RiskLimits) (nowNs front : TimestampNs) : Bool :=
  nowNs ≥ front && nowNs - front > limits.rateWindowNs

/-- The checks after the rate limit. -/
def checkCommand (limits : RiskLimits) (state : AccountState) (cmd : ClientCommand)
    (books : BookManager) : RejectReason :=
  if cmd.type = .cancel then
    if !books.containsOrder cmd.cancelOrderId then .unknownOrder else .none
  else if cmd.type = .replace && !books.containsOrder cmd.cancelOrderId then .unknownOrder
  else if cmd.qty > limits.maxOrderQty then .riskMaxQty
  else if notional cmd.price cmd.qty > limits.maxOrderNotional then .riskMaxNotional
  else if state.openOrders ≥ limits.maxOpenOrdersPerAccount && cmd.type = .new then .riskOpenOrders
  else .none

def check (risk : RiskEngine) (cmd : ClientCommand) (books : BookManager) (nowNs : TimestampNs) :
    RiskEngine × RejectReason :=
  let state := risk.account cmd.accountId
  let recentMsgs := state.recentMsgs.dropWhile (expired risk.limits nowNs)
  if recentMsgs.length ≥ risk.limits.maxMsgsPerWindow.toNat then
    (risk.withAccount cmd.accountId { state with recentMsgs }, .riskRateLimit)
  else
    let state := { state with recentMsgs := recentMsgs ++ [nowNs] }
    (risk.withAccount cmd.accountId state, checkCommand risk.limits state cmd books)

def onMarketData (risk : RiskEngine) (ev : MdEvent) (orderLiveAfter : Bool) : RiskEngine :=
  let state := risk.account ev.accountId
  let n := notional ev.price ev.qty
  let reduced := if state.openNotional > n then state.openNotional - n else 0
  if ev.type = .add then
    risk.withAccount ev.accountId
      { state with openOrders := state.openOrders + 1, openNotional := state.openNotional + n }
  else if ev.type = .cancel then
    risk.withAccount ev.accountId
      { state with
        openOrders := if state.openOrders > 0 then state.openOrders - 1 else state.openOrders
        openNotional := reduced }
  else if ev.type = .execute then
    risk.withAccount ev.accountId
      { state with
        openOrders :=
          if !orderLiveAfter && state.openOrders > 0 then state.openOrders - 1 else state.openOrders
        openNotional := reduced }
  else risk.withAccount ev.accountId state

/-- The checksum for one enumeration order of the account table. -/
def checksumOf (entries : List (AccountId × AccountState)) : UInt64 :=
  entries.foldl (fun h (account, state) =>
    hashWords h [account.toUInt64, state.openOrders.toUInt64, state.openNotional])
    0x5249534b43484b53

end RiskEngine

end Exsim.Core
