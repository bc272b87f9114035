import Exsim.Exchange.Accounts

/-! # The open-order limit of an account -/

namespace Exsim.Core

open Data Protocol

namespace ArrivalMarket

/-- A replace that rests an order in place of another account's. -/
def Trespasses (market : ArrivalMarket) (cmd : ClientCommand) : Prop :=
  cmd.type = .replace ∧ ∃ symbol, market.symbolOf cmd.cancelOrderId = some symbol ∧
    (market.books symbol).priceInBand cmd.price = true ∧
    Arrivals.rests cmd.orderId cmd.side cmd.price cmd.qty cmd.tif
      (Keyed.erase RestingOrderView.orderId cmd.cancelOrderId (market.books symbol).orders) = true ∧
    ∃ order ∈ (market.books symbol).orders, order.orderId = cmd.cancelOrderId ∧
    order.accountId ≠ cmd.accountId

variable {market : ArrivalMarket} {cmd : ClientCommand} {account : AccountId}

/-- Only an add, or a replace in another account's place, gives an account one more order. -/
theorem apply_grows (seq : SeqNo) (sound : market.Sound) (listed : market.Listed)
    (known : cmd.type = .new → market.validSymbol cmd.symbolId = true) (account : AccountId) :
    (market.apply seq cmd).1.weigh (orderWeight account) ≤ market.weigh (orderWeight account) ∨
      cmd.accountId = account ∧ (cmd.type = .new ∨ market.Trespasses cmd) ∧
        (market.apply seq cmd).1.weigh (orderWeight account) ≤
          market.weigh (orderWeight account) + 1 := by
  have monotone := orderWeight_monotone account
  have grows := apply_weigh_le seq sound listed monotone known
  have most : orderWeight account (orderOf cmd) ≤ 1 := by
    rw [orderWeight]
    split <;> omega
  by_cases own : cmd.accountId = account
  · by_cases isNew : cmd.type = .new
    · rw [if_pos (.inl isNew)] at grows
      exact .inr ⟨own, .inl isNew, by omega⟩
    by_cases isReplace : cmd.type = .replace
    · by_cases trespasses : market.Trespasses cmd
      · rw [if_pos (.inr isReplace)] at grows
        exact .inr ⟨own, .inr trespasses, by omega⟩
      · refine .inl ?_
        rw [apply_replace isReplace, replaceOrder]
        cases target : market.symbolOf cmd.cancelOrderId with
        | none => exact Nat.le_refl _
        | some symbol =>
            obtain ⟨valid, held⟩ := listed _ _ target
            have sound := sound.books symbol valid
            obtain ⟨old, found⟩ := Option.isSome_iff_exists.mp
              (show ((market.books symbol).find cmd.cancelOrderId).isSome = true from held)
            have least : ((market.books symbol).replaceOrder seq cmd.cancelOrderId cmd.orderId
                cmd.accountId cmd.side cmd.price cmd.qty cmd.tif).1.weigh (orderWeight account) ≤
                (market.books symbol).weigh (orderWeight account) + 0 := by
              by_cases inBand : (market.books symbol).priceInBand cmd.price = true
              · have exchanged := sound.weigh_replaceOrder monotone found inBand seq cmd.orderId
                  cmd.accountId cmd.side cmd.qty cmd.tif
                split at exchanged
                · rename_i rests
                  obtain ⟨member, isOld⟩ := Keyed.mem_of_find found
                  have same : old.accountId = cmd.accountId := by
                    by_contra different
                    exact trespasses
                      ⟨isReplace, symbol, target, inBand, rests, old, member, isOld, different⟩
                  have one : orderWeight account old = 1 := if_pos (same.trans own)
                  change _ ≤ _ + orderWeight account (orderOf cmd) at exchanged
                  omega
                · omega
              · rw [ArrivalBook.replaceOrder_outOfBand (Bool.eq_false_iff.mpr inBand)]
                exact Nat.le_refl _
            have settled : ((market.forget cmd.cancelOrderId).settle symbol _ cmd.orderId).weigh
                (orderWeight account) ≤ _ + 0 :=
              settle_weigh_le valid least
            exact settled
    · rw [if_neg (not_or.mpr ⟨isNew, isReplace⟩)] at grows
      exact .inl grows
  · have none : orderWeight account (orderOf cmd) = 0 := if_neg own
    rw [none, ite_self] at grows
    exact .inl grows

end ArrivalMarket

namespace BookManager

/-- Whether a replace rests an order in place of another account's. -/
def trespasses (manager : BookManager) (cmd : ClientCommand) : Bool :=
  cmd.type = .replace && (manager.findBook (manager.orderSymbol cmd.cancelOrderId)).any fun book =>
    book.priceInBand cmd.price &&
      Arrivals.rests cmd.orderId cmd.side cmd.price cmd.qty cmd.tif
        (Keyed.erase RestingOrderView.orderId cmd.cancelOrderId book.resting) &&
      book.resting.any fun order => order.orderId = cmd.cancelOrderId &&
      order.accountId ≠ cmd.accountId

theorem Models.trespasses {manager : BookManager} {market : ArrivalMarket} {cmd : ClientCommand}
    (models : manager.Models market)
    (trespasses : market.Trespasses cmd) : manager.trespasses cmd = true := by
  obtain ⟨isReplace, symbol, target, inBand, rests, order, member, isTarget, different⟩ :=
    trespasses
  obtain ⟨valid, -⟩ := models.listed _ _ target
  obtain ⟨book, stored, refines⟩ := models.books symbol valid
  have same := refines.resting_perm (models.sound.books _ valid)
  rw [BookManager.trespasses, isReplace, decide_eq_true rfl, Bool.true_and, models.any_target]
  refine ⟨symbol, book, target, valid, stored, ?_⟩
  rw [Bool.and_eq_true, Bool.and_eq_true, refines.priceInBand,
    Arrivals.rests_perm (Arrivals.erase_perm same cmd.cancelOrderId),
    List.any_eq_true]
  exact ⟨⟨inBand, rests⟩, order, same.mem_iff.mpr member, by simp [isTarget, different]⟩

end BookManager

namespace Exchange

/-- Whether a call keeps the accounts within their limit: what it lets through
trades with no order the index has lost, and takes another account's place only
below the limit. -/
def withinLimit (exchange : Exchange) (call : ExchangeCall) : Bool :=
  match call.command? with
  | none => true
  | some cmd => !exchange.admits cmd call.nowNs ||
      !exchange.books.untracked cmd && (!exchange.books.trespasses cmd ||
        (exchange.risk.account cmd.accountId).openOrders <
          exchange.risk.limits.maxOpenOrdersPerAccount)

/-- No account has more orders than its counter says, nor than the limit. -/
structure Limited (limit : Nat) (risk : RiskEngine) (market : ArrivalMarket) : Prop where
  limits : risk.limits.maxOpenOrdersPerAccount.toNat = limit
  counted : ∀ account, market.weigh (orderWeight account) ≤ (risk.account account).openOrders.toNat
  below : ∀ account, market.weigh (orderWeight account) ≤ limit

section

variable {exchange after : Exchange} {market later : ArrivalMarket} {call : ExchangeCall}
  {outcome : Outcome} {cmd : ClientCommand} {nowNs : TimestampNs} {limit : Nat}

/-- An admitted add finds its account below the limit. -/
theorem admits_below (admitted : exchange.admits cmd nowNs = true) (isNew : cmd.type = .new) :
    (exchange.risk.account cmd.accountId).openOrders <
      exchange.risk.limits.maxOpenOrdersPerAccount := by
  have notCancel : cmd.type ≠ .cancel := by
    rw [isNew]
    decide
  exact (RiskEngine.check_bounds (admits_iff.mp admitted) notCancel).2.2 isNew

theorem tally_limits (risk : RiskEngine) (live : OrderId → Bool) (events : List MdEvent) :
    (risk.tally live events).limits = risk.limits := by
  induction events generalizing risk with
  | nil => rfl
  | cons ev events ih =>
      refine (ih _).trans ?_
      change (risk.onMarketData ev (live ev.orderId)).limits = risk.limits
      exact RiskEngine.onMarketData_limits

theorem Limited.checked (limited : Limited limit exchange.risk market) (cmd : ClientCommand)
    (nowNs : TimestampNs) :
    Limited limit (exchange.received cmd nowNs).risk market := by
  obtain ⟨limits, counted, below⟩ := limited
  refine ⟨?_, fun account => ?_, below⟩
  · change (exchange.risk.check cmd exchange.books nowNs).1.limits.maxOpenOrdersPerAccount.toNat =
      limit
    rw [RiskEngine.check_limits]
    exact limits
  · change _ ≤ ((exchange.risk.check cmd exchange.books nowNs).1.account account).openOrders.toNat
    rw [(exchange.risk.check_counters cmd exchange.books nowNs account).1]
    exact counted account

/-- An admitted command that takes a place finds its account below the limit. -/
theorem Limited.room (limited : Limited limit exchange.risk market)
    (models : exchange.books.Models market) (admitted : exchange.admits cmd nowNs = true)
    (within : exchange.books.trespasses cmd = false ∨
      (exchange.risk.account cmd.accountId).openOrders <
        exchange.risk.limits.maxOpenOrdersPerAccount)
    (adds : cmd.type = .new ∨ market.Trespasses cmd) :
    (exchange.risk.account cmd.accountId).openOrders.toNat < limit := by
  have below : (exchange.risk.account cmd.accountId).openOrders <
      exchange.risk.limits.maxOpenOrdersPerAccount := by
    obtain isNew | trespasses := adds
    · exact admits_below admitted isNew
    · refine within.resolve_left fun none => ?_
      rw [models.trespasses trespasses] at none
      cases none
  rw [UInt32.lt_iff_toNat_lt, limited.limits] at below
  exact below

/-- What a counter says beyond the orders that rest can stay the same. -/
theorem Limited.grows {risk : RiskEngine} (limited : Limited limit risk market)
    (sound : market.Sound) (listed : market.Listed)
    (known : cmd.type = .new → market.validSymbol cmd.symbolId = true)
    (room : cmd.type = .new ∨ market.Trespasses cmd →
      (risk.account cmd.accountId).openOrders.toNat < limit) (seq : SeqNo) (account : AccountId) :
    (risk.account account).openOrders.toNat - market.weigh (orderWeight account) +
        (market.apply seq cmd).1.weigh (orderWeight account) < 2 ^ 32 ∧
      (market.apply seq cmd).1.weigh (orderWeight account) ≤ limit := by
  have fits : limit < 2 ^ 32 := by
    rw [← limited.limits]
    exact UInt32.toNat_lt _
  have counted := limited.counted account
  have below := limited.below account
  have range := (risk.account account).openOrders.toNat_lt
  obtain fewer | ⟨own, adds, more⟩ := ArrivalMarket.apply_grows seq sound listed known account
  · omega
  · have room := room adds
    rw [own] at room
    omega

theorem Called.limited (called : Called exchange market call after outcome later)
    (models : exchange.books.Models market) (limited : Limited limit exchange.risk market)
    (guarded : exchange.withinLimit call = true) :
    Limited limit after.risk later := by
  cases called with
  | undecoded => exact limited
  | @refused cmd => exact limited.checked cmd call.nowNs
  | @threw cmd => exact limited.checked cmd call.nowNs
  | @applied cmd books carried admitted known advances =>
      have kept := limited.checked cmd call.nowNs
      rw [withinLimit, carried] at guarded
      simp only [admitted, Bool.not_true, Bool.false_or, Bool.and_eq_true, Bool.not_eq_true',
        Bool.or_eq_true, decide_eq_true_eq] at guarded
      obtain ⟨tracked, within⟩ := guarded
      rw [publish_risk]
      by_cases accepted : (market.apply exchange.nextSeq cmd).2.reject = .none
      · rw [if_pos accepted]
        have told := models.tracked known tracked exchange.nextSeq
        have room : cmd.type = .new ∨ market.Trespasses cmd →
            ((exchange.received cmd call.nowNs).risk.account cmd.accountId).openOrders.toNat <
              limit := by
          intro adds
          change (((exchange.risk.check cmd exchange.books call.nowNs).1).account
            cmd.accountId).openOrders.toNat < limit
          rw [(exchange.risk.check_counters cmd exchange.books call.nowNs cmd.accountId).1]
          exact limited.room models admitted within adds
        have each := kept.grows models.sound models.listed known room exchange.nextSeq
        dsimp only
        rw [advances.models.containsOrder_eq]
        refine ⟨by rw [tally_limits]; exact kept.limits, fun account => ?_, fun account => (each
          account).2⟩
        have counted : ((exchange.received cmd call.nowNs).risk.account account).openOrders.toNat =
            ((exchange.received cmd call.nowNs).risk.account account).openOrders.toNat -
              market.weigh (orderWeight account) + market.weigh (orderWeight account) :=
          (Nat.sub_add_cancel (kept.counted account)).symm
        rw [told.openOrders models.sound models.priced ArrivalMarket.apply_maxSymbol counted
          (each account).1]
        exact Nat.le_add_left _ _
      · rw [if_neg accepted]
        have fewer : ∀ account, (market.apply exchange.nextSeq cmd).1.weigh (orderWeight account) ≤
            market.weigh (orderWeight account) :=
          fun account =>
            ArrivalMarket.apply_refused_weigh_le models.sound models.listed known accepted
        exact ⟨kept.limits, fun account => Nat.le_trans (fewer account) (kept.counted account),
          fun account => Nat.le_trans (fewer account) (kept.below account)⟩

/-- In every run that keeps the accounts within their limit call by call and
runs out of no slots, no account has more resting orders than the limit. -/
theorem run_openOrders_le {cfg : ExchangeConfig} {fresh : Exchange} {calls : List ExchangeCall}
    (created : Exchange.create cfg = some (.ok fresh))
    (guarded : Along Exchange.call (fun exchange input => exchange.books.HasRoom ∧
      exchange.withinLimit input = true) fresh calls) :
    ∃ after outcomes, run Exchange.call fresh calls = .ok (after, outcomes) ∧
      ∀ account, after.books.openOrders account ≤ cfg.riskLimits.maxOpenOrdersPerAccount.toNat := by
  have start :
      Limited cfg.riskLimits.maxOpenOrdersPerAccount.toNat fresh.risk fresh.books.blank := by
    refine ⟨by rw [(create_ok created).2], fun account => ?_, fun account => ?_⟩
    · rw [BookManager.blank_weigh]
      exact Nat.zero_le _
    · rw [BookManager.blank_weigh]
      exact Nat.zero_le _
  have keep : ∀ {exchange market input after outcome later},
      Called exchange market input after outcome later →
      exchange.books.Models market →
      Limited cfg.riskLimits.maxOpenOrdersPerAccount.toNat exchange.risk market →
      exchange.withinLimit input = true →
      Limited cfg.riskLimits.maxOpenOrdersPerAccount.toNat after.risk later :=
    fun called models limited within => called.limited models limited within
  obtain ⟨after, outcomes, market, ran, models, limited⟩ := run_kept created keep start guarded
  refine ⟨after, outcomes, ran, fun account => ?_⟩
  rw [models.openOrders]
  exact limited.below account

end

/-- An exchange of one symbol that lets an account have one order. -/
def oneOrderConfig : ExchangeConfig :=
  { oneSymbolConfig with riskLimits := { maxOpenOrdersPerAccount := 1 } }

def oneOrder : Exchange := { oneSymbol with risk := { limits := oneOrderConfig.riskLimits } }

theorem oneOrder_created : Exchange.create oneOrderConfig = some (.ok oneOrder) := by
  decide +kernel

/-- A bid, a second one that the limit refuses, and a replace of the first. -/
theorem run_openOrders_le_oneOrder : ∃ after outcomes,
    run Exchange.call oneOrder [framed BookManager.restingBid, framed secondBid,
      framed
        { type := .replace, orderId := 10, cancelOrderId := 7, accountId := 1, symbolId := 1,
          price := 2, qty := 4 }] = .ok (after, outcomes) ∧
      ∀ account, after.books.openOrders account ≤
        oneOrderConfig.riskLimits.maxOpenOrdersPerAccount.toNat :=
  run_openOrders_le oneOrder_created (by decide +kernel)

/-- A bid of another account, and a replace of it. -/
def takeover : List ExchangeCall :=
  [framed BookManager.restingBid, framed { secondBid with accountId := 2 },
    framed
      { type := .replace, orderId := 10, cancelOrderId := 8, accountId := 1, symbolId := 1,
        price := 2, qty := 4 }]

/-- An account at its limit replaces an order of another account. -/
theorem limit_exceeded : Exchange.create oneOrderConfig = some (.ok oneOrder) ∧
    ∃ after outcomes, run Exchange.call oneOrder takeover = .ok (after, outcomes) ∧
      ¬after.books.openOrders 1 ≤ oneOrderConfig.riskLimits.maxOpenOrdersPerAccount.toNat := by
  have counts : (run Exchange.call oneOrder takeover).toOption.map
    (fun result => result.1.books.openOrders 1) = some 2 := by
    decide +kernel
  obtain ⟨result, ran, two⟩ := ok_of_map counts
  refine ⟨oneOrder_created, result.1, result.2, ran, ?_⟩
  rw [two]
  decide

end Exchange

end Exsim.Core
