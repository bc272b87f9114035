import Exsim.Exchange.Calls
import Exsim.Reference.Accounts
import Exsim.Risk.Counters

/-! # The risk counters against the orders that rest -/

namespace Exsim.Core

open Data Journal

namespace ArrivalBook

variable {book middle after final : ArrivalBook} {live : OrderId → Bool} {ev : MdEvent}
  {events : List MdEvent} {risk : RiskEngine} {account : AccountId} {slack : Nat}

/-- An event moves the count of an account as it moves the orders of the account. -/
theorem Weighs.openOrders {before after : Nat}
    (weighs : Weighs live ev (orderWeight account) before after)
    (counted : (risk.account account).openOrders.toNat = slack + before)
    (small : ev.type = .add → slack + after < 2 ^ 32) :
    ((risk.onMarketData ev (live ev.orderId)).account account).openOrders.toNat =
      slack + after := by
  by_cases own : ev.accountId = account
  · subst own
    have weight : ∀ qty, orderWeight ev.accountId { eventOrder ev with qty } = 1 :=
      fun _ => if_pos rfl
    cases weighs with
    | add type =>
        have small := small type
        have one : orderWeight ev.accountId (eventOrder ev) = 1 := weight _
        rw [one] at small ⊢
        rw [RiskEngine.onMarketData_add type]
        dsimp only
        rw [UInt32.toNat_add, counted, UInt32.toNat_one, Nat.mod_eq_of_lt (by omega)]
        omega
    | cancel type balance =>
        have one : orderWeight ev.accountId (eventOrder ev) = 1 := weight _
        rw [(RiskEngine.onMarketData_cancel type).1, counted]
        omega
    | execute type enough survives balance =>
        rw [(RiskEngine.onMarketData_execute type).1, counted]
        rw [weight, weight] at balance
        cases alive : live ev.orderId with
        | true =>
            rw [alive, if_pos rfl] at balance
            rw [if_pos rfl]
            omega
        | false =>
            rw [alive, if_neg Bool.false_ne_true] at balance
            rw [if_neg Bool.false_ne_true]
            omega
  · have weight : ∀ qty, orderWeight account { eventOrder ev with qty } = 0 := fun _ => if_neg own
    have none : orderWeight account (eventOrder ev) = 0 := weight _
    rw [RiskEngine.onMarketData_other (Ne.symm own), counted]
    cases weighs with
    | add => rw [none, Nat.add_zero]
    | cancel type balance => omega
    | execute type enough survives balance =>
        rw [weight, weight, ite_self] at balance
        omega

/-- An event moves the notional of an account as it moves the orders of the account. -/
theorem Weighs.openNotional {before after : Nat}
    (weighs : Weighs live ev (notionalWeight account) before after)
    (positive : 0 < ev.price.toInt)
    (counted : (risk.account account).openNotional.toNat = slack + before)
    (small : ev.type = .add → slack + after < 2 ^ 64) :
    ((risk.onMarketData ev (live ev.orderId)).account account).openNotional.toNat =
      slack + after := by
  by_cases own : ev.accountId = account
  · subst own
    have limit := (risk.account ev.accountId).openNotional.toNat_lt
    have weight : ∀ qty : Qty, notionalWeight ev.accountId { eventOrder ev with qty } =
        ev.price.toInt.toNat * qty.toNat :=
      fun _ => if_pos rfl
    have told : notionalWeight ev.accountId (eventOrder ev) = ev.price.toInt.toNat * ev.qty.toNat :=
      weight ev.qty
    cases weighs with
    | add type =>
        have small := small type
        rw [told] at small ⊢
        rw [RiskEngine.onMarketData_add type]
        dsimp only
        rw [UInt64.toNat_add, counted, RiskEngine.notional_toNat positive (by omega),
          Nat.mod_eq_of_lt (by omega)]
        omega
    | cancel type balance =>
        rw [told] at balance
        rw [(RiskEngine.onMarketData_cancel type).2, counted,
          RiskEngine.notional_toNat positive (by omega)]
        omega
    | execute type enough survives balance =>
        rename_i qty
        have part : (qty - ev.qty).toNat = qty.toNat - ev.qty.toNat :=
          UInt32.toNat_sub_of_le _ _ enough
        have bound := UInt32.le_iff_toNat_le.mp enough
        have split : ev.price.toInt.toNat * qty.toNat =
            ev.price.toInt.toNat * ev.qty.toNat +
              ev.price.toInt.toNat * (qty.toNat - ev.qty.toNat) := by
          rw [← Nat.mul_add, Nat.add_sub_cancel' bound]
        rw [weight, weight, part, split] at balance
        have taken : after + ev.price.toInt.toNat * ev.qty.toNat = before := by
          cases alive : live ev.orderId with
          | true =>
              rw [alive, if_pos rfl] at balance
              omega
          | false =>
              rw [alive] at survives
              have whole := of_decide_eq_false survives.symm
              rw [UInt32.lt_iff_toNat_lt] at whole
              have none : qty.toNat - ev.qty.toNat = 0 := by omega
              rw [alive, if_neg Bool.false_ne_true, none, Nat.mul_zero] at balance
              omega
        rw [(RiskEngine.onMarketData_execute type).2, counted,
          RiskEngine.notional_toNat positive (by omega)]
        omega
  · have weight : ∀ qty, notionalWeight account { eventOrder ev with qty } = 0 :=
      fun _ => if_neg own
    have none : notionalWeight account (eventOrder ev) = 0 := weight ev.qty
    rw [RiskEngine.onMarketData_other (Ne.symm own), counted]
    cases weighs with
    | add => rw [none, Nat.add_zero]
    | cancel type balance => omega
    | execute type enough survives balance =>
        rw [weight, weight, ite_self] at balance
        omega

/-- What every event of a call keeps of the counters, the call keeps. -/
theorem Tells.tallied (counted : RiskEngine → ArrivalBook → Prop)
    (tells : Tells live book events final) (addsLast : ∀ ev ∈ events.dropLast, ev.removes = true)
    (sound : book.Sound) (priced : book.Priced)
    (step : ∀ {risk book ev middle}, Told live book ev middle → book.Sound → book.Priced →
      (ev.type = .add → middle = final) → counted risk book → counted
      (risk.onMarketData ev (live ev.orderId)) middle)
    (start : counted risk book) : counted (risk.tally live events) final := by
  induction tells generalizing risk with
  | nil => exact start
  | @cons book ev middle events final head tail ih =>
      obtain ⟨removesOrLast, later⟩ := addsLast_cons addsLast
      -- An add is the last event, so it leaves the final book.
      have ends : ev.type = .add → middle = final := by
        intro type
        obtain removes | last := removesOrLast
        · rw [MdEvent.removes, type] at removes
          exact absurd removes (by decide)
        · subst last
          cases tail
          rfl
      exact ih later (head.sound sound) (head.priced priced) step
        (step head sound priced ends start)

end ArrivalBook

namespace ArrivalMarket

variable {market later : ArrivalMarket} {events : List MdEvent} {risk : RiskEngine}
  {account : AccountId} {lost : Nat}

/-- Every order of a valid symbol rests at a positive price within its band. -/
def Priced (market : ArrivalMarket) : Prop :=
  ∀ symbol, market.validSymbol symbol = true → (market.books symbol).Priced

theorem Tracked.openOrders (tracked : Tracked market events later) (sound : market.Sound)
    (priced : market.Priced) (sameMax : later.maxSymbol = market.maxSymbol)
    (counted : (risk.account account).openOrders.toNat = lost + market.weigh (orderWeight account))
    (small : lost + later.weigh (orderWeight account) < 2 ^ 32) :
    ((risk.tally (fun id => (later.symbolOf id).isSome) events).account account).openOrders.toNat =
      lost + later.weigh (orderWeight account) := by
  obtain ⟨books, rfl⟩ | ⟨symbol, after, valid, books, tells, addsLast⟩ := tracked
  · rw [weigh_congr _ sameMax books]
    exact counted
  · rw [weigh_update _ sameMax valid books, ← Nat.add_assoc] at small ⊢
    rw [weigh_split _ valid, ← Nat.add_assoc] at counted
    refine tells.tallied (fun risk book => (risk.account account).openOrders.toNat =
      lost + market.rest (orderWeight account) symbol + book.weigh (orderWeight account)) addsLast
      (sound.books symbol valid)
      (priced symbol valid) ?_ counted
    intro risk book ev middle told sound priced ends counted
    exact (told.weighs sound _).openOrders counted fun type => by rw [ends type]; exact small

theorem Tracked.openNotional (tracked : Tracked market events later) (sound : market.Sound)
    (priced : market.Priced) (sameMax : later.maxSymbol = market.maxSymbol)
    (counted : (risk.account account).openNotional.toNat = market.weigh (notionalWeight account))
    (small : later.weigh (notionalWeight account) < 2 ^ 64) :
    ((risk.tally (fun id => (later.symbolOf id).isSome) events).account
      account).openNotional.toNat = later.weigh (notionalWeight account) := by
  obtain ⟨books, rfl⟩ | ⟨symbol, after, valid, books, tells, addsLast⟩ := tracked
  · rw [weigh_congr _ sameMax books]
    exact counted
  · rw [weigh_update _ sameMax valid books] at small ⊢
    rw [weigh_split _ valid] at counted
    refine tells.tallied (fun risk book => (risk.account account).openNotional.toNat =
      market.rest (notionalWeight account) symbol + book.weigh (notionalWeight account)) addsLast
      (sound.books symbol valid) (priced symbol valid) ?_ counted
    intro risk book ev middle told sound priced ends counted
    exact (told.weighs sound _).openNotional (told.price_pos priced) counted fun type => by
      rw [ends type]; exact small

end ArrivalMarket

namespace BookManager

variable {manager : BookManager} {market : ArrivalMarket} {cmd : ClientCommand}

theorem Models.priced (models : manager.Models market) : market.Priced := by
  intro symbol valid
  obtain ⟨book, -, queues, mirrors⟩ := models.books symbol valid
  refine ⟨?_, fun order member => ?_⟩
  · rw [mirrors.minPrice]
    exact mirrors.rep.ladder.positive
  · rw [mirrors.priceInBand]
    exact mirrors.inBand order member

theorem blank_weigh (manager : BookManager) (weight : RestingOrderView → Nat) :
    manager.blank.weigh weight = 0 := by
  refine Finset.sum_eq_zero fun i _ => ?_
  rw [ArrivalBook.weigh, blank_orders]
  rfl

/-- The orders resting in all books. -/
def resting (manager : BookManager) : List RestingOrderView :=
  manager.activeBooks.flatMap OrderBook.resting

/-- How many orders rest under an account. -/
def openOrders (manager : BookManager) (account : AccountId) : Nat :=
  (manager.resting.filter fun order => order.accountId = account).length

/-- Price times quantity of the orders that rest under an account. -/
def openNotional (manager : BookManager) (account : AccountId) : Nat :=
  ((manager.resting.filter fun order => order.accountId = account).map fun order =>
    order.price.toInt.toNat * order.qty.toNat).sum

theorem sum_filter {Entry : Type} (keep : Entry → Bool) (weight : Entry → Nat)
    (entries : List Entry) :
    ((entries.filter keep).map weight).sum =
      (entries.map fun entry => if keep entry then weight entry else 0).sum := by
  induction entries with
  | nil => rfl
  | cons entry entries ih =>
      rw [List.filter_cons, List.map_cons, List.sum_cons, ← ih]
      split
      · rw [List.map_cons, List.sum_cons]
      · rw [Nat.zero_add]

theorem Models.resting_weigh (models : manager.Models market) (weight : RestingOrderView → Nat) :
    (manager.resting.map weight).sum = market.weigh weight := by
  have each : ∀ symbol book, market.validSymbol symbol = true →
      manager.books[symbol.toNat]? = some book →
      (book.resting.map weight).sum = (market.books symbol).weigh weight := by
    intro symbol book valid stored
    obtain ⟨other, found, refines⟩ := models.books symbol valid
    obtain rfl := Option.some.inj (stored.symm.trans found)
    exact ((refines.resting_perm (models.sound.books _ valid)).map weight).sum_eq
  have sums := models.map_activeBooks each
  rw [resting, List.map_flatMap, List.flatMap_def, List.sum_flatten, List.map_map,
    ArrivalMarket.weigh, models.maxSymbol]
  exact (congrArg List.sum sums).trans rfl

theorem Models.openOrders (models : manager.Models market) (account : AccountId) :
    manager.openOrders account = market.weigh (orderWeight account) := by
  have counted := sum_filter (fun order : RestingOrderView => order.accountId = account)
    (fun _ => 1) manager.resting
  have weight : orderWeight account = fun order => if order.accountId = account then 1 else 0 := rfl
  rw [← models.resting_weigh, BookManager.openOrders, weight]
  simpa using counted

theorem Models.openNotional (models : manager.Models market) (account : AccountId) :
    manager.openNotional account = market.weigh (notionalWeight account) := by
  have weight : notionalWeight account = fun order =>
    if order.accountId = account then order.price.toInt.toNat * order.qty.toNat else 0 := rfl
  rw [← models.resting_weigh, BookManager.openNotional, sum_filter, weight]
  simp

/-- Whether a command can trade with an order the index does not name. -/
def untracked (manager : BookManager) (cmd : ClientCommand) : Bool :=
  (if cmd.type = .new then manager.findBook cmd.symbolId
    else if cmd.type = .replace then
      manager.findBook (manager.orderSymbol cmd.cancelOrderId) else none).any fun book =>
        book.resting.any fun order => order.side.isBuy = (!cmd.side.isBuy) &&
          Arrivals.asGood (!cmd.side.isBuy) order.price cmd.price &&
          !manager.containsOrder order.orderId

theorem Models.untracked (models : manager.Models market)
    (known : cmd.type = .new → market.validSymbol cmd.symbolId = true) :
    manager.untracked cmd = true ↔ market.Untracked cmd := by
  have meets : ∀ {symbol : SymbolId} {book : OrderBook}, market.validSymbol symbol = true →
      manager.books[symbol.toNat]? = some book →
      ((book.resting.any fun order => order.side.isBuy = (!cmd.side.isBuy) &&
          Arrivals.asGood (!cmd.side.isBuy) order.price cmd.price &&
          !manager.containsOrder order.orderId) = true ↔
        ∃ order ∈ (market.books symbol).orders, Meets cmd.side cmd.price order ∧
        market.symbolOf order.orderId = none) := by
    intro symbol book valid stored
    obtain ⟨other, found, refines⟩ := models.books symbol valid
    obtain rfl := Option.some.inj (stored.symm.trans found)
    rw [List.any_eq_true]
    refine exists_congr fun order => ?_
    rw [(refines.resting_perm (models.sound.books _ valid)).mem_iff, models.containsOrder, Meets]
    simp
  rw [BookManager.untracked, ArrivalMarket.Untracked]
  by_cases isNew : cmd.type = .new
  · obtain ⟨book, stored, -⟩ := models.books cmd.symbolId (known isNew)
    rw [if_pos isNew, models.findBook (known isNew) stored, Option.any_some,
      meets (known isNew) stored]
    simp [isNew, ArrivalMarket.replace_ne_new.symm]
  · by_cases isReplace : cmd.type = .replace
    · rw [if_neg isNew, if_pos isReplace, models.any_target, or_iff_right fun both => isNew both.1,
        and_iff_right isReplace]
      refine exists_congr fun symbol => ?_
      constructor
      · intro met
        obtain ⟨book, target, valid, stored, met⟩ := met
        exact ⟨target, (meets valid stored).mp met⟩
      · intro met
        obtain ⟨target, met⟩ := met
        obtain ⟨valid, -⟩ := models.listed _ _ target
        obtain ⟨book, stored, -⟩ := models.books symbol valid
        exact ⟨book, target, valid, stored, (meets valid stored).mpr met⟩
    · simp [isNew, isReplace]

/-- What a command that trades with no lost order publishes can be followed. -/
theorem Models.tracked (models : manager.Models market)
    (known : cmd.type = .new → market.validSymbol cmd.symbolId = true)
    (tracked : manager.untracked cmd = false) (seq : SeqNo) :
    ArrivalMarket.Tracked market (market.apply seq cmd).2.mdEvents (market.apply seq cmd).1 := by
  refine ArrivalMarket.apply_tracked models.sound models.listed known fun untracked => ?_
  rw [(models.untracked known).mpr untracked] at tracked
  cases tracked

/-- Whether what is left of a command comes to rest and takes the sum of a weight
over all resting orders, now `count`, to `limit`.  What the command takes off its
book first, its target and the orders within its limit, no longer counts. -/
def outgrows (manager : BookManager) (cmd : ClientCommand) (weight : RestingOrderView → Nat)
    (count limit : Nat) : Bool :=
  cmd.type = .new && (manager.findBook cmd.symbolId).any (fun book =>
      book.priceInBand cmd.price && Arrivals.outgrows (ArrivalMarket.orderOf cmd) cmd.tif weight
        (count - (book.resting.map weight).sum) limit book.resting) ||
    cmd.type = .replace &&
    (manager.findBook (manager.orderSymbol cmd.cancelOrderId)).any fun book =>
      book.priceInBand cmd.price && Arrivals.outgrows (ArrivalMarket.orderOf cmd) cmd.tif weight
        (count - (book.resting.map weight).sum) limit
        (Keyed.erase RestingOrderView.orderId cmd.cancelOrderId book.resting)

/-- A command takes a sum of weights to a limit exactly if it outgrows it. -/
theorem Models.apply_weigh_lt (models : manager.Models market) {weight : RestingOrderView → Nat}
    {limit : Nat} (known : cmd.type = .new → market.validSymbol cmd.symbolId = true)
    (monotone : ArrivalBook.Monotone weight) (few : market.weigh weight < limit) (seq : SeqNo) :
    (market.apply seq cmd).1.weigh weight < limit ↔
      manager.outgrows cmd weight (market.weigh weight) limit = false := by
  -- the weight of the other books, from that of all and that of one
  have elsewhere : ∀ {symbol book}, market.validSymbol symbol = true →
      manager.books[symbol.toNat]? = some book →
      market.weigh weight - (book.resting.map weight).sum = market.rest weight symbol := by
    intro symbol book valid stored
    obtain ⟨other, found, refines⟩ := models.books symbol valid
    obtain rfl := Option.some.inj (stored.symm.trans found)
    have own : (book.resting.map weight).sum = (market.books symbol).weigh weight :=
      ((refines.resting_perm (models.sound.books _ valid)).map weight).sum_eq
    rw [own, ArrivalMarket.weigh_split weight valid, Nat.add_sub_cancel]
  rw [outgrows]
  by_cases isNew : cmd.type = .new
  · have valid := known isNew
    obtain ⟨book, stored, refines⟩ := models.books _ valid
    have sound := models.sound.books _ valid
    rw [ArrivalMarket.weigh_split weight valid] at few
    have notReplace : cmd.type ≠ .replace := by
      rw [isNew]
      decide
    rw [decide_eq_true isNew, decide_eq_false notReplace, Bool.true_and, Bool.false_and,
      Bool.or_false, models.findBook valid stored, Option.any_some, elsewhere valid stored,
      refines.priceInBand, Arrivals.outgrows_perm (refines.resting_perm sound),
      ArrivalMarket.orderOf, ArrivalMarket.apply_new isNew]
    rw [← sound.weigh_addOrder_lt monotone few seq cmd.orderId cmd.accountId cmd.side cmd.price
      cmd.qty cmd.tif]
    exact iff_of_eq (congrArg (· < limit) (ArrivalMarket.weigh_update weight rfl valid rfl))
  by_cases isReplace : cmd.type = .replace
  · rw [decide_eq_false isNew, decide_eq_true isReplace, Bool.false_and, Bool.true_and,
      Bool.false_or, ArrivalMarket.apply_replace isReplace, ArrivalMarket.replaceOrder]
    cases target : market.symbolOf cmd.cancelOrderId with
    | none =>
        rw [models.orderSymbol_eq_zero target, models.findBook_none rfl, Option.any_none]
        exact ⟨fun _ => rfl, fun _ => few⟩
    | some symbol =>
        obtain ⟨valid, held⟩ := models.listed _ _ target
        obtain ⟨book, stored, refines⟩ := models.books _ valid
        have sound := models.sound.books _ valid
        rw [ArrivalMarket.weigh_split weight valid] at few
        rw [models.orderSymbol_eq target, models.findBook valid stored, Option.any_some,
          elsewhere valid stored, refines.priceInBand,
          Arrivals.outgrows_perm
            (Arrivals.erase_perm (refines.resting_perm sound) cmd.cancelOrderId),
          ArrivalMarket.orderOf]
        rw [← sound.weigh_replaceOrder_lt monotone few held seq cmd.orderId cmd.accountId cmd.side
          cmd.price cmd.qty cmd.tif]
        exact iff_of_eq (congrArg (· < limit) (ArrivalMarket.weigh_update weight rfl valid rfl))
  · have less := ArrivalMarket.apply_weigh_le seq models.sound models.listed monotone known
    rw [if_neg (not_or.mpr ⟨isNew, isReplace⟩)] at less
    rw [decide_eq_false isNew, decide_eq_false isReplace]
    exact ⟨fun _ => rfl, fun _ => Nat.lt_of_le_of_lt less few⟩

theorem Models.containsOrder_eq (models : manager.Models market) :
    manager.containsOrder = fun id => (market.symbolOf id).isSome :=
  funext fun id => models.containsOrder id

end BookManager

namespace Exchange

/-- Whether what rests of a command takes a counter of its account past its range. -/
def overcounts (exchange : Exchange) (cmd : ClientCommand) : Bool :=
  let state := exchange.risk.account cmd.accountId
  exchange.books.outgrows cmd (orderWeight cmd.accountId) state.openOrders.toNat (2 ^ 32) ||
    exchange.books.outgrows cmd (notionalWeight cmd.accountId) state.openNotional.toNat (2 ^ 64)

/-- Whether a call keeps the counters of the accounts right: what it lets
through is not refused after a cancel, trades with no order the index has lost,
and overcounts nothing. -/
def accountable (exchange : Exchange) (call : ExchangeCall) : Bool :=
  match call.command? with
  | none => true
  | some cmd => !exchange.admits cmd call.nowNs ||
      !exchange.books.halts cmd && !exchange.books.untracked cmd && !exchange.overcounts cmd

/-- The counters are those of the resting orders. -/
def Counted (risk : RiskEngine) (market : ArrivalMarket) : Prop :=
  ∀ account, (risk.account account).openOrders.toNat = market.weigh (orderWeight account) ∧
    (risk.account account).openNotional.toNat = market.weigh (notionalWeight account)

section

variable {exchange after : Exchange} {market later : ArrivalMarket} {call : ExchangeCall}
  {outcome : Outcome} {cmd : ClientCommand}

/-- Publishing tallies the events of an accepted command. -/
theorem publish_risk (exchange : Exchange) (sc : SequencedCommand) (out : MatchOutput) :
    (exchange.publish sc out).1.risk = if out.reject = .none then
      exchange.risk.tally exchange.books.containsOrder out.mdEvents else exchange.risk := by
  by_cases accepted : out.reject = .none
  · rw [publish_accepted accepted, accountForMd_eq, if_pos accepted]
    exact RiskEngine.tally_stamp _ _ _ _
  · rw [publish_refused accepted, if_neg accepted]
    rfl

theorem Counted.checked (counted : Counted exchange.risk market) (cmd : ClientCommand)
    (nowNs : TimestampNs) :
    Counted (exchange.received cmd nowNs).risk market := by
  intro account
  obtain ⟨sameOrders, sameNotional⟩ := exchange.risk.check_counters cmd exchange.books nowNs account
  change (((exchange.risk.check cmd exchange.books nowNs).1).account account).openOrders.toNat = _ ∧
    (((exchange.risk.check cmd exchange.books nowNs).1).account account).openNotional.toNat = _
  rw [sameOrders, sameNotional]
  exact counted account

/-- What the counters can take stays within their range. -/
theorem Counted.small (counted : Counted exchange.risk market)
    (models : exchange.books.Models market)
    (known : cmd.type = .new → market.validSymbol cmd.symbolId = true)
    (within : exchange.overcounts cmd = false) (seq : SeqNo) (account : AccountId) :
    (market.apply seq cmd).1.weigh (orderWeight account) < 2 ^ 32 ∧
      (market.apply seq cmd).1.weigh (notionalWeight account) < 2 ^ 64 := by
  obtain ⟨sameOrders, sameNotional⟩ := counted account
  have fewOrders := (exchange.risk.account account).openOrders.toNat_lt
  have fewNotional := (exchange.risk.account account).openNotional.toNat_lt
  rw [sameOrders] at fewOrders
  rw [sameNotional] at fewNotional
  by_cases own : cmd.accountId = account
  · subst own
    rw [overcounts, Bool.or_eq_false_iff, sameOrders, sameNotional] at within
    exact ⟨(models.apply_weigh_lt known (orderWeight_monotone _) fewOrders seq).mpr within.1,
      (models.apply_weigh_lt known (notionalWeight_monotone _) fewNotional seq).mpr within.2⟩
  · -- the order of another account weighs nothing
    have orders := ArrivalMarket.apply_weigh_le seq models.sound models.listed
      (orderWeight_monotone account) known
    have notional := ArrivalMarket.apply_weigh_le seq models.sound models.listed
      (notionalWeight_monotone account) known
    have none : orderWeight account (ArrivalMarket.orderOf cmd) = 0 := if_neg own
    have nothing : notionalWeight account (ArrivalMarket.orderOf cmd) = 0 := if_neg own
    rw [none, ite_self] at orders
    rw [nothing, ite_self] at notional
    exact ⟨Nat.lt_of_le_of_lt orders fewOrders, Nat.lt_of_le_of_lt notional fewNotional⟩

theorem Called.counted (called : Called exchange market call after outcome later)
    (models : exchange.books.Models market) (counted : Counted exchange.risk market)
    (guarded : exchange.accountable call = true) : Counted after.risk later := by
  cases called with
  | undecoded => exact counted
  | @refused cmd => exact counted.checked cmd call.nowNs
  | @threw cmd => exact counted.checked cmd call.nowNs
  | @applied cmd books carried admitted known advances =>
      have kept := counted.checked cmd call.nowNs
      rw [accountable, carried] at guarded
      simp only [admitted, Bool.not_true, Bool.false_or, Bool.and_eq_true,
        Bool.not_eq_true'] at guarded
      obtain ⟨⟨whole, tracked⟩, within⟩ := guarded
      rw [publish_risk]
      by_cases accepted : (market.apply exchange.nextSeq cmd).2.reject = .none
      · rw [if_pos accepted]
        have told := models.tracked known tracked exchange.nextSeq
        intro account
        obtain ⟨fewOrders, fewNotional⟩ :=
          counted.small models known within exchange.nextSeq account
        dsimp only
        rw [advances.models.containsOrder_eq]
        have counted : ((exchange.received cmd call.nowNs).risk.account account).openOrders.toNat =
            0 + market.weigh (orderWeight account) := (kept account).1.trans (Nat.zero_add _).symm
        have orders :=
          told.openOrders models.sound models.priced ArrivalMarket.apply_maxSymbol counted
          (by rw [Nat.zero_add]; exact fewOrders)
        rw [Nat.zero_add] at orders
        exact ⟨orders, told.openNotional models.sound models.priced ArrivalMarket.apply_maxSymbol
          (kept account).2 fewNotional⟩
      · rw [if_neg accepted]
        have whole : ¬market.Halts cmd := fun halts => by
          rw [models.halts.mpr halts] at whole
          cases whole
        have books := ArrivalMarket.apply_refused_books models.listed accepted whole
        intro account
        rw [ArrivalMarket.weigh_congr _ ArrivalMarket.apply_maxSymbol books,
          ArrivalMarket.weigh_congr _ ArrivalMarket.apply_maxSymbol books]
        exact kept account

/-- In every run that keeps the counters right call by call and runs out of no
slots, the counters of every account are those of its resting orders. -/
theorem run_accounts {cfg : ExchangeConfig} {fresh : Exchange} {calls : List ExchangeCall}
    (created : Exchange.create cfg = some (.ok fresh))
    (guarded : Along Exchange.call (fun exchange input => exchange.books.HasRoom ∧
      exchange.accountable input = true) fresh calls) :
    ∃ after outcomes, run Exchange.call fresh calls = .ok (after, outcomes) ∧ ∀ account,
      (after.risk.account account).openOrders.toNat = after.books.openOrders account ∧
        (after.risk.account account).openNotional.toNat = after.books.openNotional account := by
  have start : Counted fresh.risk fresh.books.blank := by
    intro account
    rw [BookManager.blank_weigh, BookManager.blank_weigh, (create_ok created).2]
    exact ⟨rfl, rfl⟩
  have keep : ∀ {exchange market input after outcome later},
      Called exchange market input after outcome later →
      exchange.books.Models market → Counted exchange.risk market →
      exchange.accountable input = true → Counted after.risk later :=
    fun called models counted accountable => called.counted models counted accountable
  obtain ⟨after, outcomes, market, ran, models, counted⟩ := run_kept created keep start guarded
  refine ⟨after, outcomes, ran, fun account => ?_⟩
  rw [models.openOrders, models.openNotional]
  exact counted account

end

/-- The frame of a command, received at time zero. -/
def framed (cmd : ClientCommand) : ExchangeCall := .frame (Protocol.encodeClientCommand cmd) 0

/-- Two bids, an ask that fills the first and part of the second, and a replace of what is left. -/
def fillsAndReplace : List ExchangeCall :=
  [framed BookManager.restingBid, framed secondBid,
    framed { orderId := 9, accountId := 2, symbolId := 1, side := .sell, price := 1, qty := 7 },
    framed
      { type := .replace, orderId := 10, cancelOrderId := 8, accountId := 1, symbolId := 1,
        price := 2, qty := 4 }]

theorem run_accounts_oneSymbol : ∃ after outcomes, run Exchange.call oneSymbol fillsAndReplace =
    .ok (after, outcomes) ∧ ∀ account, (after.risk.account account).openOrders.toNat =
      after.books.openOrders account ∧ (after.risk.account account).openNotional.toNat =
        after.books.openNotional account :=
  run_accounts oneSymbol_created (by decide +kernel)

/-- A replace that is refused after its target has been cancelled leaves the
account counting an order that is gone. -/
theorem accounts_miscount : Exchange.create oneSymbolConfig = some (.ok oneSymbol) ∧
    ∃ after outcomes, run Exchange.call oneSymbol
      [framed BookManager.restingBid, framed secondBid, framed duplicateReplace] =
        .ok (after, outcomes) ∧
      (after.risk.account 1).openOrders.toNat = 2 ∧ after.books.openOrders 1 = 1 := by
  have counts : ((run Exchange.call oneSymbol [framed BookManager.restingBid, framed secondBid,
      framed duplicateReplace]).toOption.map
      fun result => ((result.1.risk.account 1).openOrders.toNat, result.1.books.openOrders 1)) =
      some (2, 1) := by
    decide +kernel
  obtain ⟨result, ran, counts⟩ := ok_of_map counts
  obtain ⟨counter, resting⟩ := Prod.mk.inj counts
  exact ⟨oneSymbol_created, result.1, result.2, ran, counter, resting⟩

end Exchange

end Exsim.Core
