import Exsim.Reference.Weights

/-! # The orders of an account

How many orders rest under an account and for what notional, and whether the
index can tell which of the executed orders outlive a command.
-/

namespace Exsim.Core

open Data.Keyed

/-- An order counts for its own account. -/
def orderWeight (account : AccountId) (order : RestingOrderView) : Nat :=
  if order.accountId = account then 1 else 0

/-- Price times quantity, for its own account. -/
def notionalWeight (account : AccountId) (order : RestingOrderView) : Nat :=
  if order.accountId = account then order.price.toInt.toNat * order.qty.toNat else 0

/-- An order that trades with an order of `side` limited to `limit`. -/
def Meets (side : Side) (limit : Price) (order : RestingOrderView) : Prop :=
  order.side.isBuy = (!side.isBuy) ∧ Arrivals.asGood (!side.isBuy) order.price limit = true

theorem orderWeight_monotone (account : AccountId) : ArrivalBook.Monotone (orderWeight account) :=
  fun _ _ _ => Nat.le_refl _

theorem notionalWeight_monotone (account : AccountId) :
    ArrivalBook.Monotone (notionalWeight account) := by
  intro order qty fewer
  rw [UInt32.le_iff_toNat_le] at fewer
  rw [notionalWeight, notionalWeight]
  split
  · exact Nat.mul_le_mul_left _ fewer
  · exact Nat.le_refl _

namespace ArrivalBook

variable {book : ArrivalBook} {seq : SeqNo} {id oldId : OrderId} {accountId : AccountId}
  {side : Side} {price : Price} {qty : Qty} {tif : TimeInForce} {ev : MdEvent}

/-- What an event takes from a weight or adds to it. -/
inductive Weighs (live : OrderId → Bool) (ev : MdEvent) (weight : RestingOrderView → Nat) :
    Nat → Nat → Prop
  | add (type : ev.type = .add) : Weighs live ev weight before (before + weight (eventOrder ev))
  | cancel (type : ev.type = .cancel) (balance : after + weight (eventOrder ev) = before) :
    Weighs live ev weight before after
  | execute {qty : Qty} (type : ev.type = .execute) (enough : ev.qty ≤ qty)
    (survives : live ev.orderId = decide (ev.qty < qty))
      (balance : after + weight { eventOrder ev with qty } = before +
        if live ev.orderId then weight { eventOrder ev with qty := qty - ev.qty } else 0) :
        Weighs live ev weight before after

theorem Told.weighs {after : ArrivalBook} {live : OrderId → Bool} (told : Told live book ev after)
    (sound : book.Sound) (weight : RestingOrderView → Nat) :
    Weighs live ev weight (book.weigh weight) (after.weigh weight) := by
  cases told with
  | add type =>
      rw [weigh_rest]
      exact .add type
  | cancel type symbol member =>
      have erased : _ + weight (eventOrder ev) = _ := sound.weigh_erase member
      exact .cancel type erased
  | @execute order type symbol member named positive enough survives =>
      have sameId : order.orderId = ev.orderId := congrArg RestingOrderView.orderId named
      have filled : weigh weight { book with orders := book.orders.fill ev.orderId ev.qty } +
          weight order = book.weigh weight + if order.qty ≤ ev.qty then 0
            else weight { order with qty := order.qty - ev.qty } := by
        rw [← sameId]
        exact sound.weigh_fill member ev.qty
      refine .execute type enough survives ?_
      rw [← named, filled, survives]
      by_cases used : order.qty ≤ ev.qty
      · have gone : ¬ev.qty < order.qty := fun less => by
          rw [UInt32.lt_iff_toNat_lt] at less
          rw [UInt32.le_iff_toNat_le] at used
          omega
        rw [if_pos used, decide_eq_false gone]
        rfl
      · have stays : ev.qty < order.qty := by
          rw [UInt32.le_iff_toNat_le] at used
          rw [UInt32.lt_iff_toNat_lt]
          omega
        rw [if_neg used, decide_eq_true stays]
        rfl

/-- A sweep executes orders of the other side within its limit. -/
theorem swept_meets (listed : ev ∈ (book.swept seq id side price qty).2.mdEvents) :
    ∃ order ∈ book.orders, order.orderId = ev.orderId ∧ Meets side price order := by
  have nothing : ∀ ev : MdEvent, ev ∉ ({ remainingQty := qty } : MatchOutput).mdEvents :=
    fun _ => List.not_mem_nil
  have swept : (∀ order ∈ (book.swept seq id side price qty).1.orders, ∃ before ∈ book.orders,
        before.orderId = order.orderId ∧ before.side = order.side ∧ before.price = order.price) ∧
      ∀ ev ∈ (book.swept seq id side price qty).2.mdEvents,
        ∃ order ∈ book.orders, order.orderId = ev.orderId ∧ Meets side price order :=
    sweep_induction (motive := fun after out => (∀ order ∈ after.orders, ∃ before ∈ book.orders,
          before.orderId = order.orderId ∧ before.side = order.side ∧ before.price = order.price) ∧
        ∀ ev ∈ out.mdEvents, ∃ order ∈ book.orders, order.orderId = ev.orderId ∧
        Meets side price order) seq id side price (fun after out resting before _ first within => by
          obtain ⟨kept, earlier⟩ := before
          obtain ⟨member, opposite⟩ := Arrivals.first_mem first
          refine ⟨fun order still => ?_, fun ev listed => ?_⟩
          · obtain ⟨middle, there, sameId, -, sameSide, samePrice⟩ := Arrivals.mem_fill still
            obtain ⟨origin, here, isId, isSide, isPrice⟩ := kept middle there
            exact ⟨origin, here, isId.trans sameId, isSide.trans sameSide, isPrice.trans samePrice⟩
          · obtain listed | listed := List.mem_append.mp listed
            · exact earlier ev listed
            · obtain rfl := List.mem_singleton.mp listed
              obtain ⟨origin, here, isId, isSide, isPrice⟩ := kept resting member
              exact ⟨origin, here,
                isId, by rw [isSide]; exact opposite, by rw [isPrice]; exact within⟩)
      book.orders.length ⟨fun order member => ⟨order, member, rfl, rfl, rfl⟩,
        fun ev member => absurd member (nothing ev)⟩
  exact swept.2 ev listed

theorem addOrder_meets
    (listed : ev ∈ (book.addOrder seq id accountId side price qty tif).2.mdEvents)
    (executed : ev.type = .execute) : ∃ order ∈ book.orders, order.orderId = ev.orderId ∧
    Meets side price order := by
  by_cases accepted : book.addReject id price qty = .none
  · rw [addOrder_accepted accepted] at listed
    split at listed
    · obtain listed | listed := List.mem_append.mp listed
      · exact swept_meets listed
      · obtain rfl := List.mem_singleton.mp listed
        exact absurd executed (show MdType.add ≠ .execute by decide)
    · exact swept_meets listed
  · rw [addOrder_rejected accepted] at listed
    exact absurd listed List.not_mem_nil

theorem replaceOrder_meets
    (listed : ev ∈ (book.replaceOrder seq oldId id accountId side price qty tif).2.mdEvents)
    (executed : ev.type = .execute) :
    ∃ order ∈ book.orders, order.orderId = ev.orderId ∧ order.orderId ≠ oldId ∧
    Meets side price order := by
  rw [ArrivalBook.replaceOrder] at listed
  split at listed
  · exact absurd listed List.not_mem_nil
  · rw [ArrivalBook.cancelOrder] at listed
    cases found : book.find oldId with
    | none =>
        rw [found] at listed
        exact absurd listed List.not_mem_nil
    | some old =>
        rw [found] at listed
        obtain rfl | listed := List.mem_cons.mp listed
        · exact absurd executed (show MdType.cancel ≠ .execute by decide)
        · obtain ⟨order, member, sameId, meets⟩ := addOrder_meets listed executed
          obtain ⟨here, other⟩ := mem_erase.mp member
          exact ⟨order, here, sameId, other, meets⟩

end ArrivalBook

namespace ArrivalMarket

/-- A command that can trade with an order the index does not name. -/
def Untracked (market : ArrivalMarket) (cmd : ClientCommand) : Prop :=
  (cmd.type = .new ∧ ∃ order ∈ (market.books cmd.symbolId).orders,
    Meets cmd.side cmd.price order ∧ market.symbolOf order.orderId = none) ∨
  (cmd.type = .replace ∧ ∃ symbol, market.symbolOf cmd.cancelOrderId = some symbol ∧
    ∃ order ∈ (market.books symbol).orders, Meets cmd.side cmd.price order ∧
    market.symbolOf order.orderId = none)

section

variable {market : ArrivalMarket} {symbol : SymbolId} {after : ArrivalBook} {id added : OrderId}
  {seq : SeqNo} {cmd : ClientCommand}

/-- Whether an order with a symbol keeps one tells whether it still rests. -/
theorem settle_live (held : (market.books symbol).holds id = true)
    (named : market.symbolOf id ≠ none) :
    ((market.settle symbol after added).symbolOf id).isSome = after.holds id := by
  rw [settle_symbolOf]
  by_cases still : after.holds id = true
  · rw [still]
    split
    · rfl
    · simpa using Option.isSome_iff_ne_none.mpr named
  · have gone := Bool.eq_false_iff.mpr still
    simp [gone, held]

/-- One book changed as the events tell, with the index naming the executed
orders that still rest; or none did. -/
def Tracked (market : ArrivalMarket) (events : List MdEvent) (later : ArrivalMarket) : Prop :=
  (later.books = market.books ∧ events = []) ∨
    ∃ symbol after, market.validSymbol symbol = true ∧
    later.books = Function.update market.books symbol after ∧
      ArrivalBook.Tells (fun id => (later.symbolOf id).isSome) (market.books symbol) events after ∧
      ∀ ev ∈ events.dropLast, ev.removes = true

/-- Only adds and replaces execute. -/
theorem apply_executes (notNew : cmd.type ≠ .new) (notReplace : cmd.type ≠ .replace) :
    ∀ ev ∈ (market.apply seq cmd).2.mdEvents, ev.type ≠ .execute := by
  intro ev among
  by_cases isCancel : cmd.type = .cancel
  · rw [apply_cancels isCancel ev among]
    decide
  · rw [apply_other notNew isCancel notReplace] at among
    exact absurd among List.not_mem_nil

theorem apply_tracked (sound : market.Sound) (listed : market.Listed)
    (known : cmd.type = .new → market.validSymbol cmd.symbolId = true)
    (tracked : ¬market.Untracked cmd) :
    Tracked market (market.apply seq cmd).2.mdEvents (market.apply seq cmd).1 := by
  by_cases isNew : cmd.type = .new
  · have reported := (sound.books _ (known isNew)).reported_addOrder seq cmd.orderId cmd.accountId
      cmd.side cmd.price cmd.qty cmd.tif
    rw [apply_new isNew]
    refine .inr ⟨cmd.symbolId, _, known isNew, rfl, reported.tells _ fun ev among executed => ?_,
      reported.addsLast⟩
    obtain ⟨order, member, sameId, meets⟩ := ArrivalBook.addOrder_meets among executed
    refine settle_live (holds_iff.mpr ⟨order, member, sameId⟩) fun absent => tracked
      (.inl ⟨isNew, order, member, meets, ?_⟩)
    rw [sameId]
    exact absent
  by_cases isReplace : cmd.type = .replace
  · rw [apply_replace isReplace, replaceOrder]
    cases target : market.symbolOf cmd.cancelOrderId with
    | none => exact .inl ⟨rfl, rfl⟩
    | some symbol =>
        obtain ⟨valid, -⟩ := listed _ _ target
        have reported := (sound.books symbol valid).reported_replaceOrder seq cmd.cancelOrderId
          cmd.orderId cmd.accountId cmd.side cmd.price cmd.qty cmd.tif
        refine .inr ⟨symbol, _, valid, rfl, reported.tells _ fun ev among executed => ?_,
          reported.addsLast⟩
        obtain ⟨order, member, sameId, other, meets⟩ :=
          ArrivalBook.replaceOrder_meets among executed
        have named : market.symbolOf order.orderId ≠ none := fun absent =>
          tracked (.inr ⟨isReplace, symbol, target, order, member, meets, absent⟩)
        have kept : (market.forget cmd.cancelOrderId).symbolOf ev.orderId =
            market.symbolOf order.orderId := by
          rw [forget_symbolOf, ← sameId, Function.update_of_ne other]
        exact settle_live (holds_iff.mpr ⟨order, member, sameId⟩) (by rw [kept]; exact named)
  obtain unchanged | ⟨symbol, after, valid, books, reported⟩ := apply_moved sound listed known
  · exact .inl unchanged
  · refine .inr ⟨symbol, after, valid, books, reported.tells _ fun ev among executed => ?_,
      reported.addsLast⟩
    exact absurd executed (apply_executes isNew isReplace ev among)

end

end ArrivalMarket

end Exsim.Core
