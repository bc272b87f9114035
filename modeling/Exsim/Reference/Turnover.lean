import Exsim.Reference.Weights

/-! # Turnover

A trade that does not complete its order uses up a resting one.  So the trades of
a command and the orders it leaves are at most one more than the orders it found.
-/

namespace Exsim.Core

namespace ArrivalBook

section

variable {book : ArrivalBook} {seq : SeqNo} {id oldId aggressor : OrderId} {accountId : AccountId}
  {side : Side} {price limit : Price} {qty : Qty} {tif : TimeInForce} {out : MatchOutput}

theorem sweep_events (book : ArrivalBook) (seq : SeqNo) (aggressor : OrderId) (side : Side)
    (limit : Price) (rounds : Nat) (told : out.mdEvents.length = out.trades.length) :
    (book.sweep seq aggressor side limit rounds out).2.mdEvents.length =
      (book.sweep seq aggressor side limit rounds out).2.trades.length :=
  sweep_induction (motive := fun _ out => out.mdEvents.length = out.trades.length) seq
    aggressor side limit (fun _ _ _ told _ _ _ => by simp [trade, told]) rounds told

/-- Of the trades of a sweep only the one that completes it leaves its resting order. -/
theorem Sound.sweep_turnover (sound : book.Sound) (rounds : Nat) (unfilled : out.remainingQty ≠ 0) :
    (book.sweep seq aggressor side limit rounds out).2.trades.length +
        (book.sweep seq aggressor side limit rounds out).1.orders.length ≤
      out.trades.length + book.orders.length +
        if (book.sweep seq aggressor side limit rounds out).2.remainingQty = 0 then 1 else 0 := by
  induction rounds generalizing book out with
  | zero => exact Nat.le_add_right _ _
  | succ rounds ih =>
      rw [ArrivalBook.sweep, if_neg unfilled]
      cases first : book.orders.first (!side.isBuy) with
      | none => exact Nat.le_add_right _ _
      | some resting =>
          have listed := (Arrivals.first_mem first).1
          have traded : (book.trade seq aggressor resting out).2.trades.length =
              out.trades.length + 1 := by
            simp [trade]
          have fewer : (book.trade seq aggressor resting out).1.orders.length ≤
              book.orders.length :=
            Arrivals.length_fill_le _ _ _
          dsimp only
          split
          · by_cases complete : (book.trade seq aggressor resting out).2.remainingQty = 0
            · rw [sweep_filled _ _ complete, if_pos complete]
              dsimp only
              omega
            · have used := trade_length sound.distinct listed complete
              have after : (book.trade seq aggressor resting out).1.Sound := sound.fill _ _
              have rest := ih after complete
              omega
          · exact Nat.le_add_right _ _

/-- The trades of an add and the orders after it are at most the orders before it and its own. -/
theorem Sound.addOrder_turnover (sound : book.Sound) (seq : SeqNo) (id : OrderId)
    (accountId : AccountId) (side : Side) (price : Price) (qty : Qty) (tif : TimeInForce) :
    (book.addOrder seq id accountId side price qty tif).2.trades.length +
        (book.addOrder seq id accountId side price qty tif).1.orders.length ≤
      book.orders.length +
        (if (book.addOrder seq id accountId side price qty tif).2.reject = .none then 1 else 0) ∧
    (book.addOrder seq id accountId side price qty tif).2.mdEvents.length ≤
      (book.addOrder seq id accountId side price qty tif).2.trades.length + 1 := by
  rw [addOrder_reject]
  by_cases accepted : book.addReject id price qty = .none
  · have positive := (addReject_eq_none.mp accepted).1
    have turnover : (book.swept seq id side price qty).2.trades.length +
        (book.swept seq id side price qty).1.orders.length ≤
        0 + book.orders.length + if (book.swept seq id side price qty).2.remainingQty = 0 then
          1 else 0 :=
      sound.sweep_turnover book.orders.length positive
    have told : (book.swept seq id side price qty).2.mdEvents.length =
        (book.swept seq id side price qty).2.trades.length :=
      book.sweep_events seq id side price book.orders.length rfl
    rw [addOrder_accepted accepted, if_pos accepted]
    split
    · rename_i rests
      have left : (book.swept seq id side price qty).2.remainingQty ≠ 0 := by
        rw [Bool.and_eq_true, decide_eq_true_iff] at rests
        exact UInt32.pos_iff_ne_zero.mp rests.1
      rw [if_neg left] at turnover
      simp only [ArrivalBook.rest, List.length_append, List.length_singleton]
      omega
    · refine ⟨?_, by omega⟩
      split at turnover <;> omega
  · rw [addOrder_rejected accepted, if_neg accepted]
    exact ⟨by simp, by simp⟩

theorem Sound.replaceOrder_turnover (sound : book.Sound) (seq : SeqNo) (oldId id : OrderId)
    (accountId : AccountId) (side : Side) (price : Price) (qty : Qty) (tif : TimeInForce) :
    (book.replaceOrder seq oldId id accountId side price qty tif).2.trades.length +
        (book.replaceOrder seq oldId id accountId side price qty tif).1.orders.length ≤
      book.orders.length +
        (if (book.replaceOrder seq oldId id accountId side price qty tif).2.reject = .none then
          1 else 0) ∧
    (book.replaceOrder seq oldId id accountId side price qty tif).2.mdEvents.length ≤
      (book.replaceOrder seq oldId id accountId side price qty tif).2.trades.length + 2 := by
  have fewer := book.cancelOrder_length_le seq oldId
  have kept := sound.cancelOrder seq oldId
  rw [ArrivalBook.replaceOrder]
  split
  · exact ⟨by simp, by simp⟩
  · split
    · rename_i missing
      rw [missing] at fewer
      refine ⟨?_, by simp⟩
      dsimp only at fewer ⊢
      rw [if_neg (by decide)]
      simpa using fewer
    · rename_i found
      rw [found] at fewer kept
      obtain ⟨turnover, told⟩ := kept.addOrder_turnover seq id accountId side price qty tif
      dsimp only at fewer turnover told ⊢
      rw [List.length_cons]
      omega

end

end ArrivalBook

namespace ArrivalMarket

/-- How many orders rest. -/
def liveOrders (market : ArrivalMarket) : Nat := market.weigh fun _ => 1

section

variable {market : ArrivalMarket} {symbol : SymbolId} {after : ArrivalBook} {trades extra : Nat}
  {cmd : ClientCommand} {seq : SeqNo}

theorem settle_liveOrders_le (market : ArrivalMarket) (added : OrderId)
    (valid : market.validSymbol symbol = true)
    (turnover : trades + after.orders.length ≤ (market.books symbol).orders.length + extra) :
    trades + (market.settle symbol after added).liveOrders ≤ market.liveOrders + extra := by
  have settled : (market.settle symbol after added).liveOrders =
      market.rest (fun _ => 1) symbol + after.weigh fun _ => 1 :=
    weigh_update _ rfl valid rfl
  have count : ∀ book : ArrivalBook, book.weigh (fun _ => 1) = book.orders.length := fun book => by
    simp [ArrivalBook.weigh]
  rw [settled, liveOrders, weigh_split _ valid, count, count]
  omega

/-- The trades of a command and the orders it leaves are at most one more than the
orders it found, and one more only if it is an add or a replace that is accepted. -/
theorem apply_turnover (seq : SeqNo) (sound : market.Sound) (listed : market.Listed)
    (known : cmd.type = .new → market.validSymbol cmd.symbolId = true) :
    (market.apply seq cmd).2.trades.length + (market.apply seq cmd).1.liveOrders ≤
      market.liveOrders + (if (cmd.type = .new ∨ cmd.type = .replace) ∧
        (market.apply seq cmd).2.reject = .none then 1 else 0) ∧
      (market.apply seq cmd).2.mdEvents.length ≤ (market.apply seq cmd).2.trades.length + 2 := by
  by_cases isNew : cmd.type = .new
  · obtain ⟨turnover, told⟩ :=
      (sound.books _ (known isNew)).addOrder_turnover seq cmd.orderId cmd.accountId cmd.side
      cmd.price cmd.qty cmd.tif
    rw [apply_new isNew]
    simp only [isNew, true_or, true_and]
    exact ⟨settle_liveOrders_le market cmd.orderId (known isNew) turnover, Nat.le_succ_of_le told⟩
  by_cases isReplace : cmd.type = .replace
  · rw [apply_replace isReplace, replaceOrder]
    simp only [isReplace, or_true, true_and]
    cases target : market.symbolOf cmd.cancelOrderId with
    | none => exact ⟨by simp, by simp⟩
    | some symbol =>
        obtain ⟨valid, -⟩ := listed _ _ target
        obtain ⟨turnover, told⟩ :=
          (sound.books _ valid).replaceOrder_turnover seq cmd.cancelOrderId cmd.orderId
          cmd.accountId cmd.side cmd.price cmd.qty cmd.tif
        exact ⟨settle_liveOrders_le (market.forget cmd.cancelOrderId) cmd.orderId valid turnover,
          told⟩
  rw [if_neg fun both => both.1.elim isNew isReplace]
  by_cases isCancel : cmd.type = .cancel
  · obtain ⟨-, ran⟩ | ⟨cancelled, -, ran⟩ := apply_cancel seq listed isCancel
    · rw [ran]
      exact ⟨by simp, by simp⟩
    · rw [ran, cancelOrder]
      refine ⟨?_, by simp⟩
      cases target : market.symbolOf cmd.cancelOrderId with
      | none => simp
      | some symbol =>
          have fewer := (market.books symbol).cancelOrder_length_le seq cmd.cancelOrderId
          exact settle_liveOrders_le market cmd.cancelOrderId (listed _ _ target).1
            (show 0 + ((market.books symbol).cancelOrder seq cmd.cancelOrderId).1.orders.length ≤
              _ + 0 by omega)
  · rw [apply_other isNew isCancel isReplace]
    exact ⟨by simp, by simp⟩

end

end ArrivalMarket

end Exsim.Core
