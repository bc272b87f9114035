import Exsim.Reference.Weights

/-! # Orders on another price band

Nothing but the price check of an add or a replace reads the band of a book.  On
a band that holds its own a book does with every command what it did, unless the
price was refused.
-/

namespace Exsim.Core

open Data.Keyed

abbrev Band := Price × Price

/-- The prices of a ladder. -/
def PriceLadderConfig.band (ladder : PriceLadderConfig) : Band := (ladder.minPrice, ladder.maxPrice)

namespace ArrivalBook

def reband (book : ArrivalBook) (band : Band) : ArrivalBook :=
  { book with minPrice := band.1, maxPrice := band.2 }

/-- Every price of the book is on the band. -/
def Inside (book : ArrivalBook) (band : Band) : Prop :=
  band.1 ≤ book.minPrice ∧ book.maxPrice ≤ band.2

section

variable {book : ArrivalBook} {band : Band} {seq : SeqNo} {id oldId : OrderId}
  {accountId : AccountId} {side : Side} {price : Price} {qty : Qty} {tif : TimeInForce}

theorem Inside.priceInBand (inside : book.Inside band) (inBand : book.priceInBand price = true) :
    (book.reband band).priceInBand price = true := by
  rw [ArrivalBook.priceInBand, Bool.and_eq_true, decide_eq_true_iff, decide_eq_true_iff] at inBand ⊢
  exact ⟨Int64.le_trans inside.1 inBand.1, Int64.le_trans inBand.2 inside.2⟩

theorem Inside.swept (inside : book.Inside band) :
    (book.swept seq id side price qty).1.Inside band :=
  sweep_induction (motive := fun after _ => after.Inside band) seq id side price
    (fun _ _ _ inside _ _ _ => inside) book.orders.length inside

theorem Inside.addOrder (inside : book.Inside band) (seq : SeqNo) (id : OrderId)
    (accountId : AccountId) (side : Side) (price : Price) (qty : Qty) (tif : TimeInForce) :
    (book.addOrder seq id accountId side price qty tif).1.Inside band := by
  by_cases accepted : book.addReject id price qty = .none
  · rw [addOrder_accepted accepted]
    split <;> exact inside.swept
  · rw [addOrder_rejected accepted]
    exact inside

theorem Inside.cancelOrder (inside : book.Inside band) (seq : SeqNo) (id : OrderId) :
    (book.cancelOrder seq id).1.Inside band := by
  rw [ArrivalBook.cancelOrder]
  split <;> exact inside

theorem Inside.replaceOrder (inside : book.Inside band) (seq : SeqNo) (oldId id : OrderId)
    (accountId : AccountId) (side : Side) (price : Price) (qty : Qty) (tif : TimeInForce) :
    (book.replaceOrder seq oldId id accountId side price qty tif).1.Inside band := by
  have cancelled := inside.cancelOrder seq oldId
  rw [ArrivalBook.replaceOrder]
  split
  · exact inside
  · split
    · rename_i missing
      rwa [missing] at cancelled
    · rename_i found
      rw [found] at cancelled
      exact cancelled.addOrder seq id accountId side price qty tif

theorem sweep_reband (book : ArrivalBook) (seq : SeqNo) (aggressor : OrderId) (side : Side)
    (limit : Price) (out : MatchOutput) (rounds : Nat) :
    sweep seq aggressor side limit rounds (book.reband band) out =
      ((sweep seq aggressor side limit rounds book out).1.reband band,
        (sweep seq aggressor side limit rounds book out).2) := by
  induction rounds generalizing book out with
  | zero => rfl
  | succ rounds ih =>
      have orders : (book.reband band).orders = book.orders := rfl
      rw [sweep, sweep, orders]
      split
      · rfl
      · cases book.orders.first (!side.isBuy) with
        | none => rfl
        | some resting =>
            dsimp only
            split
            · exact ih (book.trade seq aggressor resting out).1
                (book.trade seq aggressor resting out).2
            · rfl

theorem swept_reband : (book.reband band).swept seq id side price qty =
    ((book.swept seq id side price qty).1.reband band, (book.swept seq id side price qty).2) :=
  book.sweep_reband seq id side price { remainingQty := qty } book.orders.length

/-- An add is turned away as on the narrower band, unless for its price. -/
theorem addReject_reband (inside : book.Inside band)
    (taken : book.addReject id price qty ≠ .invalidPrice) :
    (book.reband band).addReject id price qty = book.addReject id price qty := by
  have held : (book.reband band).holds id = book.holds id := rfl
  rw [addReject] at taken
  rw [addReject, addReject, held]
  by_cases zero : qty = 0
  · rw [if_pos zero, if_pos zero]
  · rw [if_neg zero] at taken
    by_cases inBand : book.priceInBand price = true
    · rw [inBand, inside.priceInBand inBand]
    · rw [if_pos (by simpa using inBand)] at taken
      exact absurd rfl taken

theorem addOrder_reband (inside : book.Inside band)
    (taken : (book.addOrder seq id accountId side price qty tif).2.reject ≠ .invalidPrice) :
    (book.reband band).addOrder seq id accountId side price qty tif =
      ((book.addOrder seq id accountId side price qty tif).1.reband band,
        (book.addOrder seq id accountId side price qty tif).2) := by
  rw [addOrder_reject] at taken
  have same := addReject_reband inside taken
  by_cases accepted : book.addReject id price qty = .none
  · have left : (book.reband band).remainder seq id accountId side price qty =
        book.remainder seq id accountId side price qty := by
      rw [remainder, remainder, swept_reband]
    rw [addOrder_accepted accepted, addOrder_accepted (same.trans accepted), left, swept_reband]
    dsimp only
    split <;> rfl
  · rw [addOrder_rejected accepted, addOrder_rejected (same ▸ accepted), same]

theorem cancelOrder_reband (book : ArrivalBook) (seq : SeqNo) (id : OrderId) :
    (book.reband band).cancelOrder seq id =
      ((book.cancelOrder seq id).1.reband band, (book.cancelOrder seq id).2) := by
  have found : (book.reband band).find id = book.find id := rfl
  rw [cancelOrder, cancelOrder, found]
  cases book.find id <;> rfl

theorem replaceOrder_reband (inside : book.Inside band)
    (taken : (book.replaceOrder seq oldId id accountId side price qty tif).2.reject ≠
      .invalidPrice) :
    (book.reband band).replaceOrder seq oldId id accountId side price qty tif =
      ((book.replaceOrder seq oldId id accountId side price qty tif).1.reband band,
        (book.replaceOrder seq oldId id accountId side price qty tif).2) := by
  by_cases inBand : book.priceInBand price = true
  · cases found : book.find oldId with
    | none =>
        have missing : (book.reband band).find oldId = none := found
        rw [replaceOrder, replaceOrder, inBand, inside.priceInBand inBand, cancelOrder, cancelOrder,
          found, missing]
        rfl
    | some old =>
        have stored : (book.reband band).find oldId = some old := found
        rw [replaceOrder_inBand inBand found] at taken
        rw [replaceOrder_inBand inBand found,
          replaceOrder_inBand (inside.priceInBand inBand) stored, cancelOrder_reband]
        dsimp only at taken ⊢
        rw [addOrder_reband (inside.cancelOrder seq oldId) taken]
        rfl
  · rw [replaceOrder_outOfBand (Bool.eq_false_iff.mpr inBand)] at taken
    exact absurd rfl taken

end

end ArrivalBook

namespace ArrivalMarket

/-- The same orders with each book on another band. -/
def reband (market : ArrivalMarket) (bands : SymbolId → Band) : ArrivalMarket :=
  { market with books := fun symbol => (market.books symbol).reband (bands symbol) }

def Inside (market : ArrivalMarket) (bands : SymbolId → Band) : Prop :=
  ∀ symbol, market.validSymbol symbol = true → (market.books symbol).Inside (bands symbol)

section

variable {market : ArrivalMarket} {bands : SymbolId → Band} {symbol : SymbolId}
  {after : ArrivalBook} {added : OrderId} {seq : SeqNo} {cmd : ClientCommand}

theorem settle_reband : (market.reband bands).settle symbol (after.reband (bands symbol)) added =
    (market.settle symbol after added).reband bands := by
  have books : Function.update (market.reband bands).books symbol (after.reband (bands symbol)) =
      fun other => (Function.update market.books symbol after other).reband (bands other) := by
    funext other
    by_cases here : other = symbol
    · rw [here, Function.update_self, Function.update_self]
    · rw [Function.update_of_ne here, Function.update_of_ne here]
      rfl
  rw [settle, books]
  rfl

theorem Inside.apply (inside : market.Inside bands) (listed : market.Listed)
    (known : cmd.type = .new → market.validSymbol cmd.symbolId = true) (seq : SeqNo) :
    (market.apply seq cmd).1.Inside bands := by
  have kept :=
    apply_invariant known (fun symbol book => book.Inside (bands symbol)) seq listed inside
    (fun _ _ inside => inside.addOrder seq _ _ _ _ _ _) (fun _ _ inside => inside.cancelOrder seq _)
    fun _ _ inside => inside.replaceOrder seq _ _ _ _ _ _ _
  intro symbol valid
  rw [ArrivalMarket.validSymbol, apply_maxSymbol] at valid
  exact kept symbol valid

theorem addOrder_reband (inside : (market.books cmd.symbolId).Inside (bands cmd.symbolId))
    (taken : (market.addOrder seq cmd).2.reject ≠ .invalidPrice) :
    (market.reband bands).addOrder seq cmd =
      ((market.addOrder seq cmd).1.reband bands, (market.addOrder seq cmd).2) := by
  rw [addOrder] at taken
  have book : (market.reband bands).books cmd.symbolId =
      (market.books cmd.symbolId).reband (bands cmd.symbolId) := rfl
  rw [addOrder, addOrder, book, ArrivalBook.addOrder_reband inside taken]
  dsimp only
  rw [settle_reband]

theorem cancelOrder_reband (id : OrderId) : (market.reband bands).cancelOrder seq id =
    ((market.cancelOrder seq id).1.reband bands, (market.cancelOrder seq id).2) := by
  have listed : (market.reband bands).symbolOf = market.symbolOf := rfl
  rw [cancelOrder, cancelOrder, listed]
  cases market.symbolOf id with
  | none => rfl
  | some symbol =>
      have book : (market.reband bands).books symbol =
          (market.books symbol).reband (bands symbol) := rfl
      dsimp only
      rw [book, ArrivalBook.cancelOrder_reband]
      dsimp only
      rw [settle_reband]

theorem replaceOrder_reband
    (inside : ∀ symbol, market.symbolOf cmd.cancelOrderId = some symbol →
      (market.books symbol).Inside (bands symbol))
    (taken : (market.replaceOrder seq cmd).2.reject ≠ .invalidPrice) :
    (market.reband bands).replaceOrder seq cmd =
      ((market.replaceOrder seq cmd).1.reband bands, (market.replaceOrder seq cmd).2) := by
  have listed : (market.reband bands).symbolOf = market.symbolOf := rfl
  rw [replaceOrder] at taken
  rw [replaceOrder, replaceOrder, listed]
  cases target : market.symbolOf cmd.cancelOrderId with
  | none => rfl
  | some symbol =>
      have book : (market.reband bands).books symbol =
          (market.books symbol).reband (bands symbol) := rfl
      have forgotten : (market.reband bands).forget cmd.cancelOrderId =
          (market.forget cmd.cancelOrderId).reband bands := rfl
      rw [target] at taken
      dsimp only at taken ⊢
      rw [book, ArrivalBook.replaceOrder_reband (inside symbol target) taken, forgotten]
      dsimp only
      rw [settle_reband]

/-- Unless it is refused for its price, a command does on wider bands what it did. -/
theorem apply_reband (inside : market.Inside bands) (listed : market.Listed)
    (known : cmd.type = .new → market.validSymbol cmd.symbolId = true)
    (taken : (market.apply seq cmd).2.reject ≠ .invalidPrice) :
    (market.reband bands).apply seq cmd =
      ((market.apply seq cmd).1.reband bands, (market.apply seq cmd).2) := by
  by_cases isNew : cmd.type = .new
  · rw [apply_new isNew] at taken
    rw [apply_new isNew, apply_new isNew, addOrder_reband (inside _ (known isNew)) taken]
  by_cases isCancel : cmd.type = .cancel
  · rw [apply, apply, isCancel, if_neg cancel_ne_new, if_neg cancel_ne_new, if_pos rfl, if_pos rfl,
      cancelOrder_reband]
    dsimp only
    split <;> rfl
  by_cases isReplace : cmd.type = .replace
  · rw [apply_replace isReplace] at taken
    rw [apply_replace isReplace, apply_replace isReplace,
      replaceOrder_reband (fun symbol target => inside symbol (listed _ _ target).1) taken]
  · rw [apply_other isNew isCancel isReplace, apply_other isNew isCancel isReplace]

end

end ArrivalMarket

end Exsim.Core
