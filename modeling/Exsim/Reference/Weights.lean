import Exsim.Reference.Commands
import Mathlib.Algebra.BigOperators.Group.Finset.Basic
import Mathlib.Algebra.Order.BigOperators.Group.List
import Mathlib.Algebra.Order.Group.Nat

/-! # Sums over the resting orders

A weight per order adds up to a total per book and per market.  An event changes
the total of its book by the weight it names, and a command adds no more than
the weight of an order of its own.
-/

namespace Exsim.Core

open Data.Keyed

namespace ArrivalBook

def weigh (weight : RestingOrderView → Nat) (book : ArrivalBook) : Nat :=
  (book.orders.map weight).sum

/-- Every order rests at a positive price within the band. -/
structure Priced (book : ArrivalBook) : Prop where
  floor : 0 < book.minPrice.toInt
  inBand : ∀ order ∈ book.orders, book.priceInBand order.price = true

section

variable {book after : ArrivalBook} {order : RestingOrderView} {weight : RestingOrderView → Nat}
  {live : OrderId → Bool} {ev : MdEvent}

theorem weigh_rest : (book.rest order).weigh weight = book.weigh weight + weight order := by
  simp [weigh, ArrivalBook.rest]

theorem Sound.weigh_erase (sound : book.Sound) (member : order ∈ book.orders) :
    ({ book with orders := Data.Keyed.erase RestingOrderView.orderId order.orderId book.orders } :
      ArrivalBook).weigh weight +
      weight order = book.weigh weight := sound.distinct.sum_erase member weight

theorem Sound.weigh_fill (sound : book.Sound) (member : order ∈ book.orders) (qty : Qty) :
    ({ book with orders := book.orders.fill order.orderId qty } : ArrivalBook).weigh weight +
      weight order = book.weigh weight + if order.qty ≤ qty then 0
        else weight { order with qty := order.qty - qty } :=
  sound.sum_fill member qty weight

theorem Priced.price_pos (priced : book.Priced) {price : Price}
    (inBand : book.priceInBand price = true) :
    0 < price.toInt := by
  rw [priceInBand, Bool.and_eq_true, decide_eq_true_iff] at inBand
  have above : book.minPrice.toInt ≤ price.toInt := Int64.le_iff_toInt_le.mp inBand.1
  have floor := priced.floor
  omega

theorem Told.priced (told : Told live book ev after) (priced : book.Priced) : after.Priced := by
  obtain ⟨floor, inBand⟩ := priced
  cases told with
  | add _ _ _ _ within =>
      refine ⟨floor, fun order member => ?_⟩
      rcases List.mem_append.mp member with member | member
      · exact inBand order member
      · rw [List.mem_singleton.mp member]
        exact within
  | cancel => exact ⟨floor, fun order member => inBand order (mem_erase.mp member).1⟩
  | execute =>
      refine ⟨floor, fun order member => ?_⟩
      obtain ⟨before, listed, -, -, -, samePrice⟩ := Arrivals.mem_fill member
      rw [← samePrice]
      exact inBand before listed

theorem Told.price_pos (told : Told live book ev after) (priced : book.Priced) :
    0 < ev.price.toInt := by
  cases told with
  | add type symbol fresh positive inBand => exact priced.price_pos inBand
  | cancel type symbol member => exact priced.price_pos (priced.inBand _ member)
  | @execute order type symbol member named =>
      have samePrice : order.price = ev.price := congrArg RestingOrderView.price named
      rw [← samePrice]
      exact priced.price_pos (priced.inBand order member)

end

section Growth

variable {book : ArrivalBook} {weight : RestingOrderView → Nat}

/-- A weight that does not grow when an order loses quantity. -/
def Monotone (weight : RestingOrderView → Nat) : Prop :=
  ∀ (order : RestingOrderView) (qty : Qty), qty ≤ order.qty →
    weight { order with qty } ≤ weight order

theorem Sound.weigh_fill_le (sound : book.Sound) (monotone : Monotone weight)
    {order : RestingOrderView} (member : order ∈ book.orders) (qty : Qty) :
    ({ book with orders := book.orders.fill order.orderId qty } : ArrivalBook).weigh weight ≤
      book.weigh weight := by
  have filled : _ + weight order = _ := sound.weigh_fill member qty
  split at filled
  · omega
  · rename_i more
    rw [UInt32.le_iff_toNat_le] at more
    have enough : qty ≤ order.qty := UInt32.le_iff_toNat_le.mpr (by omega)
    have part := monotone order (order.qty - qty) (UInt32.le_iff_toNat_le.mpr (by
      rw [UInt32.toNat_sub_of_le _ _ enough]
      exact Nat.sub_le _ _))
    omega

/-- What filling an order within the limit preserves in a sound book, the sweep preserves. -/
theorem Sound.swept_keeps {motive : ArrivalBook → Prop} (sound : book.Sound) (start : motive book)
    (seq : SeqNo) (id : OrderId) {side : Side} {price : Price} (qty : Qty)
    (fill : ∀ (after : ArrivalBook) (resting : RestingOrderView) (done : Qty), after.Sound →
      motive after → resting ∈ after.orders → resting.side.isBuy = (!side.isBuy) →
      Arrivals.asGood (!side.isBuy) resting.price price = true →
      motive { after with orders := after.orders.fill resting.orderId done }) :
    motive (book.swept seq id side price qty).1 := by
  have swept : (book.swept seq id side price qty).1.Sound ∧
      motive (book.swept seq id side price qty).1 :=
    sweep_induction (motive := fun after _ => after.Sound ∧ motive after) seq id side price
      (fun after out resting before _ first within => by
        obtain ⟨member, opposite⟩ := Arrivals.first_mem first
        exact ⟨before.1.fill _ _, fill after resting _ before.1 before.2 member opposite within⟩)
      book.orders.length ⟨sound, start⟩
  exact swept.2

theorem Sound.weigh_swept_le (sound : book.Sound) (monotone : Monotone weight) (seq : SeqNo)
    (id : OrderId) (side : Side) (price : Price) (qty : Qty) :
    (book.swept seq id side price qty).1.weigh weight ≤ book.weigh weight :=
  sound.swept_keeps (motive := fun after => after.weigh weight ≤ book.weigh weight) (Nat.le_refl _)
    seq id qty fun _ _ done sound less member _ _ =>
      Nat.le_trans (sound.weigh_fill_le monotone member done) less

/-- A sweep changes no order of its own side and none beyond its limit. -/
theorem Sound.weigh_swept_apart (sound : book.Sound) (seq : SeqNo) (id : OrderId) {side : Side}
    {price : Price} (qty : Qty)
    (apart : ∀ order : RestingOrderView, order.side.isBuy = (!side.isBuy) →
      Arrivals.asGood (!side.isBuy) order.price price = true → weight order = 0) :
    (book.swept seq id side price qty).1.weigh weight = book.weigh weight := by
  refine sound.swept_keeps (motive := fun after => after.weigh weight = book.weigh weight) rfl
    seq id qty fun after resting done sound same member opposite within => ?_
  have filled : ArrivalBook.weigh weight _ + weight resting = _ := sound.weigh_fill member done
  have less : weight { resting with qty := resting.qty - done } = 0 := apart _ opposite within
  rw [apart resting opposite within, less, ite_self] at filled
  exact filled.trans same

/-- A sweep that leaves a remainder has used up every order it reaches. -/
theorem Sound.weigh_swept (sound : book.Sound) (seq : SeqNo) (id : OrderId) (side : Side)
    (price : Price) (qty : Qty) (unfilled : (book.swept seq id side price qty).2.remainingQty ≠ 0) :
    (book.swept seq id side price qty).1.weigh weight = book.orders.spared side price weight := by
  let apart : RestingOrderView → Nat := fun order =>
    if order.side.isBuy = (!side.isBuy) ∧ Arrivals.asGood (!side.isBuy) order.price price then 0
    else weight order
  have same : (book.swept seq id side price qty).1.weigh apart = book.weigh apart :=
    sound.weigh_swept_apart seq id qty fun order opposite within => if_pos ⟨opposite, within⟩
  refine Eq.trans (congrArg List.sum (List.map_congr_left fun order member => ?_)) same
  refine (if_neg ?_).symm
  rintro ⟨opposite, within⟩
  have beyond := sound.sweep_done seq id side price _ (Nat.le_refl _) unfilled member opposite
  rw [beyond] at within
  cases within

/-- An add takes a sum of weights to a limit exactly if its remainder does. -/
theorem Sound.weigh_addOrder_lt (sound : book.Sound) (monotone : Monotone weight)
    {others limit : Nat} (few : others + book.weigh weight < limit) (seq : SeqNo)
    (orderId : OrderId) (accountId : AccountId) (side : Side)
    (price : Price) (qty : Qty) (tif : TimeInForce) :
    others + (book.addOrder seq orderId accountId side price qty tif).1.weigh weight < limit ↔
      (book.priceInBand price &&
        book.orders.outgrows { orderId, accountId, side, price, qty } tif weight others limit) =
      false := by
  have left := sound.remaining seq orderId side price qty
  rw [Arrivals.outgrows, ← Bool.and_assoc]
  obtain ⟨rests, after⟩ | ⟨stays, after⟩ :=
    sound.addOrder_cases seq orderId accountId side price qty tif
  · rw [after, weigh_rest, rests, Bool.true_and, decide_eq_false_iff_not, Nat.not_le,
      remainder, ← left, UInt32.ofNat_toNat, ← Nat.add_assoc]
    rw [Bool.and_eq_true, Arrivals.rests_iff] at rests
    have unfilled : (book.swept seq orderId side price qty).2.remainingQty ≠ 0 := fun filled => by
      rw [filled, UInt32.toNat_zero] at left
      omega
    rw [sound.weigh_swept seq orderId side price qty unfilled]
  · rw [stays, Bool.false_and]
    refine ⟨fun _ => rfl, fun _ => ?_⟩
    obtain unchanged | swept := after
    · rw [unchanged]
      exact few
    · have less := sound.weigh_swept_le monotone seq orderId side price qty
      rw [swept]
      omega

/-- An add grows a book by no more than the weight of its own order, and only if it rests. -/
theorem Sound.weigh_addOrder_rests (sound : book.Sound) (monotone : Monotone weight) (seq : SeqNo)
    (orderId : OrderId) (accountId : AccountId) (side : Side) (price : Price) (qty : Qty)
    (tif : TimeInForce) :
    (book.addOrder seq orderId accountId side price qty tif).1.weigh weight ≤ book.weigh weight +
      if book.orders.rests orderId side price qty tif then
        weight { orderId, accountId, side, price, qty } else 0 := by
  have swept := sound.weigh_swept_le monotone seq orderId side price qty
  obtain ⟨rests, after⟩ | ⟨-, unchanged | after⟩ :=
    sound.addOrder_cases seq orderId accountId side price qty tif
  · rw [Bool.and_eq_true] at rests
    rw [after, weigh_rest, if_pos rests.2]
    have left := sound.remaining seq orderId side price qty
    have part := monotone { orderId, accountId, side, price, qty }
      (book.swept seq orderId side price qty).2.remainingQty
      (UInt32.le_iff_toNat_le.mpr (by rw [left]; exact Nat.sub_le _ _))
    exact Nat.add_le_add swept part
  · rw [unchanged]
    exact Nat.le_add_right _ _
  · rw [after]
    exact Nat.le_add_right_of_le swept

theorem Sound.weigh_addOrder_le (sound : book.Sound) (monotone : Monotone weight) (seq : SeqNo)
    (orderId : OrderId) (accountId : AccountId) (side : Side) (price : Price) (qty : Qty)
    (tif : TimeInForce) :
    (book.addOrder seq orderId accountId side price qty tif).1.weigh weight ≤
      book.weigh weight + weight { orderId, accountId, side, price, qty } := by
  refine Nat.le_trans
    (sound.weigh_addOrder_rests monotone seq orderId accountId side price qty tif) ?_
  split
  · exact Nat.le_refl _
  · exact Nat.le_add_right _ _

theorem Sound.weigh_cancelOrder_le (sound : book.Sound) (seq : SeqNo) (id : OrderId) :
    (book.cancelOrder seq id).1.weigh weight ≤ book.weigh weight := by
  rw [ArrivalBook.cancelOrder]
  cases found : book.find id with
  | none => exact Nat.le_refl _
  | some old =>
      obtain ⟨member, rfl⟩ := mem_of_find found
      have erased : _ + weight old = _ := sound.weigh_erase member
      exact Nat.le_of_add_right_le (Nat.le_of_eq erased)

/-- A replace exchanges the weight of its target for that of an order that rests. -/
theorem Sound.weigh_replaceOrder (sound : book.Sound) (monotone : Monotone weight) {oldId : OrderId}
    {old : RestingOrderView} {price : Price} (found : book.find oldId = some old)
    (inBand : book.priceInBand price = true) (seq : SeqNo)
    (orderId : OrderId) (accountId : AccountId) (side : Side) (qty : Qty) (tif : TimeInForce) :
    (book.replaceOrder seq oldId orderId accountId side price qty tif).1.weigh weight + weight old ≤
      book.weigh weight + if Arrivals.rests orderId side price qty tif
        (Data.Keyed.erase RestingOrderView.orderId oldId book.orders) then
        weight { orderId, accountId, side, price, qty } else 0 := by
  obtain ⟨member, rfl⟩ := mem_of_find found
  have added :=
    (sound.erase old.orderId).weigh_addOrder_rests monotone seq orderId accountId side price qty tif
  have erased : _ + weight old = _ := sound.weigh_erase member
  rw [replaceOrder_inBand inBand found, ArrivalBook.cancelOrder, found]
  dsimp only at added ⊢
  omega

theorem Sound.weigh_replaceOrder_le (sound : book.Sound) (monotone : Monotone weight) (seq : SeqNo)
    (oldId orderId : OrderId) (accountId : AccountId) (side : Side) (price : Price) (qty : Qty)
    (tif : TimeInForce) :
    (book.replaceOrder seq oldId orderId accountId side price qty tif).1.weigh weight ≤
      book.weigh weight + weight { orderId, accountId, side, price, qty } := by
  by_cases inBand : book.priceInBand price = true
  · cases found : book.find oldId with
    | none =>
        rw [ArrivalBook.replaceOrder, inBand, ArrivalBook.cancelOrder, found]
        exact Nat.le_add_right _ _
    | some old =>
        have exchanged :=
          sound.weigh_replaceOrder monotone found inBand seq orderId accountId side qty tif
        split at exchanged
        · omega
        · omega
  · rw [replaceOrder_outOfBand (Bool.eq_false_iff.mpr inBand)]
    exact Nat.le_add_right _ _

/-- A replace takes a sum of weights to a limit exactly if its remainder does, once
its target is gone. -/
theorem Sound.weigh_replaceOrder_lt (sound : book.Sound) (monotone : Monotone weight)
    {others limit : Nat} (few : others + book.weigh weight < limit) {oldId : OrderId}
    (held : book.holds oldId = true) (seq : SeqNo)
    (orderId : OrderId) (accountId : AccountId) (side : Side) (price : Price) (qty : Qty)
    (tif : TimeInForce) :
    others + (book.replaceOrder seq oldId orderId accountId side price qty tif).1.weigh weight <
      limit ↔ (book.priceInBand price &&
        Arrivals.outgrows { orderId, accountId, side, price, qty } tif weight others limit
        (Data.Keyed.erase RestingOrderView.orderId oldId book.orders)) = false := by
  cases inBand : book.priceInBand price with
  | false =>
      rw [replaceOrder_outOfBand inBand, Bool.false_and]
      exact ⟨fun _ => rfl, fun _ => few⟩
  | true =>
      obtain ⟨old, found⟩ :=
        Option.isSome_iff_exists.mp (show (book.find oldId).isSome = true from held)
      have lessened : (book.cancelOrder seq oldId).1.weigh weight ≤ book.weigh weight :=
        sound.weigh_cancelOrder_le seq oldId
      rw [replaceOrder_inBand inBand found]
      dsimp only
      rw [ArrivalBook.cancelOrder, found] at lessened ⊢
      have added := (sound.erase oldId).weigh_addOrder_lt monotone
        (Nat.lt_of_le_of_lt (Nat.add_le_add_left lessened others) few) seq orderId accountId side
        price qty tif
      rw [show ({ book with
        orders := Data.Keyed.erase RestingOrderView.orderId oldId book.orders } :
        ArrivalBook).priceInBand price = true from inBand] at added
      exact added

/-- A refused replace adds nothing. -/
theorem Sound.weigh_replaceOrder_refused (sound : book.Sound) {seq : SeqNo}
    {oldId orderId : OrderId} {accountId : AccountId} {side : Side} {price : Price} {qty : Qty}
    {tif : TimeInForce} (refused :
      (book.replaceOrder seq oldId orderId accountId side price qty tif).2.reject ≠ .none) :
    (book.replaceOrder seq oldId orderId accountId side price qty tif).1.weigh weight ≤
      book.weigh weight := by
  by_cases inBand : book.priceInBand price = true
  · cases found : book.find oldId with
    | none =>
        rw [ArrivalBook.replaceOrder, inBand, ArrivalBook.cancelOrder, found]
        exact Nat.le_refl _
    | some old =>
        rw [replaceOrder_inBand inBand found] at refused ⊢
        dsimp only at refused ⊢
        rw [addOrder_refused refused]
        exact sound.weigh_cancelOrder_le seq oldId
  · rw [replaceOrder_outOfBand (Bool.eq_false_iff.mpr inBand)]

theorem Sound.weigh_feedExecute_le (sound : book.Sound) (monotone : Monotone weight) (id : OrderId)
    (qty : Qty) :
    (book.feedExecute id qty).1.weigh weight ≤ book.weigh weight := by
  rw [ArrivalBook.feedExecute]
  split
  · rename_i accepted
    rw [Bool.and_eq_true] at accepted
    obtain ⟨order, member, rfl⟩ := holds_iff.mp accepted.1
    exact sound.weigh_fill_le monotone member qty
  · exact Nat.le_refl _

end Growth

end ArrivalBook

namespace ArrivalMarket

/-- The weight of all the resting orders of the valid symbols. -/
def weigh (weight : RestingOrderView → Nat) (market : ArrivalMarket) : Nat :=
  ∑ i ∈ Finset.range market.maxSymbol.toNat, (market.books (UInt32.ofNat (i + 1))).weigh weight

variable {market later : ArrivalMarket} {symbol : SymbolId} {after : ArrivalBook} {seq : SeqNo}
  {cmd : ClientCommand}

/-- The weight of a market apart from one of its books. -/
def rest (weight : RestingOrderView → Nat) (market : ArrivalMarket) (symbol : SymbolId) : Nat :=
  ∑ i ∈ (Finset.range market.maxSymbol.toNat).erase (symbol.toNat - 1),
    (market.books (UInt32.ofNat (i + 1))).weigh weight

theorem weigh_split (weight : RestingOrderView → Nat) (valid : market.validSymbol symbol = true) :
    market.weigh weight = market.rest weight symbol + (market.books symbol).weigh weight := by
  simp only [validSymbol, Bool.not_eq_true', Bool.or_eq_false_iff,
    decide_eq_false_iff_not, gt_iff_lt, UInt32.lt_iff_toNat_lt, ← UInt32.toNat_inj,
    UInt32.toNat_zero] at valid
  have member : symbol.toNat - 1 ∈ Finset.range market.maxSymbol.toNat :=
    Finset.mem_range.mpr (by omega)
  have here : UInt32.ofNat (symbol.toNat - 1 + 1) = symbol := by
    rw [Nat.sub_add_cancel (by omega), UInt32.ofNat_toNat]
  rw [weigh, rest, ← Finset.sum_erase_add _ _ member, here]

/-- Changing one book leaves the rest. -/
theorem rest_update (weight : RestingOrderView → Nat) (sameMax : later.maxSymbol = market.maxSymbol)
    (books : later.books = Function.update market.books symbol after) :
    later.rest weight symbol = market.rest weight symbol := by
  rw [rest, rest, sameMax]
  refine Finset.sum_congr rfl fun i member => ?_
  rw [Finset.mem_erase, Finset.mem_range] at member
  have bound := market.maxSymbol.toNat_lt
  have away : UInt32.ofNat (i + 1) ≠ symbol := by
    intro same
    have value := congrArg UInt32.toNat same
    rw [UInt32.toNat_ofNat', Nat.mod_eq_of_lt (by omega)] at value
    omega
  rw [books, Function.update_of_ne away]

theorem weigh_update (weight : RestingOrderView → Nat)
    (sameMax : later.maxSymbol = market.maxSymbol)
    (valid : market.validSymbol symbol = true)
    (books : later.books = Function.update market.books symbol after) :
    later.weigh weight = market.rest weight symbol + after.weigh weight := by
  have validLater : later.validSymbol symbol = true := by rw [validSymbol, sameMax]; exact valid
  rw [weigh_split weight validLater, rest_update weight sameMax books, books, Function.update_self]

/-- Markets with the same books weigh the same. -/
theorem weigh_congr (weight : RestingOrderView → Nat) (sameMax : later.maxSymbol = market.maxSymbol)
    (books : later.books = market.books) :
    later.weigh weight = market.weigh weight := by
  rw [weigh, weigh, sameMax, books]

/-- A book that grows by no more than `extra`, put in place, lets the market grow by no more. -/
theorem settle_weigh_le {weight : RestingOrderView → Nat} {added : OrderId} {extra : Nat}
    (valid : market.validSymbol symbol = true)
    (grows : after.weigh weight ≤ (market.books symbol).weigh weight + extra) :
    (market.settle symbol after added).weigh weight ≤ market.weigh weight + extra := by
  have settled : (market.settle symbol after added).weigh weight =
      market.rest weight symbol + after.weigh weight :=
    weigh_update weight rfl valid rfl
  rw [settled, weigh_split weight valid]
  omega

/-- The order a command asks for. -/
def orderOf (cmd : ClientCommand) : RestingOrderView :=
  { orderId := cmd.orderId, accountId := cmd.accountId, side := cmd.side, price := cmd.price,
    qty := cmd.qty }

section Apply

variable {weight : RestingOrderView → Nat}

/-- A command grows the market by no more than the weight of its own order. -/
theorem apply_weigh_le (seq : SeqNo) (sound : market.Sound) (listed : market.Listed)
    (monotone : ArrivalBook.Monotone weight)
    (known : cmd.type = .new → market.validSymbol cmd.symbolId = true) :
    (market.apply seq cmd).1.weigh weight ≤ market.weigh weight +
      if cmd.type = .new ∨ cmd.type = .replace then weight (orderOf cmd) else 0 := by
  by_cases isNew : cmd.type = .new
  · rw [apply_new isNew, if_pos (.inl isNew)]
    exact settle_weigh_le (known isNew)
      ((sound.books _ (known isNew)).weigh_addOrder_le monotone _ _ _ _ _ _ _)
  by_cases isReplace : cmd.type = .replace
  · rw [apply_replace isReplace, if_pos (.inr isReplace), replaceOrder]
    cases target : market.symbolOf cmd.cancelOrderId with
    | none => exact Nat.le_add_right _ _
    | some symbol =>
        obtain ⟨valid, -⟩ := listed _ _ target
        have grows := (sound.books _ valid).weigh_replaceOrder_le monotone seq cmd.cancelOrderId
          cmd.orderId cmd.accountId cmd.side cmd.price cmd.qty cmd.tif
        have settled :
            ((market.forget cmd.cancelOrderId).settle symbol _ cmd.orderId).weigh weight ≤ _ :=
          settle_weigh_le valid grows
        exact settled
  rw [if_neg (not_or.mpr ⟨isNew, isReplace⟩)]
  by_cases isCancel : cmd.type = .cancel
  · obtain ⟨-, ran⟩ | ⟨cancelled, -, ran⟩ := apply_cancel seq listed isCancel
    · rw [ran]
      exact Nat.le_refl _
    · rw [ran, cancelOrder]
      cases target : market.symbolOf cmd.cancelOrderId with
      | none => exact Nat.le_refl _
      | some symbol =>
          obtain ⟨valid, -⟩ := listed _ _ target
          exact settle_weigh_le valid
            ((sound.books _ valid).weigh_cancelOrder_le seq cmd.cancelOrderId)
  · rw [apply_other isNew isCancel isReplace]
    exact Nat.le_refl _

/-- A refused command adds nothing. -/
theorem apply_refused_weigh_le (sound : market.Sound) (listed : market.Listed)
    (known : cmd.type = .new → market.validSymbol cmd.symbolId = true)
    (refused : (market.apply seq cmd).2.reject ≠ .none) :
    (market.apply seq cmd).1.weigh weight ≤ market.weigh weight := by
  obtain isNew | isCancel | isReplace := apply_refused_type refused
  · rw [apply_new isNew] at refused ⊢
    rw [addOrder_refused refused]
    have settled :
        (market.settle cmd.symbolId (market.books cmd.symbolId) cmd.orderId).weigh weight ≤ _ + 0 :=
      settle_weigh_le (known isNew) (Nat.le_refl _)
    exact settled
  · obtain ⟨-, ran⟩ | ⟨cancelled, -, ran⟩ := apply_cancel seq listed isCancel
    · rw [ran]
    · rw [ran] at refused
      exact absurd rfl refused
  · rw [apply_replace isReplace, replaceOrder] at refused ⊢
    cases target : market.symbolOf cmd.cancelOrderId with
    | none => exact Nat.le_refl _
    | some symbol =>
        obtain ⟨valid, -⟩ := listed _ _ target
        rw [target] at refused
        have settled :
            ((market.forget cmd.cancelOrderId).settle symbol _ cmd.orderId).weigh weight ≤ _ + 0 :=
          settle_weigh_le valid ((sound.books _ valid).weigh_replaceOrder_refused refused)
        exact settled

theorem apply_maxSymbol : (market.apply seq cmd).1.maxSymbol = market.maxSymbol := by
  rw [apply]
  split
  · rfl
  · split
    · rw [cancelOrder]
      cases market.symbolOf cmd.cancelOrderId with
      | none => rfl
      | some symbol =>
          dsimp only
          cases ((market.books symbol).cancelOrder seq cmd.cancelOrderId).2 <;> rfl
    · split
      · rw [replaceOrder]
        cases market.symbolOf cmd.cancelOrderId <;> rfl
      · rfl

end Apply

end ArrivalMarket

end Exsim.Core
