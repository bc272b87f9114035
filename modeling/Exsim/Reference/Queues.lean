import Exsim.Reference.Sweep
import Exsim.Data.Priority

/-! # The two queues of a market

The resting orders of a side wait from the best price to the worst, each price
in arrival order.  An order that arrives is filled from the front of the opposite
queue as far as its limit reaches, and what is left of it is placed in its own.
A search for the earliest arrival at the best price finds the front of the queue.
-/

namespace Exsim.Core

open Data Data.Keyed Data.Priority

namespace Arrivals

/-- Whether `left` is served no later than `right` by its price. -/
def Ahead (isBuy : Bool) (left right : RestingOrderView) : Prop :=
  asGood isBuy left.price right.price = true

instance (isBuy : Bool) : DecidableRel (Ahead isBuy) := fun _ _ => decEq _ _

instance (isBuy : Bool) : IsTrans RestingOrderView (Ahead isBuy) :=
  ⟨fun _ _ _ first second => ArrivalBook.asGood_trans first second⟩

instance (isBuy : Bool) : Std.Total (Ahead isBuy) :=
  ⟨fun left right => ArrivalBook.asGood_total isBuy left.price right.price⟩

def queue (isBuy : Bool) (orders : Arrivals) : Arrivals :=
  (orders.ofSide isBuy).insertionSort (Ahead isBuy)

def volume (order : RestingOrderView) : Nat := order.qty.toNat

def lessenBy (order : RestingOrderView) (qty : Nat) : RestingOrderView :=
  { order with qty := order.qty - UInt32.ofNat qty }

def depth (orders : Arrivals) : Nat := total volume orders

/-- The quantity at the front of a queue that a limit reaches. -/
def within (isBuy : Bool) (limit : Price) (queue : Arrivals) : Nat :=
  depth (queue.takeWhile fun order => asGood isBuy order.price limit)

section

variable {isBuy : Bool} {orders rest : Arrivals} {order resting : RestingOrderView} {id : OrderId}
  {qty : Qty} {limit : Price}

theorem mem_queue : order ∈ orders.queue isBuy ↔ order ∈ orders ∧ order.side.isBuy = isBuy := by
  rw [queue, List.mem_insertionSort, mem_ofSide]

theorem queue_sorted (isBuy : Bool) (orders : Arrivals) :
    (orders.queue isBuy).Pairwise (Ahead isBuy) :=
  List.pairwise_insertionSort _ _

theorem first_eq_head? (isBuy : Bool) (orders : Arrivals) :
    orders.first isBuy = (orders.queue isBuy).head? := by
  rw [queue, head?_insertionSort, first]
  congr 1
  funext order
  exact congrArg _ (funext fun other => Bool.decide_eq_true.symm)

theorem distinct_queue (distinct : Distinct RestingOrderView.orderId orders) (isBuy : Bool) :
    Distinct RestingOrderView.orderId (orders.queue isBuy) :=
  ((List.perm_insertionSort _ _).map _).nodup_iff.mpr (distinct.filter _)

theorem queue_erase (id : OrderId) (orders : Arrivals) (isBuy : Bool) :
    Arrivals.queue isBuy (erase RestingOrderView.orderId id orders) =
      erase RestingOrderView.orderId id (orders.queue isBuy) := by
  rw [queue, queue, erase, erase, ← insertionSort_filter, ofSide, ofSide, List.filter_filter,
    List.filter_filter]
  simp only [Bool.and_comm]

/-- Changes that keep sides and prices keep places. -/
theorem queue_map {change : RestingOrderView → RestingOrderView}
    (sides : ∀ order, (change order).side = order.side)
    (prices : ∀ order, (change order).price = order.price) (orders : Arrivals) (isBuy : Bool) :
    Arrivals.queue isBuy (orders.map change) = (orders.queue isBuy).map change := by
  have listed : Arrivals.ofSide isBuy (orders.map change) = (orders.ofSide isBuy).map change := by
    rw [Arrivals.ofSide, Arrivals.ofSide, List.filter_map]
    exact congrArg _ (List.filter_congr fun order _ => by rw [Function.comp_apply, sides])
  rw [queue, queue, listed, List.map_insertionSort (Ahead isBuy) (Ahead isBuy)]
  intro left _ right _
  rw [Ahead, Ahead, prices, prices]

theorem queue_lessen (id : OrderId) (qty : Qty) (orders : Arrivals) (isBuy : Bool) :
    Arrivals.queue isBuy (orders.lessen id qty) = (orders.queue isBuy).lessen id qty :=
  queue_map (fun order => by split <;> rfl) (fun order => by split <;> rfl) orders isBuy

/-- A fill is made in the queue that holds the order. -/
theorem queue_fill (distinct : Distinct RestingOrderView.orderId orders) (id : OrderId) (qty : Qty)
    (isBuy : Bool) :
    Arrivals.queue isBuy (orders.fill id qty) = (orders.queue isBuy).fill id qty := by
  cases found : find RestingOrderView.orderId id orders with
  | none =>
      have absent : find RestingOrderView.orderId id (orders.queue isBuy) = none :=
        find_eq_none.mpr fun order member => find_eq_none.mp found order (mem_queue.mp member).1
      rw [fill, fill, found, absent]
  | some order =>
      obtain ⟨member, isId⟩ := mem_of_find found
      rw [fill_of_mem distinct member isId]
      by_cases side : order.side.isBuy = isBuy
      · rw [fill_of_mem (distinct_queue distinct isBuy) (mem_queue.mpr ⟨member, side⟩) isId]
        split
        · exact queue_erase id orders isBuy
        · exact queue_lessen id qty orders isBuy
      · have absent : find RestingOrderView.orderId id (orders.queue isBuy) = none := by
          refine find_eq_none.mpr fun other listed same => side ?_
          obtain ⟨listed, isSide⟩ := mem_queue.mp listed
          rwa [distinct.eq member listed (isId.trans same.symm)]
        have unheld := Option.not_isSome_iff_eq_none.mpr absent
        rw [Bool.not_eq_true] at unheld
        have untouched : (orders.queue isBuy).fill id qty = orders.queue isBuy := by
          rw [fill, absent]
        rw [untouched]
        split
        · rw [queue_erase, erase_eq_self unheld]
        · rw [queue_lessen, lessen, adjust_eq_self unheld]

/-- A fill at the front of a queue. -/
theorem fill_front (distinct : Distinct RestingOrderView.orderId (resting :: rest)) :
    Arrivals.fill resting.orderId qty (resting :: rest) =
      if resting.qty ≤ qty then rest else { resting with qty := resting.qty - qty } :: rest := by
  have alone : holds RestingOrderView.orderId resting.orderId rest = false :=
    holds_eq_false.mpr fun other member same =>
      (List.nodup_cons.mp distinct).1 (List.mem_map.mpr ⟨other, member, same⟩)
  rw [fill_of_mem distinct List.mem_cons_self rfl]
  split
  · rw [erase, List.filter_cons_of_neg (by simp), ← erase, erase_eq_self alone]
  · rw [lessen, adjust, List.map_cons, if_pos rfl, ← adjust, adjust_eq_self alone]

theorem queue_push (orders : Arrivals) (order : RestingOrderView) (isBuy : Bool) :
    Arrivals.queue isBuy (orders ++ [order]) =
      if order.side.isBuy = isBuy then place (Ahead isBuy) order (orders.queue isBuy)
      else orders.queue isBuy := by
  rw [queue, queue, ofSide, ofSide, List.filter_append, List.filter_cons, List.filter_nil]
  by_cases side : order.side.isBuy = isBuy
  · rw [if_pos (decide_eq_true side), if_pos side, insertionSort_push]
  · rw [if_neg (by rw [decide_eq_true_iff]; exact side), if_neg side, List.append_nil]

theorem volume_lessenBy (order : RestingOrderView) (qty : Nat) (less : qty < volume order) :
    volume (lessenBy order qty) = volume order - qty := by
  rw [volume] at less
  have bound := order.qty.toNat_lt
  have value : (UInt32.ofNat qty).toNat = qty := by
    rw [UInt32.toNat_ofNat', Nat.mod_eq_of_lt (by omega)]
  rw [volume, lessenBy, UInt32.toNat_sub_of_le _ _ (UInt32.le_iff_toNat_le.mpr (by omega)),
    value, volume]

theorem within_cons : within isBuy limit (resting :: rest) =
    if asGood isBuy resting.price limit = true then resting.qty.toNat + within isBuy limit rest
    else 0 := by
  rw [within, List.takeWhile_cons]
  split
  · exact total_cons
  · rfl

end

end Arrivals

open Arrivals (volume lessenBy)

/-- The orders of one side, from the best price, each price in arrival order. -/
structure Queue (isBuy : Bool) where
  orders : Arrivals
  sorted : orders.Pairwise (Arrivals.Ahead isBuy)

namespace Queue

variable {isBuy : Bool}

theorem eq_of_orders {left right : Queue isBuy} (same : left.orders = right.orders) :
    left = right := by
  cases left
  cases right
  obtain rfl := same
  rfl

def place (queue : Queue isBuy) (order : RestingOrderView) : Queue isBuy where
  orders := Priority.place (Arrivals.Ahead isBuy) order queue.orders
  sorted := place_pairwise queue.sorted

theorem deplete_sorted {orders : Arrivals} (sorted : orders.Pairwise (Arrivals.Ahead isBuy))
    (qty : Nat) :
    (Priority.deplete volume lessenBy qty orders).Pairwise (Arrivals.Ahead isBuy) := by
  have prices : (orders.map RestingOrderView.price).Pairwise fun left right =>
      Arrivals.asGood isBuy left right = true :=
    List.pairwise_map.mpr sorted
  have keeps : ∀ order qty, (lessenBy order qty).price = order.price := fun _ _ => rfl
  have kept : (Priority.deplete volume lessenBy qty orders).map RestingOrderView.price <:+
      orders.map RestingOrderView.price :=
    map_deplete_suffix keeps qty orders
  have left : ((Priority.deplete volume lessenBy qty orders).map RestingOrderView.price).Pairwise
      fun left right => Arrivals.asGood isBuy left right = true := prices.sublist kept.sublist
  rw [List.pairwise_map] at left
  exact left

/-- Takes a quantity from the front. -/
def deplete (queue : Queue isBuy) (qty : Nat) : Queue isBuy where
  orders := Priority.deplete volume lessenBy qty queue.orders
  sorted := deplete_sorted queue.sorted qty

def erase (queue : Queue isBuy) (id : OrderId) : Queue isBuy where
  orders := Keyed.erase RestingOrderView.orderId id queue.orders
  sorted := queue.sorted.sublist List.filter_sublist

theorem fill_sorted {orders : Arrivals} (sorted : orders.Pairwise (Arrivals.Ahead isBuy))
    (id : OrderId) (qty : Qty) :
    (orders.fill id qty).Pairwise (Arrivals.Ahead isBuy) := by
  rw [Arrivals.fill]
  split
  · exact sorted
  · split
    · exact sorted.sublist List.filter_sublist
    · refine List.pairwise_map.mpr (sorted.imp fun {left right} ahead => ?_)
      rw [Arrivals.Ahead] at ahead ⊢
      split <;> split <;> exact ahead

def fill (queue : Queue isBuy) (id : OrderId) (qty : Qty) : Queue isBuy where
  orders := queue.orders.fill id qty
  sorted := fill_sorted queue.sorted id qty

end Queue

/-- A market as its two queues. -/
structure QueueBook where
  symbolId : SymbolId
  minPrice : Price
  maxPrice : Price
  queue : (isBuy : Bool) → Queue isBuy

namespace QueueBook

def priceInBand (book : QueueBook) (price : Price) : Bool :=
  price ≥ book.minPrice && price ≤ book.maxPrice

def find (book : QueueBook) (id : OrderId) : Option RestingOrderView :=
  (Keyed.find RestingOrderView.orderId id (book.queue true).orders).or
    (Keyed.find RestingOrderView.orderId id (book.queue false).orders)

def holds (book : QueueBook) (id : OrderId) : Bool := (book.find id).isSome

def tradeOf (book : QueueBook) (seq : SeqNo) (aggressor : OrderId)
    (fill : RestingOrderView × Nat) : Trade :=
  { seq, symbolId := book.symbolId, restingOrderId := fill.1.orderId, aggressingOrderId := aggressor
    price := fill.1.price, qty := UInt32.ofNat fill.2 }

def eventOf (book : QueueBook) (seq : SeqNo) (type : MdType) (order : RestingOrderView)
    (qty : Qty) : MdEvent :=
  { seq, type, symbolId := book.symbolId, orderId := order.orderId, accountId := order.accountId
    side := order.side, price := order.price, qty }

/-- What an order takes from the opposite queue. -/
def taken (book : QueueBook) (side : Side) (limit : Price) (qty : Qty) : Nat :=
  min qty.toNat (Arrivals.within (!side.isBuy) limit (book.queue (!side.isBuy)).orders)

def fills (book : QueueBook) (side : Side) (limit : Price) (qty : Qty) :
    List (RestingOrderView × Nat) :=
  allot volume (book.taken side limit qty) (book.queue (!side.isBuy)).orders

/-- The book without what an order takes. -/
def take (book : QueueBook) (side : Side) (limit : Price) (qty : Qty) : QueueBook :=
  { book with queue := fun isBuy =>
      if isBuy = !side.isBuy then (book.queue isBuy).deplete (book.taken side limit qty)
      else book.queue isBuy }

def filled (book : QueueBook) (seq : SeqNo) (aggressor : OrderId) (side : Side) (limit : Price)
    (out : MatchOutput) :
    MatchOutput :=
  let fills := book.fills side limit out.remainingQty
  { out with
    trades := out.trades ++ fills.map (book.tradeOf seq aggressor)
    mdEvents := out.mdEvents ++ fills.map fun fill =>
      book.eventOf seq .execute fill.1 (UInt32.ofNat fill.2)
    remainingQty := out.remainingQty - UInt32.ofNat (book.taken side limit out.remainingQty) }

def rest (book : QueueBook) (order : RestingOrderView) : QueueBook :=
  { book with queue := fun isBuy => if order.side.isBuy = isBuy then (book.queue
    isBuy).place order else book.queue isBuy }

def addOrder (book : QueueBook) (seq : SeqNo) (orderId : OrderId) (accountId : AccountId)
    (side : Side) (price : Price) (qty : Qty) (tif : TimeInForce) : QueueBook × MatchOutput :=
  if qty = 0 then (book, { remainingQty := qty, reject := .invalidQty })
  else if !book.priceInBand price then (book, { remainingQty := qty, reject := .invalidPrice })
  else if book.holds orderId then (book, { remainingQty := qty, reject := .duplicateOrder })
  else
    let out := book.filled seq orderId side price { remainingQty := qty }
    let book := book.take side price qty
    if out.remainingQty > 0 && tif = .gtc then
      let order : RestingOrderView := { orderId, accountId, side, price, qty := out.remainingQty }
      (book.rest order,
        { out with
          mdEvents := out.mdEvents ++ [book.eventOf seq .add order order.qty], remainingQty := 0 })
    else (book, out)

def cancelOrder (book : QueueBook) (seq : SeqNo) (id : OrderId) : QueueBook × Option MdEvent :=
  match book.find id with
  | none => (book, none)
  | some order =>
      ({ book with queue := fun isBuy => (book.queue isBuy).erase id },
        some (book.eventOf seq .cancel order order.qty))

def replaceOrder (book : QueueBook) (seq : SeqNo) (oldId newId : OrderId) (accountId : AccountId)
    (side : Side) (price : Price) (qty : Qty) (tif : TimeInForce) : QueueBook × MatchOutput :=
  if !book.priceInBand price then (book, { reject := .invalidPrice })
  else match book.cancelOrder seq oldId with
    | (book, none) => (book, { reject := .unknownOrder })
    | (book, some old) =>
        let (book, add) := book.addOrder seq newId accountId side price qty tif
        (book, { add with mdEvents := old :: add.mdEvents })

def feedAdd (book : QueueBook) (orderId : OrderId) (accountId : AccountId) (side : Side)
    (price : Price) (qty : Qty) : QueueBook × Bool :=
  if book.holds orderId || qty = 0 || !book.priceInBand price then (book, false)
  else (book.rest { orderId, accountId, side, price, qty }, true)

def feedExecute (book : QueueBook) (orderId : OrderId) (qty : Qty) : QueueBook × Bool :=
  if book.holds orderId && qty ≠ 0 then
    ({ book with queue := fun isBuy => (book.queue isBuy).fill orderId qty }, true)
  else (book, false)

section

variable {book after : QueueBook} {side : Side} {limit : Price} {qty : Qty}
  {resting : RestingOrderView} {rest : Arrivals}

/-- Nothing is taken from beyond the limit. -/
theorem taken_beyond (beyond : ∀ order ∈ (book.queue (!side.isBuy)).orders.head?,
    Arrivals.asGood (!side.isBuy) order.price limit = false) (qty : Qty) :
    book.taken side limit qty = 0 := by
  rw [taken]
  cases listed : (book.queue (!side.isBuy)).orders with
  | nil => exact Nat.min_zero _
  | cons resting rest =>
      rw [listed] at beyond
      rw [Arrivals.within_cons, beyond resting rfl, if_neg (by decide), Nat.min_zero]

theorem fills_nothing (nothing : book.taken side limit qty = 0) :
    book.fills side limit qty = [] := by
  rw [fills, nothing, allot_zero]

theorem take_nothing (nothing : book.taken side limit qty = 0) :
    book.take side limit qty = book := by
  rw [take, nothing]
  congr 1
  funext isBuy
  split
  · exact Queue.eq_of_orders (deplete_zero _)
  · rfl

theorem filled_nothing {out : MatchOutput} (nothing : book.taken side limit out.remainingQty = 0)
    (seq : SeqNo) (aggressor : OrderId) : book.filled seq aggressor side limit out = out := by
  rw [filled, fills_nothing nothing, nothing, List.map_nil, List.map_nil, List.append_nil,
    List.append_nil, show UInt32.ofNat 0 = 0 from rfl, UInt32.sub_zero]

/-- `after` is `book` once the front of the opposite queue has given what it can. -/
structure Gives (book : QueueBook) (side : Side) (qty : Qty) (resting : RestingOrderView)
    (rest : Arrivals) (after : QueueBook) : Prop where
  symbolId : after.symbolId = book.symbolId
  minPrice : after.minPrice = book.minPrice
  maxPrice : after.maxPrice = book.maxPrice
  front : (book.queue (!side.isBuy)).orders = resting :: rest
  given : (after.queue (!side.isBuy)).orders =
    if resting.qty ≤ qty then rest else { resting with qty := resting.qty - qty } :: rest
  own : after.queue side.isBuy = book.queue side.isBuy

theorem Gives.left (gives : Gives book side qty resting rest after) (limit : Price) :
    resting.qty ≤ qty ∧ min resting.qty qty = resting.qty ∧
    (after.queue (!side.isBuy)).orders = rest ∨ qty < resting.qty ∧ min resting.qty qty = qty ∧
        (after.queue (!side.isBuy)).orders = { resting with qty := resting.qty - qty } :: rest ∧
        after.taken side limit (qty - min resting.qty qty) = 0 := by
  have given := gives.given
  by_cases used : resting.qty ≤ qty
  · rw [if_pos used] at given
    exact .inl ⟨used, if_pos used, given⟩
  · rw [if_neg used] at given
    have less : min resting.qty qty = qty := if_neg used
    refine .inr ⟨UInt32.not_le.mp used, less, given, ?_⟩
    rw [less, UInt32.sub_self, QueueBook.taken, UInt32.toNat_zero, Nat.zero_min]

theorem Gives.taken (gives : Gives book side qty resting rest after)
    (within : Arrivals.asGood (!side.isBuy) resting.price limit = true) :
    book.taken side limit qty = (min resting.qty qty).toNat +
      after.taken side limit (qty - min resting.qty qty) := by
  obtain ⟨used, least, given⟩ | ⟨outlasts, least, -, nothing⟩ := gives.left limit
  · rw [QueueBook.taken, QueueBook.taken, gives.front, Arrivals.within_cons, if_pos within,
      given, least, UInt32.toNat_sub_of_le _ _ used]
    have used := UInt32.le_iff_toNat_le.mp used
    omega
  · rw [nothing, QueueBook.taken, gives.front, Arrivals.within_cons, if_pos within, least]
    have outlasts := UInt32.lt_iff_toNat_lt.mp outlasts
    omega

theorem Gives.fills (gives : Gives book side qty resting rest after)
    (within : Arrivals.asGood (!side.isBuy) resting.price limit = true) (positive : resting.qty ≠ 0)
    (unfilled : qty ≠ 0) :
    book.fills side limit qty =
      (resting, (min resting.qty qty).toNat) ::
        after.fills side limit (qty - min resting.qty qty) := by
  have some : resting.qty.toNat ≠ 0 := fun none => positive (UInt32.toNat_inj.mp none)
  have wanted : qty.toNat ≠ 0 := fun none => unfilled (UInt32.toNat_inj.mp none)
  rw [QueueBook.fills, gives.front, gives.taken within, allot, Arrivals.volume]
  obtain ⟨used, least, given⟩ | ⟨outlasts, least, -, nothing⟩ := gives.left limit
  · rw [least, if_neg (by omega), Nat.min_eq_left (Nat.le_add_right _ _), Nat.add_sub_cancel_left,
      QueueBook.fills, given]
  · have outlasts := UInt32.lt_iff_toNat_lt.mp outlasts
    rw [nothing, fills_nothing nothing, least, Nat.add_zero, if_neg wanted,
      Nat.min_eq_right (Nat.le_of_lt outlasts), Nat.sub_eq_zero_of_le (Nat.le_of_lt outlasts),
      allot_zero]

theorem Gives.take (gives : Gives book side qty resting rest after)
    (within : Arrivals.asGood (!side.isBuy) resting.price limit = true) (positive : resting.qty ≠ 0)
    (unfilled : qty ≠ 0) :
    book.take side limit qty = after.take side limit (qty - min resting.qty qty) := by
  have some : resting.qty.toNat ≠ 0 := fun none => positive (UInt32.toNat_inj.mp none)
  have wanted : qty.toNat ≠ 0 := fun none => unfilled (UInt32.toNat_inj.mp none)
  rw [QueueBook.take, QueueBook.take, gives.symbolId, gives.minPrice, gives.maxPrice]
  congr 1
  funext isBuy
  split
  · rename_i opposite
    subst opposite
    refine Queue.eq_of_orders ?_
    change Priority.deplete volume lessenBy _ _ = Priority.deplete volume lessenBy _ _
    rw [gives.front, gives.taken within, Priority.deplete, Arrivals.volume]
    obtain ⟨used, least, given⟩ | ⟨outlasts, least, given, nothing⟩ := gives.left limit
    · rw [least, if_neg (by omega), if_pos (Nat.le_add_right _ _), Nat.add_sub_cancel_left, given]
    · have outlasts := UInt32.lt_iff_toNat_lt.mp outlasts
      rw [nothing, least, Nat.add_zero, if_neg wanted, if_neg (Nat.not_le.mpr outlasts), given,
        deplete_zero, Arrivals.lessenBy, UInt32.ofNat_toNat]
  · rename_i other
    have own : isBuy = side.isBuy := by simpa using other
    rw [own, gives.own]

theorem taken_le (book : QueueBook) (side : Side) (limit : Price) (qty : Qty) :
    book.taken side limit qty ≤ qty.toNat :=
  Nat.min_le_left _ _

theorem left_eq (book : QueueBook) (side : Side) (limit : Price) (qty : Qty) :
    qty - UInt32.ofNat (book.taken side limit qty) =
      UInt32.ofNat (qty.toNat - book.taken side limit qty) := by
  have less := book.taken_le side limit qty
  rw [UInt32.ofNat_sub less, UInt32.ofNat_toNat]

/-- No more is given than the opposite queue holds. -/
theorem sum_fills (book : QueueBook) (side : Side) (limit : Price) (qty : Qty) :
    ((book.fills side limit qty).map Prod.snd).sum = book.taken side limit qty := by
  rw [fills, sum_allot]
  refine Nat.min_eq_left (Nat.le_trans (Nat.min_le_right _ _) ?_)
  have front := List.takeWhile_append_dropWhile (p := fun order : RestingOrderView =>
    Arrivals.asGood (!side.isBuy) order.price limit) (l := (book.queue (!side.isBuy)).orders)
  have split := congrArg (fun orders => (orders.map volume).sum) front
  rw [List.map_append, List.sum_append] at split
  exact Nat.le_of_add_right_le (Nat.le_of_eq split)

/-- What an accepted add does to the two queues. -/
theorem addOrder_accepted (positive : qty ≠ 0) (inBand : book.priceInBand limit = true)
    {orderId : OrderId} (free : book.holds orderId = false) (seq : SeqNo) (accountId : AccountId)
    (side : Side) (tif : TimeInForce) :
    (book.addOrder seq orderId accountId side limit qty tif).2.trades =
      (book.fills side limit qty).map (book.tradeOf seq orderId) ∧
    ((book.addOrder seq orderId accountId side limit qty tif).1.queue (!side.isBuy)).orders =
      deplete volume lessenBy (book.taken side limit qty) (book.queue (!side.isBuy)).orders ∧
    ((book.addOrder seq orderId accountId side limit qty tif).1.queue side.isBuy).orders =
      if book.taken side limit qty < qty.toNat ∧ tif = .gtc then
        place (Arrivals.Ahead side.isBuy)
          { orderId, accountId, side, price := limit,
            qty := UInt32.ofNat (qty.toNat - book.taken side limit qty) }
          (book.queue side.isBuy).orders
      else (book.queue side.isBuy).orders := by
  have bound := qty.toNat_lt
  have value : (UInt32.ofNat (qty.toNat - book.taken side limit qty)).toNat =
      qty.toNat - book.taken side limit qty := by
    rw [UInt32.toNat_ofNat', Nat.mod_eq_of_lt (by omega)]
  have left : (book.filled seq orderId side limit { remainingQty := qty }).remainingQty =
      UInt32.ofNat (qty.toNat - book.taken side limit qty) := book.left_eq side limit qty
  have remains :
      (decide ((book.filled seq orderId side limit { remainingQty := qty }).remainingQty > 0) &&
      decide (tif = .gtc)) = true ↔ book.taken side limit qty < qty.toNat ∧ tif = .gtc := by
    rw [Bool.and_eq_true, decide_eq_true_iff, decide_eq_true_iff, left, gt_iff_lt,
      UInt32.lt_iff_toNat_lt, value, UInt32.toNat_zero, Nat.sub_pos_iff_lt]
  have opposite : side.isBuy ≠ !side.isBuy := by cases side.isBuy <;> decide
  rw [addOrder, if_neg positive, inBand, free]
  simp only [Bool.not_true, Bool.false_eq_true, ↓reduceIte, remains]
  by_cases rests : book.taken side limit qty < qty.toNat ∧ tif = .gtc
  · rw [if_pos rests, if_pos rests]
    simp only [rest, take, if_neg opposite, ↓reduceIte, Queue.place, Queue.deplete, left]
    exact ⟨rfl, trivial, trivial⟩
  · rw [if_neg rests, if_neg rests]
    simp only [take, if_neg opposite, ↓reduceIte, Queue.deplete]
    exact ⟨rfl, trivial, trivial⟩

end

end QueueBook

namespace ArrivalBook

/-- The queues of a list in arrival order. -/
def queues (book : ArrivalBook) : QueueBook where
  symbolId := book.symbolId
  minPrice := book.minPrice
  maxPrice := book.maxPrice
  queue isBuy := ⟨book.orders.queue isBuy, Arrivals.queue_sorted isBuy book.orders⟩

variable {book : ArrivalBook} {seq : SeqNo} {id : OrderId} {side : Side} {price : Price} {qty : Qty}
  {out : MatchOutput} {order resting : RestingOrderView} {rest : Arrivals}

theorem queues_with (book : ArrivalBook) {orders : Arrivals} {queue : (isBuy : Bool) → Queue isBuy}
    (same : ∀ isBuy, (queue isBuy).orders = orders.queue isBuy) :
    { book.queues with queue } = ArrivalBook.queues { book with orders } := by
  have listed : queue = fun isBuy => ⟨orders.queue isBuy, Arrivals.queue_sorted isBuy orders⟩ :=
    funext fun isBuy => Queue.eq_of_orders (same isBuy)
  rw [listed]
  rfl

theorem find_queues (distinct : Distinct RestingOrderView.orderId book.orders) (id : OrderId) :
    book.queues.find id = book.find id := by
  rw [QueueBook.find, ArrivalBook.find]
  cases found : Keyed.find RestingOrderView.orderId id book.orders with
  | none =>
      have absent : ∀ isBuy, Keyed.find RestingOrderView.orderId id
          (book.orders.queue isBuy) = none := fun isBuy =>
        find_eq_none.mpr fun order member =>
          find_eq_none.mp found order (Arrivals.mem_queue.mp member).1
      rw [queues, absent, absent, Option.none_or]
  | some order =>
      obtain ⟨member, isId⟩ := mem_of_find found
      have listed : Keyed.find RestingOrderView.orderId id (book.orders.queue order.side.isBuy) =
          some order :=
        (Arrivals.distinct_queue distinct _).find_eq_some.mpr
          ⟨Arrivals.mem_queue.mpr ⟨member, rfl⟩, isId⟩
      cases side : order.side.isBuy with
      | true =>
          rw [side] at listed
          rw [queues, listed, Option.some_or]
      | false =>
          rw [side] at listed
          have absent : Keyed.find RestingOrderView.orderId id (book.orders.queue true) = none := by
            refine find_eq_none.mpr fun other also same => ?_
            obtain ⟨also, isBid⟩ := Arrivals.mem_queue.mp also
            rw [distinct.eq also member (same.trans isId.symm), side] at isBid
            cases isBid
          rw [queues, absent, Option.none_or, listed]

theorem holds_queues (distinct : Distinct RestingOrderView.orderId book.orders) (id : OrderId) :
    book.queues.holds id = book.holds id := by
  rw [QueueBook.holds, find_queues distinct]
  rfl

theorem queues_rest (book : ArrivalBook) (order : RestingOrderView) :
    (book.rest order).queues = book.queues.rest order := by
  refine (book.queues_with fun isBuy => ?_).symm
  rw [Arrivals.queue_push]
  split <;> rfl

/-- A trade takes from the front of the opposite queue. -/
theorem Sound.trade_gives (sound : book.Sound)
    (first : book.orders.queue (!side.isBuy) = resting :: rest)
    (seq : SeqNo) (aggressor : OrderId) (out : MatchOutput) :
    QueueBook.Gives book.queues side out.remainingQty resting rest
      (book.trade seq aggressor resting out).1.queues := by
  have distinct := sound.distinct
  obtain ⟨member, opposite⟩ :=
    Arrivals.mem_queue.mp (first ▸ List.mem_cons_self : resting ∈ book.orders.queue (!side.isBuy))
  refine ⟨rfl, rfl, rfl, first, ?_, Queue.eq_of_orders ?_⟩
  · change Arrivals.queue _ (book.orders.fill resting.orderId (min resting.qty out.remainingQty)) =
      _
    rw [Arrivals.queue_fill distinct, first,
      Arrivals.fill_front (first ▸ Arrivals.distinct_queue distinct _)]
    by_cases used : resting.qty ≤ out.remainingQty
    · have least : min resting.qty out.remainingQty = resting.qty := if_pos used
      rw [least, if_pos (UInt32.le_refl _), if_pos used]
    · have least : min resting.qty out.remainingQty = out.remainingQty := if_neg used
      rw [least]
  · change Arrivals.queue _ (book.orders.fill resting.orderId (min resting.qty out.remainingQty)) =
      _
    rw [Arrivals.queue_fill distinct, Arrivals.fill, find_eq_none.mpr]
    · rfl
    · intro order listed same
      obtain ⟨listed, own⟩ := Arrivals.mem_queue.mp listed
      rw [distinct.eq listed member same, opposite] at own
      cases bought : side.isBuy <;> rw [bought] at own <;> cases own

theorem taken_first (beyond : ∀ resting, book.orders.first (!side.isBuy) = some resting →
    Arrivals.asGood (!side.isBuy) resting.price price = false) (qty : Qty) :
    book.queues.taken side price qty = 0 :=
  QueueBook.taken_beyond
    (fun order front => beyond order ((Arrivals.first_eq_head? _ _).trans front)) qty

/-- A sweep with rounds enough allots its quantity along the opposite queue. -/
theorem Sound.sweep_queues (sound : book.Sound) (seq : SeqNo) (id : OrderId) (side : Side)
    (limit : Price) (out : MatchOutput) {rounds : Nat} (enough : book.orders.length ≤ rounds) :
    (book.sweep seq id side limit rounds out).1.queues =
      book.queues.take side limit out.remainingQty ∧
      (book.sweep seq id side limit rounds out).2 = book.queues.filled seq id side limit out := by
  have stops : ∀ {book : ArrivalBook} {out : MatchOutput},
      book.queues.taken side limit out.remainingQty = 0 →
      book.queues = book.queues.take side limit out.remainingQty ∧
      out = book.queues.filled seq id side limit out :=
    fun nothing =>
      ⟨(QueueBook.take_nothing nothing).symm, (QueueBook.filled_nothing nothing seq id).symm⟩
  induction rounds generalizing book out with
  | zero =>
      have empty : book.orders = [] := List.length_eq_zero_iff.mp (Nat.le_zero.mp enough)
      rw [ArrivalBook.sweep]
      exact stops (taken_first (fun resting first => by rw [empty] at first; cases first) _)
  | succ rounds ih =>
      by_cases filled : out.remainingQty = 0
      · rw [sweep_filled _ _ filled]
        exact stops (by rw [QueueBook.taken, filled, UInt32.toNat_zero, Nat.zero_min])
      · cases first : book.orders.first (!side.isBuy) with
        | none =>
            rw [sweep_quiet _ first]
            exact stops (taken_first (fun resting also => by rw [first] at also; cases also) _)
        | some resting =>
            rw [ArrivalBook.sweep, if_neg filled, first]
            dsimp only
            split
            · rename_i within
              obtain ⟨rest, listed⟩ :=
                List.head?_eq_some_iff.mp ((Arrivals.first_eq_head? _ _).symm.trans first)
              have member := (Arrivals.first_mem first).1
              have gives := sound.trade_gives listed seq id out
              have positive := sound.positive resting member
              let traded := book.trade seq id resting out
              have swept : (traded.1.sweep seq id side limit rounds traded.2).1.queues =
                  traded.1.queues.take side limit traded.2.remainingQty ∧
                  (traded.1.sweep seq id side limit rounds traded.2).2 =
                    traded.1.queues.filled seq id side limit traded.2 := by
                by_cases complete : traded.2.remainingQty = 0
                · rw [sweep_filled _ _ complete]
                  exact stops (by rw [QueueBook.taken, complete, UInt32.toNat_zero, Nat.zero_min])
                · have shorter : traded.1.orders.length + 1 = book.orders.length :=
                    trade_length sound.distinct member complete
                  have kept : traded.1.Sound := sound.fill _ _
                  exact ih kept traded.2 (by omega)
              obtain ⟨orders, output⟩ := swept
              refine ⟨orders.trans (gives.take within positive filled).symm, output.trans ?_⟩
              have trade : book.tradeOf seq resting id (min resting.qty out.remainingQty) =
                  book.queues.tradeOf seq id
                    (resting, (min resting.qty out.remainingQty).toNat) := by
                rw [QueueBook.tradeOf, UInt32.ofNat_toNat]
                rfl
              have executed : book.eventOf seq .execute resting (min resting.qty out.remainingQty) =
                  book.queues.eventOf seq .execute resting
                    (UInt32.ofNat (min resting.qty out.remainingQty).toNat) := by
                rw [UInt32.ofNat_toNat]
                rfl
              rw [QueueBook.filled, QueueBook.filled, gives.fills within positive filled,
                gives.taken within, List.map_cons, List.map_cons, List.append_cons out.trades,
                List.append_cons out.mdEvents, ← trade, ← executed,
                UInt32.ofNat_add, UInt32.ofNat_toNat]
              have both : ∀ want one more : UInt32, want - (one + more) =
                  want - one - more := by grind
              rw [both]
              rfl
            · rename_i outside
              refine stops (taken_first (fun other also => ?_) _)
              obtain rfl := Option.some.inj (first.symm.trans also)
              exact Bool.eq_false_iff.mpr outside

section Calls

variable {orderId oldId newId : OrderId} {accountId : AccountId} {tif : TimeInForce}

theorem Sound.queues_addOrder (sound : book.Sound) :
    book.queues.addOrder seq orderId accountId side price qty tif =
      ((book.addOrder seq orderId accountId side price qty tif).1.queues,
        (book.addOrder seq orderId accountId side price qty tif).2) := by
  have band : book.queues.priceInBand price = book.priceInBand price := rfl
  rw [QueueBook.addOrder, ArrivalBook.addOrder, band, holds_queues sound.distinct]
  split
  · rfl
  · split
    · rfl
    · split
      · rfl
      · obtain ⟨orders, output⟩ :=
          sound.sweep_queues seq orderId side price { remainingQty := qty } (Nat.le_refl _)
        dsimp only at orders output ⊢
        rw [← orders, ← output]
        split
        · rw [queues_rest]
          rfl
        · rfl

theorem Sound.queues_cancelOrder (sound : book.Sound) :
    book.queues.cancelOrder seq id =
      ((book.cancelOrder seq id).1.queues, (book.cancelOrder seq id).2) := by
  rw [QueueBook.cancelOrder, ArrivalBook.cancelOrder, find_queues sound.distinct]
  cases book.find id with
  | none => rfl
  | some order => exact Prod.ext (book.queues_with fun isBuy =>
        (Arrivals.queue_erase id book.orders isBuy).symm) rfl

theorem Sound.queues_replaceOrder (sound : book.Sound) :
    book.queues.replaceOrder seq oldId newId accountId side price qty tif =
      ((book.replaceOrder seq oldId newId accountId side price qty tif).1.queues,
        (book.replaceOrder seq oldId newId accountId side price qty tif).2) := by
  have band : book.queues.priceInBand price = book.priceInBand price := rfl
  have kept := sound.cancelOrder seq oldId
  rw [QueueBook.replaceOrder, ArrivalBook.replaceOrder, band, sound.queues_cancelOrder]
  split
  · rfl
  · generalize book.cancelOrder seq oldId = cancelled at kept ⊢
    obtain ⟨after, old⟩ := cancelled
    cases old with
    | none => rfl
    | some old =>
        dsimp only at kept ⊢
        rw [kept.queues_addOrder]

theorem Sound.queues_feedAdd (sound : book.Sound) :
    book.queues.feedAdd orderId accountId side price qty =
      ((book.feedAdd orderId accountId side price qty).1.queues,
        (book.feedAdd orderId accountId side price qty).2) := by
  have band : book.queues.priceInBand price = book.priceInBand price := rfl
  rw [QueueBook.feedAdd, ArrivalBook.feedAdd, band, holds_queues sound.distinct]
  split
  · rfl
  · rw [queues_rest]

theorem Sound.queues_feedExecute (sound : book.Sound) :
    book.queues.feedExecute orderId qty =
      ((book.feedExecute orderId qty).1.queues, (book.feedExecute orderId qty).2) := by
  rw [QueueBook.feedExecute, ArrivalBook.feedExecute, holds_queues sound.distinct]
  split
  · exact Prod.ext (book.queues_with fun isBuy =>
      (Arrivals.queue_fill sound.distinct orderId qty isBuy).symm) rfl
  · rfl

end Calls

end ArrivalBook

end Exsim.Core
