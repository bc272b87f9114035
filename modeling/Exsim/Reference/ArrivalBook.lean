import Exsim.Core.OrderBook
import Exsim.Data.Keyed
import Exsim.Data.Words

/-! # The reference book: price-time priority over one list

The resting orders of a symbol are kept in one plain list in arrival order.
Everything the engine's pools, lists, bitmaps and caches are for is said here
by searching that list.
-/

namespace Exsim.Core

open Data.Keyed

abbrev Arrivals := List RestingOrderView

namespace Arrivals

/-- Whether `price` serves a counterparty of side `isBuy` at least as well as `other`. -/
def asGood (isBuy : Bool) (price other : Price) : Bool :=
  if isBuy then other ≤ price else price ≤ other

def ofSide (isBuy : Bool) (orders : Arrivals) : Arrivals :=
  orders.filter fun order => order.side.isBuy = isBuy

theorem mem_ofSide {isBuy : Bool} {orders : Arrivals} {order : RestingOrderView} :
    order ∈ orders.ofSide isBuy ↔ order ∈ orders ∧ order.side.isBuy = isBuy := by
  simp [ofSide]

/-- The earliest arrival at the best price of a side. -/
def first (isBuy : Bool) (orders : Arrivals) : Option RestingOrderView :=
  (orders.ofSide isBuy).find? fun order =>
    (orders.ofSide isBuy).all fun other => asGood isBuy order.price other.price

/-- Takes `qty` from the order `id`, in its place. -/
def lessen (id : OrderId) (qty : Qty) (orders : Arrivals) : Arrivals :=
  adjust RestingOrderView.orderId id (fun order => { order with qty := order.qty - qty }) orders

theorem erase_lessen {id : OrderId} {qty : Qty} {orders : Arrivals} :
    erase RestingOrderView.orderId id (orders.lessen id qty) =
      erase RestingOrderView.orderId id orders :=
  erase_adjust fun _ => rfl

/-- Takes `qty` from the order `id`, which leaves when it is used up. -/
def fill (id : OrderId) (qty : Qty) (orders : Arrivals) : Arrivals :=
  match find RestingOrderView.orderId id orders with
  | none => orders
  | some order =>
      if order.qty ≤ qty then erase RestingOrderView.orderId id orders
      else orders.lessen id qty

theorem first_mem {isBuy : Bool} {orders : Arrivals} {order : RestingOrderView}
    (found : orders.first isBuy = some order) : order ∈ orders ∧ order.side.isBuy = isBuy :=
  mem_ofSide.mp (List.mem_of_find?_eq_some found)

@[simp] theorem first_nil (isBuy : Bool) : first isBuy [] = none := rfl

/-- What a fill does to an order that rests. -/
theorem fill_of_mem {id : OrderId} {qty : Qty} {orders : Arrivals} {order : RestingOrderView}
    (distinct : Distinct RestingOrderView.orderId orders) (member : order ∈ orders)
    (isId : order.orderId = id) :
    orders.fill id qty =
      if order.qty ≤ qty then erase RestingOrderView.orderId id orders
      else orders.lessen id qty := by
  rw [fill, distinct.find_eq_some.mpr ⟨member, isId⟩]

theorem holds_lessen {id other : OrderId} {qty : Qty} {orders : Arrivals} :
    Data.Keyed.holds RestingOrderView.orderId other (orders.lessen id qty) =
      Data.Keyed.holds RestingOrderView.orderId other orders :=
  holds_adjust fun _ => rfl

theorem length_lessen {id : OrderId} {qty : Qty} {orders : Arrivals} :
    (orders.lessen id qty).length = orders.length := length_adjust

theorem holds_fill {id other : OrderId} {qty : Qty} {orders : Arrivals}
    (held : Data.Keyed.holds RestingOrderView.orderId other (orders.fill id qty) = true) :
    Data.Keyed.holds RestingOrderView.orderId other orders = true := by
  rw [fill] at held
  split at held
  · exact held
  · split at held
    · rw [holds_erase, Bool.and_eq_true] at held
      exact held.1
    · rwa [holds_lessen] at held

/-- A fill moves no order to another id, account, side or price. -/
theorem mem_fill {id : OrderId} {qty : Qty} {orders : Arrivals} {order : RestingOrderView}
    (member : order ∈ orders.fill id qty) :
    ∃ before ∈ orders, before.orderId = order.orderId ∧ before.accountId = order.accountId ∧
    before.side = order.side ∧ before.price = order.price := by
  rw [fill] at member
  split at member
  · exact ⟨order, member, rfl, rfl, rfl, rfl⟩
  · split at member
    · exact ⟨order, (mem_erase.mp member).1, rfl, rfl, rfl, rfl⟩
    · obtain ⟨before, listed, rfl⟩ := mem_adjust.mp member
      refine ⟨before, listed, ?_⟩
      split <;> exact ⟨rfl, rfl, rfl, rfl⟩

theorem length_fill_le (id : OrderId) (qty : Qty) (orders : Arrivals) :
    (orders.fill id qty).length ≤ orders.length := by
  rw [fill]
  split
  · exact Nat.le_refl _
  · split
    · exact List.length_filter_le _ _
    · rw [length_lessen]

end Arrivals

structure ArrivalBook where
  symbolId : SymbolId
  minPrice : Price
  maxPrice : Price
  orders : Arrivals := []
deriving DecidableEq, Repr

namespace ArrivalBook

def priceInBand (book : ArrivalBook) (price : Price) : Bool :=
  price ≥ book.minPrice && price ≤ book.maxPrice

def holds (book : ArrivalBook) (id : OrderId) : Bool :=
  Data.Keyed.holds RestingOrderView.orderId id book.orders

def find (book : ArrivalBook) (id : OrderId) : Option RestingOrderView :=
  Data.Keyed.find RestingOrderView.orderId id book.orders

/-- The resting orders of one side at one price, in arrival order. -/
def atPrice (book : ArrivalBook) (isBuy : Bool) (price : Price) : Arrivals :=
  book.orders.filter fun order => order.side.isBuy = isBuy ∧ order.price = price

def tradeOf (book : ArrivalBook) (seq : SeqNo) (resting : RestingOrderView) (aggressor : OrderId)
    (qty : Qty) : Trade :=
  { seq, symbolId := book.symbolId, restingOrderId := resting.orderId,
    aggressingOrderId := aggressor
    price := resting.price, qty }

def eventOf (book : ArrivalBook) (seq : SeqNo) (type : MdType) (order : RestingOrderView)
    (qty : Qty) : MdEvent :=
  { seq, type, symbolId := book.symbolId, orderId := order.orderId, accountId := order.accountId
    side := order.side, price := order.price, qty }

/-- One fill of the remaining quantity against a resting order. -/
def trade (book : ArrivalBook) (seq : SeqNo) (aggressor : OrderId) (resting : RestingOrderView)
    (out : MatchOutput) : ArrivalBook × MatchOutput :=
  let qty := min resting.qty out.remainingQty
  ({ book with orders := book.orders.fill resting.orderId qty },
    { out with
      trades := out.trades ++ [book.tradeOf seq resting aggressor qty]
      mdEvents := out.mdEvents ++ [book.eventOf seq .execute resting qty]
      remainingQty := out.remainingQty - qty })

/-- Fills against the earliest arrival at the best opposite price while that
price is within the limit.  Each fill uses up a resting order or the remaining
quantity, so as many rounds as there are orders suffice. -/
def sweep (seq : SeqNo) (aggressor : OrderId) (side : Side) (limit : Price) :
    Nat → ArrivalBook → MatchOutput → ArrivalBook × MatchOutput
  | 0, book, out => (book, out)
  | rounds + 1, book, out =>
      if out.remainingQty = 0 then (book, out)
      else match book.orders.first (!side.isBuy) with
        | none => (book, out)
        | some resting =>
            if Arrivals.asGood (!side.isBuy) resting.price limit then
              let (book, out) := book.trade seq aggressor resting out
              sweep seq aggressor side limit rounds book out
            else (book, out)

theorem sweep_filled {seq : SeqNo} {aggressor : OrderId} {side : Side} {limit : Price}
    {out : MatchOutput} (rounds : Nat) (book : ArrivalBook) (filled : out.remainingQty = 0) :
    sweep seq aggressor side limit rounds book out = (book, out) := by
  cases rounds with
  | zero => rfl
  | succ rounds => rw [sweep, if_pos filled]

/-- A trade that leaves something to fill uses its resting order up. -/
theorem trade_length {book : ArrivalBook} {seq : SeqNo} {aggressor : OrderId}
    {resting : RestingOrderView} {out : MatchOutput}
    (distinct : Distinct RestingOrderView.orderId book.orders)
    (member : resting ∈ book.orders)
    (unfilled : (book.trade seq aggressor resting out).2.remainingQty ≠ 0) :
    (book.trade seq aggressor resting out).1.orders.length + 1 = book.orders.length := by
  have used : resting.qty ≤ min resting.qty out.remainingQty := Data.le_min_of_sub_ne_zero unfilled
  change (book.orders.fill resting.orderId _).length + 1 = _
  rw [Arrivals.fill_of_mem distinct member rfl, if_pos used]
  exact distinct.length_erase member

/-- What every trade within the limit preserves, the sweep preserves. -/
theorem sweep_induction {motive : ArrivalBook → MatchOutput → Prop} (seq : SeqNo)
    (aggressor : OrderId) (side : Side) (limit : Price)
    (step : ∀ book out resting, motive book out → out.remainingQty ≠ 0 →
      book.orders.first (!side.isBuy) = some resting →
      Arrivals.asGood (!side.isBuy) resting.price limit = true →
      motive (book.trade seq aggressor resting out).1 (book.trade seq aggressor resting out).2)
    (rounds : Nat) {book : ArrivalBook} {out : MatchOutput} (start : motive book out) :
    motive (sweep seq aggressor side limit rounds book out).1
      (sweep seq aggressor side limit rounds book out).2 := by
  induction rounds generalizing book out with
  | zero => exact start
  | succ rounds ih =>
      rw [sweep]
      split
      · exact start
      · rename_i unfilled
        cases first : book.orders.first (!side.isBuy) with
        | none => exact start
        | some resting =>
            dsimp only
            split
            · rename_i within
              exact ih (step book out resting start unfilled first within)
            · exact start

theorem holds_trade {book : ArrivalBook} {seq : SeqNo} {aggressor id : OrderId}
    {resting : RestingOrderView} {out : MatchOutput}
    (held : (book.trade seq aggressor resting out).1.holds id = true) :
    book.holds id = true := Arrivals.holds_fill held

theorem sweep_holds {book : ArrivalBook} {seq : SeqNo} {aggressor id : OrderId} {side : Side}
    {limit : Price} {out : MatchOutput} {rounds : Nat}
    (held : (sweep seq aggressor side limit rounds book out).1.holds id = true) :
    book.holds id = true :=
  sweep_induction (motive := fun after _ => after.holds id = true → book.holds id = true) seq
    aggressor side limit (fun _ _ _ before _ _ _ held => before (holds_trade held)) rounds
      (fun held => held) held

theorem sweep_length_le {book : ArrivalBook} {seq : SeqNo} {aggressor : OrderId} {side : Side}
    {limit : Price} {out : MatchOutput} {rounds : Nat} :
    (sweep seq aggressor side limit rounds book out).1.orders.length ≤ book.orders.length :=
  sweep_induction (motive := fun after _ => after.orders.length ≤ book.orders.length) seq
    aggressor side limit (fun _ _ _ before _ _ _ =>
      Nat.le_trans (Arrivals.length_fill_le _ _ _) before) rounds (Nat.le_refl _)

theorem sweep_symbolId (book : ArrivalBook) (seq : SeqNo) (aggressor : OrderId) (side : Side)
    (limit : Price) (out : MatchOutput) (rounds : Nat) :
    (sweep seq aggressor side limit rounds book out).1.symbolId = book.symbolId :=
  sweep_induction (motive := fun after _ => after.symbolId = book.symbolId) seq aggressor side limit
    (fun _ _ _ before _ _ _ => before) rounds rfl

theorem sweep_priceInBand (book : ArrivalBook) (seq : SeqNo) (aggressor : OrderId) (side : Side)
    (limit : Price) (out : MatchOutput) (rounds : Nat) :
    (sweep seq aggressor side limit rounds book out).1.priceInBand = book.priceInBand :=
  sweep_induction (motive := fun after _ => after.priceInBand = book.priceInBand) seq
    aggressor side limit (fun _ _ _ before _ _ _ => before) rounds rfl

def rest (book : ArrivalBook) (order : RestingOrderView) : ArrivalBook :=
  { book with orders := book.orders ++ [order] }

theorem rest_holds {book : ArrivalBook} {order : RestingOrderView} {id : OrderId} :
    (book.rest order).holds id = (book.holds id || decide (order.orderId = id)) := holds_push

theorem erase_holds {book : ArrivalBook} {id : OrderId} (oldId : OrderId) :
    ({ book with orders := erase RestingOrderView.orderId oldId book.orders } : ArrivalBook).holds
    id = (book.holds id && decide (id ≠ oldId)) := holds_erase

def addOrder (book : ArrivalBook) (seq : SeqNo) (orderId : OrderId) (accountId : AccountId)
    (side : Side) (price : Price) (qty : Qty) (tif : TimeInForce) : ArrivalBook × MatchOutput :=
  if qty = 0 then (book, { remainingQty := qty, reject := .invalidQty })
  else if !book.priceInBand price then (book, { remainingQty := qty, reject := .invalidPrice })
  else if book.holds orderId then (book, { remainingQty := qty, reject := .duplicateOrder })
  else
    let (book, out) := sweep seq orderId side price book.orders.length book { remainingQty := qty }
    if out.remainingQty > 0 && tif = .gtc then
      let order : RestingOrderView := { orderId, accountId, side, price, qty := out.remainingQty }
      (book.rest order,
        { out with
          mdEvents := out.mdEvents ++ [book.eventOf seq .add order order.qty], remainingQty := 0 })
    else (book, out)

def cancelOrder (book : ArrivalBook) (seq : SeqNo) (id : OrderId) : ArrivalBook × Option MdEvent :=
  match book.find id with
  | none => (book, none)
  | some order =>
      ({ book with orders := erase RestingOrderView.orderId id book.orders },
        some (book.eventOf seq .cancel order order.qty))

theorem cancelOrder_length_le (book : ArrivalBook) (seq : SeqNo) (id : OrderId) :
    (book.cancelOrder seq id).1.orders.length ≤ book.orders.length := by
  rw [cancelOrder]
  split
  · exact Nat.le_refl _
  · exact List.length_filter_le _ _

/-- After the price-band check, a cancel and then an add, which loses priority. -/
def replaceOrder (book : ArrivalBook) (seq : SeqNo) (oldId newId : OrderId) (accountId : AccountId)
    (side : Side) (price : Price) (qty : Qty) (tif : TimeInForce) : ArrivalBook × MatchOutput :=
  if !book.priceInBand price then (book, { reject := .invalidPrice })
  else match book.cancelOrder seq oldId with
    | (book, none) => (book, { reject := .unknownOrder })
    | (book, some old) =>
        let (book, add) := book.addOrder seq newId accountId side price qty tif
        (book, { add with mdEvents := old :: add.mdEvents })

def feedAdd (book : ArrivalBook) (orderId : OrderId) (accountId : AccountId) (side : Side)
    (price : Price) (qty : Qty) : ArrivalBook × Bool :=
  if book.holds orderId || qty = 0 || !book.priceInBand price then (book, false)
  else (book.rest { orderId, accountId, side, price, qty }, true)

def feedExecute (book : ArrivalBook) (orderId : OrderId) (qty : Qty) : ArrivalBook × Bool :=
  if book.holds orderId && qty ≠ 0 then ({ book with orders := book.orders.fill orderId qty }, true)
  else (book, false)

end ArrivalBook

end Exsim.Core
