import Exsim.Reference.Queues

/-! # Other names for prices and sides

Matching looks at a price only through the ladder's band and through which of two
prices serves better.  Under other names for prices and sides that keep both, a
book does the same.
-/

namespace Exsim

/-- The side a counterparty is on.  All but `buy` sell. -/
def Side.opposite (side : Side) : Side := if side.isBuy then .sell else .buy

theorem Side.opposite_isBuy (side : Side) : side.opposite.isBuy = !side.isBuy := by
  rw [opposite]
  cases side.isBuy <;> rfl

namespace Core

open Data Data.Keyed

/-- New names for prices, on the same sides or with the sides changed about. -/
structure Relabelling (inBand inBand' : Price → Bool) where
  symbolId : SymbolId
  flips : Bool
  price : Price → Price
  band : ∀ old, inBand' (price old) = inBand old
  ranks : ∀ isBuy left right, inBand left = true → inBand right = true →
    Arrivals.asGood (isBuy ^^ flips) (price left) (price right) = Arrivals.asGood isBuy left right

namespace Relabelling

variable {inBand inBand' : Price → Bool} (names : Relabelling inBand inBand')

def side (old : Side) : Side := if names.flips then old.opposite else old

def order (old : RestingOrderView) : RestingOrderView :=
  { old with side := names.side old.side, price := names.price old.price }

def trade (old : Trade) : Trade :=
  { old with symbolId := names.symbolId, price := names.price old.price }

def event (old : MdEvent) : MdEvent :=
  { old with
    symbolId := names.symbolId, side := names.side old.side, price := names.price old.price }

def output (old : MatchOutput) : MatchOutput :=
  { old with trades := old.trades.map names.trade, mdEvents := old.mdEvents.map names.event }

theorem order_orderId (old : RestingOrderView) : (names.order old).orderId = old.orderId := rfl

theorem output_rested (out : MatchOutput) (ev : MdEvent) :
    names.output { out with mdEvents := out.mdEvents ++ [ev], remainingQty := 0 } =
      { names.output out with
        mdEvents := (names.output out).mdEvents ++ [names.event ev], remainingQty := 0 } := by
  rw [output, List.map_append]
  rfl

theorem side_isBuy (old : Side) : (names.side old).isBuy = (old.isBuy ^^ names.flips) := by
  rw [side]
  cases names.flips with
  | true => rw [if_pos rfl, Side.opposite_isBuy, Bool.xor_true]
  | false => rw [if_neg (by decide), Bool.xor_false]

theorem not_side_isBuy (old : Side) : (!(names.side old).isBuy) = (!old.isBuy ^^ names.flips) := by
  rw [side_isBuy, Bool.not_xor]

theorem ofSide_map (isBuy : Bool) (orders : Arrivals) :
    Arrivals.ofSide (isBuy ^^ names.flips) (orders.map names.order) =
      (orders.ofSide isBuy).map names.order := by
  rw [Arrivals.ofSide, Arrivals.ofSide, List.filter_map]
  refine congrArg _ (List.filter_congr fun old _ => ?_)
  rw [Function.comp_apply, order, side_isBuy]
  exact decide_eq_decide.mpr Bool.xor_left_inj

/-- The queues of a book keep their order, each under the name of its side. -/
theorem queue_map {orders : Arrivals} (inside : ∀ old ∈ orders, inBand old.price = true)
    (isBuy : Bool) :
    Arrivals.queue (isBuy ^^ names.flips) (orders.map names.order) =
      (orders.queue isBuy).map names.order := by
  rw [Arrivals.queue, Arrivals.queue, ofSide_map,
    List.map_insertionSort (Arrivals.Ahead isBuy) (Arrivals.Ahead (isBuy ^^ names.flips))]
  intro left leftMember right rightMember
  have kept :=
    names.ranks isBuy left.price right.price (inside left (Arrivals.mem_ofSide.mp leftMember).1)
    (inside right (Arrivals.mem_ofSide.mp rightMember).1)
  rw [Arrivals.Ahead, Arrivals.Ahead, order, order, kept]

theorem first_map {orders : Arrivals} (inside : ∀ old ∈ orders, inBand old.price = true)
    (isBuy : Bool) :
    Arrivals.first (isBuy ^^ names.flips) (orders.map names.order) =
      (orders.first isBuy).map names.order := by
  rw [Arrivals.first_eq_head?, Arrivals.first_eq_head?, names.queue_map inside, List.head?_map]

theorem fill_map (id : OrderId) (qty : Qty) (orders : Arrivals) :
    Arrivals.fill id qty (orders.map names.order) = (orders.fill id qty).map names.order := by
  rw [Arrivals.fill, Arrivals.fill, find_map names.order_orderId]
  cases find RestingOrderView.orderId id orders with
  | none => rfl
  | some old =>
      have sameQty : (names.order old).qty = old.qty := rfl
      rw [Option.map_some]
      dsimp only
      rw [sameQty]
      split
      · exact erase_map names.order_orderId id orders
      · exact adjust_map names.order_orderId (fun old => { old with qty := old.qty - qty })
          (fun _ => rfl) id orders

end Relabelling

namespace ArrivalBook

variable {inBand inBand' : Price → Bool} {names : Relabelling inBand inBand'}
  {book other : ArrivalBook}

/-- A book and the same under other names. -/
structure Relabelled (names : Relabelling inBand inBand') (book other : ArrivalBook) : Prop where
  symbolId : other.symbolId = names.symbolId
  orders : other.orders = book.orders.map names.order
  here : book.priceInBand = inBand
  there : other.priceInBand = inBand'
  inside : ∀ order ∈ book.orders, inBand order.price = true

theorem Relabelled.holds (same : Relabelled names book other) (id : OrderId) :
    other.holds id = book.holds id := by
  rw [ArrivalBook.holds, same.orders, holds_map names.order_orderId, ArrivalBook.holds]

theorem Relabelled.find (same : Relabelled names book other) (id : OrderId) :
    other.find id = (book.find id).map names.order := by
  rw [ArrivalBook.find, same.orders, find_map names.order_orderId, ArrivalBook.find]

theorem Relabelled.priceInBand (same : Relabelled names book other) (price : Price) :
    other.priceInBand (names.price price) = book.priceInBand price := by
  rw [same.there, same.here]
  exact names.band price

theorem Relabelled.event (same : Relabelled names book other) (seq : SeqNo) (type : MdType)
    (old : RestingOrderView) (qty : Qty) :
    other.eventOf seq type (names.order old) qty = names.event (book.eventOf seq type old qty) := by
  rw [eventOf, same.symbolId]
  rfl

theorem Relabelled.fill (same : Relabelled names book other) (id : OrderId) (qty : Qty) :
    Relabelled names { book with orders := book.orders.fill id qty }
      { other with orders := other.orders.fill id qty } := by
  refine ⟨same.symbolId, ?_, same.here, same.there, fun order member => ?_⟩
  · change other.orders.fill id qty = _
    rw [same.orders, names.fill_map]
  · obtain ⟨before, listed, -, -, -, kept⟩ := Arrivals.mem_fill member
    rw [← kept]
    exact same.inside before listed

theorem Relabelled.erase (same : Relabelled names book other) (id : OrderId) :
    Relabelled names { book with orders := Keyed.erase RestingOrderView.orderId id book.orders }
      { other with orders := Keyed.erase RestingOrderView.orderId id other.orders } := by
  refine ⟨same.symbolId, ?_, same.here, same.there,
    fun order member => same.inside order (mem_erase.mp member).1⟩
  change Keyed.erase RestingOrderView.orderId id other.orders = _
  rw [same.orders, erase_map names.order_orderId]

theorem Relabelled.rest (same : Relabelled names book other) {order : RestingOrderView}
    (inside : inBand order.price = true) :
    Relabelled names (book.rest order) (other.rest (names.order order)) := by
  refine ⟨same.symbolId, ?_, same.here, same.there, fun each member => ?_⟩
  · rw [ArrivalBook.rest, ArrivalBook.rest, same.orders, List.map_append, List.map_singleton]
  · obtain member | member := List.mem_append.mp member
    · exact same.inside each member
    · rw [List.mem_singleton.mp member]
      exact inside

theorem Relabelled.trade (same : Relabelled names book other) (seq : SeqNo) (aggressor : OrderId)
    (resting : RestingOrderView) (out : MatchOutput) :
    Relabelled names (book.trade seq aggressor resting out).1
        (other.trade seq aggressor (names.order resting) (names.output out)).1 ∧
      (other.trade seq aggressor (names.order resting) (names.output out)).2 =
        names.output (book.trade seq aggressor resting out).2 := by
  refine ⟨same.fill _ _, ?_⟩
  have executed := same.event seq .execute resting (min resting.qty out.remainingQty)
  rw [ArrivalBook.trade, ArrivalBook.trade, Relabelling.output, Relabelling.output, List.map_append,
    List.map_append, List.map_singleton, List.map_singleton, ← executed, tradeOf, same.symbolId]
  rfl

/-- A sweep meets the same orders. -/
theorem Relabelled.sweep (same : Relabelled names book other) (seq : SeqNo) (aggressor : OrderId)
    (side : Side) {limit : Price} (inside : inBand limit = true) (rounds : Nat)
    (out : MatchOutput) :
    Relabelled names (book.sweep seq aggressor side limit rounds out).1
        (other.sweep seq aggressor (names.side side) (names.price limit) rounds
          (names.output out)).1 ∧
      (other.sweep seq aggressor (names.side side) (names.price limit) rounds
        (names.output out)).2 =
      names.output (book.sweep seq aggressor side limit rounds out).2 := by
  induction rounds generalizing book other out with
  | zero => exact ⟨same, rfl⟩
  | succ rounds ih =>
      have left : (names.output out).remainingQty = out.remainingQty := rfl
      rw [ArrivalBook.sweep, ArrivalBook.sweep, left]
      split
      · exact ⟨same, rfl⟩
      · rw [names.not_side_isBuy, same.orders, names.first_map same.inside]
        cases first : book.orders.first (!side.isBuy) with
        | none => exact ⟨same, rfl⟩
        | some resting =>
            have member := (Arrivals.first_mem first).1
            have reaches :=
              names.ranks (!side.isBuy) resting.price limit (same.inside resting member) inside
            rw [Option.map_some]
            dsimp only
            rw [Relabelling.order, reaches, ← Relabelling.order]
            split
            · obtain ⟨books, output⟩ := same.trade seq aggressor resting out
              rw [output]
              exact ih books _
            · exact ⟨same, rfl⟩

theorem Relabelled.addOrder (same : Relabelled names book other) (seq : SeqNo) (id : OrderId)
    (accountId : AccountId) (side : Side) (price : Price) (qty : Qty) (tif : TimeInForce) :
    Relabelled names (book.addOrder seq id accountId side price qty tif).1
        (other.addOrder seq id accountId (names.side side) (names.price price) qty tif).1 ∧
      (other.addOrder seq id accountId (names.side side) (names.price price) qty tif).2 =
        names.output (book.addOrder seq id accountId side price qty tif).2 := by
  rw [ArrivalBook.addOrder, ArrivalBook.addOrder, same.priceInBand, same.holds]
  split
  · exact ⟨same, rfl⟩
  · split
    · exact ⟨same, rfl⟩
    · rename_i refused
      have inside : inBand price = true := by
        rw [← same.here]
        simpa using refused
      split
      · exact ⟨same, rfl⟩
      · have count : other.orders.length = book.orders.length := by
          rw [same.orders, List.length_map]
        have swept := same.sweep seq id side inside book.orders.length { remainingQty := qty }
        have empty : names.output { remainingQty := qty } = { remainingQty := qty } := rfl
        rw [empty] at swept
        rw [count]
        generalize book.sweep seq id side price book.orders.length { remainingQty := qty } =
          result at swept ⊢
        generalize other.sweep seq id (names.side side) (names.price price) book.orders.length
          { remainingQty := qty } = result' at swept ⊢
        obtain ⟨after, out⟩ := result
        obtain ⟨after', out'⟩ := result'
        obtain ⟨books, rfl⟩ := swept
        have left : (names.output out).remainingQty = out.remainingQty := rfl
        dsimp only at books ⊢
        rw [left]
        split
        · let order : RestingOrderView :=
            { orderId := id, accountId, side, price, qty := out.remainingQty }
          have added := books.event seq .add order out.remainingQty
          have rested : Relabelled names (after.rest order) (after'.rest (names.order order)) :=
            books.rest inside
          refine ⟨rested, ?_⟩
          dsimp only
          rw [names.output_rested, ← added]
          rfl
        · exact ⟨books, rfl⟩

theorem Relabelled.cancelOrder (same : Relabelled names book other) (seq : SeqNo) (id : OrderId) :
    Relabelled names (book.cancelOrder seq id).1 (other.cancelOrder seq id).1 ∧
      (other.cancelOrder seq id).2 = (book.cancelOrder seq id).2.map names.event := by
  rw [ArrivalBook.cancelOrder, ArrivalBook.cancelOrder, same.find]
  cases book.find id with
  | none => exact ⟨same, rfl⟩
  | some order =>
      rw [Option.map_some]
      exact ⟨same.erase id, congrArg some (same.event seq .cancel order order.qty)⟩

theorem Relabelled.replaceOrder (same : Relabelled names book other) (seq : SeqNo)
    (oldId id : OrderId) (accountId : AccountId) (side : Side) (price : Price) (qty : Qty)
    (tif : TimeInForce) :
    Relabelled names (book.replaceOrder seq oldId id accountId side price qty tif).1
        (other.replaceOrder seq oldId id accountId (names.side side)
          (names.price price) qty tif).1 ∧
      (other.replaceOrder seq oldId id accountId (names.side side) (names.price price) qty tif).2 =
        names.output (book.replaceOrder seq oldId id accountId side price qty tif).2 := by
  rw [ArrivalBook.replaceOrder, ArrivalBook.replaceOrder, same.priceInBand]
  split
  · exact ⟨same, rfl⟩
  · have cancelled := same.cancelOrder seq oldId
    generalize book.cancelOrder seq oldId = result at cancelled ⊢
    generalize other.cancelOrder seq oldId = result' at cancelled ⊢
    obtain ⟨after, ev⟩ := result
    obtain ⟨after', ev'⟩ := result'
    obtain ⟨books, rfl⟩ := cancelled
    cases ev with
    | none => exact ⟨books, rfl⟩
    | some ev =>
        obtain ⟨added, output⟩ := books.addOrder seq id accountId side price qty tif
        refine ⟨added, ?_⟩
        dsimp only [Option.map_some] at output ⊢
        rw [output]
        rfl

theorem Relabelled.feedAdd (same : Relabelled names book other) (id : OrderId)
    (accountId : AccountId) (side : Side) (price : Price) (qty : Qty) :
    Relabelled names (book.feedAdd id accountId side price qty).1
        (other.feedAdd id accountId (names.side side) (names.price price) qty).1 ∧
      (other.feedAdd id accountId (names.side side) (names.price price) qty).2 =
        (book.feedAdd id accountId side price qty).2 := by
  rw [ArrivalBook.feedAdd, ArrivalBook.feedAdd, same.priceInBand, same.holds]
  split
  · exact ⟨same, rfl⟩
  · rename_i taken
    have inside : inBand price = true := by
      rw [← same.here]
      simp only [Bool.or_eq_true, not_or, Bool.not_eq_true', Bool.not_eq_false] at taken
      exact taken.2
    let order : RestingOrderView := { orderId := id, accountId, side, price, qty }
    have rested : Relabelled names (book.rest order) (other.rest (names.order order)) :=
      same.rest inside
    exact ⟨rested, rfl⟩

theorem Relabelled.feedExecute (same : Relabelled names book other) (id : OrderId) (qty : Qty) :
    Relabelled names (book.feedExecute id qty).1 (other.feedExecute id qty).1 ∧
      (other.feedExecute id qty).2 = (book.feedExecute id qty).2 := by
  rw [ArrivalBook.feedExecute, ArrivalBook.feedExecute, same.holds]
  split
  · exact ⟨same.fill id qty, rfl⟩
  · exact ⟨same, rfl⟩

end ArrivalBook

/-- The prices of a ladder. -/
def inLadder (minPrice maxPrice price : Price) : Bool := price ≥ minPrice && price ≤ maxPrice

theorem inLadder_iff {minPrice maxPrice price : Price} :
    inLadder minPrice maxPrice price = true ↔ minPrice.toInt ≤ price.toInt ∧
    price.toInt ≤ maxPrice.toInt := by
  rw [inLadder, Bool.and_eq_true, decide_eq_true_iff, decide_eq_true_iff, ge_iff_le,
    Int64.le_iff_toInt_le, Int64.le_iff_toInt_le]

theorem reflected_toInt (minPrice maxPrice price : Price) :
    (inLadder minPrice maxPrice (minPrice + (maxPrice - price)) =
      inLadder minPrice maxPrice price) ∧ (inLadder minPrice maxPrice price = true →
        (minPrice + (maxPrice - price)).toInt = minPrice.toInt + maxPrice.toInt - price.toInt) := by
  obtain ⟨turns, sum⟩ := toInt_add_wraps minPrice (maxPrice - price)
  obtain ⟨turns', difference⟩ := toInt_sub_wraps maxPrice price
  have reflectedLower := (minPrice + (maxPrice - price)).le_toInt
  have reflectedUpper := (minPrice + (maxPrice - price)).toInt_lt
  have priceLower := price.le_toInt
  have priceUpper := price.toInt_lt
  have lower := minPrice.le_toInt
  have upper := maxPrice.toInt_lt
  rw [Bool.eq_iff_iff, inLadder_iff, inLadder_iff]
  omega

theorem shifted_toInt {minPrice maxPrice minPrice' maxPrice' offset : Price}
    (order : minPrice ≤ maxPrice) (order' : minPrice' ≤ maxPrice')
    (low : minPrice' = minPrice + offset) (high : maxPrice' = maxPrice + offset) (price : Price) :
    (inLadder minPrice' maxPrice' (price + offset) = inLadder minPrice maxPrice price) ∧
      (inLadder minPrice maxPrice price = true →
        (price + offset).toInt - minPrice'.toInt = price.toInt - minPrice.toInt) := by
  subst low high
  obtain ⟨turns, sum⟩ := toInt_add_wraps minPrice offset
  obtain ⟨turns', sum'⟩ := toInt_add_wraps maxPrice offset
  obtain ⟨turns'', sum''⟩ := toInt_add_wraps price offset
  have lowerShifted := (minPrice + offset).le_toInt
  have upperShifted := (maxPrice + offset).toInt_lt
  have shiftedLower := (price + offset).le_toInt
  have shiftedUpper := (price + offset).toInt_lt
  have lower := minPrice.le_toInt
  have upper := maxPrice.toInt_lt
  have priceLower := price.le_toInt
  have priceUpper := price.toInt_lt
  rw [Int64.le_iff_toInt_le] at order order'
  rw [Bool.eq_iff_iff, inLadder_iff, inLadder_iff]
  omega

namespace Relabelling

/-- The ladder upside down, with the sides changed about. -/
def reflection (symbolId : SymbolId) (minPrice maxPrice : Price) :
    Relabelling (inLadder minPrice maxPrice) (inLadder minPrice maxPrice) where
  symbolId := symbolId
  flips := true
  price old := minPrice + (maxPrice - old)
  band old := (reflected_toInt minPrice maxPrice old).1
  ranks isBuy left right leftInside rightInside := by
    have left := (reflected_toInt minPrice maxPrice left).2 leftInside
    have right := (reflected_toInt minPrice maxPrice right).2 rightInside
    rw [Bool.eq_iff_iff]
    cases isBuy <;>
      simp only [Arrivals.asGood, Bool.xor_true, Bool.not_true, Bool.not_false,
        Bool.false_eq_true, ↓reduceIte, decide_eq_true_iff, Int64.le_iff_toInt_le, left, right] <;>
      omega

/-- A ladder further up or down. -/
def translation (symbolId : SymbolId) {minPrice maxPrice minPrice' maxPrice' offset : Price}
    (order : minPrice ≤ maxPrice) (order' : minPrice' ≤ maxPrice')
    (low : minPrice' = minPrice + offset) (high : maxPrice' = maxPrice + offset) :
    Relabelling (inLadder minPrice maxPrice) (inLadder minPrice' maxPrice') where
  symbolId := symbolId
  flips := false
  price old := old + offset
  band old := (shifted_toInt order order' low high old).1
  ranks isBuy left right leftInside rightInside := by
    have left := (shifted_toInt order order' low high left).2 leftInside
    have right := (shifted_toInt order order' low high right).2 rightInside
    rw [Bool.eq_iff_iff]
    cases isBuy <;>
      simp only [Arrivals.asGood, Bool.xor_false, Bool.false_eq_true, ↓reduceIte,
        decide_eq_true_iff, Int64.le_iff_toInt_le] <;>
      omega

end Relabelling

end Core

end Exsim
