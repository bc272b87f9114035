import Exsim.OrderBook.Contents
import Exsim.Reference.Queues

/-! # A book read as two queues

Walking the levels of a side from the best, and each level's list from its head,
meets the side's orders in the order they will be served.
-/

namespace Exsim.Core

open Data Data.Priority

namespace QueueBook

def matchCall (book : QueueBook) : MatchCall → QueueBook × MatchAnswer
  | .add seq orderId accountId side price qty tif =>
      let (book, out) := book.addOrder seq orderId accountId side price qty tif
      (book, .output out)
  | .cancel seq orderId =>
      let (book, ev) := book.cancelOrder seq orderId
      (book, .cancelled ev)
  | .replace seq oldId newId accountId side price qty tif =>
      let (book, out) := book.replaceOrder seq oldId newId accountId side price qty tif
      (book, .output out)

def call (book : QueueBook) : BookCall → QueueBook × BookAnswer
  | .matching call =>
      let (book, answer) := book.matchCall call
      (book, .matched answer)
  | .feedAdd orderId accountId side price qty =>
      let (book, ok) := book.feedAdd orderId accountId side price qty
      (book, .fed ok)
  | .feedExecute orderId qty =>
      let (book, ok) := book.feedExecute orderId qty
      (book, .fed ok)

end QueueBook

namespace ArrivalBook

variable {book : ArrivalBook}

theorem Sound.queues_matchCall (sound : book.Sound) (call : MatchCall) :
    book.queues.matchCall call = ((book.matchCall call).1.queues, (book.matchCall call).2) := by
  cases call with
  | add => rw [QueueBook.matchCall, sound.queues_addOrder]; rfl
  | cancel => rw [QueueBook.matchCall, sound.queues_cancelOrder]; rfl
  | replace => rw [QueueBook.matchCall, sound.queues_replaceOrder]; rfl

theorem Sound.queues_call (sound : book.Sound) (call : BookCall) :
    book.queues.call call = ((book.call call).1.queues, (book.call call).2) := by
  cases call with
  | matching => rw [QueueBook.call, sound.queues_matchCall]; rfl
  | feedAdd => rw [QueueBook.call, sound.queues_feedAdd]; rfl
  | feedExecute => rw [QueueBook.call, sound.queues_feedExecute]; rfl

/-- The list in arrival order and its queues run alike. -/
theorem Sound.trace_queues (sound : book.Sound) (calls : List BookCall) :
    trace QueueBook.call book.queues calls =
      ((trace ArrivalBook.call book calls).1.queues, (trace ArrivalBook.call book calls).2) := by
  induction calls generalizing book with
  | nil => rfl
  | cons call calls ih =>
      rw [trace, sound.queues_call]
      dsimp only
      rw [ih (sound.call call), trace]

end ArrivalBook

namespace OrderBook

/-- The orders of a side in the order the levels hold them. -/
def waiting (book : OrderBook) (isBuy : Bool) : Arrivals :=
  (book.occupiedLevels isBuy).flatMap (book.fifo isBuy)

section

variable {book fresh : OrderBook} {queues : Queues} {ref : ArrivalBook} {isBuy : Bool}

theorem occupiedLevels_pairwise (book : OrderBook) (isBuy : Bool) :
    (book.occupiedLevels isBuy).Pairwise fun better worse =>
      if isBuy then worse < better else better < worse := by
  cases isBuy with
  | true => exact (List.pairwise_reverse.mpr List.pairwise_lt_range).sublist List.filter_sublist
  | false => exact List.pairwise_lt_range.sublist List.filter_sublist

/-- A price serves at least as well as another when its level is no worse. -/
theorem asGood_iff_level {price other : Price} (inBand : book.priceInBand price = true)
    (otherInBand : book.priceInBand other = true) : Arrivals.asGood isBuy price other = true ↔
      if isBuy then book.levelOf other ≤ book.levelOf price
      else book.levelOf price ≤ book.levelOf other := by
  have price := price_eq inBand
  have other := price_eq otherInBand
  cases isBuy <;> simp only [Arrivals.asGood, Bool.false_eq_true, ↓reduceIte, decide_eq_true_iff,
    Int64.le_iff_toInt_le] <;> omega

/-- The levels hold a side's orders in the order of its queue. -/
theorem Mirrors.waiting (mirrors : book.Mirrors queues ref) (isBuy : Bool) :
    book.waiting isBuy = ref.orders.queue isBuy := by
  have inBand : ∀ {order}, order ∈ ref.orders.ofSide isBuy →
      book.priceInBand order.price = true := fun member =>
    mirrors.inBand _ (Arrivals.mem_ofSide.mp member).1
  have ahead : ∀ {left right}, left ∈ ref.orders.ofSide isBuy → right ∈ ref.orders.ofSide isBuy →
      (Arrivals.Ahead isBuy left right ↔
        if isBuy then book.levelOf right.price ≤ book.levelOf left.price
        else book.levelOf left.price ≤ book.levelOf right.price) := fun left right =>
    asGood_iff_level (inBand left) (inBand right)
  have queued : ∀ i ∈ book.occupiedLevels isBuy, book.fifo isBuy i =
      (ref.orders.ofSide isBuy).filter fun order => book.levelOf order.price = i := by
    intro i occupied
    rw [mirrors.fifo isBuy (mem_occupiedLevels.mp occupied).1, Arrivals.ofSide, List.filter_filter]
    refine List.filter_congr fun order _ => ?_
    rw [Bool.eq_iff_iff, atLevel_iff, Bool.and_eq_true, decide_eq_true_iff, decide_eq_true_iff]
    exact and_comm
  have listed : ∀ order ∈ ref.orders.ofSide isBuy,
      book.levelOf order.price ∈ book.occupiedLevels isBuy := by
    intro order member
    obtain ⟨listed, side⟩ := Arrivals.mem_ofSide.mp member
    have inside := mirrors.rep.ladder.levelOf_lt (inBand member)
    refine mem_occupiedLevels.mpr ⟨inside, ?_⟩
    rw [occupied, mirrors.fifo isBuy inside, decide_eq_true_iff]
    exact List.ne_nil_of_mem (List.mem_filter.mpr ⟨listed, atLevel_iff.mpr ⟨side, rfl⟩⟩)
  have apart : (book.occupiedLevels isBuy).Pairwise fun better worse =>
      ∀ left ∈ ref.orders.ofSide isBuy, ∀ right ∈ ref.orders.ofSide isBuy, book.levelOf left.price =
        better → book.levelOf right.price = worse → Arrivals.Ahead isBuy left right ∧
        ¬Arrivals.Ahead isBuy right left := by
    refine (book.occupiedLevels_pairwise isBuy).imp
      fun {better worse} order left leftMember right rightMember here there => ?_
    rw [ahead leftMember rightMember, ahead rightMember leftMember, here, there]
    cases isBuy <;> simp only [Bool.false_eq_true, ↓reduceIte] at order ⊢ <;> omega
  have equal : ∀ left ∈ ref.orders.ofSide isBuy, ∀ right ∈ ref.orders.ofSide isBuy,
      book.levelOf left.price = book.levelOf right.price → Arrivals.Ahead isBuy left right := by
    intro left leftMember right rightMember same
    rw [ahead leftMember rightMember, same]
    split <;> exact Nat.le_refl _
  have sorted := flatMap_ranks (fun order : RestingOrderView => book.levelOf order.price)
    (ref.orders.ofSide isBuy) listed apart equal
  rw [OrderBook.waiting, List.flatMap_congr queued, sorted, Arrivals.queue]

theorem Refines.waiting (refines : book.Refines ref) (isBuy : Bool) :
    book.waiting isBuy = ref.orders.queue isBuy := by
  obtain ⟨queues, mirrors⟩ := refines
  exact mirrors.waiting isBuy

/-- While fewer than `2^32 - 1` orders rest before each call, a run of calls is
answered as two queues answer it, and the levels hold the orders of these queues. -/
theorem run_queues {symbolId : SymbolId} {ladder : PriceLadderConfig} {calls : List BookCall}
    (created : OrderBook.create symbolId ladder = .ok fresh)
    (room : Along OrderBook.call (fun book _ => book.stats.liveOrders < 2 ^ 32 - 1) fresh calls) :
    ∃ after, run OrderBook.call fresh calls =
      .ok (after, (trace QueueBook.call fresh.blank.queues calls).2) ∧
      ∀ isBuy, after.waiting isBuy =
        ((trace QueueBook.call fresh.blank.queues calls).1.queue isBuy).orders := by
  obtain ⟨after, ran, -, refines, -⟩ := run_call_tracks created room
  have alike := (create_tracks created).2.trace_queues calls
  refine ⟨after, ran.trans (by rw [alike]), fun isBuy => ?_⟩
  rw [alike]
  exact refines.waiting isBuy

/-- Two bids, the later one better, and an ask that uses it up. -/
theorem run_queues_oneTick :
    let calls : List BookCall :=
      [.matching (.add 1 7 1 .buy 1 5 .gtc), .feedAdd 8 1 .buy 1 4, .feedExecute 7 2,
      .matching (.add 2 9 2 .sell 1 6 .gtc)]
    ∃ after, run OrderBook.call oneTick calls =
      .ok (after, (trace QueueBook.call oneTick.blank.queues calls).2) ∧
      ∀ isBuy, after.waiting isBuy =
        ((trace QueueBook.call oneTick.blank.queues calls).1.queue isBuy).orders :=
  run_queues oneTick_created (by decide +kernel)

theorem Refines.addOrder_queued (refines : book.Refines ref) (sound : ref.Sound)
    (room : ref.orders.length < kNull.toNat) {price : Price} {qty : Qty} {orderId : OrderId}
    (positive : qty ≠ 0) (inBand : book.priceInBand price = true)
    (free : book.contains orderId = false) (seq : SeqNo) (accountId : AccountId) (side : Side)
    (tif : TimeInForce) :
    let makers := book.waiting (!side.isBuy)
    let taken := min qty.toNat (Arrivals.within (!side.isBuy) price makers)
    let ahead := fun i : Nat => Arrivals.depth (makers.take i)
    ∃ after out, book.addOrder seq orderId accountId side price qty tif = .ok (after, out) ∧
      (∀ i : Nat, out.trades[i]? = if ahead i < taken then makers[i]?.map fun maker =>
          { seq, symbolId := book.symbolId, restingOrderId := maker.orderId,
            aggressingOrderId := orderId
            price := maker.price, qty := UInt32.ofNat (min maker.qty.toNat (taken - ahead i)) }
          else none) ∧ (out.trades.map fun trade => trade.qty.toNat).sum = taken ∧
      (after.waiting (!side.isBuy)).depth = makers.depth - taken ∧
      after.waiting side.isBuy = if taken < qty.toNat ∧ tif = .gtc then
        place (Arrivals.Ahead side.isBuy)
          { orderId, accountId, side, price, qty := UInt32.ofNat (qty.toNat - taken) }
          (book.waiting side.isBuy) else book.waiting side.isBuy := by
  obtain ⟨after, added, follows⟩ :=
    addOrder_spec refines room seq orderId accountId side price qty tif
  rw [refines.contains, ← ArrivalBook.holds_queues sound.distinct] at free
  rw [refines.priceInBand] at inBand
  have inBand : ref.queues.priceInBand price = true := inBand
  obtain ⟨trades, opposite, own⟩ :=
    QueueBook.addOrder_accepted positive inBand free seq accountId side tif
  rw [sound.queues_addOrder] at trades opposite own
  have waits : ∀ isBuy, book.waiting isBuy = (ref.queues.queue isBuy).orders := refines.waiting
  rw [waits, waits, refines.symbolId]
  intro makers taken ahead
  have bound := qty.toNat_lt
  have least : taken ≤ qty.toNat := ref.queues.taken_le side price qty
  refine ⟨after, _, added, fun i => ?_, ?_, ?_, ?_⟩
  · have given : (ref.queues.fills side price qty)[i]? = if ahead i < taken then
        makers[i]?.map fun maker => (maker, min maker.qty.toNat (taken - ahead i)) else none :=
          getElem?_allot taken makers i
    rw [trades, List.getElem?_map, given]
    by_cases more : ahead i < taken
    · rw [if_pos more, if_pos more, Option.map_map]
      rfl
    · rw [if_neg more, if_neg more, Option.map_none]
  · have sizes : (ref.queues.fills side price qty).map
        (fun fill => (ref.queues.tradeOf seq orderId fill).qty.toNat) =
        (ref.queues.fills side price qty).map Prod.snd := by
      refine List.map_congr_left fun fill member => ?_
      have within := List.le_sum_of_mem (List.mem_map_of_mem (f := Prod.snd) member)
      have all : ((ref.queues.fills side price qty).map Prod.snd).sum = taken :=
        ref.queues.sum_fills side price qty
      rw [QueueBook.tradeOf, UInt32.toNat_ofNat', Nat.mod_eq_of_lt (by omega)]
    rw [trades, List.map_map]
    exact (congrArg List.sum sizes).trans (ref.queues.sum_fills side price qty)
  · rw [follows.refines.waiting]
    exact (congrArg Arrivals.depth opposite).trans
      (total_deplete Arrivals.volume_lessenBy taken makers)
  · rw [follows.refines.waiting]
    exact own

/-- An accepted add is filled from the front of the opposite queue: each order
there gives what it has, as far as those ahead of it and the limit leave something
to fill.  The opposite side holds that much less, and what rests of the new order
goes behind the orders of its side that are at least as good. -/
theorem addOrder_allots {symbolId : SymbolId} {ladder : PriceLadderConfig} {calls : List BookCall}
    {answers : List BookAnswer} (created : OrderBook.create symbolId ladder = .ok fresh)
    (room : Along OrderBook.call (fun book _ => book.stats.liveOrders < 2 ^ 32 - 1) fresh calls)
    (ran : run OrderBook.call fresh calls = .ok (book, answers))
    (few : book.stats.liveOrders < 2 ^ 32 - 1) {price : Price} {qty : Qty} {orderId : OrderId}
    (positive : qty ≠ 0) (inBand : book.priceInBand price = true)
    (free : book.contains orderId = false) (seq : SeqNo) (accountId : AccountId) (side : Side)
    (tif : TimeInForce) :
    let makers := book.waiting (!side.isBuy)
    let taken := min qty.toNat (Arrivals.within (!side.isBuy) price makers)
    let ahead := fun i : Nat => Arrivals.depth (makers.take i)
    ∃ after out, book.addOrder seq orderId accountId side price qty tif = .ok (after, out) ∧
      (∀ i : Nat, out.trades[i]? = if ahead i < taken then makers[i]?.map fun maker =>
          { seq, symbolId := book.symbolId, restingOrderId := maker.orderId,
            aggressingOrderId := orderId
            price := maker.price, qty := UInt32.ofNat (min maker.qty.toNat (taken - ahead i)) }
          else none) ∧ (out.trades.map fun trade => trade.qty.toNat).sum = taken ∧
      (after.waiting (!side.isBuy)).depth = makers.depth - taken ∧
      after.waiting side.isBuy = if taken < qty.toNat ∧ tif = .gtc then
        place (Arrivals.Ahead side.isBuy)
          { orderId, accountId, side, price, qty := UInt32.ofNat (qty.toNat - taken) }
          (book.waiting side.isBuy) else book.waiting side.isBuy := by
  obtain ⟨reached, stands, -, refines, sound⟩ := run_call_tracks created room
  obtain ⟨rfl, -⟩ := Prod.mk.inj (Except.ok.inj (stands.symm.trans ran))
  rw [refines.liveOrders] at few
  exact refines.addOrder_queued sound few positive inBand free seq accountId side tif

/-- An ask of six units against bids of five and four. -/
theorem addOrder_allots_oneTick : ∃ book answers,
    run OrderBook.call oneTick [.matching (.add 1 7 1 .buy 1 5 .gtc), .feedAdd 8 1 .buy 1 4] =
      .ok (book, answers) ∧
    let makers := book.waiting true
    let taken := min 6 (Arrivals.within true 1 makers)
    let ahead := fun i : Nat => Arrivals.depth (makers.take i)
    ∃ after out, book.addOrder 2 9 2 .sell 1 6 .gtc = .ok (after, out) ∧
      (∀ i : Nat, out.trades[i]? = if ahead i < taken then makers[i]?.map fun maker =>
          { seq := 2, symbolId := book.symbolId, restingOrderId := maker.orderId,
            aggressingOrderId := 9
            price := maker.price, qty := UInt32.ofNat (min maker.qty.toNat (taken - ahead i)) }
          else none) ∧ (out.trades.map fun trade => trade.qty.toNat).sum = taken ∧
      (after.waiting true).depth = makers.depth - taken ∧
      after.waiting false = if taken < 6 ∧ TimeInForce.gtc = .gtc then
        place (Arrivals.Ahead false)
          { orderId := 9, accountId := 2, side := .sell, price := 1,
            qty := UInt32.ofNat (6 - taken) } (book.waiting false) else book.waiting false := by
  have facts : ((run OrderBook.call oneTick
      [.matching (.add 1 7 1 .buy 1 5 .gtc), .feedAdd 8 1 .buy 1 4]).toOption.map
      fun result => (result.1.priceInBand 1, result.1.contains 9,
        decide (result.1.stats.liveOrders < 2 ^ 32 - 1))) = some (true, false, true) := by
    decide +kernel
  obtain ⟨⟨book, answers⟩, ran, read⟩ := ok_of_map facts
  obtain ⟨inBand, read⟩ := Prod.mk.inj read
  obtain ⟨free, few⟩ := Prod.mk.inj read
  exact ⟨book, answers, ran,
    addOrder_allots oneTick_created (by decide +kernel) ran (of_decide_eq_true few)
    (show (6 : Qty) ≠ 0 by decide) inBand free 2 2 .sell .gtc⟩

end

end OrderBook

end Exsim.Core
