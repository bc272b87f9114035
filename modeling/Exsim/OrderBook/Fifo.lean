import Exsim.OrderBook.Invariant

/-! # The queues a caller can see

What a caller can see of the resting orders: each level's queue, read along the
stored pointers, and the order found under each id.
-/

namespace Exsim.Core

open Data

namespace OrderBook

/-- The slots of a level in list order. -/
def slotsAt (book : OrderBook) (isBuy : Bool) (i : Nat) : List UInt32 :=
  match (book.half isBuy).levels[i]? with
  | none => []
  | some level => walk (fun slot => (book.links slot).map Prod.snd) kNull book.nodes.size level.head

/-- The queue of a level: the orders a walk from its head meets. -/
def fifo (book : OrderBook) (isBuy : Bool) (i : Nat) : List RestingOrderView :=
  (book.slotsAt isBuy i).filterMap book.orderAt

/-- The same resting orders, at every price and under every id. -/
structure SameOrders (book : OrderBook) (ref : ArrivalBook) : Prop where
  queues : ∀ isBuy price, book.priceInBand price = true →
    book.fifo isBuy (book.levelOf price) = ref.atPrice isBuy price
  ids : ∀ id, book.find id = .ok (ref.find id)

section

variable {book fresh : OrderBook} {queues : Queues} {ref : ArrivalBook}

theorem Represents.slotsAt (rep : book.Represents queues) (isBuy : Bool) {i : Nat}
    (inside : i < book.levelCount.toNat) : book.slotsAt isBuy i = queues isBuy i := by
  obtain ⟨level, found⟩ := rep.level_exists isBuy inside
  rw [OrderBook.slotsAt, found]
  dsimp only
  rw [(rep.level isBuy i level found).1]
  exact (rep.linked isBuy i).walk_eq (fun member => rep.slot_ne_null member rfl)
    (rep.length_le isBuy i)

/-- A level's queue lists its orders in arrival order. -/
theorem Mirrors.fifo (mirrors : book.Mirrors queues ref) (isBuy : Bool) {i : Nat}
    (inside : i < book.levelCount.toNat) :
    book.fifo isBuy i = ref.orders.filter (book.atLevel isBuy i) := by
  have read : (queues isBuy i).filterMap book.orderAt =
      ((queues isBuy i).map book.orderAt).filterMap id := by
    rw [List.filterMap_map]
    rfl
  rw [OrderBook.fifo, mirrors.rep.slotsAt isBuy inside, read, mirrors.queue, List.filterMap_map]
  exact List.filterMap_some

/-- A level beyond the ladder has no queue. -/
theorem Mirrors.fifo_beyond (mirrors : book.Mirrors queues ref) (isBuy : Bool) {i : Nat}
    (beyond : ¬i < book.levelCount.toNat) : book.fifo isBuy i = [] := by
  have absent : (book.half isBuy).levels[i]? = none := by
    rw [Array.getElem?_eq_none_iff, mirrors.rep.levels]
    omega
  rw [OrderBook.fifo, OrderBook.slotsAt, absent]
  rfl

/-- Books on one ladder that refine the same list have the same queues. -/
theorem Refines.fifo_eq {other : OrderBook} (left : book.Refines ref) (right : other.Refines ref)
    (same : SameLadder book other) : other.fifo = book.fifo := by
  obtain ⟨queues, mirrors⟩ := left
  obtain ⟨queues', mirrors'⟩ := right
  funext isBuy i
  by_cases inside : i < book.levelCount.toNat
  · rw [mirrors.fifo isBuy inside, mirrors'.fifo isBuy (by rw [same.levelCount]; exact inside),
      same.atLevel]
  · rw [mirrors.fifo_beyond isBuy inside,
      mirrors'.fifo_beyond isBuy (by rw [same.levelCount]; exact inside)]

theorem Mirrors.sameOrders (mirrors : book.Mirrors queues ref) : book.SameOrders ref := by
  refine ⟨fun isBuy price inBand => ?_, mirrors.find⟩
  rw [mirrors.fifo isBuy (mirrors.rep.ladder.levelOf_lt inBand), ArrivalBook.atPrice]
  apply List.filter_congr
  intro order member
  rw [Bool.eq_iff_iff, atLevel_iff, decide_eq_true_iff]
  refine and_congr_right fun _ => ⟨fun same => ?_, fun same => by rw [same]⟩
  exact levelOf_inj (mirrors.inBand order member) inBand same

/-- `live_orders` counts the resting orders. -/
theorem Refines.liveOrders (refines : book.Refines ref) :
    book.stats.liveOrders = ref.orders.length := by
  obtain ⟨queues, mirrors⟩ := refines
  have keys : book.index.keys = (ref.orders.map RestingOrderView.orderId).toFinset := by
    ext id
    have held := mirrors.lookup_isSome id
    rw [Finmap.mem_keys, List.mem_toFinset, List.mem_map, ← Finmap.lookup_isSome, held,
      ArrivalBook.holds, Keyed.holds_iff]
  have distinct : (ref.orders.map RestingOrderView.orderId).Nodup := mirrors.distinct
  rw [stats, keys, List.toFinset_card_of_nodup distinct, List.length_map]

/-- While fewer than `2^32 - 1` orders rest before each call, a run of calls is
answered as the list in arrival order answers it, and ends on that list. -/
theorem run_tracks {symbolId : SymbolId} {ladder : PriceLadderConfig} {calls : List MatchCall}
    (created : OrderBook.create symbolId ladder = .ok fresh)
    (room : Along matchCall (fun book _ => book.stats.liveOrders < 2 ^ 32 - 1) fresh calls) :
    ∃ after, run matchCall fresh calls =
      .ok (after, (trace ArrivalBook.matchCall fresh.blank calls).2) ∧
      SameLadder fresh after ∧ after.Tracks (trace ArrivalBook.matchCall fresh.blank calls).1 := by
  have simulate : ∀ (book : OrderBook) (ref : ArrivalBook) (call : MatchCall),
      SameLadder fresh book ∧ book.Tracks ref → book.stats.liveOrders < 2 ^ 32 - 1 →
      ∃ after, book.matchCall call = .ok (after, (ref.matchCall call).2) ∧
        SameLadder fresh after ∧ after.Tracks (ref.matchCall call).1 := by
    intro book ref call ⟨ladder, refines, sound⟩ room
    rw [refines.liveOrders] at room
    obtain ⟨after, ran, follows⟩ := matchCall_spec refines room call
    exact ⟨after, ran, ladder.trans follows.ladder, follows.refines, sound.matchCall call⟩
  exact run_simulation simulate ⟨.refl fresh, create_tracks created⟩ room

end

end OrderBook

end Exsim.Core
