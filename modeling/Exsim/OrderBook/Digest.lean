import Exsim.OrderBook.Queues
import Exsim.OrderBook.Totals
import Mathlib.Data.List.SplitBy

/-! # The checksum read off the orders

Cut where its price changes, the queue of a side gives the levels of that side,
while no total has left its counter.  So the checksum is a function of the orders
that rest and of their arrival, whatever band the book is on.
-/

namespace Exsim.Core

open Data

namespace Arrivals

/-- The orders of a queue, those at one price together. -/
def grouped (queue : Arrivals) : List Arrivals :=
  queue.splitBy fun order next => order.price == next.price

def levelView (level : Arrivals) : LevelView where
  price := (level.head?.map RestingOrderView.price).getD 0
  totalQty := UInt32.ofNat level.depth
  queue := level.map viewEntry

def levels (orders : Arrivals) (isBuy : Bool) : List LevelView :=
  (orders.queue isBuy).grouped.map levelView

/-- The quantity of a side at one price. -/
def depthAt (orders : Arrivals) (isBuy : Bool) (price : Price) : Nat :=
  depth (orders.filter fun order => order.side.isBuy = isBuy ∧ order.price = price)

/-- No price has more on it than a total counts. -/
def Countable (orders : Arrivals) : Prop := ∀ isBuy price, orders.depthAt isBuy price < 2 ^ 32

/-- Lists at one price each, of distinct prices, are the groups of their queue. -/
theorem grouped_flatten {groups : List Arrivals} (occupied : [] ∉ groups)
    (alike : ∀ group ∈ groups, ∀ order ∈ group, ∀ other ∈ group, order.price = other.price)
    (apart : groups.Pairwise fun group later => ∀ order ∈ group, ∀ other ∈ later, order.price ≠
      other.price) :
    grouped groups.flatten = groups := by
  refine List.splitBy_flatten occupied (fun group member => ?_) ?_
  · refine List.Pairwise.isChain (List.pairwise_of_forall_mem_list fun order here other there => ?_)
    rw [beq_iff_eq]
    exact alike group member order here other there
  · refine (apart.imp_of_mem fun {group later} here there different => ?_).isChain
    have groupOccupied : group ≠ [] := fun empty => occupied (empty ▸ here)
    have laterOccupied : later ≠ [] := fun empty => occupied (empty ▸ there)
    refine ⟨groupOccupied, laterOccupied, beq_eq_false_iff_ne.mpr ?_⟩
    exact different _ (List.getLast_mem groupOccupied) _ (List.head_mem laterOccupied)

end Arrivals

namespace ArrivalBook

def checksumWords (book : ArrivalBook) : List UInt64 :=
  book.symbolId.toUInt64 ::
    (book.orders.levels true ++ book.orders.levels false).flatMap LevelView.words

end ArrivalBook

namespace OrderBook

section

variable {book : OrderBook} {queues : Queues} {ref : ArrivalBook} {isBuy : Bool} {i : Nat}

theorem Mirrors.mem_fifo (mirrors : book.Mirrors queues ref) {order : RestingOrderView}
    (queued : order ∈ book.fifo isBuy i) :
    i < book.levelCount.toNat ∧ order ∈ ref.orders ∧ order.side.isBuy = isBuy ∧
    book.levelOf order.price = i := by
  by_cases inside : i < book.levelCount.toNat
  · rw [mirrors.fifo isBuy inside, List.mem_filter, atLevel_iff] at queued
    exact ⟨inside, queued⟩
  · rw [mirrors.fifo_beyond isBuy inside] at queued
    cases queued

/-- The stored price of a level is that of its orders. -/
theorem Mirrors.fifo_price (mirrors : book.Mirrors queues ref) {order : RestingOrderView}
    (queued : order ∈ book.fifo isBuy i) : book.indexToPrice (UInt32.ofNat i) = order.price := by
  obtain ⟨inside, listed, -, level⟩ := mirrors.mem_fifo queued
  have limit := book.levelCount.toNat_lt
  have value : (UInt32.ofNat i).toNat = i := by
    rw [UInt32.toNat_ofNat', Nat.mod_eq_of_lt (by omega)]
  apply Int64.toInt_inj.mp
  rw [mirrors.rep.ladder.indexToPrice_toInt (by rw [value]; exact inside),
    price_eq (mirrors.inBand order listed), value, level]

theorem Mirrors.levelView (mirrors : book.Mirrors queues ref) (exact : book.Exact ref)
    (occupied : i ∈ book.occupiedLevels isBuy) :
    Arrivals.levelView (book.fifo isBuy i) = book.levelView isBuy i := by
  obtain ⟨inside, filled⟩ := mem_occupiedLevels.mp occupied
  have total : UInt32.ofNat (Arrivals.depth (book.fifo isBuy i)) = book.total isBuy i := by
    have counted : Arrivals.depth (book.fifo isBuy i) = (book.total isBuy i).toNat := by
      rw [exact isBuy i, mirrors.fifo isBuy inside]
      rfl
    rw [counted, UInt32.ofNat_toNat]
  rw [OrderBook.occupied, decide_eq_true_iff] at filled
  obtain ⟨first, rest, queued⟩ := List.exists_cons_of_ne_nil filled
  have price := mirrors.fifo_price (queued ▸ List.mem_cons_self : first ∈ book.fifo isBuy i)
  rw [Arrivals.levelView, OrderBook.levelView, total, price, queued]
  rfl

/-- The levels of a side are its queue, cut where the price changes. -/
theorem Mirrors.levels (mirrors : book.Mirrors queues ref) (exact : book.Exact ref) (isBuy : Bool) :
    book.levels isBuy = ref.orders.levels isBuy := by
  have groups : (ref.orders.queue isBuy).grouped =
      (book.occupiedLevels isBuy).map (book.fifo isBuy) := by
    rw [← mirrors.waiting isBuy, OrderBook.waiting, List.flatMap_def]
    refine Arrivals.grouped_flatten ?_ ?_ ?_
    · intro empty
      obtain ⟨i, occupied, isEmpty⟩ := List.mem_map.mp empty
      exact decide_eq_true_iff.mp (mem_occupiedLevels.mp occupied).2 isEmpty
    · intro group member order here other there
      obtain ⟨i, -, rfl⟩ := List.mem_map.mp member
      rw [← mirrors.fifo_price here, ← mirrors.fifo_price there]
    · refine List.pairwise_map.mpr ((book.occupiedLevels_pairwise isBuy).imp ?_)
      intro better worse order left here right there same
      have left := (mirrors.mem_fifo here).2.2.2
      have right := (mirrors.mem_fifo there).2.2.2
      rw [← left, ← right, same] at order
      cases isBuy <;> exact Nat.lt_irrefl _ order
  rw [OrderBook.levels, Arrivals.levels, groups, List.map_map]
  exact List.map_congr_left fun i occupied => (mirrors.levelView exact occupied).symm

theorem Refines.digest_eq_words (refines : book.Refines ref) (exact : book.Exact ref) :
    book.digest = hashWords 0x45584348424f4f4b ref.checksumWords := by
  obtain ⟨queues, mirrors⟩ := refines
  rw [digest_eq_hashWords, bookWords_eq, ArrivalBook.checksumWords, mirrors.levels exact,
    mirrors.levels exact, mirrors.symbolId]

theorem Mirrors.restingQty (mirrors : book.Mirrors queues ref) {price : Price}
    (inBand : book.priceInBand price = true) :
    book.restingQty ref.orders isBuy (book.levelOf price) = ref.orders.depthAt isBuy price := by
  have same : ref.orders.filter (book.atLevel isBuy (book.levelOf price)) =
      ref.orders.filter fun order => order.side.isBuy = isBuy ∧ order.price = price := by
    refine List.filter_congr fun order listed => ?_
    rw [Bool.eq_iff_iff, atLevel_iff, decide_eq_true_iff]
    refine and_congr_right fun _ =>
      ⟨fun level => levelOf_inj (mirrors.inBand order listed) inBand level, fun same => ?_⟩
    rw [same]
  rw [OrderBook.restingQty, same]
  rfl

/-- The totals of a book count its orders exactly if those of another band do. -/
theorem Refines.fits_iff (refines : book.Refines ref) : book.Fits ref ↔ ref.orders.Countable := by
  obtain ⟨queues, mirrors⟩ := refines
  constructor
  · intro fits isBuy price
    by_cases inBand : book.priceInBand price = true
    · rw [← mirrors.restingQty inBand]
      exact fits isBuy _
    · have empty : ref.orders.filter (fun order => order.side.isBuy = isBuy ∧ order.price = price) =
          [] := by
        refine List.filter_eq_nil_iff.mpr fun order listed here => inBand ?_
        rw [← (decide_eq_true_iff.mp here).2]
        exact mirrors.inBand order listed
      rw [Arrivals.depthAt, empty]
      decide
  · intro countable isBuy i
    by_cases occupied : ref.orders.filter (book.atLevel isBuy i) = []
    · rw [OrderBook.restingQty, occupied]
      decide
    · obtain ⟨order, here⟩ := List.exists_mem_of_ne_nil _ occupied
      obtain ⟨listed, atLevel⟩ := List.mem_filter.mp here
      rw [← (atLevel_iff.mp atLevel).2, mirrors.restingQty (mirrors.inBand order listed)]
      exact countable isBuy order.price

end

end OrderBook

end Exsim.Core
