import Exsim.OrderBook.Exhaustion

/-! # The order that is stored over another

After the order with the null slot the next slot number wraps to zero.  The order
that gets it is written over the one stored there, whose id still leads to the
slot: a cancel of the one empties the slot, a cancel of the other then reports an
order and an account zero.
-/

namespace Exsim.Core

open Data

namespace OrderBook

/-- The bid levels can be read and written at index zero. -/
structure Addressable (book : OrderBook) : Prop where
  occupancy : ∃ occupied, Occupancy true book.levelCount.toNat (book.half true) occupied
  levels : (book.half true).levels.size = book.levelCount.toNat
  inside : 0 < book.levelCount.toNat

/-- Slot zero holds `n`, linked to nothing, and `count` orders are counted at its level. -/
structure Lone (book : OrderBook) (n : Node) (count : UInt32) : Prop where
  addressable : book.Addressable
  stored : book.nodes[0]? = some n
  apart : n.prev = kNull ∧ n.next = kNull
  place : n.side.isBuy = true ∧ n.levelIdx = 0
  counted : ∃ level, (book.half true).levels[0]? = some level ∧ level.count = count

/-- What removing the order in slot zero leaves. -/
structure Vacated (book after : OrderBook) (id : OrderId) : Prop where
  lone : after.Lone {} 0
  index : after.index = book.index.erase id
  free : after.free = 0 :: book.free
  ladder : SameLadder book after
  asks : after.half false = book.half false
  cleared : ∃ occupied : Nat → Prop, Occupancy true after.levelCount.toNat (after.half true)
      fun i => i ≠ 0 ∧ occupied i

section

variable {book : OrderBook} {n : Node} {count : UInt32} {id : OrderId}

/-- Removing the order in slot zero, once no other order is counted there. -/
theorem Lone.remove (lone : book.Lone n count) (few : count ≤ 1) (seq : SeqNo) (qty : Qty)
    (type : MdType) :
    ∃ after, book.removeNode seq 0 qty type = .ok (after, book.removalEvent seq n qty type) ∧
    Vacated book after n.orderId := by
  obtain ⟨⟨⟨occupied, occupancy⟩, levels, inside⟩, stored, ⟨prev, next⟩, ⟨side, place⟩, level,
      found, counted⟩ := lone
  have levelLt : 0 < (book.half true).levels.size := by
    rw [levels]
    exact inside
  have pred : (shrunkLevel level n qty).count = 0 := by
    rw [UInt32.le_iff_toNat_le, UInt32.toNat_one] at few
    rw [shrunkLevel, counted, ← UInt32.toNat_inj, toNat_decrement, UInt32.toNat_zero]
    omega
  obtain ⟨half, ran, written, -, tracked⟩ :=
    shrinkLevel_spec book true 0 (shrunkLevel level n qty) occupancy levels inside
  rw [if_pos pred] at written
  have slotLt : (0 : UInt32).toNat < book.nodes.size := (Array.getElem?_eq_some_iff.mp stored).1
  let after : OrderBook := { book.withHalf true half with
    index := book.index.erase n.orderId, nodes := book.nodes.setIfInBounds 0 {},
      free := 0 :: book.free }
  have removed : book.removeNode seq 0 qty type =
      .ok (after, book.removalEvent seq n qty type) := by
    refine removeNode_run seq type book.nodes stored side place found ?_ ?_ ran stored
    · rw [if_neg (not_not.mpr prev)]
      rfl
    · rw [if_neg (not_not.mpr next)]
      rfl
  have newLevels : (after.half true).levels = (book.half true).levels.setIfInBounds 0 {} := written
  refine ⟨after, removed, ⟨⟨⟨_, tracked⟩, ?_, inside⟩, ?_, ⟨rfl, rfl⟩, ⟨rfl, rfl⟩, {}, ?_, rfl⟩,
    rfl, rfl, ⟨rfl, rfl, rfl, rfl⟩, rfl, occupied, tracked.congr fun i => ?_⟩
  · rw [newLevels, Array.size_setIfInBounds]
    exact levels
  · exact Array.getElem?_setIfInBounds_self_of_lt slotLt
  · rw [newLevels]
    exact Array.getElem?_setIfInBounds_self_of_lt levelLt
  · exact and_congr_left fun _ => ⟨fun other _ => other, fun other => other pred⟩

/-- Cancelling by an id that leads to slot zero. -/
theorem Lone.cancel (lone : book.Lone n count) (few : count ≤ 1)
    (indexed : book.index.lookup id = some 0) (seq : SeqNo) :
    ∃ after, book.cancelOrder seq id = .ok (after, some (book.removalEvent seq n n.qty .cancel)) ∧
      Vacated book after n.orderId := by
  obtain ⟨after, removed, vacated⟩ := lone.remove few seq n.qty .cancel
  refine ⟨after, ?_, vacated⟩
  rw [cancelOrder, indexed]
  dsimp only
  rw [node_of_getElem? lone.stored, exec_ok_bind, removed]
  rfl

end

/-- The book after the order that is written over the one in slot zero. -/
structure Wrapped (book after : OrderBook) (n : Node) (id : OrderId)
    (account : AccountId) : Prop where
  lone : after.Lone n 1
  name : n.orderId = id
  holder : n.accountId = account
  index : after.index = book.index.insert id 0
  free : after.free = []
  ladder : SameLadder book after
  asks : after.half false = book.half false

section

variable {book after : OrderBook} {queues : Queues} {owner : Nat → AccountId} {count : Nat}

/-- With the pool full, some bid has slot zero. -/
theorem bid_at_zero (mirrors : book.Mirrors queues (bidBook owner count))
    (full : count = kNull.toNat) :
    ∃ k < count, book.index.lookup (UInt64.ofNat k) = some 0 := by
  obtain ⟨free, size⟩ := mirrors.pool_full full
  have inside : (0 : UInt32).toNat < book.nodes.size := by
    rw [size]
    decide
  have queued : ∃ isBuy i, (0 : UInt32) ∈ queues isBuy i := by
    by_contra unqueued
    simp only [not_exists] at unqueued
    have listed := (mirrors.rep.free 0).mpr ⟨inside, unqueued⟩
    rw [free] at listed
    exact absurd listed List.not_mem_nil
  obtain ⟨isBuy, i, member⟩ := queued
  obtain ⟨n, -, listed, -, -, -, -, indexed⟩ := mirrors.order_of_queued member
  obtain ⟨k, below, same⟩ := List.mem_map.mp listed
  have named : UInt64.ofNat k = n.orderId := congrArg RestingOrderView.orderId same
  exact ⟨k, List.mem_range.mp below, by rw [named]; exact indexed⟩

/-- The bid after the one with the null slot is written to slot zero. -/
theorem Overflowed.wraps (overflowed : Overflowed book after queues count)
    (mirrors : book.Mirrors queues (bidBook owner count)) (full : count = kNull.toNat)
    (account : AccountId) :
    ∃ final out n, after.addOrder 0 (UInt64.ofNat (count + 1)) account .buy 1 1 .gtc =
      .ok (final, out) ∧ (∃ ev, out.mdEvents = [ev] ∧ ev.type = .add ∧
        ev.orderId = UInt64.ofNat (count + 1) ∧ ev.accountId = account) ∧
      out.reject = .none ∧ Wrapped after final n (UInt64.ofNat (count + 1)) account := by
  let id := UInt64.ofNat (count + 1)
  have tick := mirrors.atOne.of_same overflowed.ladder
  have bound : count + 1 < 2 ^ 64 := by
    rw [full]
    decide
  have quiet : after.crosses .buy 1 = false := by
    have asks : after.asks = book.asks := overflowed.asks
    rw [← mirrors.quiet, crosses, crosses, asks]
    simp only [indexToPrice, overflowed.ladder.minPrice]
    rfl
  have fresh : after.contains id = false := by
    have different : id ≠ UInt64.ofNat count := (ofNat_ne (Nat.lt_succ_self count) bound).symm
    rw [contains_eq_false, overflowed.index, Finmap.lookup_insert_of_ne _ different]
    exact mirrors.unnamed (Nat.le_succ _) bound
  let n := after.newNode id account .buy 1 1
  let start : OrderBook := { after with
    free := []
    nodes := (after.nodes.push {}).setIfInBounds 0 n
    index := after.index.insert id 0 }
  have pushLt : (0 : UInt32).toNat < (after.nodes.push {}).size := by
    rw [Array.size_push]
    exact Nat.succ_pos _
  have startSlot : start.nodes[(0 : UInt32).toNat]? = some n :=
    Array.getElem?_setIfInBounds_self_of_lt pushLt
  have startLt : (0 : UInt32).toNat < start.nodes.size :=
    (Array.getElem?_eq_some_iff.mp startSlot).1
  have allocated : after.allocNode id account .buy 1 1 = .ok (start, 0) := by
    have place : UInt32.ofNat after.nodes.size = 0 := by
      rw [overflowed.size, (mirrors.pool_full full).2]
      decide
    exact allocNode_pushed _ _ _ _ _ overflowed.free place (Nat.zero_le _)
  let level : Level := {
    head := (queues true 0).headD kNull, tail := kNull, totalQty := book.total true 0 + 1,
      count := 0 }
  have found : (after.half true).levels[0]? = some level := by
    rw [overflowed.levels]
    refine Array.getElem?_setIfInBounds_self_of_lt ?_
    rw [mirrors.rep.levels]
    exact mirrors.atOne.inside
  have afterLt : 0 < (after.half true).levels.size := (Array.getElem?_eq_some_iff.mp found).1
  have occupancy : Occupancy true after.levelCount.toNat (after.half true) fun i =>
      queues true i ≠ [] := by
    rw [overflowed.ladder.levelCount]
    exact (mirrors.rep.occupancy true).transfer overflowed.bitmap overflowed.bestIdx
  obtain ⟨occupied, appended, sameLevels, -, tracked⟩ :=
    appendToLevel_first startSlot (show n.side.isBuy = true from rfl)
    tick.priceToIndex found rfl rfl occupancy tick.inside
  refine ⟨_, _, { n with prev := kNull, next := kNull },
    addOrder_rests 0 (by decide) tick.inBand fresh quiet allocated appended,
    ⟨_, rfl, rfl, rfl, rfl⟩, rfl,
    ⟨⟨⟨⟨_, tracked⟩, ?_, tick.inside⟩, ?_, ⟨rfl, rfl⟩, ⟨rfl, tick.priceToIndex⟩,
      { head := 0, tail := 0, totalQty := level.totalQty + 1, count := 1 }, ?_, rfl⟩, rfl,
    rfl, rfl, rfl, ⟨rfl, rfl, rfl, rfl⟩, rfl⟩⟩
  · change occupied.levels.size = after.levelCount.toNat
    rw [sameLevels, Array.size_setIfInBounds]
    change (after.half true).levels.size = _
    rw [overflowed.levels, Array.size_setIfInBounds, mirrors.rep.levels,
      overflowed.ladder.levelCount]
  · exact Array.getElem?_setIfInBounds_self_of_lt startLt
  · change occupied.levels[0]? = _
    rw [sameLevels]
    exact Array.getElem?_setIfInBounds_self_of_lt afterLt

variable {wrapped emptied : OrderBook} {n : Node} {account : AccountId}

/-- The id whose order was written over still leads to the slot. -/
theorem Vacated.stale (vacated : Vacated wrapped emptied n.orderId)
    (wrapping : Wrapped after wrapped n (UInt64.ofNat (count + 1)) account)
    (overflowed : Overflowed book after queues count)
    (bound : count + 1 < 2 ^ 64) {k : Nat} (earlier : k < count) :
    emptied.index.lookup (UInt64.ofNat k) = book.index.lookup (UInt64.ofNat k) := by
  have last := ofNat_ne (Nat.lt_succ_of_lt earlier) bound
  rw [vacated.index, wrapping.name, Finmap.lookup_erase_ne last, wrapping.index,
    Finmap.lookup_insert_of_ne _ last, overflowed.index,
    Finmap.lookup_insert_of_ne _ (ofNat_ne earlier (Nat.lt_of_succ_lt bound))]

end

end OrderBook

end Exsim.Core
