import Exsim.OrderBook.Fifo

/-! # The order that takes the null slot

With `2^32 - 1` orders resting and no freed slot, the next order is stored in
slot `UINT32_MAX`, which the lists read as their end.  Nothing in the engine
refuses it.
-/

namespace Exsim.Core

open Data

namespace OrderBook

/-- The `k`-th of many one-lot bids, for the account its owner gives. -/
def bid (owner : Nat → AccountId) (k : Nat) : MatchCall :=
  .add 0 (UInt64.ofNat k) (owner k) .buy 1 1 .gtc

def bidCalls (owner : Nat → AccountId) (count : Nat) : List MatchCall :=
  (List.range count).map (bid owner)

def bidOrder (owner : Nat → AccountId) (k : Nat) : RestingOrderView :=
  { orderId := UInt64.ofNat k, accountId := owner k, side := .buy, price := 1, qty := 1 }

/-- The list in arrival order after `count` such bids. -/
def bidBook (owner : Nat → AccountId) (count : Nat) : ArrivalBook :=
  { symbolId := 1, minPrice := 1, maxPrice := 1, orders := (List.range count).map (bidOrder owner) }

/-- The same for account zero alone. -/
abbrev buy : Nat → MatchCall := bid fun _ => 0

abbrev buys : Nat → List MatchCall := bidCalls fun _ => 0

abbrev bought : Nat → RestingOrderView := bidOrder fun _ => 0

abbrev boughtBook : Nat → ArrivalBook := bidBook fun _ => 0

section Buys

variable {owner : Nat → AccountId} {count : Nat}

theorem bidCalls_succ : bidCalls owner (count + 1) = bidCalls owner count ++ [bid owner count] := by
  rw [bidCalls, bidCalls, List.range_succ, List.map_append, List.map_singleton]

theorem bidBook_succ :
    (bidBook owner (count + 1)).orders = (bidBook owner count).orders ++
      [bidOrder owner count] := by
  simp only [bidBook, List.range_succ, List.map_append, List.map_singleton]

theorem bidBook_length : (bidBook owner count).orders.length = count := by
  simp only [bidBook, List.length_map, List.length_range]

theorem bidBook_fresh {k : Nat} (later : count ≤ k) (bound : k < 2 ^ 64) :
    (bidBook owner count).holds (UInt64.ofNat k) = false := by
  rw [ArrivalBook.holds, Keyed.holds_eq_false]
  intro order member same
  obtain ⟨j, below, rfl⟩ := List.mem_map.mp member
  have small := List.mem_range.mp below
  have ids := congrArg UInt64.toNat same
  simp only [bidOrder, UInt64.toNat_ofNat'] at ids
  rw [Nat.mod_eq_of_lt (by omega), Nat.mod_eq_of_lt bound] at ids
  omega

theorem bidBook_first : (bidBook owner count).orders.first false = none := by
  have empty : (bidBook owner count).orders.ofSide false = [] := by
    rw [List.eq_nil_iff_forall_not_mem]
    intro order held
    obtain ⟨member, side⟩ := Arrivals.mem_ofSide.mp held
    obtain ⟨k, -, rfl⟩ := List.mem_map.mp member
    cases side
  rw [Arrivals.first, empty, List.find?_nil]

/-- A further bid finds no ask and rests. -/
theorem bidBook_add (bound : count < 2 ^ 64) :
    (bidBook owner count).addOrder 0 (UInt64.ofNat count) (owner count) .buy 1 1 .gtc =
      (bidBook owner (count + 1),
        { mdEvents := [(bidBook owner count).eventOf 0 .add (bidOrder owner count) 1] }) := by
  have accepted : (bidBook owner count).addReject (UInt64.ofNat count) 1 1 = .none :=
    ArrivalBook.addReject_eq_none.mpr ⟨by decide, rfl, bidBook_fresh (Nat.le_refl _) bound⟩
  have quiet : (bidBook owner count).swept 0 (UInt64.ofNat count) .buy 1 1 =
      (bidBook owner count, { remainingQty := 1 }) :=
    ArrivalBook.sweep_quiet _ bidBook_first
  have rests : (bidBook owner count).rest (bidOrder owner count) = bidBook owner (count + 1) := by
    rw [ArrivalBook.rest, ← bidBook_succ]
    rfl
  rw [ArrivalBook.addOrder_accepted accepted, ArrivalBook.remainder, quiet, ← rests]
  rfl

theorem bidBook_step (bound : count < 2 ^ 64) :
    ((bidBook owner count).matchCall (bid owner count)).1 = bidBook owner (count + 1) := by
  rw [bid, ArrivalBook.matchCall, bidBook_add bound]

theorem trace_bidCalls (bound : count ≤ 2 ^ 64) :
    (trace ArrivalBook.matchCall (bidBook owner 0) (bidCalls owner count)).1 =
      bidBook owner count := by
  induction count with
  | zero => rfl
  | succ count ih =>
      rw [bidCalls_succ, trace_append, ih (by omega)]
      exact bidBook_step (by omega)

theorem run_bidCalls (bound : count ≤ kNull.toNat) :
    ∃ book, run matchCall oneTick (bidCalls owner count) =
        .ok (book, (trace ArrivalBook.matchCall (bidBook owner 0) (bidCalls owner count)).2) ∧
      book.Refines (bidBook owner count) := by
  have limit : kNull.toNat < 2 ^ 64 := by decide
  induction count with
  | zero => exact ⟨oneTick, rfl, (create_spec oneTick_created).1⟩
  | succ count ih =>
      obtain ⟨book, ran, refines⟩ := ih (by omega)
      obtain ⟨after, stepped, follows⟩ :=
        matchCall_spec refines (by rw [bidBook_length]; omega) (bid owner count)
      refine ⟨after, ?_, ?_⟩
      · rw [bidCalls_succ, trace_append, trace_bidCalls (by omega)]
        exact run_append ran (run_cons stepped run_nil)
      · rw [← bidBook_step (by omega)]
        exact follows.refines

end Buys

/-- A ladder of the one price one. -/
structure AtOne (book : OrderBook) : Prop where
  minPrice : book.minPrice = 1
  maxPrice : book.maxPrice = 1
  levelCount : book.levelCount = 1

section OneTick

variable {book after : OrderBook} {queues : Queues} {owner : Nat → AccountId} {count : Nat}

theorem AtOne.of_same (tick : book.AtOne) (same : SameLadder book after) : after.AtOne :=
  ⟨same.minPrice.trans tick.minPrice, same.maxPrice.trans tick.maxPrice,
    same.levelCount.trans tick.levelCount⟩

theorem AtOne.inBand (tick : book.AtOne) : book.priceInBand 1 = true := by
  simp only [priceInBand, tick.minPrice, tick.maxPrice]
  decide

theorem AtOne.priceToIndex (tick : book.AtOne) : book.priceToIndex 1 = 0 := by
  rw [OrderBook.priceToIndex, tick.minPrice]
  rfl

theorem AtOne.indexToPrice (tick : book.AtOne) : book.indexToPrice 0 = 1 := by
  rw [OrderBook.indexToPrice, tick.minPrice]
  rfl

theorem AtOne.inside (tick : book.AtOne) : (0 : UInt32).toNat < book.levelCount.toNat := by
  rw [tick.levelCount]
  decide

theorem AtOne.crosses (tick : book.AtOne) (best : book.asks.bestIdx = some 0) :
    book.crosses .buy 1 = true := by
  simp only [OrderBook.crosses, show Side.buy.isBuy = true from rfl, ↓reduceIte, best,
    tick.indexToPrice]
  decide

theorem Mirrors.atOne (mirrors : book.Mirrors queues (bidBook owner count)) : book.AtOne := by
  refine ⟨mirrors.minPrice.symm, mirrors.maxPrice.symm, UInt32.toNat_inj.mp ?_⟩
  have span := mirrors.rep.ladder.span
  rw [← mirrors.minPrice, ← mirrors.maxPrice] at span
  have one : (bidBook owner count).maxPrice.toInt - (bidBook owner count).minPrice.toInt = 0 := rfl
  rw [UInt32.toNat_one]
  omega

theorem Mirrors.noAsks (mirrors : book.Mirrors queues (bidBook owner count)) (i : Nat) :
    queues false i = [] := by
  have queue := mirrors.queue false i
  have none : (bidBook owner count).orders.filter (book.atLevel false i) = [] := by
    rw [List.filter_eq_nil_iff]
    intro order member here
    obtain ⟨k, -, rfl⟩ := List.mem_map.mp member
    cases (atLevel_iff.mp here).1
  rw [none, List.map_nil] at queue
  exact List.map_eq_nil_iff.mp queue

theorem Mirrors.quiet (mirrors : book.Mirrors queues (bidBook owner count)) :
    book.crosses .buy 1 = false := by
  rw [mirrors.crosses, show (!Side.buy.isBuy) = false from rfl, bidBook_first, Option.any_none]

/-- All bids queue at the one level. -/
theorem Mirrors.queue_bids (mirrors : book.Mirrors queues (bidBook owner count)) :
    (queues true 0).map book.orderAt = (bidBook owner count).orders.map some := by
  have level0 : book.levelOf 1 = 0 := by
    rw [levelOf, mirrors.atOne.minPrice]
    rfl
  have all : (bidBook owner count).orders.filter (book.atLevel true 0) =
      (bidBook owner count).orders := by
    rw [List.filter_eq_self]
    intro order member
    obtain ⟨k, -, rfl⟩ := List.mem_map.mp member
    exact atLevel_iff.mpr ⟨rfl, level0⟩
  rw [mirrors.queue, all]

/-- With as many bids as proper slots, no slot is free. -/
theorem Mirrors.pool_full (mirrors : book.Mirrors queues (bidBook owner count))
    (full : count = kNull.toNat) :
    book.free = [] ∧ book.nodes.size = kNull.toNat := by
  have pool := mirrors.pool
  have slots := mirrors.rep.slots
  rw [bidBook_length] at pool
  exact ⟨List.length_eq_zero_iff.mp (by omega), by omega⟩

/-- An id beyond those of the bids is not in the index. -/
theorem Mirrors.unnamed (mirrors : book.Mirrors queues (bidBook owner count)) {k : Nat}
    (later : count ≤ k) (bound : k < 2 ^ 64) : book.index.lookup (UInt64.ofNat k) = none := by
  refine Option.not_isSome_iff_eq_none.mp ?_
  rw [mirrors.lookup_isSome, Bool.not_eq_true]
  exact bidBook_fresh later bound

end OneTick

section Overflow

variable {book after : OrderBook} {queues : Queues} {owner : Nat → AccountId} {count : Nat}

/-- The book after the bid that got the null slot. -/
structure Overflowed (book after : OrderBook) (queues : Queues) (count : Nat) : Prop where
  ladder : SameLadder book after
  free : after.free = []
  index : after.index = book.index.insert (UInt64.ofNat count) kNull
  size : after.nodes.size = book.nodes.size + 1
  nodes : ∀ slot : UInt32, slot ≠ kNull → after.nodes[slot.toNat]? = book.nodes[slot.toNat]?
  asks : after.half false = book.half false
  levels : (after.half true).levels = (book.half true).levels.setIfInBounds 0
    { head := (queues true 0).headD kNull, tail := kNull, totalQty := book.total true 0 + 1,
      count := 0 }
  bitmap : (after.half true).bitmap = (book.half true).bitmap
  bestIdx : (after.half true).bestIdx = (book.half true).bestIdx
  queued : queues true 0 ≠ [] ∧ (queues true 0).length = count

/-- Once every proper slot holds a bid, the next one is written to the null slot. -/
theorem bid_overflows (mirrors : book.Mirrors queues (bidBook owner count))
    (full : count = kNull.toNat) :
    ∃ after out, book.matchCall (bid owner count) = .ok (after, .output out) ∧
      out.mdEvents = [(bidBook owner count).eventOf 0 .add (bidOrder owner count) 1] ∧
      out.reject = .none ∧ Overflowed book after queues count := by
  have bound : count < 2 ^ 64 := by
    rw [full]
    decide
  obtain ⟨free, size⟩ := mirrors.pool_full full
  have tick := mirrors.atOne
  have fresh : book.contains (UInt64.ofNat count) = false :=
    contains_eq_false.mpr (mirrors.unnamed (Nat.le_refl _) bound)
  have length : (queues true 0).length = count := by
    have queue := congrArg List.length mirrors.queue_bids
    rwa [List.length_map, List.length_map, bidBook_length] at queue
  obtain ⟨front, last, split⟩ : ∃ front last, queues true 0 = front ++ [last] := by
    rcases List.eq_nil_or_concat (queues true 0) with empty | ⟨front, last, split⟩
    · rw [empty, full] at length
      cases length
    · exact ⟨front, last, split.trans List.concat_eq_append⟩
  have member : last ∈ queues true 0 := by simp [split]
  have proper := mirrors.rep.slot_ne_null member
  obtain ⟨lastNode, lastFound⟩ : ∃ lastNode, book.nodes[last.toNat]? = some lastNode :=
    ⟨_, Array.getElem?_eq_getElem (mirrors.rep.slot_lt member)⟩
  have lastNext : lastNode.next = kNull := (mirrors.rep.neighbours lastFound split).2
  obtain ⟨level, found⟩ := mirrors.rep.level_exists true (mirrors.rep.inside member)
  obtain ⟨head, tail, counted⟩ := mirrors.rep.level true 0 level found
  rw [split, List.getLastD_concat] at tail
  rw [length, full, UInt32.ofNat_toNat] at counted
  let n := book.newNode (UInt64.ofNat count) (owner count) .buy 1 1
  let start : OrderBook := { book with
    free := []
    nodes := (book.nodes.push {}).setIfInBounds kNull.toNat n
    index := book.index.insert (UInt64.ofNat count) kNull }
  let first : OrderBook := { start with
    nodes := start.nodes.setIfInBounds kNull.toNat { n with prev := last, next := kNull } }
  let second : OrderBook := { first with
    nodes := first.nodes.setIfInBounds last.toNat { lastNode with next := kNull } }
  let after : OrderBook := second.withHalf true { book.half true with
    levels := (book.half true).levels.setIfInBounds 0
      { head := level.head, tail := kNull, totalQty := level.totalQty + 1,
        count := level.count + 1 } }
  have pushLt : kNull.toNat < (book.nodes.push {}).size := by
    rw [Array.size_push, size]
    exact Nat.lt_succ_self _
  have startSlot : start.nodes[kNull.toNat]? = some n :=
    Array.getElem?_setIfInBounds_self_of_lt pushLt
  have startOther : ∀ slot : UInt32, slot ≠ kNull →
      start.nodes[slot.toNat]? = book.nodes[slot.toNat]? := by
    intro slot different
    have apart : slot.toNat ≠ kNull.toNat := fun same => different (UInt32.toNat_inj.mp same)
    rw [Array.getElem?_setIfInBounds_ne apart.symm, Array.getElem?_push, size, if_neg apart]
  have firstOther : ∀ slot : UInt32, slot ≠ kNull →
      first.nodes[slot.toNat]? = book.nodes[slot.toNat]? := by
    intro slot different
    rw [← startOther slot different]
    exact Array.getElem?_setIfInBounds_ne fun same => different (UInt32.toNat_inj.mp same.symm)
  have lastLt : last.toNat < first.nodes.size :=
    (Array.getElem?_eq_some_iff.mp ((firstOther last proper).trans lastFound)).1
  have allocated : book.allocNode (UInt64.ofNat count) (owner count) .buy 1 1 =
      .ok (start, kNull) :=
    allocNode_pushed _ _ _ _ _ free (by rw [size, UInt32.ofNat_toNat]) (Nat.le_of_eq size.symm)
  have several : level.count ≠ 0 := by
    rw [counted]
    decide
  have appended : start.appendToLevel kNull = .ok after :=
    appendToLevel_behind startSlot rfl tick.priceToIndex found tail
    proper several ((firstOther last proper).trans lastFound)
  have ran : book.matchCall (bid owner count) = .ok (after, .output
      { mdEvents := [ArrivalBook.eventOf (bidBook owner count) 0 .add (bidOrder owner count) 1],
        remainingQty := 0 }) := by
    have symbolId : after.symbolId = 1 := mirrors.symbolId.symm
    rw [bid, matchCall,
      addOrder_rests 0 (by decide) tick.inBand fresh mirrors.quiet allocated appended, symbolId]
    rfl
  refine ⟨after, _, ran, rfl, rfl, ⟨rfl, rfl, rfl, rfl⟩, rfl, rfl, ?_, ?_, rfl, ?_, rfl, rfl,
    List.ne_nil_of_mem member, length⟩
  · change ((start.nodes.setIfInBounds _ _).setIfInBounds _ _).size = _
    rw [Array.size_setIfInBounds, Array.size_setIfInBounds, Array.size_setIfInBounds,
      Array.size_push]
  · intro slot different
    change (first.nodes.setIfInBounds _ _)[slot.toNat]? = _
    by_cases isLast : slot = last
    · rw [isLast, Array.getElem?_setIfInBounds_self_of_lt lastLt, lastFound, ← lastNext]
    · rw [Array.getElem?_setIfInBounds_ne fun same => isLast (UInt32.toNat_inj.mp same.symm)]
      exact firstOther slot different
  · change (book.half true).levels.setIfInBounds 0 _ = _
    rw [head, counted, total, found]
    rfl

theorem addOrder_of_matchCall {out : MatchOutput}
    (ran : book.matchCall (bid owner count) = .ok (after, .output out)) :
    book.addOrder 0 (UInt64.ofNat count) (owner count) .buy 1 1 .gtc = .ok (after, out) := by
  rw [bid, matchCall] at ran
  cases added : book.addOrder 0 (UInt64.ofNat count) (owner count) .buy 1 1 .gtc with
  | error fault =>
      rw [added] at ran
      cases ran
  | ok result =>
      rw [added] at ran
      obtain ⟨rfl, same⟩ := Prod.mk.inj (Except.ok.inj ran)
      obtain rfl := MatchAnswer.output.inj same
      rfl

/-- The list still ends before the null slot, so a walk misses the last bid. -/
theorem Overflowed.fifo (overflowed : Overflowed book after queues count)
    (mirrors : book.Mirrors queues (boughtBook count)) : after.fifo true 0 = book.fifo true 0 := by
  obtain ⟨slot, member⟩ := List.exists_mem_of_ne_nil _ overflowed.queued.1
  have inside := mirrors.rep.inside member
  have levelLt : 0 < (book.half true).levels.size := by
    rw [mirrors.rep.levels]
    exact inside
  have linked : Linked after.links kNull (queues true 0) kNull := by
    refine (mirrors.rep.linked true 0).frame fun other queued => ?_
    rw [links, overflowed.nodes other (mirrors.rep.slot_ne_null queued), links]
  have enough : (queues true 0).length ≤ after.nodes.size := by
    rw [overflowed.size]
    exact Nat.le_succ_of_le (mirrors.rep.length_le true 0)
  have slots : after.slotsAt true 0 = queues true 0 := by
    rw [slotsAt, overflowed.levels, Array.getElem?_setIfInBounds_self_of_lt levelLt]
    exact linked.walk_eq (fun queued => mirrors.rep.slot_ne_null queued rfl) enough
  rw [OrderBook.fifo, OrderBook.fifo, slots, mirrors.rep.slotsAt true inside]
  refine List.filterMap_congr fun other queued => ?_
  rw [orderAt, bare, overflowed.nodes other (mirrors.rep.slot_ne_null queued), orderAt, bare]

/-- The book after the oldest bid is cancelled: the level's counter, wrapped to
zero, makes the engine drop the whole level. -/
structure Dropped (book after : OrderBook) (count : Nat) (oldest second : UInt32) : Prop where
  ladder : SameLadder book after
  free : after.free = [oldest]
  index : after.index = (book.index.insert (UInt64.ofNat count) kNull).erase 0
  room : oldest.toNat < after.nodes.size
  distinct : second ≠ oldest
  stillFound : book.index.lookup 1 = some second
  stillActive : ∃ n, after.nodes[second.toNat]? = some n ∧ n.active = true ∧ viewNode n = bought 1
  asks : after.half false = book.half false
  noBid : (after.half true).bestIdx = none

theorem bought_queue (mirrors : book.Mirrors queues (boughtBook count)) (many : 2 ≤ count)
    (whole : (queues true 0).length = count) :
    ∃ oldest second rest, queues true 0 = oldest :: second :: rest ∧
      book.orderAt oldest = some (bought 0) ∧ book.orderAt second = some (bought 1) := by
  obtain ⟨count, rfl⟩ : ∃ less, count = less + 2 := ⟨count - 2, by omega⟩
  have queue : (queues true 0).map book.orderAt = (boughtBook (count + 2)).orders.map some :=
    mirrors.queue_bids
  have orders : (boughtBook (count + 2)).orders =
      bought 0 :: bought 1 :: (List.range count).map fun k => bought (k + 2) := by
    simp only [bidBook, List.range_succ_eq_map, List.map_cons, List.map_map]
    rfl
  rw [orders] at queue
  cases split : queues true 0 with
  | nil => simp [split] at whole
  | cons oldest behind =>
      cases behind with
      | nil => simp [split] at whole
      | cons second rest =>
          rw [split] at queue
          simp only [List.map_cons, List.cons.injEq] at queue
          exact ⟨oldest, second, rest, rfl, queue.1, queue.2.1⟩

/-- Cancelling the oldest bid drops the level with all the others. -/
theorem Overflowed.cancel (overflowed : Overflowed book after queues count)
    (mirrors : book.Mirrors queues (boughtBook count)) (many : 2 ≤ count) (small : count < 2 ^ 64) :
    ∃ final ev oldest second, after.matchCall (.cancel 0 0) = .ok (final, .cancelled ev) ∧
      Dropped book final count oldest second := by
  obtain ⟨oldest, second, rest, split, oldestView, secondView⟩ :=
    bought_queue mirrors many overflowed.queued.2
  have rep := mirrors.rep
  have oldestMember : oldest ∈ queues true 0 := by simp [split]
  have secondMember : second ∈ queues true 0 := by simp [split]
  obtain ⟨n, found, -, active, side, levelIdx, -, indexed⟩ := mirrors.order_of_queued oldestMember
  obtain ⟨m, secondFound, -, secondActive, -, -, -, secondIndexed⟩ :=
    mirrors.order_of_queued secondMember
  rw [orderAt_of_getElem? found, Option.some.injEq] at oldestView
  rw [orderAt_of_getElem? secondFound, Option.some.injEq] at secondView
  have oldestId : n.orderId = 0 := congrArg RestingOrderView.orderId oldestView
  have secondId : m.orderId = 1 := congrArg RestingOrderView.orderId secondView
  have distinct : second ≠ oldest := by
    rintro rfl
    rw [found, Option.some.injEq] at secondFound
    rw [secondFound, secondId] at oldestId
    cases oldestId
  obtain ⟨prev, next⟩ :=
    rep.neighbours found (show queues true 0 = [] ++ oldest :: second :: rest from split)
  have next : n.next = second := next
  have prev : n.prev = kNull := prev
  have secondProper := rep.slot_ne_null secondMember
  have oldestProper := rep.slot_ne_null oldestMember
  have found' : after.nodes[oldest.toNat]? = some n :=
    (overflowed.nodes oldest oldestProper).trans found
  have secondFound' : after.nodes[second.toNat]? = some m :=
    (overflowed.nodes second secondProper).trans secondFound
  have secondLt : second.toNat < after.nodes.size := (Array.getElem?_eq_some_iff.mp secondFound').1
  have tick : after.AtOne := AtOne.of_same (Mirrors.atOne mirrors) overflowed.ladder
  have levels : after.levelCount.toNat = 1 := congrArg UInt32.toNat tick.levelCount
  have levelLt : 0 < (book.half true).levels.size := by
    rw [rep.levels]
    exact rep.inside oldestMember
  let stored : Level := {
    head := (queues true 0).headD kNull, tail := kNull, totalQty := book.total true 0 + 1,
      count := 0 }
  have storedFound : (after.half true).levels[(0 : UInt32).toNat]? = some stored := by
    rw [overflowed.levels]
    exact Array.getElem?_setIfInBounds_self_of_lt levelLt
  let middle : OrderBook := { after with
    nodes := after.nodes.setIfInBounds second.toNat { m with prev := kNull } }
  have occupancy : Occupancy true middle.levelCount.toNat (middle.half true) fun i =>
      queues true i ≠ [] := by
    have before := rep.occupancy true
    rw [← overflowed.ladder.levelCount] at before
    exact before.transfer overflowed.bitmap overflowed.bestIdx
  -- The counter stands at zero, so the level counts as emptied.
  have pred : (shrunkLevel stored n n.qty).count = 0 := rfl
  obtain ⟨half, ran, -, -, tracked⟩ :=
    shrinkLevel_spec middle true 0 (shrunkLevel stored n n.qty) occupancy (by
      change (after.half true).levels.size = after.levelCount.toNat
      rw [overflowed.levels, Array.size_setIfInBounds, rep.levels, overflowed.ladder.levelCount])
      tick.inside
  have oldestKept : middle.nodes[oldest.toNat]? = some n := by
    rw [← found']
    exact Array.getElem?_setIfInBounds_ne fun same => distinct (UInt32.toNat_inj.mp same)
  have middleLt : oldest.toNat < middle.nodes.size := (Array.getElem?_eq_some_iff.mp oldestKept).1
  let final : OrderBook := { middle.withHalf true half with
    index := after.index.erase n.orderId
    nodes := middle.nodes.setIfInBounds oldest.toNat {}
    free := oldest :: after.free }
  have removed : after.removeNode 0 oldest n.qty .cancel =
      .ok (final, after.removalEvent 0 n n.qty .cancel) := by
    have place : n.levelIdx = 0 := UInt32.toNat_inj.mp levelIdx
    refine removeNode_run 0 .cancel after.nodes found' side place storedFound ?_ ?_ ran oldestKept
    · rw [if_neg (not_not.mpr prev)]
      rfl
    · rw [next, prev, if_pos secondProper]
      exact (congrArg (· >>= _) (node_of_getElem? secondFound')).trans (setNode_of_lt _ secondLt)
  have lookup (id : OrderId) (different : id ≠ UInt64.ofNat count) :
      after.index.lookup id = book.index.lookup id := by
    rw [overflowed.index, Finmap.lookup_insert_of_ne _ different]
  have countToNat : (UInt64.ofNat count).toNat = count := by
    rw [UInt64.toNat_ofNat', Nat.mod_eq_of_lt small]
  have zeroApart : (0 : OrderId) ≠ UInt64.ofNat count := by
    intro same
    have values := congrArg UInt64.toNat same
    rw [countToNat, UInt64.toNat_zero] at values
    omega
  have ran : after.matchCall (.cancel 0 0) =
      .ok (final, .cancelled (some (after.removalEvent 0 n n.qty .cancel))) := by
    rw [oldestId] at indexed
    simp only [matchCall, cancelOrder, lookup 0 zeroApart, indexed, node_of_getElem? found',
      exec_ok_bind, removed]
  refine ⟨final, _, oldest, second, ran, ?_⟩
  constructor
  · have step : SameLadder after middle := ⟨rfl, rfl, rfl, rfl⟩
    obtain ⟨symbolId, minPrice, maxPrice, levelCount⟩ := overflowed.ladder.trans step
    exact ⟨symbolId, minPrice, maxPrice, levelCount⟩
  · change oldest :: after.free = [oldest]
    rw [overflowed.free]
  · change after.index.erase n.orderId = _
    rw [overflowed.index, oldestId]
  · change oldest.toNat < (middle.nodes.setIfInBounds _ _).size
    rw [Array.size_setIfInBounds]
    exact middleLt
  · exact distinct
  · rw [secondId] at secondIndexed
    exact secondIndexed
  · refine ⟨{ m with prev := kNull }, ?_, secondActive, secondView⟩
    change (middle.nodes.setIfInBounds _ _)[second.toNat]? = _
    rw [Array.getElem?_setIfInBounds_ne fun same => distinct (UInt32.toNat_inj.mp same.symm)]
    exact Array.getElem?_setIfInBounds_self_of_lt secondLt
  · exact overflowed.asks
  · change half.bestIdx = none
    cases best : half.bestIdx with
    | none => rfl
    | some idx =>
        obtain ⟨⟨notZero, occupied⟩, -⟩ := tracked.best idx best
        have low := rep.inside (List.exists_mem_of_ne_nil _ occupied).choose_spec
        rw [← overflowed.ladder.levelCount, levels] at low
        exact absurd (Nat.lt_one_iff.mp low) (notZero rfl)

theorem Dropped.quiet {final : OrderBook} {oldest second : UInt32}
    (dropped : Dropped book final count oldest second) :
    final.crosses .sell 1 = false := by
  have noBid : final.bids.bestIdx = none := dropped.noBid
  simp only [crosses, show Side.sell.isBuy = false from rfl, Bool.false_eq_true, ↓reduceIte, noBid]

/-- An ask at the price of the dropped bids finds nothing to trade with. -/
theorem Dropped.sell {final : OrderBook} {oldest second : UInt32}
    (dropped : Dropped book final count oldest second)
    (mirrors : book.Mirrors queues (boughtBook count)) (small : count + 1 < 2 ^ 64)
    (many : 2 ≤ count) :
    ∃ crossed out ask, final.matchCall (.add 0 (UInt64.ofNat (count + 1)) 0 .sell 1 1 .gtc) =
        .ok (crossed, .output out) ∧
      crossed.find 1 = .ok (some (bought 1)) ∧
      crossed.find (UInt64.ofNat (count + 1)) = .ok (some ask) ∧
      ask.side = .sell ∧ ask.price = 1 := by
  let id := UInt64.ofNat (count + 1)
  have idToNat : id.toNat = count + 1 := by
    rw [UInt64.toNat_ofNat', Nat.mod_eq_of_lt small]
  have tick : final.AtOne := AtOne.of_same (Mirrors.atOne mirrors) dropped.ladder
  have countToNat : (UInt64.ofNat count).toNat = count := by
    rw [UInt64.toNat_ofNat', Nat.mod_eq_of_lt (by omega)]
  have apart {other : OrderId} (different : other.toNat ≠ count + 1) : other ≠ id := by
    rintro rfl
    exact different idToNat
  have lookup (other : OrderId) (notZero : other.toNat ≠ 0) (notLast : other.toNat ≠ count) :
      final.index.lookup other = book.index.lookup other := by
    rw [dropped.index, Finmap.lookup_erase_ne, Finmap.lookup_insert_of_ne]
    · rintro rfl
      exact notLast countToNat
    · rintro rfl
      exact notZero rfl
  have absent : final.index.lookup id = none := by
    rw [lookup id (by omega) (by omega)]
    exact Mirrors.unnamed mirrors (Nat.le_succ _) small
  obtain ⟨level, found⟩ := mirrors.rep.level_exists false (AtOne.inside (Mirrors.atOne mirrors))
  obtain ⟨-, tail, counted⟩ := mirrors.rep.level false _ level found
  rw [Mirrors.noAsks mirrors] at tail counted
  have occupancy := mirrors.rep.occupancy false
  rw [← dropped.asks] at found occupancy
  rw [← dropped.ladder.levelCount] at occupancy
  let n := final.newNode id 0 .sell 1 1
  let start : OrderBook := { final with
    free := [], nodes := final.nodes.setIfInBounds oldest.toNat n,
      index := final.index.insert id oldest }
  have startSlot : start.nodes[oldest.toNat]? = some n :=
    Array.getElem?_setIfInBounds_self_of_lt dropped.room
  have startLt : oldest.toNat < start.nodes.size := (Array.getElem?_eq_some_iff.mp startSlot).1
  have allocated : final.allocNode id 0 .sell 1 1 = .ok (start, oldest) :=
    allocNode_recycled id 0 .sell 1 1 dropped.free dropped.room
  obtain ⟨asks, appended, -⟩ :=
    appendToLevel_first startSlot (show n.side.isBuy = false from rfl) tick.priceToIndex found
    tail counted occupancy tick.inside
  let crossed : OrderBook := ({ start with
    nodes := start.nodes.setIfInBounds oldest.toNat { n with prev := kNull, next := kNull } } :
      OrderBook).withHalf false asks
  have nodes : ∀ slot : UInt32, slot ≠ oldest →
      crossed.nodes[slot.toNat]? = final.nodes[slot.toNat]? := by
    intro slot different
    have place : oldest.toNat ≠ slot.toNat := fun same => different (UInt32.toNat_inj.mp same.symm)
    change ((final.nodes.setIfInBounds _ _).setIfInBounds _ _)[slot.toNat]? = _
    rw [Array.getElem?_setIfInBounds_ne place, Array.getElem?_setIfInBounds_ne place]
  have fresh : final.contains id = false := contains_eq_false.mpr absent
  have added := addOrder_rests 0 (by decide) tick.inBand fresh dropped.quiet allocated appended
  refine ⟨crossed, _, viewNode n, by rw [matchCall, added, exec_ok_bind], ?_, ?_, rfl, rfl⟩
  · obtain ⟨m, stands, active, view⟩ := dropped.stillActive
    have indexed : crossed.index.lookup 1 = some second := by
      have one : (1 : OrderId).toNat = 1 := rfl
      change (final.index.insert id oldest).lookup 1 = some second
      rw [Finmap.lookup_insert_of_ne _ (apart (by omega)), lookup 1 (by omega) (by omega)]
      exact dropped.stillFound
    simp only [find, indexed, node_of_getElem? ((nodes second dropped.distinct).trans stands),
      exec_ok_bind, active, ↓reduceIte, view]
  · have indexed : crossed.index.lookup id = some oldest := Finmap.lookup_insert _
    have stands : crossed.nodes[oldest.toNat]? = some { n with prev := kNull, next := kNull } :=
      Array.getElem?_setIfInBounds_self_of_lt startLt
    change crossed.find id = _
    rw [find, indexed]
    dsimp only
    rw [node_of_getElem? stands, exec_ok_bind]
    rfl

end Overflow

section Run

variable {count : Nat}

theorem atPrice_bought : (boughtBook count).atPrice true 1 = (boughtBook count).orders := by
  rw [ArrivalBook.atPrice, List.filter_eq_self]
  intro order member
  obtain ⟨k, -, rfl⟩ := List.mem_map.mp member
  rfl

/-- The run of bids that fills the pool, and the one after it. -/
theorem run_overflow (full : count = kNull.toNat) :
    ∃ book queues after outputs out, book.Mirrors queues (boughtBook count) ∧
      run matchCall oneTick (buys (count + 1)) = .ok (after, outputs ++ [.output out]) ∧
      out.mdEvents = [(boughtBook count).eventOf 0 .add (bought count) 1] ∧
      Overflowed book after queues count := by
  obtain ⟨book, ran, queues, mirrors⟩ := run_bidCalls (Nat.le_of_eq full)
  obtain ⟨after, out, stepped, told, -, overflowed⟩ := bid_overflows mirrors full
  have final := run_append ran (run_cons stepped run_nil)
  rw [← bidCalls_succ] at final
  exact ⟨book, queues, after, _, out, mirrors, final, told, overflowed⟩

/-- The queue of the bids holds none but those that have a proper slot. -/
theorem Overflowed.listed {book after : OrderBook} {queues : Queues}
    (overflowed : Overflowed book after queues count)
    (mirrors : book.Mirrors queues (boughtBook count)) :
    after.priceInBand 1 = true ∧ after.fifo true (after.levelOf 1) = (boughtBook count).orders := by
  have minPrice : book.minPrice = 1 := mirrors.minPrice.symm
  have inBand : book.priceInBand 1 = true := by
    rw [← mirrors.priceInBand]
    rfl
  have level : book.levelOf 1 = 0 := by
    rw [levelOf, minPrice]
    rfl
  have queue := mirrors.sameOrders.queues true 1 inBand
  rw [level, atPrice_bought] at queue
  rw [overflowed.ladder.priceInBand, overflowed.ladder.levelOf, level, overflowed.fifo mirrors]
  exact ⟨inBand, queue⟩

end Run

end OrderBook

end Exsim.Core
