import Exsim.OrderBook.Checksum
import Exsim.OrderBook.Wrapping

/-! # The list that ends in itself

After the order that is stored over another, two cancels free slot zero twice.
The next two asks of the one level both get it, so the second is linked to
itself: a walk of the level does not end, and neither does matching against it.
-/

namespace Exsim.Core.OrderBook

open Data

/-- No bid is listed. -/
structure NoBids (book : OrderBook) : Prop where
  occupancy : Occupancy true book.levelCount.toNat (book.half true) fun _ => False
  levels : (book.half true).levels.size = book.levelCount.toNat
  empty : ∃ level, (book.half true).levels[0]? = some level ∧ level.count = 0

/-- A book without bids whose ask level counts `asks` orders, all of them in slot zero. -/
structure Recycling (book : OrderBook) (ids : Nat) (free : List UInt32)
    (asks tail : UInt32) : Prop where
  tick : book.AtOne
  bids : book.NoBids
  free : book.free = free
  room : 0 < book.nodes.size
  fresh : ∀ k, ids < k → k < 2 ^ 64 → book.index.lookup (UInt64.ofNat k) = none
  occupancy : Occupancy false book.levelCount.toNat (book.half false) fun i => asks ≠ 0 ∧ i = 0
  levels : (book.half false).levels.size = book.levelCount.toNat
  level : ∃ level, (book.half false).levels[0]? = some level ∧ (asks ≠ 0 → level.head = 0) ∧
    level.tail = tail ∧ level.count = asks

section

variable {book after : OrderBook} {ids : Nat} {free : List UInt32} {asks tail : UInt32}

theorem NoBids.of_half (bids : book.NoBids) (same : SameLadder book after)
    (half : after.half true = book.half true) :
    after.NoBids := by
  obtain ⟨occupancy, levels, empty⟩ := bids
  rw [← half] at occupancy levels empty
  rw [← same.levelCount] at occupancy levels
  exact ⟨occupancy, levels, empty⟩

theorem NoBids.best (bids : book.NoBids) : book.bids.bestIdx = none := by
  cases best : book.bids.bestIdx with
  | none => rfl
  | some idx => exact (bids.occupancy.best idx best).1.elim

theorem NoBids.quiet (bids : book.NoBids) (price : Price) : book.crosses .sell price = false := by
  simp only [crosses, show Side.sell.isBuy = false from rfl, Bool.false_eq_true,
    ↓reduceIte, bids.best]

/-- An ask that gets slot zero once more: behind another ask there it is linked to itself. -/
theorem Recycling.sell (recycling : book.Recycling ids (0 :: free) asks tail)
    (listed : asks = 0 ∧ tail = kNull ∨ asks = 1 ∧ tail = 0) (bound : ids + 1 < 2 ^ 64) :
    ∃ after out n, book.addOrder 0 (UInt64.ofNat (ids + 1)) 0 .sell 1 1 .gtc = .ok (after, out) ∧
      after.Recycling (ids + 1) free (asks + 1) 0 ∧ after.nodes[0]? = some n ∧ n.prev = tail ∧
      n.next = tail ∧ n.side = .sell ∧ n.levelIdx = 0 ∧ n.qty = 1 := by
  obtain ⟨tick, bids, isFree, room, fresh, occupancy, levels, level, found, head, isTail,
      counted⟩ := recycling
  let id := UInt64.ofNat (ids + 1)
  have isFresh : book.contains id = false :=
    contains_eq_false.mpr (fresh _ (Nat.lt_succ_self ids) bound)
  let n := book.newNode id 0 .sell 1 1
  let start : OrderBook := { book with
    free := free, nodes := book.nodes.setIfInBounds 0 n, index := book.index.insert id 0 }
  let linked : OrderBook :=
    { start with nodes := book.nodes.setIfInBounds 0 { n with prev := tail, next := tail } }
  let written : Level := { head := 0, tail := 0, totalQty := level.totalQty + 1, count := asks + 1 }
  have allocated : book.allocNode id 0 .sell 1 1 = .ok (start, 0) :=
    allocNode_recycled id 0 .sell 1 1 isFree room
  have startSlot : start.nodes[(0 : UInt32).toNat]? = some n :=
    Array.getElem?_setIfInBounds_self_of_lt room
  have linkedSlot : linked.nodes[0]? = some { n with prev := tail, next := tail } :=
    Array.getElem?_setIfInBounds_self_of_lt room
  have side : n.side.isBuy = false := rfl
  have place : n.levelIdx = 0 := tick.priceToIndex
  have levelLt : (0 : UInt32).toNat < (linked.half false).levels.size :=
    (Array.getElem?_eq_some_iff.mp found).1
  have recycles (half : BookSide)
      (newLevels : half.levels = (book.half false).levels.setIfInBounds 0 written)
      (tracked : Occupancy false book.levelCount.toNat half fun i => i = 0) :
      (linked.withHalf false half).Recycling (ids + 1) free (asks + 1) 0 := by
    have more : asks + 1 ≠ 0 := by
      obtain ⟨rfl, -⟩ | ⟨rfl, -⟩ := listed <;> decide
    refine ⟨⟨tick.minPrice, tick.maxPrice, tick.levelCount⟩, bids.of_half ⟨rfl, rfl, rfl, rfl⟩ rfl,
      rfl, ?_, ?_, tracked.congr fun _ => and_iff_right more, ?_, written, ?_,
      fun _ => rfl, rfl, rfl⟩
    · change 0 < (book.nodes.setIfInBounds 0 _).size
      rw [Array.size_setIfInBounds]
      exact room
    · intro k later small
      change (book.index.insert id 0).lookup (UInt64.ofNat k) = none
      rw [Finmap.lookup_insert_of_ne _ (ofNat_ne later small).symm]
      exact fresh k (by omega) small
    · change half.levels.size = book.levelCount.toNat
      rw [newLevels, Array.size_setIfInBounds]
      exact levels
    · change half.levels[0]? = some written
      rw [newLevels]
      exact Array.getElem?_setIfInBounds_self_of_lt levelLt
  have addBy (half : BookSide)
      (appended : start.appendToLevel 0 = .ok (linked.withHalf false half)) :=
    addOrder_rests 0 (by decide) tick.inBand isFresh (bids.quiet 1) allocated appended
  obtain ⟨rfl, rfl⟩ | ⟨rfl, rfl⟩ := listed
  · -- The first ask: the level becomes occupied.
    have vacant : Occupancy false book.levelCount.toNat (book.half false) fun _ => False :=
      occupancy.congr fun _ => ⟨False.elim, fun impossible => impossible.1 rfl⟩
    obtain ⟨occupied, appended, sameLevels, -, tracked⟩ :=
      appendToLevel_first startSlot side place found isTail counted vacant tick.inside
    simp only [start, UInt32.toNat_zero, Array.setIfInBounds_setIfInBounds] at appended
    have tracked : Occupancy false book.levelCount.toNat occupied fun i => i = 0 :=
      tracked.congr fun i => (or_iff_left not_false).symm
    exact ⟨_, _, _, addBy occupied appended, recycles occupied sameLevels tracked, linkedSlot, rfl,
      rfl, rfl, place, rfl⟩
  · -- The second ask: its predecessor is itself.
    have several : level.count ≠ 0 := by
      rw [counted]
      decide
    have itself : (start.nodes.setIfInBounds (0 : UInt32).toNat
        { n with prev := 0, next := kNull })[(0 : UInt32).toNat]? =
        some { n with prev := 0, next := kNull } := by
      refine Array.getElem?_setIfInBounds_self_of_lt ?_
      exact (Array.getElem?_eq_some_iff.mp startSlot).1
    have appended :=
      appendToLevel_behind startSlot side place found isTail (by decide) several itself
    simp only [start, UInt32.toNat_zero, Array.setIfInBounds_setIfInBounds, head (by decide),
      counted] at appended
    have tracked : Occupancy false book.levelCount.toNat (book.half false) fun i => i = 0 :=
      occupancy.congr fun i => (and_iff_right (by decide)).symm
    exact ⟨_, _, _, addBy _ appended, recycles _ rfl (tracked.transfer rfl rfl), linkedSlot, rfl,
      rfl, rfl, place, rfl⟩

end

section

variable {book after : OrderBook} {queues : Queues} {owner : Nat → AccountId} {count : Nat}

/-- Once a bid is stored over another in slot zero, a cancel of each frees the slot. -/
theorem Overflowed.doubled (overflowed : Overflowed book after queues count)
    (mirrors : book.Mirrors queues (bidBook owner count))
    (full : count = kNull.toNat) (account : AccountId) :
    ∃ k < count, ∃ wrapped emptied last out ev ev',
      after.addOrder 0 (UInt64.ofNat (count + 1)) account .buy 1 1 .gtc = .ok (wrapped, out) ∧
      wrapped.cancelOrder 0 (UInt64.ofNat (count + 1)) = .ok (emptied, ev) ∧
      emptied.cancelOrder 0 (UInt64.ofNat k) = .ok (last, ev') ∧
      last.Recycling (count + 1) [0, 0] 0 kNull := by
  have bound : count + 1 < 2 ^ 64 := by
    rw [full]
    decide
  obtain ⟨k, earlier, stale⟩ := bid_at_zero mirrors full
  obtain ⟨wrapped, out, n, added, -, -, wrapping⟩ := overflowed.wraps mirrors full account
  have indexed : wrapped.index.lookup (UInt64.ofNat (count + 1)) = some 0 := by
    rw [wrapping.index, Finmap.lookup_insert]
  obtain ⟨emptied, cancelled, vacated⟩ := wrapping.lone.cancel (UInt32.le_refl _) indexed 0
  have staleIndexed := (vacated.stale wrapping overflowed bound earlier).trans stale
  obtain ⟨last, cancelledAgain, again⟩ := vacated.lone.cancel (by decide) staleIndexed 0
  refine ⟨k, earlier, wrapped, emptied, last, out, _, _, added, cancelled, cancelledAgain, ?_⟩
  have ladder := ((overflowed.ladder.trans wrapping.ladder).trans vacated.ladder).trans again.ladder
  have tick := mirrors.atOne.of_same ladder
  have asks : last.half false = book.half false := by
    rw [again.asks, vacated.asks, wrapping.asks, overflowed.asks]
  obtain ⟨occupied, cleared⟩ := again.cleared
  have unoccupied : ∀ i, ¬(i ≠ 0 ∧ occupied i) := fun i held => by
    have inside := cleared.inside i held
    rw [tick.levelCount, UInt32.toNat_one] at inside
    exact held.1 (Nat.lt_one_iff.mp inside)
  obtain ⟨level, found⟩ := mirrors.rep.level_exists false mirrors.atOne.inside
  obtain ⟨-, tail, counted⟩ := mirrors.rep.level false _ level found
  rw [mirrors.noAsks] at tail counted
  refine ⟨tick, ⟨cleared.congr fun i => ⟨False.elim, unoccupied i⟩, again.lone.addressable.levels,
    again.lone.counted⟩, ?_, ?_, ?_, ?_,
    ?_, level, ?_, fun impossible => absurd rfl impossible, tail, counted⟩
  · rw [again.free, vacated.free, wrapping.free]
  · exact (Array.getElem?_eq_some_iff.mp again.lone.stored).1
  · intro k' later small
    have apart := ofNat_ne later small
    have zero : UInt64.ofNat k' ≠ 0 :=
      (ofNat_ne (Nat.lt_of_le_of_lt (Nat.zero_le _) later) small).symm
    rw [again.index, Finmap.lookup_erase_ne zero, vacated.index, wrapping.name,
      Finmap.lookup_erase_ne apart.symm, wrapping.index, Finmap.lookup_insert_of_ne _ apart.symm,
      overflowed.index, Finmap.lookup_insert_of_ne _ (ofNat_ne (by omega) small).symm]
    exact mirrors.unnamed (by omega) small
  · rw [asks, ladder.levelCount]
    refine (mirrors.rep.occupancy false).congr fun i =>
      ⟨fun impossible => absurd rfl impossible.1, fun queued => ?_⟩
    exact absurd (mirrors.noAsks i) queued
  · rw [asks, ladder.levelCount]
    exact mirrors.rep.levels false
  · rw [asks]
    exact found

/-- A book whose one ask level lists slot zero behind itself. -/
structure Cyclic (book : OrderBook) (ids : Nat) : Prop where
  recycling : book.Recycling ids [] 2 0
  slot : ∃ n, book.nodes[0]? = some n ∧ n.prev = 0 ∧ n.next = 0 ∧ n.side = .sell ∧
      n.levelIdx = 0 ∧ n.qty = 1

/-- The bids that fill the pool and two more, two cancels and two asks. -/
def cyclicCalls (count k : Nat) : List MatchCall :=
  buys (count + 2) ++ [.cancel 0 (UInt64.ofNat (count + 1)), .cancel 0 (UInt64.ofNat k),
    .add 0 (UInt64.ofNat (count + 2)) 0 .sell 1 1 .gtc,
    .add 0 (UInt64.ofNat (count + 3)) 0 .sell 1 1 .gtc]

theorem run_cyclic (full : count = kNull.toNat) :
    ∃ k < count, ∃ after answers, run matchCall oneTick (cyclicCalls count k) =
      .ok (after, answers) ∧ after.Cyclic (count + 3) := by
  obtain ⟨book, queues, overflown, outputs, out, mirrors, ran, -, overflowed⟩ := run_overflow full
  obtain ⟨k, earlier, wrapped, emptied, last, _, _, _, added, cancelled, cancelledAgain,
      recycling⟩ :=
    overflowed.doubled mirrors full 0
  have bound : count + 3 < 2 ^ 64 := by
    rw [full]
    decide
  obtain ⟨first, _, _, sold, reused, -⟩ := recycling.sell (.inl ⟨rfl, rfl⟩) (by omega)
  obtain ⟨second, _, n, soldAgain, cyclic, slot⟩ := reused.sell (.inr ⟨rfl, rfl⟩) bound
  have steps :
      ∃ answers, run matchCall overflown [buy (count + 1), .cancel 0 (UInt64.ofNat (count + 1)),
      .cancel 0 (UInt64.ofNat k), .add 0 (UInt64.ofNat (count + 2)) 0 .sell 1 1 .gtc,
      .add 0 (UInt64.ofNat (count + 3)) 0 .sell 1 1 .gtc] = .ok (second, answers) :=
    ⟨_, run_cons (by rw [buy, bid, matchCall, added]; rfl)
      (run_cons (by rw [matchCall, cancelled]; rfl)
      (run_cons (by rw [matchCall, cancelledAgain]; rfl) (run_cons (by rw [matchCall, sold]; rfl)
        (run_cons (by rw [matchCall, soldAgain]; rfl) run_nil))))⟩
  obtain ⟨answers, steps⟩ := steps
  have calls : cyclicCalls count k = buys (count + 1) ++
      [buy (count + 1), .cancel 0 (UInt64.ofNat (count + 1)),
      .cancel 0 (UInt64.ofNat k), .add 0 (UInt64.ofNat (count + 2)) 0 .sell 1 1 .gtc,
      .add 0 (UInt64.ofNat (count + 3)) 0 .sell 1 1 .gtc] := by
    rw [cyclicCalls, buys, bidCalls_succ, List.append_assoc]
    rfl
  have whole := run_append ran steps
  rw [← calls] at whole
  exact ⟨k, earlier, second, _, whole, cyclic, n, slot⟩

end

section

variable {book : OrderBook} {ids : Nat}

theorem Cyclic.best (cyclic : book.Cyclic ids) : book.asks.bestIdx = some 0 := by
  have occupancy := cyclic.recycling.occupancy
  cases best : book.asks.bestIdx with
  | none => exact absurd ⟨by decide, rfl⟩ (occupancy.none best 0)
  | some idx =>
      have isZero : idx.toNat = (0 : UInt32).toNat := (occupancy.best idx best).1.2
      rw [UInt32.toNat_inj.mp isZero]

/-- No bound on the steps lets the walk of the level end. -/
theorem Cyclic.walk_diverges (cyclic : book.Cyclic ids) (fuel : Nat) (h : UInt64) :
    book.hashNodes fuel h 0 = .error .divergence := by
  obtain ⟨n, stored, -, next, -⟩ := cyclic.slot
  have proper : (0 : UInt32) ≠ kNull := by decide
  have read : book.node 0 = .ok n := node_of_getElem? stored
  induction fuel generalizing h with
  | zero => rw [hashNodes, if_neg proper]
  | succ fuel ih =>
      rw [hashNodes, if_neg proper, read, exec_ok_bind]
      dsimp only
      rw [next]
      exact ih _

/-- The checksum of such a book does not return. -/
theorem Cyclic.checksum_diverges (cyclic : book.Cyclic ids) :
    book.checksum = .error .divergence := by
  obtain ⟨tick, bids, -, -, -, occupancy, -, level, found, head, -, -⟩ := cyclic.recycling
  have noBit : ∀ i, testBit book.bids.bitmap i ≠ true := fun i => (bids.occupancy.bits i).mp
  have oneBit : ∀ i, testBit book.asks.bitmap i = true ↔ i = 0 := fun i =>
    (occupancy.bits i).trans (and_iff_right (by decide))
  have noBid : BookSide.findHighestOccupied book.bids.bitmap book.levelCount = none := by
    have within : ∀ i, testBit book.bids.bitmap i = true → i < book.levelCount.toNat :=
      fun i set => absurd set (noBit i)
    obtain ⟨-, hit⟩ := BookSide.findHighestOccupied_spec within
    cases found : BookSide.findHighestOccupied book.bids.bitmap book.levelCount with
    | none => rfl
    | some idx => exact absurd (hit idx found).1 (noBit idx.toNat)
  have oneAsk : BookSide.findLowestOccupied book.asks.bitmap book.levelCount = some 0 := by
    have within : ∀ i, testBit book.asks.bitmap i = true → i < book.levelCount.toNat :=
      fun i set => by
        rw [(oneBit i).mp set]
        exact tick.inside
    obtain ⟨missing, hit⟩ := BookSide.findLowestOccupied_spec within
    cases found : BookSide.findLowestOccupied book.asks.bitmap book.levelCount with
    | none => exact absurd ((oneBit 0).mpr rfl) (by rw [missing found 0]; exact Bool.false_ne_true)
    | some idx =>
        have isZero : idx = 0 := UInt32.toNat_inj.mp ((oneBit _).mp (hit idx found).1)
        rw [isZero]
  have readLevel : book.levelFor false 0 = .ok level := levelFor_of_getElem? found
  have diverges : ∀ h, book.hashLevel false h 0 = .error .divergence := fun h => by
    rw [hashLevel, readLevel, exec_ok_bind, head (by decide)]
    exact cyclic.walk_diverges _ _
  have noBids : ∀ fuel h, book.hashBids fuel h none = .ok h := fun fuel h => by cases fuel <;> rfl
  have asks : ∀ fuel h, book.hashAsks fuel h (some 0) = .error .divergence := fun fuel h => by
    cases fuel with
    | zero => rfl
    | succ fuel =>
        rw [hashAsks, diverges]
        rfl
  rw [checksum, noBid, oneAsk, noBids, exec_ok_bind]
  exact asks _ _

/-- The book with slot zero and ask level zero written. -/
def withZero (book : OrderBook) (n : Node) (level : Level) : OrderBook :=
  { book with
    nodes := book.nodes.setIfInBounds 0 n
    asks := { book.asks with levels := book.asks.levels.setIfInBounds 0 level } }

section

variable {n m : Node} {level lvl : Level}

theorem withZero_self (stored : book.nodes[0]? = some n)
    (found : book.asks.levels[0]? = some level) :
    book.withZero n level = book := by
  have kept {Cell : Type} {cells : Array Cell} {cell : Cell} (found : cells[0]? = some cell) :
      cells.setIfInBounds 0 cell = cells := by
    apply Array.ext_getElem?
    intro i
    rw [Array.getElem?_setIfInBounds]
    split
    · rename_i first
      rw [← first, found]
      simp [(Array.getElem?_eq_some_iff.mp found).1]
    · rfl
  rw [withZero, kept stored, kept found]

theorem node_withZero (room : 0 < book.nodes.size) : (book.withZero n level).node 0 = .ok n :=
  node_of_getElem? (Array.getElem?_setIfInBounds_self_of_lt room)

theorem levelFor_withZero (room : 0 < book.asks.levels.size) :
    (book.withZero n level).levelFor false 0 = .ok level :=
  levelFor_of_getElem? (Array.getElem?_setIfInBounds_self_of_lt room)

theorem setNode_withZero (room : 0 < book.nodes.size) :
    (book.withZero n level).setNode 0 m = .ok (book.withZero m level) := by
  have inside : (0 : UInt32).toNat < (book.withZero n level).nodes.size := by
    rw [withZero, Array.size_setIfInBounds]
    exact room
  rw [setNode_of_lt _ inside]
  simp only [withZero, UInt32.toNat_zero, Array.setIfInBounds_setIfInBounds]

theorem setLevel_withZero (room : 0 < book.asks.levels.size) :
    (book.withZero n level).setLevel false 0 lvl = .ok (book.withZero n lvl) := by
  have inside : (0 : UInt32).toNat < ((book.withZero n level).half false).levels.size := by
    change 0 < (book.asks.levels.setIfInBounds 0 level).size
    rw [Array.size_setIfInBounds]
    exact room
  rw [setLevel_of_lt _ inside]
  simp [withZero, withHalf, half]

theorem freeNode_withZero (room : 0 < book.nodes.size) : (book.withZero n level).freeNode 0 =
    .ok { book.withZero {} level with
      index := book.index.erase n.orderId, free := 0 :: book.free } := by
  have stored : (book.withZero n level).nodes[(0 : UInt32).toNat]? = some n :=
    Array.getElem?_setIfInBounds_self_of_lt room
  rw [freeNode_of_getElem? stored]
  simp only [withZero, UInt32.toNat_zero, Array.setIfInBounds_setIfInBounds]

variable {after : OrderBook} {ev : MdEvent} {seq : SeqNo} {qty : Qty}

/-- Filling the whole of slot zero, behind ask level zero. -/
theorem executeHead_withZero (aggressor : OrderId) (out : MatchOutput) (room : 0 < book.nodes.size)
    (levelLt : 0 < book.asks.levels.size) (used : n.qty ≤ qty)
    (removed : (book.withZero { n with qty := 0 }
      { level with totalQty := level.totalQty - n.qty }).removeNode seq 0 0 .execute =
      .ok (after, ev)) :
    ∃ filled, (book.withZero n level).executeHead seq false 0 0 qty out aggressor =
      .ok (after, filled, n.qty) ∧ filled.remainingQty = out.remainingQty := by
  have all : min n.qty qty = n.qty := if_pos used
  let trade : Trade :=
    { seq, symbolId := book.symbolId, restingOrderId := n.orderId, aggressingOrderId := aggressor
      price := n.price, qty := n.qty }
  let told : MdEvent :=
    { seq, type := .execute, symbolId := book.symbolId, orderId := n.orderId
      accountId := n.accountId, side := n.side, price := n.price, qty := n.qty }
  refine ⟨{ out with trades := out.trades ++ [trade], mdEvents := out.mdEvents ++ [told] }, ?_, rfl⟩
  simp only [executeHead, node_withZero room, exec_ok_bind, all, UInt32.sub_self,
    setNode_withZero room, levelFor_withZero levelLt, setLevel_withZero levelLt,
    ↓reduceIte, removed]
  rfl

end

/-- A book whose best ask level starts with an emptied slot. -/
structure Stuck (book : OrderBook) : Prop where
  tick : book.AtOne
  lone : book.Lone {} 0
  best : book.asks.bestIdx = some 0
  head : ∃ level, book.asks.levels[0]? = some level ∧ level.head = 0

section

variable {seq : SeqNo} {aggressor : OrderId} {qty : Qty} {out : MatchOutput}

/-- Filling against the emptied slot fills nothing, and leaves the level as it was. -/
theorem Stuck.executeHead (stuck : book.Stuck) : ∃ after filled,
    book.executeHead seq false 0 0 qty out aggressor = .ok (after, filled, 0) ∧
    filled.remainingQty = out.remainingQty ∧
      after.Stuck := by
  obtain ⟨tick, lone, best, level, found, head⟩ := stuck
  have room : 0 < book.nodes.size := (Array.getElem?_eq_some_iff.mp lone.stored).1
  have levelLt : 0 < book.asks.levels.size := (Array.getElem?_eq_some_iff.mp found).1
  let lvl : Level := { level with totalQty := level.totalQty - 0 }
  have emptied : (book.withZero {} lvl).Lone {} 0 :=
    ⟨⟨lone.addressable.occupancy, lone.addressable.levels, lone.addressable.inside⟩,
      Array.getElem?_setIfInBounds_self_of_lt room, lone.apart, lone.place, lone.counted⟩
  obtain ⟨after, removed, vacated⟩ := emptied.remove (by decide) seq 0 .execute
  have used : ({} : Node).qty ≤ qty := UInt32.le_iff_toNat_le.mpr (Nat.zero_le qty.toNat)
  obtain ⟨filled, ran, remaining⟩ := executeHead_withZero aggressor out room levelLt used removed
  rw [withZero_self lone.stored found] at ran
  have asks : after.asks = (book.withZero {} lvl).asks := vacated.asks
  have ladder : SameLadder book (book.withZero {} lvl) := ⟨rfl, rfl, rfl, rfl⟩
  refine ⟨after, filled, ran, remaining, tick.of_same (ladder.trans vacated.ladder), vacated.lone,
    ?_, lvl, ?_, head⟩
  · rw [asks]
    exact best
  · rw [asks]
    exact Array.getElem?_setIfInBounds_self_of_lt levelLt

/-- Filling the ask that is linked to itself empties its slot and keeps its level. -/
theorem Cyclic.executeHead (cyclic : book.Cyclic ids) (enough : 1 ≤ qty) : ∃ after filled,
    book.executeHead seq false 0 0 qty out aggressor = .ok (after, filled, 1) ∧
    filled.remainingQty = out.remainingQty ∧
      after.Stuck := by
  obtain ⟨tick, bids, -, room, -, -, -, level, found, head, -, counted⟩ := cyclic.recycling
  obtain ⟨n, stored, prev, next, side, place, one⟩ := cyclic.slot
  have levelLt : 0 < book.asks.levels.size := (Array.getElem?_eq_some_iff.mp found).1
  have head := head (by decide)
  have isAsk : n.side.isBuy = false := by
    rw [side]
    rfl
  have proper : (0 : UInt32) ≠ kNull := by decide
  have several : (1 : UInt32) ≠ 0 := by decide
  have remains : (if level.count > 0 then level.count - 1 else level.count) = 1 := by
    rw [counted]
    decide
  let lvl : Level := {
    head := level.head, tail := level.tail
    totalQty := level.totalQty - n.qty - min (level.totalQty - n.qty) 0, count := 1 }
  let after : OrderBook :=
    { book.withZero {} lvl with index := book.index.erase n.orderId, free := 0 :: book.free }
  have removed : ∃ ev, (book.withZero { n with qty := 0 }
    { level with totalQty := level.totalQty - n.qty }).removeNode seq 0 0
      .execute = .ok (after, ev) := by
    refine ⟨{ seq, type := .execute, symbolId := book.symbolId, orderId := n.orderId
              accountId := n.accountId, side := n.side, price := n.price, qty := 0 }, ?_⟩
    simp only [removeNode, node_withZero room, exec_ok_bind, isAsk, place,
      levelFor_withZero levelLt, prev, next, ne_eq,
      proper, not_false_eq_true, ↓reduceIte, setNode_withZero room, remains, several,
      setLevel_withZero levelLt, freeNode_withZero room]
    rfl
  obtain ⟨ev, removed⟩ := removed
  have used : n.qty ≤ qty := by
    rw [one]
    exact enough
  obtain ⟨filled, ran, remaining⟩ := executeHead_withZero aggressor out room levelLt used removed
  rw [withZero_self stored found, one] at ran
  have lone : after.Lone {} 0 :=
    ⟨⟨⟨_, bids.occupancy⟩, bids.levels, tick.inside⟩,
      Array.getElem?_setIfInBounds_self_of_lt room, ⟨rfl, rfl⟩, ⟨rfl, rfl⟩, bids.empty⟩
  exact ⟨after, filled, ran, remaining, ⟨tick.minPrice, tick.maxPrice, tick.levelCount⟩, lone,
    cyclic.best, lvl, Array.getElem?_setIfInBounds_self_of_lt levelLt, head⟩

/-- One round of matching against the one ask level. -/
theorem matchLoop_round {fuel : Nat} {level : Level} {after : OrderBook} {filled : MatchOutput}
    {done : Qty} (tick : book.AtOne) (best : book.asks.bestIdx = some 0)
    (found : book.asks.levels[0]? = some level) (head : level.head = 0)
    (unfilled : 0 < out.remainingQty)
    (ran : book.executeHead seq false 0 0 out.remainingQty out aggressor =
      .ok (after, filled, done)) :
    matchLoop seq aggressor .buy 1 (fuel + 1) book out =
      matchLoop seq aggressor .buy 1 fuel after
        { filled with remainingQty := filled.remainingQty - done } := by
  have asks : (book.half !Side.buy.isBuy).bestIdx = some 0 := best
  have readLevel : book.levelFor (!Side.buy.isBuy) 0 = .ok level := levelFor_of_getElem? found
  rw [matchLoop, tick.crosses best, decide_eq_true unfilled, Bool.and_self, if_pos rfl, asks]
  dsimp only
  rw [readLevel, exec_ok_bind, head, show (!Side.buy.isBuy) = false from rfl, ran, exec_ok_bind]

/-- Matching against an emptied slot does not end. -/
theorem Stuck.diverges (stuck : book.Stuck) (unfilled : 0 < out.remainingQty) (fuel : Nat) :
    matchLoop seq aggressor .buy 1 fuel book out = .error .divergence := by
  induction fuel generalizing book out with
  | zero =>
      rw [matchLoop, stuck.tick.crosses stuck.best, decide_eq_true unfilled]
      rfl
  | succ fuel ih =>
      obtain ⟨level, found, head⟩ := stuck.head
      obtain ⟨after, filled, ran, remaining, still⟩ := stuck.executeHead
      rw [matchLoop_round stuck.tick stuck.best found head unfilled ran]
      refine ih still ?_
      rw [remaining, UInt32.sub_zero]
      exact unfilled

/-- An order of two lots against the ask that is linked to itself is never answered. -/
theorem Cyclic.matching_diverges (cyclic : book.Cyclic ids) (fuel : Nat) :
    matchLoop seq aggressor .buy 1 fuel book { remainingQty := 2 } = .error .divergence := by
  have tick := cyclic.recycling.tick
  have unfilled : (0 : Qty) < ({ remainingQty := 2 } : MatchOutput).remainingQty := by decide
  cases fuel with
  | zero =>
      rw [matchLoop, tick.crosses cyclic.best, decide_eq_true unfilled]
      rfl
  | succ fuel =>
      obtain ⟨level, found, head, -⟩ := cyclic.recycling.level
      have enough : (1 : Qty) ≤ ({ remainingQty := 2 } : MatchOutput).remainingQty := by decide
      obtain ⟨after, filled, ran, remaining, stuck⟩ := cyclic.executeHead enough
      rw [matchLoop_round tick cyclic.best found (head (by decide)) unfilled ran]
      have left : 0 < filled.remainingQty - 1 := by
        rw [remaining]
        decide
      exact stuck.diverges left fuel

/-- Nor does `add_order` return with it. -/
theorem Cyclic.addOrder_diverges (cyclic : book.Cyclic ids) (bound : ids + 1 < 2 ^ 64)
    (account : AccountId) (tif : TimeInForce) :
    book.addOrder seq (UInt64.ofNat (ids + 1)) account .buy 1 2 tif = .error .divergence := by
  have isFresh : book.contains (UInt64.ofNat (ids + 1)) = false :=
    contains_eq_false.mpr (cyclic.recycling.fresh _ (Nat.lt_succ_self ids) bound)
  have positive : (2 : Qty) ≠ 0 := by decide
  rw [addOrder, if_neg positive, cyclic.recycling.tick.inBand, isFresh]
  simp only [Bool.not_true, Bool.false_eq_true, ↓reduceIte, cyclic.matching_diverges]
  rfl

end

end

end Exsim.Core.OrderBook
