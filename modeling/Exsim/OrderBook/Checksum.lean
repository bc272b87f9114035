import Exsim.Data.Scan
import Exsim.OrderBook.Fifo

/-! # The checksum of a book

The checksum folds `hash_combine` over the words its walk meets.  The scans over
the bitmaps visit the levels with orders, bids from the highest and asks from the
lowest, and the walk of a level meets its queue.  So the checksum always returns,
and depends on nothing but the ladder, the stored totals and the queues.
-/

namespace Exsim.Core.OrderBook

open Data

/-- One order of a queue. -/
def hashOrder (h : UInt64) (order : RestingOrderView) : UInt64 :=
  hashWords h [order.orderId, order.accountId.toUInt64, order.qty.toUInt64]

/-- One level with its queue. -/
def hashQueue (book : OrderBook) (isBuy : Bool) (h : UInt64) (i : Nat) : UInt64 :=
  (book.fifo isBuy i).foldl hashOrder
    (hashWords h [(book.indexToPrice (UInt32.ofNat i)).toUInt64, (book.total isBuy i).toUInt64])

def occupied (book : OrderBook) (isBuy : Bool) (i : Nat) : Bool := book.fifo isBuy i ≠ []

/-- The checksum, read off the queues. -/
def digest (book : OrderBook) : UInt64 :=
  (above (book.occupied false) book.levelCount.toNat 0).foldl (book.hashQueue false)
    ((below (book.occupied true) book.levelCount.toNat).foldl (book.hashQueue true)
      (hashCombine 0x45584348424f4f4b book.symbolId.toUInt64))

/-- `hashNodes`, with the words in place of the hash. -/
def nodeWords (book : OrderBook) : Nat → UInt32 → Exec (List UInt64)
  | fuel, slot =>
      if slot = kNull then .ok []
      else match fuel with
        | 0 => .error .divergence
        | fuel + 1 => do
            let n ← book.node slot
            let words ← nodeWords book fuel n.next
            .ok ([n.orderId, n.accountId.toUInt64, n.qty.toUInt64] ++ words)

def levelWords (book : OrderBook) (isBuy : Bool) (idx : UInt32) : Exec (List UInt64) := do
  let level ← book.levelFor isBuy idx
  let words ← book.nodeWords book.nodes.size level.head
  .ok ([(book.indexToPrice idx).toUInt64, level.totalQty.toUInt64] ++ words)

def bidWords (book : OrderBook) : Nat → Option UInt32 → Exec (List UInt64)
  | _, none => .ok []
  | 0, some _ => .error .divergence
  | fuel + 1, some idx => do
      let words ← book.levelWords true idx
      if idx = 0 then .ok words
      else
        let next ← book.nextLowerBid idx.toNat
        let lower ← bidWords book fuel next
        .ok (words ++ lower)

def askWords (book : OrderBook) : Nat → Option UInt32 → Exec (List UInt64)
  | _, none => .ok []
  | 0, some _ => .error .divergence
  | fuel + 1, some idx => do
      let words ← book.levelWords false idx
      let next ← book.nextHigherAsk (book.levelCount.toNat - (idx.toNat + 1)) (idx.toNat + 1)
      let higher ← askWords book fuel next
      .ok (words ++ higher)

/-- The words that `checksum` passes to `hash_combine`, in their order. -/
def checksumWords (book : OrderBook) : Exec (List UInt64) := do
  let levels := book.levelCount.toNat
  let bids ← book.bidWords levels (BookSide.findHighestOccupied book.bids.bitmap book.levelCount)
  let asks ← book.askWords levels (BookSide.findLowestOccupied book.asks.bitmap book.levelCount)
  .ok (book.symbolId.toUInt64 :: (bids ++ asks))

/-- The words of one order of a queue. -/
def orderWords (order : RestingOrderView) : List UInt64 :=
  [order.orderId, order.accountId.toUInt64, order.qty.toUInt64]

/-- The words of one level with its queue. -/
def queueWords (book : OrderBook) (isBuy : Bool) (i : Nat) : List UInt64 :=
  [(book.indexToPrice (UInt32.ofNat i)).toUInt64, (book.total isBuy i).toUInt64] ++
    (book.fifo isBuy i).flatMap orderWords

/-- The words of a book, read off the queues. -/
def bookWords (book : OrderBook) : List UInt64 :=
  book.symbolId.toUInt64 ::
    ((below (book.occupied true) book.levelCount.toNat).flatMap (book.queueWords true) ++
      (above (book.occupied false) book.levelCount.toNat 0).flatMap (book.queueWords false))

section

variable (book : OrderBook)

theorem hashNodes_eq (fuel : Nat) (h : UInt64) (slot : UInt32) :
    book.hashNodes fuel h slot = (book.nodeWords fuel slot).map (hashWords h) := by
  induction fuel generalizing h slot with
  | zero =>
      rw [hashNodes, nodeWords]
      split <;> rfl
  | succ fuel ih =>
      rw [hashNodes, nodeWords]
      split
      · rfl
      · cases book.node slot with
        | error fault => rfl
        | ok n =>
            rw [exec_ok_bind, exec_ok_bind]
            dsimp only
            rw [ih]
            cases book.nodeWords fuel n.next <;> rfl

theorem hashLevel_eq (isBuy : Bool) (h : UInt64) (idx : UInt32) :
    book.hashLevel isBuy h idx = (book.levelWords isBuy idx).map (hashWords h) := by
  rw [hashLevel, levelWords]
  cases book.levelFor isBuy idx with
  | error fault => rfl
  | ok level =>
      rw [exec_ok_bind, exec_ok_bind]
      dsimp only
      rw [hashNodes_eq]
      cases book.nodeWords book.nodes.size level.head <;> rfl

theorem hashBids_eq (fuel : Nat) (h : UInt64) (idx : Option UInt32) :
    book.hashBids fuel h idx = (book.bidWords fuel idx).map (hashWords h) := by
  induction fuel generalizing h idx with
  | zero => cases idx <;> rfl
  | succ fuel ih =>
      cases idx with
      | none => rfl
      | some idx =>
          rw [hashBids, bidWords, hashLevel_eq]
          cases book.levelWords true idx with
          | error fault => rfl
          | ok words =>
              rw [exec_ok_bind, Except.map, exec_ok_bind]
              split
              · rfl
              · cases book.nextLowerBid idx.toNat with
                | error fault => rfl
                | ok next =>
                    rw [exec_ok_bind, exec_ok_bind, ih]
                    cases book.bidWords fuel next with
                    | error fault => rfl
                    | ok lower => exact congrArg Except.ok (hashWords_append h words lower).symm

theorem hashAsks_eq (fuel : Nat) (h : UInt64) (idx : Option UInt32) :
    book.hashAsks fuel h idx = (book.askWords fuel idx).map (hashWords h) := by
  induction fuel generalizing h idx with
  | zero => cases idx <;> rfl
  | succ fuel ih =>
      cases idx with
      | none => rfl
      | some idx =>
          rw [hashAsks, askWords, hashLevel_eq]
          cases book.levelWords false idx with
          | error fault => rfl
          | ok words =>
              rw [exec_ok_bind, Except.map, exec_ok_bind]
              cases book.nextHigherAsk (book.levelCount.toNat - (idx.toNat + 1))
                (idx.toNat + 1) with
              | error fault => rfl
              | ok next =>
                  rw [exec_ok_bind, exec_ok_bind, ih]
                  cases book.askWords fuel next with
                  | error fault => rfl
                  | ok higher => exact congrArg Except.ok (hashWords_append h words higher).symm

/-- The checksum is the fold of `hash_combine` over its words, and fails as their walk does. -/
theorem checksum_eq : book.checksum = book.checksumWords.map (hashWords 0x45584348424f4f4b) := by
  rw [checksum, checksumWords, hashBids_eq]
  cases book.bidWords book.levelCount.toNat
    (BookSide.findHighestOccupied book.bids.bitmap book.levelCount) with
  | error fault => rfl
  | ok bids =>
      rw [Except.map, exec_ok_bind, exec_ok_bind, hashAsks_eq]
      cases book.askWords book.levelCount.toNat
        (BookSide.findLowestOccupied book.asks.bitmap book.levelCount) with
      | error fault => rfl
      | ok asks => exact congrArg Except.ok (hashWords_append _ bids asks).symm

theorem hashQueue_eq (isBuy : Bool) (h : UInt64) (i : Nat) :
    book.hashQueue isBuy h i = hashWords h (book.queueWords isBuy i) := by
  rw [hashQueue, queueWords, hashWords_append, hashWords_flatMap]
  rfl

theorem digest_eq_hashWords : book.digest = hashWords 0x45584348424f4f4b book.bookWords := by
  have levels : ∀ isBuy h (indices : List Nat),
      indices.foldl (book.hashQueue isBuy) h =
        hashWords h (indices.flatMap (book.queueWords isBuy)) := by
    intro isBuy h indices
    rw [hashWords_flatMap]
    exact List.foldl_ext _ _ _ fun h i _ => book.hashQueue_eq isBuy h i
  rw [digest, bookWords, levels, levels, hashWords_cons, hashWords_append]

end

section

variable {book other : OrderBook} {queues : Queues} {ref : ArrivalBook} {isBuy : Bool} {i : Nat}

/-- Books on one ladder that refine the same list with the same totals have the same digest. -/
theorem Refines.digest_eq (left : book.Refines ref) (right : other.Refines ref)
    (same : SameLadder book other) (totals : other.total = book.total) :
    other.digest = book.digest := by
  have fifo := left.fifo_eq right same
  have queues : other.hashQueue = book.hashQueue := by
    funext isBuy h i
    rw [hashQueue, hashQueue, fifo, totals, OrderBook.indexToPrice, OrderBook.indexToPrice,
      same.minPrice]
  have levels : other.occupied = book.occupied := by
    funext isBuy i
    rw [occupied, occupied, fifo]
  rw [digest, digest, queues, levels, same.symbolId, same.levelCount]

/-- Exact totals of the same orders are the same. -/
theorem Exact.total_eq (left : book.Exact ref) (right : other.Exact ref)
    (same : SameLadder book other) :
    other.total = book.total := by
  funext isBuy i
  apply UInt32.toNat_inj.mp
  rw [left isBuy i, right isBuy i, same.restingQty]

theorem nodeWords_spec {before : UInt32} {slots : List UInt32} {fuel : Nat}
    (linked : Linked book.links before slots kNull)
    (proper : kNull ∉ slots) (enough : slots.length ≤ fuel) :
    book.nodeWords fuel (slots.headD kNull) =
      .ok ((slots.filterMap book.orderAt).flatMap orderWords) := by
  induction slots generalizing before fuel with
  | nil => cases fuel <;> rfl
  | cons slot rest ih =>
      obtain ⟨here, tail⟩ := linked
      rw [List.mem_cons, not_or] at proper
      cases fuel with
      | zero => cases enough
      | succ fuel =>
          rw [links, Option.map_eq_some_iff] at here
          obtain ⟨n, found, pointers⟩ := here
          have following : n.next = rest.headD kNull := congrArg Prod.snd pointers
          rw [List.headD_cons, nodeWords, if_neg (Ne.symm proper.1), node_of_getElem? found,
            exec_ok_bind, following, ih tail proper.2 (Nat.le_of_succ_le_succ enough),
            List.filterMap_cons_some (orderAt_of_getElem? found), List.flatMap_cons]
          rfl

namespace Mirrors

variable (mirrors : book.Mirrors queues ref)

include mirrors

theorem levelWords {idx : UInt32} (inside : idx.toNat < book.levelCount.toNat) :
    book.levelWords isBuy idx = .ok (book.queueWords isBuy idx.toNat) := by
  obtain ⟨level, found⟩ := mirrors.rep.level_exists isBuy inside
  have head := (mirrors.rep.level isBuy idx.toNat level found).1
  have total : book.total isBuy idx.toNat = level.totalQty := by
    rw [OrderBook.total, found]
  rw [OrderBook.levelWords, levelFor_of_getElem? found, exec_ok_bind, head,
    nodeWords_spec (mirrors.rep.linked isBuy idx.toNat)
      (fun member => mirrors.rep.slot_ne_null member rfl)
    (mirrors.rep.length_le isBuy idx.toNat), queueWords, OrderBook.fifo,
    mirrors.rep.slotsAt isBuy inside, UInt32.ofNat_toNat, total]
  rfl

theorem testBit_eq (isBuy : Bool) (i : Nat) :
    testBit (book.half isBuy).bitmap i = book.occupied isBuy i := by
  rw [Bool.eq_iff_iff, (mirrors.rep.occupancy isBuy).bits, occupied, decide_eq_true_iff]
  by_cases inside : i < book.levelCount.toNat
  · have length := congrArg List.length (mirrors.queue isBuy i)
    rw [List.length_map, List.length_map, ← mirrors.fifo isBuy inside] at length
    rw [← List.length_pos_iff, ← List.length_pos_iff, length]
  · rw [mirrors.fifo_beyond isBuy inside]
    exact ⟨fun queued => absurd ((mirrors.rep.occupancy isBuy).inside i queued) inside,
      fun impossible => absurd rfl impossible⟩

theorem hasBit (isBuy : Bool) (inside : i < book.levelCount.toNat) :
    (book.half isBuy).hasBit (UInt32.ofNat i) = .ok (book.occupied isBuy i) := by
  have limit := book.levelCount.toNat_lt
  have value : (UInt32.ofNat i).toNat = i := by
    rw [UInt32.toNat_ofNat', Nat.mod_eq_of_lt (by omega)]
  rw [BookSide.hasBit_spec (mirrors.rep.occupancy isBuy) (by rw [value]; exact inside), value,
    mirrors.testBit_eq]

theorem occupied_inside (found : book.occupied isBuy i = true) : i < book.levelCount.toNat := by
  by_contra beyond
  rw [occupied, mirrors.fifo_beyond isBuy beyond] at found
  exact absurd found (by decide)

theorem nextLowerBid {n : Nat} (inside : n ≤ book.levelCount.toNat) :
    book.nextLowerBid n = .ok ((below (book.occupied true) n).head?.map UInt32.ofNat) := by
  induction n with
  | zero => rfl
  | succ n ih =>
      have bit : book.bids.hasBit (UInt32.ofNat n) = _ := mirrors.hasBit true inside
      rw [OrderBook.nextLowerBid, bit, exec_ok_bind]
      by_cases here : book.occupied true n = true
      · rw [if_pos here, below_of_occupied here]
        rfl
      · rw [if_neg here, below_of_empty (Bool.eq_false_iff.mpr here)]
        exact ih (Nat.le_of_succ_le inside)

theorem nextHigherAsk {count start : Nat} (inside : start + count ≤ book.levelCount.toNat) :
    book.nextHigherAsk count start =
      .ok ((above (book.occupied false) count start).head?.map UInt32.ofNat) := by
  induction count generalizing start with
  | zero => rfl
  | succ count ih =>
      have bit : book.asks.hasBit (UInt32.ofNat start) = _ := mirrors.hasBit false (by omega)
      rw [OrderBook.nextHigherAsk, bit, exec_ok_bind]
      by_cases here : book.occupied false start = true
      · rw [if_pos here, above_of_occupied here]
        rfl
      · rw [if_neg here, above_of_empty (Bool.eq_false_iff.mpr here)]
        exact ih (by omega)

theorem bidWords {n fuel : Nat} (inside : n ≤ book.levelCount.toNat) (enough : n ≤ fuel) :
    book.bidWords fuel ((below (book.occupied true) n).head?.map UInt32.ofNat) =
      .ok ((below (book.occupied true) n).flatMap (book.queueWords true)) := by
  induction n generalizing fuel with
  | zero => cases fuel <;> rfl
  | succ n ih =>
      by_cases here : book.occupied true n = true
      · have limit := book.levelCount.toNat_lt
        have value : (UInt32.ofNat n).toNat = n := by
          rw [UInt32.toNat_ofNat', Nat.mod_eq_of_lt (by omega)]
        have isZero : UInt32.ofNat n = 0 ↔ n = 0 := by
          rw [← UInt32.toNat_inj, value, UInt32.toNat_zero]
        cases fuel with
        | zero => cases enough
        | succ fuel =>
            rw [below_of_occupied here, List.head?_cons, Option.map_some, OrderBook.bidWords,
              mirrors.levelWords (by rw [value]; exact inside), exec_ok_bind, value,
              List.flatMap_cons]
            by_cases lowest : n = 0
            · rw [if_pos (isZero.mpr lowest), lowest]
              exact congrArg Except.ok (List.append_nil _).symm
            · rw [if_neg (mt isZero.mp lowest), mirrors.nextLowerBid (Nat.le_of_succ_le inside),
                exec_ok_bind, ih (Nat.le_of_succ_le inside) (Nat.le_of_succ_le_succ enough)]
              rfl
      · rw [below_of_empty (Bool.eq_false_iff.mpr here)]
        exact ih (Nat.le_of_succ_le inside) (Nat.le_of_succ_le enough)

theorem askWords {count start fuel : Nat} (inside : start + count = book.levelCount.toNat)
    (enough : count ≤ fuel) :
    book.askWords fuel ((above (book.occupied false) count start).head?.map UInt32.ofNat) =
      .ok ((above (book.occupied false) count start).flatMap (book.queueWords false)) := by
  induction count generalizing start fuel with
  | zero => cases fuel <;> rfl
  | succ count ih =>
      by_cases here : book.occupied false start = true
      · have limit := book.levelCount.toNat_lt
        have value : (UInt32.ofNat start).toNat = start := by
          rw [UInt32.toNat_ofNat', Nat.mod_eq_of_lt (by omega)]
        have left : book.levelCount.toNat - (start + 1) = count := by omega
        cases fuel with
        | zero => cases enough
        | succ fuel =>
            rw [above_of_occupied here, List.head?_cons, Option.map_some, OrderBook.askWords,
              mirrors.levelWords (by rw [value]; omega), exec_ok_bind, value, left,
              List.flatMap_cons, mirrors.nextHigherAsk (by omega), exec_ok_bind,
              ih (by omega) (Nat.le_of_succ_le_succ enough)]
            rfl
      · rw [above_of_empty (Bool.eq_false_iff.mpr here)]
        exact ih (by omega) (Nat.le_of_succ_le enough)

theorem findHighestOccupied : BookSide.findHighestOccupied book.bids.bitmap book.levelCount =
    (below (book.occupied true) book.levelCount.toNat).head?.map UInt32.ofNat := by
  have bits : ∀ i, testBit book.bids.bitmap i = book.occupied true i := mirrors.testBit_eq true
  have inside : ∀ i, testBit book.bids.bitmap i = true → i < book.levelCount.toNat := fun i set =>
    mirrors.occupied_inside (bits i ▸ set)
  obtain ⟨missing, hit⟩ := BookSide.findHighestOccupied_spec inside
  cases found : BookSide.findHighestOccupied book.bids.bitmap book.levelCount with
  | none => rw [below_eq_nil fun i => bits i ▸ missing found i]; rfl
  | some idx =>
      obtain ⟨set, highest⟩ := hit idx found
      rw [bits] at set
      rw [head?_below (mirrors.occupied_inside set) set fun j other => highest j (bits j ▸ other),
        Option.map_some, UInt32.ofNat_toNat]

theorem findLowestOccupied : BookSide.findLowestOccupied book.asks.bitmap book.levelCount =
    (above (book.occupied false) book.levelCount.toNat 0).head?.map UInt32.ofNat := by
  have bits : ∀ i, testBit book.asks.bitmap i = book.occupied false i := mirrors.testBit_eq false
  have inside : ∀ i, testBit book.asks.bitmap i = true → i < book.levelCount.toNat := fun i set =>
    mirrors.occupied_inside (bits i ▸ set)
  obtain ⟨missing, hit⟩ := BookSide.findLowestOccupied_spec inside
  cases found : BookSide.findLowestOccupied book.asks.bitmap book.levelCount with
  | none => rw [above_eq_nil fun i => bits i ▸ missing found i]; rfl
  | some idx =>
      obtain ⟨set, lowest⟩ := hit idx found
      rw [bits] at set
      have inside := mirrors.occupied_inside set
      rw [head?_above (Nat.zero_le _) (by omega) set fun j other => lowest j (bits j ▸ other),
        Option.map_some, UInt32.ofNat_toNat]

/-- The walk of a book that represents its orders meets the words of its queues. -/
theorem checksumWords : book.checksumWords = .ok book.bookWords := by
  rw [OrderBook.checksumWords, mirrors.findHighestOccupied, mirrors.findLowestOccupied,
    mirrors.bidWords (Nat.le_refl _) (Nat.le_refl _), exec_ok_bind,
    mirrors.askWords (Nat.zero_add _) (Nat.le_refl _), bookWords]
  rfl

end Mirrors

theorem Refines.checksumWords (refines : book.Refines ref) :
    book.checksumWords = .ok book.bookWords := by
  obtain ⟨queues, mirrors⟩ := refines
  exact mirrors.checksumWords

theorem Refines.checksum (refines : book.Refines ref) : book.checksum = .ok book.digest := by
  rw [checksum_eq, refines.checksumWords, digest_eq_hashWords]
  rfl

end

end Exsim.Core.OrderBook
