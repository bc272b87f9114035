import Exsim.OrderBook.Checksum
import Exsim.OrderBook.Cycle
import Exsim.OrderBook.Explained

/-! # What the checksum covers

The contents of a book are its levels with orders, best price first, each with
its stored total and its queue.  The checksum is the fold of `hash_combine` over
them, whatever slots hold the orders.
-/

namespace Exsim.Core

open Data

/-- What the checksum reads of an order in a queue. -/
structure QueueEntry where
  orderId : OrderId
  accountId : AccountId
  qty : Qty
deriving DecidableEq, Repr

structure LevelView where
  price : Price
  totalQty : Qty
  queue : List QueueEntry
deriving DecidableEq, Repr

def QueueEntry.words (entry : QueueEntry) : List UInt64 :=
  [entry.orderId, entry.accountId.toUInt64, entry.qty.toUInt64]

def LevelView.words (level : LevelView) : List UInt64 :=
  [level.price.toUInt64, level.totalQty.toUInt64] ++ level.queue.flatMap QueueEntry.words

def viewEntry (order : RestingOrderView) : QueueEntry :=
  { orderId := order.orderId, accountId := order.accountId, qty := order.qty }

namespace OrderBook

/-- The levels of a side with orders: bids from the highest, asks from the lowest. -/
def occupiedLevels (book : OrderBook) : Bool → List Nat
  | true => (List.range book.levelCount.toNat).reverse.filter (book.occupied true)
  | false => (List.range book.levelCount.toNat).filter (book.occupied false)

theorem mem_occupiedLevels {book : OrderBook} {isBuy : Bool} {i : Nat} :
    i ∈ book.occupiedLevels isBuy ↔ i < book.levelCount.toNat ∧ book.occupied isBuy i = true := by
  cases isBuy with
  | true => rw [occupiedLevels, List.mem_filter, List.mem_reverse, List.mem_range]
  | false => rw [occupiedLevels, List.mem_filter, List.mem_range]

def levelView (book : OrderBook) (isBuy : Bool) (i : Nat) : LevelView where
  price := book.indexToPrice (UInt32.ofNat i)
  totalQty := book.total isBuy i
  queue := (book.fifo isBuy i).map viewEntry

def levels (book : OrderBook) (isBuy : Bool) : List LevelView :=
  (book.occupiedLevels isBuy).map (book.levelView isBuy)

section

variable {book fresh : OrderBook} {ref : ArrivalBook}

theorem words_levelView (isBuy : Bool) (i : Nat) :
    (book.levelView isBuy i).words = book.queueWords isBuy i := by
  rw [LevelView.words, levelView, queueWords, List.flatMap_map]
  rfl

theorem bookWords_eq : book.bookWords =
    book.symbolId.toUInt64 :: (book.levels true ++ book.levels false).flatMap LevelView.words := by
  have words : ∀ isBuy, (book.levels isBuy).flatMap LevelView.words =
      (book.occupiedLevels isBuy).flatMap (book.queueWords isBuy) := fun isBuy => by
    rw [levels, List.flatMap_map]
    exact congrArg (List.flatMap · _) (funext (words_levelView isBuy))
  rw [bookWords, below_eq_filter, above_eq_filter, ← List.range_eq_range', List.flatMap_append,
    words, words]
  rfl

theorem Refines.checksum_eq_levels (refines : book.Refines ref) : book.checksum =
    .ok (hashWords 0x45584348424f4f4b
      (book.symbolId.toUInt64 ::
        (book.levels true ++ book.levels false).flatMap LevelView.words)) := by
  rw [refines.checksum, digest_eq_hashWords, bookWords_eq]

/-- A run of calls on a new book keeps its symbol and refines some list. -/
theorem run_call_refines {symbolId : SymbolId} {ladder : PriceLadderConfig} {calls : List BookCall}
    (created : OrderBook.create symbolId ladder = .ok fresh)
    (room : Along OrderBook.call (fun book _ => book.stats.liveOrders < 2 ^ 32 - 1) fresh calls) :
    ∃ after answers ref, run OrderBook.call fresh calls = .ok (after, answers) ∧
    after.symbolId = symbolId ∧ after.Refines ref := by
  obtain ⟨after, ran, ladder, tracks⟩ := run_call_tracks created room
  obtain ⟨-, symbol, -⟩ := create_ok created
  exact ⟨after, _, _, ran, ladder.symbolId.trans symbol, tracks.1⟩

/-- While fewer than `2^32 - 1` orders rest before each call, the checksum
returns the fold of `hash_combine` over the symbol and every level with orders,
bids from the highest and then asks from the lowest.  So books of one symbol with
the same levels have the same checksum, whatever calls led to them. -/
theorem checksum_complete {symbolId : SymbolId} {ladder otherLadder : PriceLadderConfig}
    {fresh other : OrderBook} {calls others : List BookCall}
    (created : OrderBook.create symbolId ladder = .ok fresh)
    (room : Along OrderBook.call (fun book _ => book.stats.liveOrders < 2 ^ 32 - 1) fresh calls)
    (otherCreated : OrderBook.create symbolId otherLadder = .ok other)
    (otherRoom : Along OrderBook.call (fun book _ => book.stats.liveOrders < 2 ^ 32 - 1)
      other others) :
    ∃ left answers right otherAnswers, run OrderBook.call fresh calls = .ok (left, answers) ∧
      run OrderBook.call other others = .ok (right, otherAnswers) ∧
      left.checksum = .ok (hashWords 0x45584348424f4f4b
        (symbolId.toUInt64 :: (left.levels true ++ left.levels false).flatMap LevelView.words)) ∧
      ((∀ isBuy, right.levels isBuy = left.levels isBuy) → right.checksum = left.checksum) := by
  obtain ⟨left, answers, ref, ran, symbol, refines⟩ := run_call_refines created room
  obtain ⟨right, otherAnswers, otherRef, otherRan, otherSymbol, otherRefines⟩ :=
    run_call_refines otherCreated otherRoom
  have here := refines.checksum_eq_levels
  have there := otherRefines.checksum_eq_levels
  rw [symbol] at here
  rw [otherSymbol] at there
  refine ⟨left, answers, right, otherAnswers, ran, otherRan, here, fun same => ?_⟩
  rw [here, there, same, same]

/-- Two books that hold one order in different slots. -/
theorem checksum_complete_oneTick : ∃ left answers right otherAnswers,
    run OrderBook.call oneTick [.matching (.add 1 7 1 .buy 1 5 .gtc)] = .ok (left, answers) ∧
      run OrderBook.call oneTick
        [.feedAdd 9 1 .buy 1 4, .feedAdd 7 1 .buy 1 5, .matching (.cancel 3 9)] =
        .ok (right, otherAnswers) ∧
      left.checksum = .ok (hashWords 0x45584348424f4f4b
        ((1 : SymbolId).toUInt64 ::
          (left.levels true ++ left.levels false).flatMap LevelView.words)) ∧
      ((∀ isBuy, right.levels isBuy = left.levels isBuy) → right.checksum = left.checksum) :=
  checksum_complete oneTick_created (by decide +kernel) oneTick_created (by decide +kernel)

/-- After the calls that link an ask to itself, the checksum does not return: no
bound lets the walk of the ask level end. -/
theorem checksum_diverges_at_exhaustion :
    OrderBook.create 1 { minPrice := 1, maxPrice := 1 } = .ok oneTick ∧
    ∃ calls after answers, run OrderBook.call oneTick calls = .ok (after, answers) ∧
      after.checksum = .error .divergence ∧
      ∃ level, after.levelFor false 0 = .ok level ∧
      ∀ fuel h, after.hashNodes fuel h level.head = .error .divergence := by
  obtain ⟨k, -, after, answers, ran, cyclic⟩ := run_cyclic (rfl : kNull.toNat = kNull.toNat)
  obtain ⟨level, found, head, -⟩ := cyclic.recycling.level
  refine ⟨oneTick_created, _, after, _, run_matching ran, cyclic.checksum_diverges, level,
    levelFor_of_getElem? found, ?_⟩
  rw [head (by decide)]
  exact cyclic.walk_diverges

end

end OrderBook

end Exsim.Core
