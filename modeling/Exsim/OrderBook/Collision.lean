import Exsim.Data.Framing
import Exsim.OrderBook.Contents
import Exsim.OrderBook.Totals
import Exsim.OrderBook.Uncrossed

/-! # Which books have the same words

The words of a level show where it ends, since its total is the sum of the
quantities behind it.  They do not show its side: a bid level that stands where
the best ask level of another book stands is read the same.
-/

namespace Exsim.Core

open Data

/-- A level without its stored total. -/
structure LevelContent where
  price : Price
  queue : List QueueEntry
deriving DecidableEq, Repr

def LevelView.content (level : LevelView) : LevelContent :=
  { price := level.price, queue := level.queue }

theorem QueueEntry.words_injective : Function.Injective QueueEntry.words := by
  intro first second same
  obtain ⟨id, same⟩ := List.cons.inj same
  obtain ⟨account, same⟩ := List.cons.inj same
  obtain ⟨qty, -⟩ := List.cons.inj same
  cases first
  cases second
  simp only [QueueEntry.mk.injEq]
  exact ⟨id, UInt32.toUInt64_inj.mp account, UInt32.toUInt64_inj.mp qty⟩

theorem QueueEntry.words_splits : ∀ first second, Splits QueueEntry.words first second :=
  splits_of_width (fun entry => show entry.words.length = 3 from rfl) QueueEntry.words_injective

namespace LevelView

variable {level other : LevelView}

/-- Neither of two levels with one price and total goes on where the other ends. -/
def Delimited (level other : LevelView) : Prop :=
  level.price = other.price → level.totalQty = other.totalQty → level.queue <+: other.queue ∨
    other.queue <+: level.queue → level.queue = other.queue

/-- The words of a level show its price, its total, its queue and then its end. -/
theorem Delimited.splits (delimited : level.Delimited other) :
    Splits LevelView.words level other := by
  intro rest tail same
  change level.price.toUInt64 :: level.totalQty.toUInt64 ::
    (level.queue.flatMap QueueEntry.words ++ rest) =
    other.price.toUInt64 :: other.totalQty.toUInt64 ::
      (other.queue.flatMap QueueEntry.words ++ tail) at same
  obtain ⟨price, same⟩ := List.cons.inj same
  obtain ⟨total, same⟩ := List.cons.inj same
  have price : level.price = other.price := by
    rw [← level.price.toInt64_toUInt64, price, Int64.toInt64_toUInt64]
  have total := UInt32.toUInt64_inj.mp total
  have queue := delimited price total (prefixes_nested QueueEntry.words_splits same)
  rw [queue] at same
  refine ⟨?_, List.append_cancel_left same⟩
  cases level
  cases other
  simp only [LevelView.mk.injEq]
  exact ⟨price, total, queue⟩

/-- The total is the sum over the queue, in which every order has a quantity. -/
structure Proper (level : LevelView) : Prop where
  positive : ∀ entry ∈ level.queue, 0 < entry.qty.toNat
  exact : level.totalQty.toNat = (level.queue.map fun entry => entry.qty.toNat).sum

theorem Proper.delimited (proper : level.Proper) (otherProper : other.Proper) :
    level.Delimited other := by
  intro _ total queues
  have balanced : (level.queue.map fun entry => entry.qty.toNat).sum =
    (other.queue.map fun entry => entry.qty.toNat).sum := by
    rw [← proper.exact, ← otherProper.exact, total]
  obtain front | front := queues
  · exact eq_of_prefix_of_sum otherProper.positive front balanced
  · exact (eq_of_prefix_of_sum proper.positive front balanced.symm).symm

def Below (level other : LevelView) : Prop := level.price.toInt < other.price.toInt

theorem Below.asymm (level other : LevelView) (below : level.Below other) : ¬other.Below level :=
  Int.lt_asymm below

end LevelView

namespace OrderBook

/-- The levels of a side with their queues, best price first. -/
def listing (book : OrderBook) (isBuy : Bool) : List LevelContent :=
  (book.levels isBuy).map LevelView.content

/-- One book has no bids, and its best ask level reads as the only bid level of the other. -/
def Mistakable (book other : OrderBook) : Prop :=
  Shifted (book.levels true) (book.levels false) (other.levels true) (other.levels false)

/-- No level of one book has the price and the stored total of a level of the
other and a queue that breaks off where the other's goes on. -/
def Delimited (book other : OrderBook) : Prop :=
  ∀ isBuy otherIsBuy, ∀ level ∈ book.levels isBuy, ∀ otherLevel ∈ other.levels otherIsBuy,
    level.Delimited otherLevel

section

variable {book other fresh : OrderBook} {queues : Queues} {ref otherRef : ArrivalBook}
  {isBuy : Bool} {i : Nat}

theorem Mistakable.bids_ne (mistaken : book.Mistakable other) :
    book.listing true ≠ other.listing true := by
  obtain ⟨none, level, one, -⟩ := mistaken
  rw [listing, listing, none, one]
  exact (List.cons_ne_nil level.content []).symm

theorem mem_levels {level : LevelView} : level ∈ book.levels isBuy ↔
    ∃ i ∈ book.occupiedLevels isBuy, book.levelView isBuy i = level := List.mem_map

/-- The levels of a book that represents sound orders are proper if its totals are exact. -/
theorem Mirrors.proper (mirrors : book.Mirrors queues ref) (sound : ref.Sound)
    (exact : book.TotalsExact) {level : LevelView} (member : level ∈ book.levels isBuy) :
    level.Proper := by
  obtain ⟨i, occupied, rfl⟩ := mem_levels.mp member
  have inside := (mem_occupiedLevels.mp occupied).1
  constructor
  · intro entry queued
    obtain ⟨order, held, rfl⟩ := List.mem_map.mp queued
    rw [mirrors.fifo isBuy inside] at held
    exact Nat.pos_of_ne_zero fun zero =>
      sound.positive order (List.mem_of_mem_filter held) (UInt32.toNat_inj.mp zero)
  · rw [levelView, List.map_map]
    exact exact isBuy i

theorem Tracks.delimited (left : book.Tracks ref) (right : other.Tracks otherRef)
    (exact : book.TotalsExact) (otherExact : other.TotalsExact) : book.Delimited other := by
  obtain ⟨⟨queues, mirrors⟩, sound⟩ := left
  obtain ⟨⟨otherQueues, otherMirrors⟩, otherSound⟩ := right
  intro isBuy otherIsBuy level member otherLevel otherMember
  exact (mirrors.proper sound exact member).delimited
    (otherMirrors.proper otherSound otherExact otherMember)

theorem Mirrors.price_listed (mirrors : book.Mirrors queues ref)
    (inside : i < book.levelCount.toNat) :
    (book.levelView isBuy i).price.toInt = book.minPrice.toInt + i := by
  have limit := book.levelCount.toNat_lt
  have value : (UInt32.ofNat i).toNat = i := by
    rw [UInt32.toNat_ofNat', Nat.mod_eq_of_lt (by omega)]
  have place := mirrors.rep.ladder.indexToPrice_toInt
    (show (UInt32.ofNat i).toNat < book.levelCount.toNat by rw [value]; exact inside)
  rw [value] at place
  exact place

/-- A level with orders has the price of an order that rests. -/
theorem Mirrors.order_listed (mirrors : book.Mirrors queues ref)
    (occupied : i ∈ book.occupiedLevels isBuy) :
    ∃ order ∈ ref.orders, order.side.isBuy = isBuy ∧
    order.price.toInt = book.minPrice.toInt + i := by
  obtain ⟨inside, occupied⟩ := mem_occupiedLevels.mp occupied
  obtain ⟨order, queued⟩ := List.exists_mem_of_ne_nil _ (of_decide_eq_true occupied)
  rw [mirrors.fifo isBuy inside] at queued
  obtain ⟨held, here⟩ := List.mem_filter.mp queued
  obtain ⟨side, level⟩ := atLevel_iff.mp here
  refine ⟨order, held, side, ?_⟩
  rw [price_eq (mirrors.inBand order held), level]

/-- Bids are listed from the highest price, asks from the lowest, and every bid
is below every ask. -/
theorem Mirrors.spread (mirrors : book.Mirrors queues ref) (uncrossed : ref.Uncrossed) :
    Spread LevelView.Below (book.levels true) (book.levels false) := by
  have ordered : ∀ {isBuy i j}, i ∈ book.occupiedLevels isBuy →
      j ∈ book.occupiedLevels isBuy → i < j → (book.levelView isBuy i).price.toInt <
        (book.levelView isBuy j).price.toInt := by
    intro isBuy i j first second less
    rw [mirrors.price_listed (mem_occupiedLevels.mp first).1,
      mirrors.price_listed (mem_occupiedLevels.mp second).1]
    omega
  constructor
  · rw [levels, List.pairwise_map]
    have falls : (book.occupiedLevels true).Pairwise fun i j => j < i :=
      (List.pairwise_reverse.mpr List.pairwise_lt_range).filter _
    exact falls.imp_of_mem fun first second less => ordered second first less
  · rw [levels, List.pairwise_map]
    have rises : (book.occupiedLevels false).Pairwise fun i j => i < j :=
      List.pairwise_lt_range.filter _
    exact rises.imp_of_mem fun first second less => ordered first second less
  · intro below low above high
    obtain ⟨i, lowLevel, rfl⟩ := mem_levels.mp low
    obtain ⟨j, highLevel, rfl⟩ := mem_levels.mp high
    obtain ⟨bid, bidHeld, bidSide, bidPrice⟩ := mirrors.order_listed lowLevel
    obtain ⟨ask, askHeld, askSide, askPrice⟩ := mirrors.order_listed highLevel
    have apart := Int64.lt_iff_toInt_lt.mp (uncrossed bid bidHeld ask askHeld bidSide askSide)
    rw [LevelView.Below, mirrors.price_listed (mem_occupiedLevels.mp lowLevel).1,
      mirrors.price_listed (mem_occupiedLevels.mp highLevel).1,
      ← bidPrice, ← askPrice]
    exact apart

/-- Uncrossed books of one symbol whose levels show their ends have the same
words exactly if they have the same levels, or one can be mistaken for the other. -/
theorem bookWords_eq_iff (left : book.Refines ref) (right : other.Refines otherRef)
    (symbol : other.symbolId = book.symbolId) (leftUncrossed : ref.Uncrossed)
    (rightUncrossed : otherRef.Uncrossed) (delimited : book.Delimited other) :
    book.bookWords = other.bookWords ↔
      (∀ isBuy, book.levels isBuy = other.levels isBuy) ∨ book.Mistakable other ∨
      other.Mistakable book := by
  obtain ⟨queues, mirrors⟩ := left
  obtain ⟨otherQueues, otherMirrors⟩ := right
  have splits : ∀ level ∈ book.levels true ++ book.levels false,
      ∀ otherLevel ∈ other.levels true ++ other.levels false,
      Splits LevelView.words level otherLevel := by
    intro level member otherLevel otherMember
    have held : ∃ isBuy, level ∈ book.levels isBuy :=
      (List.mem_append.mp member).elim (⟨true, ·⟩) (⟨false, ·⟩)
    have otherHeld : ∃ isBuy, otherLevel ∈ other.levels isBuy :=
      (List.mem_append.mp otherMember).elim (⟨true, ·⟩) (⟨false, ·⟩)
    obtain ⟨isBuy, held⟩ := held
    obtain ⟨otherIsBuy, otherHeld⟩ := otherHeld
    exact (delimited isBuy otherIsBuy level held otherLevel otherHeld).splits
  have read : book.bookWords = other.bookWords ↔
      book.levels true ++ book.levels false = other.levels true ++ other.levels false := by
    rw [bookWords_eq, bookWords_eq, symbol]
    constructor
    · exact fun same => flatMap_inj (fun _ => List.cons_ne_nil _ _) splits (List.cons.inj same).2
    · intro same
      rw [same]
  rw [read, (mirrors.spread leftUncrossed).append_eq_iff LevelView.Below.asymm
    (otherMirrors.spread rightUncrossed), Bool.forall_bool, and_comm]
  rfl

/-- While fewer than `2^32 - 1` orders rest before each call, the words of two
books on one ladder identify their levels and queues unless one book can be
mistaken for the other, where the levels show their ends; exact totals show them. -/
theorem checksumWords_identify {symbolId : SymbolId} {ladder : PriceLadderConfig}
    {fresh left right : OrderBook} {calls otherCalls : List MatchCall}
    {answers otherAnswers : List MatchAnswer}
    (created : OrderBook.create symbolId ladder = .ok fresh)
    (room : Along matchCall (fun book _ => book.stats.liveOrders < 2 ^ 32 - 1) fresh calls)
    (otherRoom : Along matchCall (fun book _ => book.stats.liveOrders < 2 ^ 32 - 1)
      fresh otherCalls) (ran : run matchCall fresh calls = .ok (left, answers))
    (otherRan : run matchCall fresh otherCalls = .ok (right, otherAnswers)) :
    (left.TotalsExact → right.TotalsExact → left.Delimited right) ∧
    ∃ leftWords rightWords, left.checksumWords = .ok leftWords ∧
    right.checksumWords = .ok rightWords ∧ (left.Delimited right →
        ((leftWords = rightWords → ∀ isBuy, left.listing isBuy = right.listing isBuy) ↔
          ¬(left.Mistakable right ∨ right.Mistakable left))) := by
  obtain ⟨after, reached, ladder, tracks⟩ := run_tracks created room
  obtain ⟨other, otherReached, otherLadder, otherTracks⟩ := run_tracks created otherRoom
  obtain ⟨rfl, -⟩ := Prod.mk.inj (Except.ok.inj (reached.symm.trans ran))
  obtain ⟨rfl, -⟩ := Prod.mk.inj (Except.ok.inj (otherReached.symm.trans otherRan))
  refine ⟨tracks.delimited otherTracks, _, _, tracks.1.checksumWords, otherTracks.1.checksumWords,
    fun delimited => ?_⟩
  rw [bookWords_eq_iff tracks.1 otherTracks.1 (otherLadder.symbolId.trans ladder.symbolId.symm)
    (trace_uncrossed fresh calls)
    (trace_uncrossed fresh otherCalls) delimited]
  constructor
  · rintro identify (mistaken | mistaken)
    · exact mistaken.bids_ne (identify (.inr (.inl mistaken)) true)
    · exact mistaken.bids_ne (identify (.inr (.inr mistaken)) true).symm
  · rintro apart (same | mistaken)
    · exact fun isBuy => congrArg (List.map LevelView.content) (same isBuy)
    · exact absurd mistaken apart

/-- The same bid with and without a recycled slot. -/
theorem checksumWords_identify_oneTick : ∃ left right answers otherAnswers leftWords rightWords,
    run matchCall oneTick [.add 1 7 1 .buy 1 5 .gtc] = .ok (left, answers) ∧
      run matchCall oneTick [.add 1 9 1 .buy 1 4 .gtc, .add 2 7 1 .buy 1 5 .gtc, .cancel 3 9] =
        .ok (right, otherAnswers) ∧ left.checksumWords = .ok leftWords ∧
        right.checksumWords = .ok rightWords ∧ left.Delimited right ∧
      ((leftWords = rightWords → ∀ isBuy, left.listing isBuy = right.listing isBuy) ↔
        ¬(left.Mistakable right ∨ right.Mistakable left)) := by
  obtain ⟨left, answers, ran, leftExact⟩ :=
    run_exact oneTick_created
      (show Along matchCall _ oneTick [.add 1 7 1 .buy 1 5 .gtc] by decide +kernel)
  obtain ⟨right, otherAnswers, otherRan, rightExact⟩ := run_exact oneTick_created
    (show Along matchCall _ oneTick [.add 1 9 1 .buy 1 4 .gtc, .add 2 7 1 .buy 1 5 .gtc,
      .cancel 3 9] by decide +kernel)
  obtain ⟨exact, leftWords, rightWords, leftRead, rightRead, identify⟩ :=
    checksumWords_identify oneTick_created (by decide +kernel) (by decide +kernel) ran otherRan
  have delimited := exact leftExact rightExact
  exact ⟨left, right, answers, otherAnswers, leftWords, rightWords, ran, otherRan, leftRead,
    rightRead, delimited, identify delimited⟩

/-- A bid alone and the same order as an ask alone have the same words. -/
theorem words_hide_side :
    ¬ ∀ (symbolId : SymbolId) (ladder : PriceLadderConfig) (fresh left right : OrderBook)
    (calls otherCalls : List MatchCall) (answers otherAnswers : List MatchAnswer)
    (words : List UInt64), OrderBook.create symbolId ladder = .ok fresh →
    run matchCall fresh calls = .ok (left, answers) →
    run matchCall fresh otherCalls = .ok (right, otherAnswers) → left.checksumWords = .ok words →
    right.checksumWords = .ok words → ∀ isBuy, left.listing isBuy = right.listing isBuy := by
  intro identify
  have bid : ((run matchCall oneTick [.add 1 7 1 .buy 1 5 .gtc]).toOption.map fun result =>
      (result.1.checksumWords.toOption, result.1.listing true)) =
        some (some [1, 1, 5, 7, 1, 5], [{ price := 1, queue := [⟨7, 1, 5⟩] }]) := by decide +kernel
  have ask : ((run matchCall oneTick [.add 1 7 1 .sell 1 5 .gtc]).toOption.map fun result =>
      (result.1.checksumWords.toOption, result.1.listing true)) =
      some (some [1, 1, 5, 7, 1, 5], []) := by decide +kernel
  obtain ⟨left, ran, leftRead⟩ := ok_of_map bid
  obtain ⟨right, otherRan, rightRead⟩ := ok_of_map ask
  obtain ⟨leftWords, leftBids⟩ := Prod.mk.inj leftRead
  obtain ⟨rightWords, rightBids⟩ := Prod.mk.inj rightRead
  have same := identify _ _ _ _ _ _ _ _ _ _ oneTick_created ran otherRan
    (ok_of_toOption leftWords) (ok_of_toOption rightWords) true
  rw [leftBids, rightBids] at same
  cases same

end

end OrderBook

end Exsim.Core
