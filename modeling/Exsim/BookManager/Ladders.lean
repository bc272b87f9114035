import Exsim.BookManager.Refinement
import Exsim.OrderBook.Relabelling

/-! # Symbols on ladders of their own

The manager can put the ladder of every symbol a stride further up.  That moves
prices, and nothing else: order flow moved from one symbol to another by the
distance of their ladders is answered the same.
-/

namespace Exsim.Core.BookManager

open Data

variable {maxSymbol symbol other : SymbolId} {ladder : PriceLadderConfig} {manager : BookManager}
  {book copy : OrderBook} {calls : List BookCall}

/-- The ladders of two symbols are one ladder, a distance apart. -/
theorem symbolLadder_shift (ladder : PriceLadderConfig) (symbol other : SymbolId) :
    let offset := (symbolLadder ladder other).minPrice - (symbolLadder ladder symbol).minPrice
    (symbolLadder ladder other).minPrice = (symbolLadder ladder symbol).minPrice + offset ∧
      (symbolLadder ladder other).maxPrice = (symbolLadder ladder symbol).maxPrice + offset := by
  rw [symbolLadder, symbolLadder]
  dsimp only
  split
  · dsimp only
    constructor <;> grind
  · constructor <;> grind

/-- A new manager's book is made on the ladder of its symbol. -/
theorem create_findBook (created : BookManager.create maxSymbol ladder = some (.ok manager))
    (found : manager.findBook symbol = some book) :
    OrderBook.create symbol (symbolLadder ladder symbol) = .ok book := by
  obtain ⟨sameMax, -, -, each⟩ := create_ok created
  rw [findBook] at found
  split at found
  · rename_i valid
    have inside : symbol.toNat ≤ maxSymbol.toNat := by
      rw [validSymbol, sameMax] at valid
      simp at valid
      exact UInt32.le_iff_toNat_le.mp valid.2
    obtain ⟨made, stored, here⟩ := each symbol inside
    obtain rfl := Option.some.inj (stored.symm.trans found)
    exact here
  · cases found

/-- The ladder of a book that was made is not empty. -/
theorem ladder_ordered {made : PriceLadderConfig}
    (created : OrderBook.create symbol made = .ok book) :
    made.minPrice ≤ made.maxPrice := by
  have order := (OrderBook.create_ok created).1.order
  have start := OrderBook.create_blank created
  rwa [show book.minPrice = made.minPrice from congrArg ArrivalBook.minPrice start,
    show book.maxPrice =
      made.maxPrice from congrArg ArrivalBook.maxPrice start, ← Int64.le_iff_toInt_le] at order

/-- While fewer than `2^32 - 1` orders rest before each call, the books of two
symbols of a new manager do the same with the same calls, once the prices are
moved by the distance of their ladders. -/
theorem run_shifted (created : BookManager.create maxSymbol ladder = some (.ok manager))
    (found : manager.findBook symbol = some book) (found' : manager.findBook other = some copy)
    (room : Along OrderBook.call (fun book _ => book.stats.liveOrders < 2 ^ 32 - 1) book calls) :
    let here := symbolLadder ladder symbol
    let there := symbolLadder ladder other
    ∃ names : Relabelling (inLadder here.minPrice here.maxPrice)
      (inLadder there.minPrice there.maxPrice), names.symbolId = other ∧
      (∀ side, names.side side = side) ∧
      (∀ price, names.price price = price + (there.minPrice - here.minPrice)) ∧
      ∃ after after' answers, run OrderBook.call book calls = .ok (after, answers) ∧
        run OrderBook.call copy (calls.map names.call) = .ok (after', answers.map names.answer) ∧
        ∀ isBuy, after'.waiting isBuy = (after.waiting isBuy).map names.order ∧
          after'.quoted isBuy = (after.quoted isBuy).map names.price := by
  intro here there
  have made := create_findBook created found
  have made' := create_findBook created found'
  obtain ⟨low, high⟩ := symbolLadder_shift ladder symbol other
  let names := Relabelling.translation other (ladder_ordered made) (ladder_ordered made') low high
  obtain ⟨after, after', answers, ran, ran', alike⟩ :=
    (OrderBook.create_alike names made made').run room
  refine ⟨names, rfl, fun _ => rfl, fun _ => rfl, after, after', answers, ran, ran',
    fun isBuy => ?_⟩
  have same := alike.same isBuy
  rwa [show names.flips = false from rfl, Bool.xor_false] at same

/-- Two prices for each symbol, ten further up than those of the one before. -/
def stridedLadder : PriceLadderConfig :=
  { minPrice := 1, maxPrice := 2, symbolPriceStride := 10, symbolPriceModulo := 3 }

def twoPrices (symbolId : SymbolId) (minPrice : Price) : OrderBook :=
  { symbolId, minPrice, maxPrice := minPrice + 1, levelCount := 2, bids := .empty 2,
    asks := .empty 2 }

def twoSymbols : BookManager :=
  { maxSymbol := 2, ladder := stridedLadder,
    books := #[twoPrices 0 1, twoPrices 1 11, twoPrices 2 21] }

theorem twoSymbols_created : BookManager.create 2 stridedLadder = some (.ok twoSymbols) := by
  decide +kernel

/-- A bid and an ask that trades with it. -/
def bidThenAsk : List BookCall :=
  [.matching (.add 1 7 1 .buy 12 5 .gtc), .matching (.add 2 8 2 .sell 11 6 .gtc)]

theorem run_shifted_twoSymbols :
    let here := symbolLadder stridedLadder 1
    let there := symbolLadder stridedLadder 2
    ∃ names : Relabelling (inLadder here.minPrice here.maxPrice)
      (inLadder there.minPrice there.maxPrice), names.symbolId = 2 ∧
      (∀ side, names.side side = side) ∧
      (∀ price, names.price price = price + (there.minPrice - here.minPrice)) ∧
      ∃ after after' answers, run OrderBook.call (twoPrices 1 11) bidThenAsk =
        .ok (after, answers) ∧ run OrderBook.call (twoPrices 2 21) (bidThenAsk.map names.call) =
          .ok (after', answers.map names.answer) ∧
          ∀ isBuy, after'.waiting isBuy = (after.waiting isBuy).map names.order ∧
          after'.quoted isBuy = (after.quoted isBuy).map names.price := by
  have found : twoSymbols.findBook 1 = some (twoPrices 1 11) := by decide +kernel
  have found' : twoSymbols.findBook 2 = some (twoPrices 2 21) := by decide +kernel
  have room : Along OrderBook.call (fun book _ => book.stats.liveOrders < 2 ^ 32 - 1)
      (twoPrices 1 11) bidThenAsk := by
    decide +kernel
  have shifted := run_shifted twoSymbols_created found found' room
  exact shifted

end Exsim.Core.BookManager
