import Exsim.OrderBook.Exhaustion

/-! # The book is never crossed -/

namespace Exsim.Core

open Data

namespace ArrivalBook

/-- Every resting bid is below every resting ask. -/
def Uncrossed (book : ArrivalBook) : Prop :=
  ∀ bid ∈ book.orders, ∀ ask ∈ book.orders, bid.side.isBuy = true → ask.side.isBuy = false →
    bid.price < ask.price

section

variable {book after : ArrivalBook} {seq : SeqNo} {id : OrderId} {accountId : AccountId}
  {side : Side} {price : Price} {qty : Qty} {tif : TimeInForce}

/-- Orders that leave or lose quantity cross nothing. -/
theorem Uncrossed.of_prices (uncrossed : book.Uncrossed)
    (kept : ∀ order ∈ after.orders, ∃ before ∈ book.orders,
      before.side = order.side ∧ before.price = order.price) : after.Uncrossed := by
  intro bid bidMember ask askMember bidSide askSide
  obtain ⟨bid', bidBefore, bidSame, bidPrice⟩ := kept bid bidMember
  obtain ⟨ask', askBefore, askSame, askPrice⟩ := kept ask askMember
  rw [← bidPrice, ← askPrice]
  rw [← bidSame] at bidSide
  rw [← askSame] at askSide
  exact uncrossed bid' bidBefore ask' askBefore bidSide askSide

theorem Uncrossed.erase (uncrossed : book.Uncrossed) (id : OrderId) :
    Uncrossed { book with orders := Keyed.erase RestingOrderView.orderId id book.orders } :=
  uncrossed.of_prices fun order member => ⟨order, (Keyed.mem_erase.mp member).1, rfl, rfl⟩

theorem Uncrossed.fill (uncrossed : book.Uncrossed) (id : OrderId) (qty : Qty) :
    Uncrossed { book with orders := book.orders.fill id qty } := by
  refine uncrossed.of_prices fun order member => ?_
  obtain ⟨before, listed, -, -, side, price⟩ := Arrivals.mem_fill member
  exact ⟨before, listed, side, price⟩

theorem Uncrossed.swept (uncrossed : book.Uncrossed) (seq : SeqNo) (id : OrderId) (side : Side)
    (price : Price) (qty : Qty) : (book.swept seq id side price qty).1.Uncrossed :=
  sweep_induction (motive := fun after _ => after.Uncrossed) seq id side price
    (fun _ _ _ before _ _ _ => Uncrossed.fill before _ _) book.orders.length uncrossed

/-- An accepted add matches before it rests, so what rests crosses nothing. -/
theorem Uncrossed.addOrder (uncrossed : book.Uncrossed) (sound : book.Sound) :
    (book.addOrder seq id accountId side price qty tif).1.Uncrossed := by
  by_cases accepted : book.addReject id price qty = .none
  · have swept := uncrossed.swept seq id side price qty
    rw [addOrder_accepted accepted]
    split
    · rename_i remains
      rw [Bool.and_eq_true, decide_eq_true_iff] at remains
      have unfilled := UInt32.pos_iff_ne_zero.mp remains.1
      have beyond : ∀ other ∈ (book.swept seq id side price qty).1.orders, other.side.isBuy =
          !side.isBuy → Arrivals.asGood (!side.isBuy) other.price price =
            false := fun other member opposite =>
        sound.sweep_done seq id side price _ (Nat.le_refl _) unfilled member opposite
      intro bid bidMember ask askMember bidSide askSide
      rcases List.mem_append.mp bidMember with bidMember | bidMember <;>
        rcases List.mem_append.mp askMember with askMember | askMember
      · exact swept bid bidMember ask askMember bidSide askSide
      · obtain rfl := List.mem_singleton.mp askMember
        have sell : side.isBuy = false := askSide
        have above := beyond bid bidMember (by rw [sell]; exact bidSide)
        simp only [sell, Bool.not_false, Arrivals.asGood, ↓reduceIte, decide_eq_false_iff_not,
          Int64.le_iff_toInt_le] at above
        rw [Int64.lt_iff_toInt_lt]
        change bid.price.toInt < price.toInt
        omega
      · obtain rfl := List.mem_singleton.mp bidMember
        have buy : side.isBuy = true := bidSide
        have below := beyond ask askMember (by rw [buy]; exact askSide)
        simp only [buy, Bool.not_true, Arrivals.asGood, Bool.false_eq_true, ↓reduceIte,
          decide_eq_false_iff_not, Int64.le_iff_toInt_le] at below
        rw [Int64.lt_iff_toInt_lt]
        change price.toInt < ask.price.toInt
        omega
      · obtain rfl := List.mem_singleton.mp bidMember
        obtain rfl := List.mem_singleton.mp askMember
        rw [bidSide] at askSide
        cases askSide
    · exact swept
  · rw [addOrder_rejected accepted]
    exact uncrossed

theorem Uncrossed.cancelOrder (uncrossed : book.Uncrossed) (seq : SeqNo) (id : OrderId) :
    (book.cancelOrder seq id).1.Uncrossed := by
  rw [ArrivalBook.cancelOrder]
  split
  · exact uncrossed
  · exact uncrossed.erase id

theorem Uncrossed.replaceOrder {oldId : OrderId} (uncrossed : book.Uncrossed) (sound : book.Sound) :
    (book.replaceOrder seq oldId id accountId side price qty tif).1.Uncrossed := by
  have cancelled := uncrossed.cancelOrder seq oldId
  have kept := sound.cancelOrder seq oldId
  rw [ArrivalBook.replaceOrder]
  split
  · exact uncrossed
  · split
    · rename_i same
      rw [same] at cancelled
      exact cancelled
    · rename_i same
      rw [same] at cancelled kept
      exact cancelled.addOrder kept

theorem Uncrossed.matchCall (uncrossed : book.Uncrossed) (sound : book.Sound) (call : MatchCall) :
    (book.matchCall call).1.Uncrossed := by
  cases call with
  | add => exact uncrossed.addOrder sound
  | cancel seq id => exact uncrossed.cancelOrder seq id
  | replace => exact uncrossed.replaceOrder sound

end

end ArrivalBook

namespace OrderBook

variable {book fresh : OrderBook} {queues : Queues} {ref : ArrivalBook} {count : Nat}

/-- What the engine reports and finds of an uncrossed list is uncrossed. -/
theorem Mirrors.uncrossed (mirrors : book.Mirrors queues ref) (uncrossed : ref.Uncrossed) :
    (∀ bid ask, book.stats.bestBid = some bid → book.stats.bestAsk = some ask → bid < ask) ∧
    ∀ bidId askId bid ask, book.find bidId = .ok (some bid) → book.find askId = .ok (some ask) →
      bid.side.isBuy = true → ask.side.isBuy = false → bid.price < ask.price := by
  constructor
  · intro bid ask bestBid bestAsk
    obtain ⟨bidIdx, bidBest, rfl⟩ := Option.map_eq_some_iff.mp bestBid
    obtain ⟨askIdx, askBest, rfl⟩ := Option.map_eq_some_iff.mp bestAsk
    obtain ⟨-, -, bidNode, -, -, bidSide, -, -, bidFirst, bidPrice⟩ :=
      mirrors.first_eq_some (show (book.half true).bestIdx = some bidIdx from bidBest)
    obtain ⟨-, -, askNode, -, -, askSide, -, -, askFirst, askPrice⟩ :=
      mirrors.first_eq_some (show (book.half false).bestIdx = some askIdx from askBest)
    rw [bidPrice, askPrice]
    exact uncrossed (viewNode bidNode) (Arrivals.first_mem bidFirst).1 (viewNode askNode)
      (Arrivals.first_mem askFirst).1 bidSide askSide
  · intro bidId askId bid ask bidFound askFound bidSide askSide
    rw [mirrors.find, Except.ok.injEq] at bidFound askFound
    exact uncrossed bid (Keyed.mem_of_find bidFound).1 ask
      (Keyed.mem_of_find askFound).1 bidSide askSide

/-- No run of calls on an empty list locks or crosses it. -/
theorem trace_uncrossed (fresh : OrderBook) (calls : List MatchCall) :
    (trace ArrivalBook.matchCall fresh.blank calls).1.Uncrossed := by
  have blank : fresh.blank.Sound := ⟨List.nodup_nil, fun _ member => absurd member List.not_mem_nil⟩
  have nothing : fresh.blank.Uncrossed := fun _ member => absurd member List.not_mem_nil
  have keep : ∀ (book : ArrivalBook) (call : MatchCall), book.Sound ∧ book.Uncrossed →
      (book.matchCall call).1.Sound ∧ (book.matchCall call).1.Uncrossed :=
    fun book call kept => ⟨kept.1.matchCall call, kept.2.matchCall kept.1 call⟩
  exact (trace_invariant keep ⟨blank, nothing⟩).2

/-- While fewer than `2^32 - 1` orders rest before each call, no run of adds,
cancels and replaces locks or crosses the book. -/
theorem run_uncrossed {symbolId : SymbolId} {ladder : PriceLadderConfig} {calls : List MatchCall}
    (created : OrderBook.create symbolId ladder = .ok fresh)
    (room : Along matchCall (fun book _ => book.stats.liveOrders < 2 ^ 32 - 1) fresh calls) :
    ∃ after answers, run matchCall fresh calls = .ok (after, answers) ∧
      (∀ bid ask, after.stats.bestBid = some bid → after.stats.bestAsk = some ask → bid < ask) ∧
      ∀ bidId askId bid ask, after.find bidId = .ok (some bid) → after.find askId = .ok (some ask) →
        bid.side.isBuy = true → ask.side.isBuy = false → bid.price < ask.price := by
  obtain ⟨final, ran, -, ⟨queues, mirrors⟩, -⟩ := run_tracks created room
  exact ⟨final, _, ran, mirrors.uncrossed (trace_uncrossed fresh calls)⟩

/-- A bid and an ask at one price trade; the rest of the ask has the book to itself. -/
theorem run_uncrossed_oneTick : ∃ after answers,
    run matchCall oneTick [.add 1 7 1 .buy 1 5 .gtc, .add 2 8 2 .sell 1 9 .gtc] =
      .ok (after, answers) ∧
      (∀ bid ask, after.stats.bestBid = some bid → after.stats.bestAsk = some ask → bid < ask) ∧
      ∀ bidId askId bid ask, after.find bidId = .ok (some bid) → after.find askId = .ok (some ask) →
        bid.side.isBuy = true → ask.side.isBuy = false → bid.price < ask.price :=
  run_uncrossed oneTick_created (by decide +kernel)

/-- Bids that fill the pool, one more, a cancel of the oldest and an ask at their price. -/
def crossingCalls (count : Nat) : List MatchCall :=
  buys (count + 1) ++ [.cancel 0 0, .add 0 (UInt64.ofNat (count + 1)) 0 .sell 1 1 .gtc]

theorem crossingCalls_cross (full : count = kNull.toNat) :
    ∃ after outputs bid ask, run matchCall oneTick (crossingCalls count) = .ok (after, outputs) ∧
      after.find 1 = .ok (some bid) ∧ after.find (UInt64.ofNat (count + 1)) = .ok (some ask) ∧
      bid.side = .buy ∧ ask.side = .sell ∧ bid.price = 1 ∧ ask.price = 1 := by
  have many : 2 ≤ count := by
    rw [full]
    decide
  have small : count + 1 < 2 ^ 64 := by
    rw [full]
    decide
  obtain ⟨book, queues, overflown, outputs, out, mirrors, ran, -, overflowed⟩ := run_overflow full
  obtain ⟨dropping, ev, oldest, second, cancelled, dropped⟩ :=
    overflowed.cancel mirrors many (by omega)
  obtain ⟨crossed, sellOut, ask, sold, bidFound, askFound, askSide, askPrice⟩ :=
    dropped.sell mirrors small many
  exact ⟨crossed, _, bought 1, ask, run_append ran (run_cons cancelled (run_cons sold run_nil)),
    bidFound, askFound, rfl, askSide, rfl, askPrice⟩

/-- A resting bid and a resting ask can share a price: after `2^32` bids, a
cancel drops the level but not its orders. -/
theorem crossed_at_exhaustion :
    OrderBook.create 1 { minPrice := 1, maxPrice := 1 } = .ok oneTick ∧
    ∃ after outputs bid ask, run matchCall oneTick (crossingCalls (2 ^ 32 - 1)) =
      .ok (after, outputs) ∧ after.find 1 = .ok (some bid) ∧ after.find (2 ^ 32) = .ok (some ask) ∧
      bid.side.isBuy = true ∧ ask.side.isBuy = false ∧ ¬ bid.price < ask.price := by
  have count : 2 ^ 32 - 1 = kNull.toNat := by decide
  have id : (2 ^ 32 : OrderId) = UInt64.ofNat (kNull.toNat + 1) := by decide
  rw [count, id]
  obtain ⟨after, outputs, bid, ask, ran, bidFound, askFound, bidSide, askSide, bidPrice,
      askPrice⟩ :=
    crossingCalls_cross (rfl : kNull.toNat = kNull.toNat)
  refine ⟨oneTick_created, after, outputs, bid, ask, ran, bidFound, askFound, ?_, ?_, ?_⟩
  · rw [bidSide]
    rfl
  · rw [askSide]
    rfl
  · rw [bidPrice, askPrice]
    decide

end OrderBook

end Exsim.Core
