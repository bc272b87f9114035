import Exsim.OrderBook.Queues
import Exsim.OrderBook.Explained
import Exsim.Reference.Relabelling

/-! # A book does the same under other names

The two sides of the engine are written apart, and every symbol has a ladder of
its own.  A run with the sides changed about and the ladder upside down is answered
the other way round, and a run on a ladder further up is answered further up.
-/

namespace Exsim.Core

open Data

namespace Relabelling

variable {inBand inBand' : Price → Bool} (names : Relabelling inBand inBand')

def matchCall : MatchCall → MatchCall
  | .add seq orderId accountId side price qty tif =>
      .add seq orderId accountId (names.side side) (names.price price) qty tif
  | .cancel seq orderId => .cancel seq orderId
  | .replace seq oldId newId accountId side price qty tif =>
      .replace seq oldId newId accountId (names.side side) (names.price price) qty tif

def call : BookCall → BookCall
  | .matching call => .matching (names.matchCall call)
  | .feedAdd orderId accountId side price qty =>
      .feedAdd orderId accountId (names.side side) (names.price price) qty
  | .feedExecute orderId qty => .feedExecute orderId qty

def matchAnswer : MatchAnswer → MatchAnswer
  | .output out => .output (names.output out)
  | .cancelled ev => .cancelled (ev.map names.event)

def answer : BookAnswer → BookAnswer
  | .matched answer => .matched (names.matchAnswer answer)
  | .fed ok => .fed ok

end Relabelling

namespace ArrivalBook

variable {inBand inBand' : Price → Bool} {names : Relabelling inBand inBand'}
  {book other : ArrivalBook}

theorem Relabelled.matchCall (same : Relabelled names book other) (call : MatchCall) :
    Relabelled names (book.matchCall call).1 (other.matchCall (names.matchCall call)).1 ∧
      (other.matchCall (names.matchCall call)).2 = names.matchAnswer (book.matchCall call).2 := by
  cases call with
  | add seq orderId accountId side price qty tif =>
      obtain ⟨books, output⟩ := same.addOrder seq orderId accountId side price qty tif
      exact ⟨books, congrArg MatchAnswer.output output⟩
  | cancel seq orderId =>
      obtain ⟨books, ev⟩ := same.cancelOrder seq orderId
      exact ⟨books, congrArg MatchAnswer.cancelled ev⟩
  | replace seq oldId newId accountId side price qty tif =>
      obtain ⟨books, output⟩ := same.replaceOrder seq oldId newId accountId side price qty tif
      exact ⟨books, congrArg MatchAnswer.output output⟩

theorem Relabelled.call (same : Relabelled names book other) (call : BookCall) :
    Relabelled names (book.call call).1 (other.call (names.call call)).1 ∧
      (other.call (names.call call)).2 = names.answer (book.call call).2 := by
  cases call with
  | matching call =>
      obtain ⟨books, answer⟩ := same.matchCall call
      exact ⟨books, congrArg BookAnswer.matched answer⟩
  | feedAdd orderId accountId side price qty =>
      obtain ⟨books, ok⟩ := same.feedAdd orderId accountId side price qty
      exact ⟨books, congrArg BookAnswer.fed ok⟩
  | feedExecute orderId qty =>
      obtain ⟨books, ok⟩ := same.feedExecute orderId qty
      exact ⟨books, congrArg BookAnswer.fed ok⟩

end ArrivalBook

namespace OrderBook

/-- The best price of a side. -/
def quoted (book : OrderBook) (isBuy : Bool) : Option Price :=
  if isBuy then book.stats.bestBid else book.stats.bestAsk

section

variable {inBand inBand' : Price → Bool} {names : Relabelling inBand inBand'}
  {book other fresh fresh' : OrderBook} {ref copy : ArrivalBook} {calls : List BookCall}
  {isBuy : Bool}

theorem Refines.quoted (refines : book.Refines ref) (isBuy : Bool) :
    book.quoted isBuy = (ref.orders.first isBuy).map RestingOrderView.price := by
  obtain ⟨queues, mirrors⟩ := refines
  have best : book.quoted isBuy = (book.half isBuy).bestIdx.map book.indexToPrice := by
    cases isBuy <;> rfl
  rw [best]
  cases found : (book.half isBuy).bestIdx with
  | none => rw [mirrors.first_eq_none found, Option.map_none, Option.map_none]
  | some idx =>
      obtain ⟨-, -, n, -, -, -, -, -, first, price⟩ := mirrors.first_eq_some found
      rw [first, Option.map_some, Option.map_some, price]
      rfl

/-- Two books that have been given the same under different names. -/
def Alike (names : Relabelling inBand inBand') (book other : OrderBook) : Prop :=
  ∃ ref copy, book.Tracks ref ∧ other.Tracks copy ∧ ArrivalBook.Relabelled names ref copy

theorem Alike.call (alike : Alike names book other) (room : book.stats.liveOrders < 2 ^ 32 - 1)
    (call : BookCall) :
    ∃ after after' answer, book.call call = .ok (after, answer) ∧
      other.call (names.call call) = .ok (after', names.answer answer) ∧
      Alike names after after' := by
  obtain ⟨ref, copy, ⟨refines, sound⟩, ⟨refines', sound'⟩, same⟩ := alike
  rw [refines.liveOrders] at room
  have room' : copy.orders.length < kNull.toNat := by
    rw [same.orders, List.length_map]
    exact room
  obtain ⟨after, ran, follows⟩ := call_spec refines room call
  obtain ⟨after', ran', follows'⟩ := call_spec refines' room' (names.call call)
  obtain ⟨books, answers⟩ := same.call call
  rw [answers] at ran'
  exact ⟨after, after', _, ran, ran', _, _, ⟨follows.refines, sound.call call⟩,
    ⟨follows'.refines, sound'.call _⟩, books⟩

theorem Alike.run (alike : Alike names book other)
    (room : Along OrderBook.call (fun book _ => book.stats.liveOrders < 2 ^ 32 - 1) book calls) :
    ∃ after after' answers, Data.run OrderBook.call book calls = .ok (after, answers) ∧
      Data.run OrderBook.call other (calls.map names.call) =
        .ok (after', answers.map names.answer) ∧ Alike names after after' := by
  induction calls generalizing book other with
  | nil => exact ⟨book, other, [], rfl, rfl, alike⟩
  | cons call calls ih =>
      obtain ⟨here, along⟩ := room
      obtain ⟨middle, middle', answer, stepped, stepped', kept⟩ := alike.call here call
      obtain ⟨after, after', answers, ran, ran', last⟩ := ih kept (along middle answer stepped)
      exact ⟨after, after', answer :: answers, run_cons stepped ran, run_cons stepped' ran', last⟩

/-- New books whose ladders go by other names are alike. -/
theorem create_alike {symbolId : SymbolId} {ladder ladder' : PriceLadderConfig}
    (names : Relabelling (inLadder ladder.minPrice ladder.maxPrice)
      (inLadder ladder'.minPrice ladder'.maxPrice))
    (created : OrderBook.create symbolId ladder = .ok fresh)
    (created' : OrderBook.create names.symbolId ladder' = .ok fresh') :
    Alike names fresh fresh' := by
  refine ⟨fresh.blank, fresh'.blank, create_tracks created, create_tracks created', ?_, rfl, ?_, ?_,
    fun order member => (nomatch member)⟩
  · exact (create_ok created').2.1
  · rw [create_blank created]
    rfl
  · rw [create_blank created']
    rfl

/-- What two books that are alike hold and quote. -/
theorem Alike.same (alike : Alike names book other) (isBuy : Bool) :
    other.waiting (isBuy ^^ names.flips) = (book.waiting isBuy).map names.order ∧
      other.quoted (isBuy ^^ names.flips) = (book.quoted isBuy).map names.price := by
  obtain ⟨ref, copy, ⟨refines, -⟩, ⟨refines', -⟩, same⟩ := alike
  rw [refines.waiting, refines'.waiting, refines.quoted, refines'.quoted, same.orders,
    names.queue_map same.inside, names.first_map same.inside, Option.map_map, Option.map_map]
  exact ⟨rfl, rfl⟩

/-- While fewer than `2^32 - 1` orders rest before each call, a book that is given
sells for buys and buys for sells, each as far from the other end of the ladder,
answers the other way round, and holds on each side what the other held. -/
theorem run_reflected {symbolId : SymbolId} {ladder : PriceLadderConfig}
    (created : OrderBook.create symbolId ladder = .ok fresh)
    (room : Along OrderBook.call (fun book _ => book.stats.liveOrders < 2 ^ 32 - 1) fresh calls) :
    let names := Relabelling.reflection symbolId ladder.minPrice ladder.maxPrice
    ∃ after after' answers, Data.run OrderBook.call fresh calls = .ok (after, answers) ∧
      Data.run OrderBook.call fresh (calls.map names.call) =
        .ok (after', answers.map names.answer) ∧
        ∀ isBuy, after'.waiting (!isBuy) = (after.waiting isBuy).map names.order ∧
        after'.quoted (!isBuy) = (after.quoted isBuy).map names.price := by
  intro names
  obtain ⟨after, after', answers, ran, ran', alike⟩ := (create_alike names created created).run room
  refine ⟨after, after', answers, ran, ran', fun isBuy => ?_⟩
  have same := alike.same isBuy
  rwa [show names.flips = true from rfl, Bool.xor_true] at same

def threeTicks : OrderBook :=
  { symbolId := 1, minPrice := 1, maxPrice := 3, levelCount := 3, bids := .empty 3,
    asks := .empty 3 }

theorem threeTicks_created : OrderBook.create 1 { minPrice := 1, maxPrice := 3 } =
    .ok threeTicks := by
  decide +kernel

/-- Two bids, an ask that takes the better one and a unit of the other, and an ask above. -/
def bidsAndAsks : List BookCall :=
  [.matching (.add 1 7 1 .buy 1 5 .gtc), .feedAdd 8 1 .buy 2 4,
    .matching (.add 2 9 2 .sell 1 5 .gtc), .matching (.add 3 10 2 .sell 3 6 .gtc)]

theorem run_reflected_threeTicks :
    let names := Relabelling.reflection 1 1 3
    ∃ after after' answers, Data.run OrderBook.call threeTicks bidsAndAsks = .ok (after, answers) ∧
      Data.run OrderBook.call threeTicks (bidsAndAsks.map names.call) =
        .ok (after', answers.map names.answer) ∧
        ∀ isBuy, after'.waiting (!isBuy) = (after.waiting isBuy).map names.order ∧
        after'.quoted (!isBuy) = (after.quoted isBuy).map names.price := by
  have room : Along OrderBook.call (fun book _ => book.stats.liveOrders < 2 ^ 32 - 1) threeTicks
      bidsAndAsks := by
    decide +kernel
  have reflected := run_reflected threeTicks_created room
  exact reflected

end

end OrderBook

end Exsim.Core
