import Exsim.OrderBook.Exhaustion

/-! # Price-time priority

The engine and the list in arrival order give the same answers and keep the same
orders, until the slots run out.
-/

namespace Exsim.Core

open Data

namespace OrderBook

variable {fresh : OrderBook} {count : Nat}

/-- Price-time priority: while fewer than `2^32 - 1` orders rest before each
call, the engine answers every call as the list in arrival order does and keeps
the same resting orders. -/
theorem run_priority {symbolId : SymbolId} {ladder : PriceLadderConfig} {calls : List MatchCall}
    (created : OrderBook.create symbolId ladder = .ok fresh)
    (room : Along matchCall (fun book _ => book.stats.liveOrders < 2 ^ 32 - 1) fresh calls) :
    ∃ after, run matchCall fresh calls =
      .ok (after, (trace ArrivalBook.matchCall fresh.blank calls).2) ∧
      after.SameOrders (trace ArrivalBook.matchCall fresh.blank calls).1 := by
  obtain ⟨final, ran, -, ⟨queues, mirrors⟩, -⟩ := run_tracks created room
  exact ⟨final, ran, mirrors.sameOrders⟩

/-- A fill, a partial fill and a replace that loses its place. -/
theorem run_priority_oneTick :
    let calls : List MatchCall :=
      [.add 1 7 1 .buy 1 5 .gtc, .add 2 8 1 .buy 1 4 .gtc, .replace 3 7 9 1 .buy 1 5 .gtc,
      .add 4 10 2 .sell 1 6 .ioc]
    ∃ after, run matchCall oneTick calls =
      .ok (after, (trace ArrivalBook.matchCall oneTick.blank calls).2) ∧
      after.SameOrders (trace ArrivalBook.matchCall oneTick.blank calls).1 :=
  run_priority oneTick_created (by decide +kernel)

theorem buys_lose_an_order (full : count = kNull.toNat) {final : OrderBook}
    {outputs : List MatchAnswer}
    (ran : run matchCall oneTick (buys (count + 1)) = .ok (final, outputs)) :
    ¬ final.SameOrders (boughtBook (count + 1)) := by
  intro same
  obtain ⟨book, queues, after, outputs', out, mirrors, ran', -, overflowed⟩ := run_overflow full
  rw [ran, Except.ok.injEq, Prod.mk.injEq] at ran'
  obtain ⟨rfl, -⟩ := ran'
  obtain ⟨inBand, walked⟩ := overflowed.listed mirrors
  have listed := congrArg List.length (same.queues true 1 inBand)
  rw [walked, atPrice_bought, bidBook_length, bidBook_length] at listed
  omega

/-- Price-time priority does not hold of every run: after `2^32` bids the
last one is in no queue. -/
theorem priority_fails_at_exhaustion :
    OrderBook.create 1 { minPrice := 1, maxPrice := 1 } = .ok oneTick ∧
    ¬ ∃ after, run matchCall oneTick (buys (2 ^ 32)) =
        .ok (after, (trace ArrivalBook.matchCall oneTick.blank (buys (2 ^ 32))).2) ∧
      after.SameOrders (trace ArrivalBook.matchCall oneTick.blank (buys (2 ^ 32))).1 := by
  refine ⟨oneTick_created, ?_⟩
  have count : 2 ^ 32 = kNull.toNat + 1 := by decide
  have limit : kNull.toNat + 1 ≤ 2 ^ 64 := by decide
  rintro ⟨after, ran, same⟩
  rw [count] at ran same
  have ends : (trace ArrivalBook.matchCall oneTick.blank (buys (kNull.toNat + 1))).1 =
      boughtBook (kNull.toNat + 1) := trace_bidCalls limit
  rw [ends] at same
  exact buys_lose_an_order rfl ran same

end OrderBook

end Exsim.Core
