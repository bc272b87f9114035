import Exsim.OrderBook.Cycle
import Exsim.Reference.Splitting

/-! # An immediate order sent in two parts -/

namespace Exsim.Core.OrderBook

open Data

variable {book fresh : OrderBook} {ref : ArrivalBook} {side : Side} {price : Price} {qty : Qty}
  {id : OrderId}

/-- An accepted immediate order sweeps the reference book and rests nothing. -/
theorem addOrder_ioc (refines : book.Refines ref) (inBand : book.priceInBand price = true)
    (free : book.contains id = false) (positive : qty ≠ 0) (seq : SeqNo) (accountId : AccountId)
    (side : Side) :
    ∃ after, book.addOrder seq id accountId side price qty .ioc =
      .ok (after, (ref.swept seq id side price qty).2) ∧
      Shrinks book after ref (ref.swept seq id side price qty).1 := by
  have enough : ref.orders.length ≤ qty.toNat + book.nodes.size :=
    Nat.le_trans refines.length_le (Nat.le_add_left _ _)
  obtain ⟨after, ran, shrinks⟩ :=
    matchLoop_spec seq id side price { remainingQty := qty } refines (Nat.le_refl _) enough
  have immediate : decide (TimeInForce.ioc = TimeInForce.gtc) = false := by decide
  refine ⟨after, ?_, shrinks⟩
  rw [addOrder, if_neg positive, inBand, free]
  simp only [Bool.not_true, Bool.false_eq_true, ↓reduceIte, ran, exec_ok_bind, immediate,
    Bool.and_false]
  rfl

/-- While fewer than `2^32 - 1` orders rest before each call, an immediate order
sent in two parts leaves every queue as one order for the whole quantity does,
trades the same with each resting order, and leaves the same quantity unfilled. -/
theorem ioc_split {symbolId : SymbolId} {ladder : PriceLadderConfig} {fresh book : OrderBook}
    {calls : List MatchCall} {answers : List MatchAnswer}
    (created : OrderBook.create symbolId ladder = .ok fresh)
    (room : Along matchCall (fun book _ => book.stats.liveOrders < 2 ^ 32 - 1) fresh calls)
    (ran : run matchCall fresh calls = .ok (book, answers)) (side : Side) {price : Price}
    {first second : Qty} {id id' id'' : OrderId} (inBand : book.priceInBand price = true)
    (some : first ≠ 0) (more : second ≠ 0) (small : first.toNat + second.toNat < 2 ^ 32)
    (free : book.contains id = false) (free' : book.contains id' = false)
    (free'' : book.contains id'' = false) (seq seq' seq'' : SeqNo)
    (accountId accountId' accountId'' : AccountId) :
    ∃ middle firstOut after secondOut whole wholeOut,
      book.addOrder seq id accountId side price first .ioc = .ok (middle, firstOut) ∧
      middle.addOrder seq' id' accountId' side price second .ioc = .ok (after, secondOut) ∧
      book.addOrder seq'' id'' accountId'' side price (first + second) .ioc =
        .ok (whole, wholeOut) ∧ after.fifo = whole.fifo ∧
      mergeFills ((firstOut.trades ++ secondOut.trades).map fillOf) =
        mergeFills (wholeOut.trades.map fillOf) ∧ firstOut.remainingQty.toNat +
          secondOut.remainingQty.toNat = wholeOut.remainingQty.toNat := by
  obtain ⟨reached, stands, -, refines, sound⟩ := run_tracks created room
  obtain ⟨rfl, -⟩ := Prod.mk.inj (Except.ok.inj (stands.symm.trans ran))
  have both : first + second ≠ 0 := fun none => by
    have value := congrArg UInt32.toNat none
    rw [UInt32.toNat_add, Nat.mod_eq_of_lt small, UInt32.toNat_zero] at value
    exact some (UInt32.toNat_inj.mp (by rw [UInt32.toNat_zero]; omega))
  obtain ⟨middle, firstAdded, firstShrinks⟩ :=
    addOrder_ioc refines inBand free some seq accountId side
  have still : middle.contains id' = false := by
    rw [firstShrinks.refines.contains, Bool.eq_false_iff]
    intro held
    have before := ArrivalBook.swept_holds held
    rw [← refines.contains, free'] at before
    cases before
  obtain ⟨after, secondAdded, secondShrinks⟩ :=
    addOrder_ioc firstShrinks.refines (by rw [firstShrinks.ladder.priceInBand]; exact inBand) still
      more seq' accountId' side
  obtain ⟨whole, wholeAdded, wholeShrinks⟩ :=
    addOrder_ioc refines inBand free'' both seq'' accountId'' side
  obtain ⟨orders, trades, left⟩ := sound.swept_append seq seq' seq'' id id' id'' side price small
  have ladder := wholeShrinks.ladder.symm.trans (firstShrinks.ladder.trans secondShrinks.ladder)
  refine ⟨middle, _, after, _, whole, _, firstAdded, secondAdded, wholeAdded, ?_, ?_, left.symm⟩
  · exact (orders ▸ wholeShrinks.refines).fifo_eq secondShrinks.refines ladder
  · rw [List.map_append]
    exact trades.symm

/-- Three units and then three against bids of five and four. -/
theorem ioc_split_oneTick : ∃ book answers middle firstOut after secondOut whole wholeOut,
    run matchCall oneTick [.add 1 7 1 .buy 1 5 .gtc, .add 2 8 1 .buy 1 4 .gtc] =
      .ok (book, answers) ∧ book.addOrder 3 9 2 .sell 1 3 .ioc = .ok (middle, firstOut) ∧
      middle.addOrder 4 10 2 .sell 1 3 .ioc = .ok (after, secondOut) ∧
      book.addOrder 3 9 2 .sell 1 (3 + 3) .ioc = .ok (whole, wholeOut) ∧
      after.fifo = whole.fifo ∧
      mergeFills ((firstOut.trades ++ secondOut.trades).map fillOf) =
        mergeFills (wholeOut.trades.map fillOf) ∧ firstOut.remainingQty.toNat +
          secondOut.remainingQty.toNat = wholeOut.remainingQty.toNat := by
  have facts : ((run matchCall oneTick
      [.add 1 7 1 .buy 1 5 .gtc, .add 2 8 1 .buy 1 4 .gtc]).toOption.map fun result =>
        (result.1.priceInBand 1, result.1.contains 9, result.1.contains 10)) =
      some (true, false, false) := by decide +kernel
  obtain ⟨⟨book, answers⟩, ran, read⟩ := ok_of_map facts
  obtain ⟨inBand, free⟩ := Prod.mk.inj read
  obtain ⟨free, free'⟩ := Prod.mk.inj free
  obtain ⟨middle, firstOut, after, secondOut, whole, wholeOut, split⟩ :=
    ioc_split oneTick_created (by decide +kernel)
    ran .sell inBand (show (3 : Qty) ≠ 0 by decide) (show (3 : Qty) ≠ 0 by decide)
      (by decide) free free' free 3 4 3 2 2 2
  exact ⟨book, answers, middle, firstOut, after, secondOut, whole, wholeOut, ran, split⟩

/-- After the calls that link an ask to itself, an order of two units is never
answered, so it does not end as two orders of one unit. -/
theorem ioc_split_diverges_at_exhaustion :
    OrderBook.create 1 { minPrice := 1, maxPrice := 1 } = .ok oneTick ∧
    ∃ calls book answers id, run matchCall oneTick calls = .ok (book, answers) ∧
    book.priceInBand 1 = true ∧ book.contains id = false ∧
    (∀ fuel, matchLoop 0 id .buy 1 fuel book { remainingQty := 1 + 1 } = .error .divergence) ∧
      book.addOrder 0 id 0 .buy 1 (1 + 1) .ioc = .error .divergence := by
  obtain ⟨k, -, after, answers, ran, cyclic⟩ := run_cyclic (rfl : kNull.toNat = kNull.toNat)
  have isFresh : after.contains (UInt64.ofNat (kNull.toNat + 3 + 1)) = false :=
    contains_eq_false.mpr (cyclic.recycling.fresh _ (Nat.lt_succ_self _) (by decide))
  exact ⟨oneTick_created, _, after, _, _, ran, cyclic.recycling.tick.inBand, isFresh,
    cyclic.matching_diverges, cyclic.addOrder_diverges (by decide) 0 .ioc⟩

end Exsim.Core.OrderBook
