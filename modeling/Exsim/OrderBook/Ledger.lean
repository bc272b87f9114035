import Exsim.OrderBook.Explained
import Exsim.Reference.Ledger

/-! # The quantity ledger of a book -/

namespace Exsim.Core

open Data

namespace ArrivalBook

/-- The events of a run explain what its calls leave. -/
theorem explains_trace {book : ArrivalBook} (sound : book.Sound) (calls : List MatchCall) :
    Explains book ((trace matchCall book calls).2.flatMap MatchAnswer.events)
      (trace matchCall book calls).1 := by
  induction calls generalizing book with
  | nil => exact .nil
  | cons call calls ih =>
      have told := ((sound.reported call).tells _ fun _ _ _ => rfl).explains
      rw [trace_cons, List.flatMap_cons]
      exact told.append (ih (sound.matchCall call))

end ArrivalBook

namespace OrderBook

/-- The quantity under an id in the queue of a price. -/
def queuedQty (book : OrderBook) (id : OrderId) (side : Side) (price : Price) : Nat :=
  (((book.fifo side.isBuy (book.levelOf price)).filter fun order => order.orderId = id).map
    fun order => order.qty.toNat).sum

variable {book after : OrderBook} {seq : SeqNo} {orderId aggressor : OrderId}
  {accountId : AccountId} {side : Side} {price : Price}
  {qty : Qty} {tif : TimeInForce} {out out' : MatchOutput}

/-- The quantity of the trades of an output. -/
def tradedQty (trades : List Trade) : Nat := (trades.map fun trade => trade.qty.toNat).sum

/-- Filling the head of a level trades what it takes, and adds nothing. -/
theorem executeHead_output {isBuy : Bool} {idx slot : UInt32} {done : Qty}
    (ran : book.executeHead seq isBuy idx slot qty out aggressor = .ok (after, out', done)) :
    done ≤ qty ∧ out'.remainingQty = out.remainingQty ∧
    tradedQty out'.trades = tradedQty out.trades + done.toNat ∧
      ∀ id, toldQty .add id out'.mdEvents = toldQty .add id out.mdEvents := by
  rw [OrderBook.executeHead] at ran
  obtain ⟨resting, -, ran⟩ := exec_bind_eq_ok ran
  obtain ⟨filled, -, ran⟩ := exec_bind_eq_ok ran
  obtain ⟨level, -, ran⟩ := exec_bind_eq_ok ran
  obtain ⟨lowered, -, ran⟩ := exec_bind_eq_ok ran
  have least : min resting.qty qty ≤ qty := by
    rw [UInt32.le_iff_toNat_le, toNat_min]
    exact Nat.min_le_right _ _
  have known : ∀ (trade : Trade) (ev : MdEvent), trade.qty = min resting.qty qty →
      ev.type = .execute → min resting.qty qty ≤ qty ∧ out.remainingQty = out.remainingQty ∧
        tradedQty (out.trades ++ [trade]) = tradedQty out.trades + (min resting.qty qty).toNat ∧
        ∀ id, toldQty .add id (out.mdEvents ++ [ev]) = toldQty .add id out.mdEvents := by
    intro trade ev traded type
    have notAdd : ¬MdType.execute = .add := by decide
    refine ⟨least, rfl, ?_, fun id => ?_⟩
    · simp [tradedQty, traded]
    · simp [toldQty, type, notAdd]
  split at ran
  · obtain ⟨removed, -, ran⟩ := exec_bind_eq_ok ran
    obtain ⟨-, same⟩ := Prod.mk.inj (Except.ok.inj ran)
    obtain ⟨rfl, rfl⟩ := Prod.mk.inj same
    exact known _ _ rfl rfl
  · obtain ⟨-, same⟩ := Prod.mk.inj (Except.ok.inj ran)
    obtain ⟨rfl, rfl⟩ := Prod.mk.inj same
    exact known _ _ rfl rfl

/-- What the matching loop takes from an order is what it trades. -/
theorem matchLoop_balance {fuel : Nat}
    (ran : matchLoop seq aggressor side price fuel book out = .ok (after, out')) :
    tradedQty out'.trades + out'.remainingQty.toNat =
      tradedQty out.trades + out.remainingQty.toNat ∧
      ∀ id, toldQty .add id out'.mdEvents = toldQty .add id out.mdEvents := by
  induction fuel generalizing book out with
  | zero =>
      rw [matchLoop] at ran
      split at ran
      · cases ran
      · obtain ⟨-, rfl⟩ := Prod.mk.inj (Except.ok.inj ran)
        exact ⟨rfl, fun _ => rfl⟩
  | succ fuel ih =>
      rw [matchLoop] at ran
      split at ran
      · split at ran
        · cases ran
        · obtain ⟨level, -, ran⟩ := exec_bind_eq_ok ran
          obtain ⟨⟨middle, partOut, done⟩, filled, ran⟩ := exec_bind_eq_ok ran
          obtain ⟨enough, remaining, traded, adds⟩ := executeHead_output filled
          obtain ⟨balance, rest⟩ := ih ran
          have taken : (partOut.remainingQty - done).toNat =
              partOut.remainingQty.toNat - done.toNat :=
            UInt32.toNat_sub_of_le _ _ (by rw [remaining]; exact enough)
          rw [UInt32.le_iff_toNat_le] at enough
          refine ⟨?_, fun id => (rest id).trans (adds id)⟩
          dsimp only at balance
          rw [balance, traded, taken, remaining]
          omega
      · obtain ⟨-, rfl⟩ := Prod.mk.inj (Except.ok.inj ran)
        exact ⟨rfl, fun _ => rfl⟩

/-- The quantity of an add is traded, rests or is handed back. -/
theorem addOrder_balance
    (ran : book.addOrder seq orderId accountId side price qty tif = .ok (after, out)) :
    qty.toNat = tradedQty out.trades + toldQty .add orderId out.mdEvents +
      out.remainingQty.toNat := by
  have refused : qty.toNat = tradedQty [] + toldQty .add orderId [] + qty.toNat := by
    simp [tradedQty, toldQty]
  rw [OrderBook.addOrder] at ran
  split at ran
  · obtain ⟨-, rfl⟩ := Prod.mk.inj (Except.ok.inj ran)
    exact refused
  · split at ran
    · obtain ⟨-, rfl⟩ := Prod.mk.inj (Except.ok.inj ran)
      exact refused
    · split at ran
      · obtain ⟨-, rfl⟩ := Prod.mk.inj (Except.ok.inj ran)
        exact refused
      · obtain ⟨⟨middle, matched⟩, loop, ran⟩ := exec_bind_eq_ok ran
        obtain ⟨balance, adds⟩ := matchLoop_balance loop
        have start : tradedQty [] + qty.toNat = qty.toNat := by simp [tradedQty]
        have none : toldQty .add orderId matched.mdEvents = 0 := adds orderId
        dsimp only at balance ran
        split at ran
        · obtain ⟨⟨allocated, slot⟩, -, ran⟩ := exec_bind_eq_ok ran
          obtain ⟨final, -, ran⟩ := exec_bind_eq_ok ran
          obtain ⟨-, rfl⟩ := Prod.mk.inj (Except.ok.inj ran)
          have rests : toldQty .add orderId (matched.mdEvents ++ [{
              seq, type := .add, symbolId := final.symbolId, orderId, accountId, side, price
              qty := matched.remainingQty }]) = toldQty .add orderId matched.mdEvents +
              matched.remainingQty.toNat := by
            simp [toldQty]
          dsimp only
          rw [rests, none]
          simp
          omega
        · obtain ⟨-, rfl⟩ := Prod.mk.inj (Except.ok.inj ran)
          omega

/-- While fewer than `2^32 - 1` orders rest before each call, the quantity of
every add of a run is accounted for by the events after it and what still rests;
and the quantity of every add that returns is traded, rests or is handed back. -/
theorem quantity_ledger :
    (∀ {symbolId : SymbolId} {ladder : PriceLadderConfig} {fresh : OrderBook}
      {calls : List MatchCall}, OrderBook.create symbolId ladder = .ok fresh →
      Along matchCall (fun book _ => book.stats.liveOrders < 2 ^ 32 - 1) fresh calls →
      ∃ after answers, run matchCall fresh calls = .ok (after, answers) ∧
        ∀ front add back, answers.flatMap MatchAnswer.events = front ++ add :: back →
        add.type = .add →
        Accounted add.orderId add.qty.toNat back (after.queuedQty add.orderId add.side add.price)) ∧
    ∀ {book after : OrderBook} {seq : SeqNo} {orderId : OrderId} {accountId : AccountId}
      {side : Side} {price : Price} {qty : Qty} {tif : TimeInForce} {out : MatchOutput},
      book.addOrder seq orderId accountId side price qty tif = .ok (after, out) →
      qty.toNat = tradedQty out.trades + toldQty .add orderId out.mdEvents +
        out.remainingQty.toNat := by
  refine ⟨?_, addOrder_balance⟩
  intro symbolId ladder fresh calls created room
  obtain ⟨after, ran, same, refines, -⟩ := run_tracks created room
  refine ⟨after, _, ran, fun front add back split added => ?_⟩
  have blank := (create_tracks created).2
  have explains := ArrivalBook.explains_trace blank calls
  rw [split] at explains
  obtain ⟨inBand, accounted⟩ := explains.ledger blank added
  have here : after.priceInBand add.price = true := by
    rw [refines.priceInBand, explains.band]
    exact inBand
  obtain ⟨queues, mirrors⟩ := refines
  rw [queuedQty, mirrors.sameOrders.queues _ _ here]
  exact accounted

/-- A partial fill, a replace that reuses the id and a sweep that leaves a remainder. -/
theorem quantity_ledger_oneTick :
    (∃ after answers, run matchCall oneTick
      [.add 1 7 1 .buy 1 5 .gtc, .add 2 8 2 .sell 1 3 .gtc, .replace 3 7 7 1 .buy 1 4 .gtc,
        .add 4 9 2 .sell 1 6 .gtc] = .ok (after, answers) ∧
      ∀ front add back, answers.flatMap MatchAnswer.events = front ++ add :: back →
      add.type = .add →
      Accounted add.orderId add.qty.toNat back (after.queuedQty add.orderId add.side add.price)) ∧
    ∀ after out, oneTick.addOrder 1 7 1 .buy 1 5 .gtc = .ok (after, out) →
      (5 : Qty).toNat = tradedQty out.trades + toldQty .add 7 out.mdEvents +
        out.remainingQty.toNat :=
  ⟨quantity_ledger.1 oneTick_created (by decide +kernel), fun _ _ added => quantity_ledger.2 added⟩

theorem buys_lose_quantity {count : Nat} (full : count = kNull.toNat) :
    ∃ after answers front add, run matchCall oneTick (buys (count + 1)) = .ok (after, answers) ∧
      answers.flatMap MatchAnswer.events = front ++ add :: [] ∧ add.type = .add ∧
      ¬ Accounted add.orderId add.qty.toNat []
        (after.queuedQty add.orderId add.side add.price) := by
  have bound : count < 2 ^ 64 := by
    rw [full]
    decide
  obtain ⟨book, queues, after, outputs, out, mirrors, ran, told, overflowed⟩ := run_overflow full
  obtain ⟨-, walked⟩ := overflowed.listed mirrors
  refine ⟨after, _, outputs.flatMap MatchAnswer.events,
    (boughtBook count).eventOf 0 .add (bought count) 1, ran, ?_, rfl, ?_⟩
  · rw [List.flatMap_append, List.flatMap_singleton, MatchAnswer.events, told]
  · intro accounted
    obtain ⟨fills, withdrawal, life, -, -, balance⟩ := accounted
    obtain ⟨rfl, nothing⟩ := List.append_eq_nil_iff.mp life.symm
    have fresh : (boughtBook count).holds (UInt64.ofNat count) = false :=
      bidBook_fresh (Nat.le_refl _) bound
    rw [ArrivalBook.holds, Keyed.holds_eq_false] at fresh
    have gone : after.queuedQty (UInt64.ofNat count) .buy 1 = 0 := by
      rw [queuedQty, show Side.buy.isBuy = true from rfl, walked, List.filter_eq_nil_iff.mpr]
      · rfl
      · intro order member
        simpa using fresh order member
    have none : withdrawal = none := Option.toList_eq_nil_iff.mp nothing
    change 1 = (List.map _ []).sum + (withdrawal.map _).getD 0 +
      after.queuedQty (UInt64.ofNat count) .buy 1 at balance
    rw [none, gone] at balance
    cases balance

/-- Of `2^32` bids the last is neither traded, nor cancelled, nor in the queue. -/
theorem ledger_fails_at_exhaustion :
    OrderBook.create 1 { minPrice := 1, maxPrice := 1 } = .ok oneTick ∧
    ∃ after answers front add, run matchCall oneTick (buys (2 ^ 32)) = .ok (after, answers) ∧
      answers.flatMap MatchAnswer.events = front ++ add :: [] ∧ add.type = .add ∧
      ¬ Accounted add.orderId add.qty.toNat []
        (after.queuedQty add.orderId add.side add.price) := by
  have count : 2 ^ 32 = kNull.toNat + 1 := by decide
  rw [count]
  exact ⟨oneTick_created, buys_lose_quantity rfl⟩

end OrderBook

end Exsim.Core
