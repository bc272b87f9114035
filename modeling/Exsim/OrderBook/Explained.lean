import Exsim.OrderBook.Uncrossed
import Exsim.Reference.Follower

/-! # The events of a call make the same change elsewhere

A book with the same queues, whatever its slots, follows an engine's book from
the events alone, and is uncrossed after each of them.
-/

namespace Exsim.Core

open Data

namespace ArrivalBook

variable {book left right : ArrivalBook}

/-- A call tells its changes in its events. -/
theorem Sound.reported (sound : book.Sound) (call : MatchCall) :
    Reported book (book.matchCall call).2.events (book.matchCall call).1 := by
  cases call with
  | add => exact sound.reported_addOrder _ _ _ _ _ _ _
  | cancel seq id => exact reported_cancelOrder book seq id
  | replace => exact sound.reported_replaceOrder _ _ _ _ _ _ _ _

theorem SameQueues.uncrossed (same : SameQueues left right) (uncrossed : left.Uncrossed) :
    right.Uncrossed :=
  uncrossed.of_prices fun order member => ⟨order, same.mem_iff.mp member, rfl, rfl⟩

theorem SameQueues.length_eq (same : SameQueues left right) (leftSound : left.Sound)
    (rightSound : right.Sound) :
    right.orders.length = left.orders.length := by
  have nodup : ∀ {book : ArrivalBook}, book.Sound → book.orders.Nodup :=
    fun sound => List.Nodup.of_map _ sound.distinct
  exact ((List.perm_ext_iff_of_nodup (nodup rightSound) (nodup leftSound)).mpr fun order =>
    same.mem_iff).length_eq

end ArrivalBook

namespace OrderBook

/-- One event taken from the feed, and whether it could be applied. -/
def feed (book : OrderBook) (ev : MdEvent) : Exec (OrderBook × Bool) :=
  if ev.type = .add then book.feedAdd ev.orderId ev.accountId ev.side ev.price ev.qty
  else if ev.type = .execute then book.feedExecute ev.orderId ev.qty
  else if ev.type = .cancel then do
    let (book, cancelled) ← book.cancelOrder ev.seq ev.orderId
    .ok (book, cancelled.isSome)
  else .ok (book, false)

/-- No bid meets an ask, at the best prices or among the orders found. -/
structure Uncrossed (book : OrderBook) : Prop where
  best : ∀ bid ask, book.stats.bestBid = some bid → book.stats.bestAsk = some ask → bid < ask
  orders : ∀ bidId askId bid ask, book.find bidId = .ok (some bid) →
    book.find askId = .ok (some ask) → bid.side.isBuy = true → ask.side.isBuy = false →
    bid.price < ask.price

section

variable {book other after fresh : OrderBook} {ref left right told : ArrivalBook}
  {live : OrderId → Bool} {events : List MdEvent}

theorem Refines.uncrossed (refines : book.Refines ref) (uncrossed : ref.Uncrossed) :
    book.Uncrossed := by
  obtain ⟨queues, mirrors⟩ := refines
  obtain ⟨best, orders⟩ := mirrors.uncrossed uncrossed
  exact ⟨best, orders⟩

theorem feed_spec (refines : book.Refines ref) (ev : MdEvent)
    (room : ev.type = .add → ref.orders.length < kNull.toNat) :
    ∃ after, book.feed ev = .ok (after, (ref.feed ev).2) ∧
    Follows book after ref (ref.feed ev).1 := by
  rw [OrderBook.feed, ArrivalBook.feed]
  split
  · rename_i isAdd
    exact feedAdd_spec refines (room isAdd) ev.orderId ev.accountId ev.side ev.price ev.qty
  · split
    · obtain ⟨after, ran, shrinks⟩ := feedExecute_spec refines ev.orderId ev.qty
      exact ⟨after, ran, shrinks.follows⟩
    · split
      · obtain ⟨after, ran, shrinks⟩ := cancelOrder_spec refines ev.seq ev.orderId
        rw [ran]
        exact ⟨after, rfl, shrinks.follows⟩
      · exact ⟨book, rfl, .refl refines⟩

/-- The queues of a book are those of its list. -/
theorem sameQueues_of_fifo (left : book.Refines ref) (right : other.Refines told)
    (same : SameLadder book other) (fifo : other.fifo = book.fifo) :
    ArrivalBook.SameQueues ref told := by
  have band : told.priceInBand = ref.priceInBand := by
    funext price
    rw [← left.priceInBand, ← right.priceInBand, same.priceInBand]
  refine ⟨by rw [← left.symbolId, ← right.symbolId, same.symbolId], band, fun isBuy price => ?_⟩
  obtain ⟨queues, mirrors⟩ := left
  obtain ⟨queues', mirrors'⟩ := right
  by_cases inBand : book.priceInBand price = true
  · rw [← mirrors.sameOrders.queues isBuy price inBand,
      ← mirrors'.sameOrders.queues isBuy price (by rw [same.priceInBand]; exact inBand),
      fifo, same.levelOf]
  · have outside : ∀ orders : Arrivals, (∀ order ∈ orders, book.priceInBand order.price = true) →
        orders.filter (fun order => order.side.isBuy = isBuy ∧ order.price = price) = [] := by
      intro orders within
      rw [List.filter_eq_nil_iff]
      intro order member here
      rw [decide_eq_true_iff] at here
      rw [← here.2] at inBand
      exact inBand (within order member)
    rw [ArrivalBook.atPrice, ArrivalBook.atPrice, outside _ mirrors.inBand, outside]
    exact fun order member => by rw [← same.priceInBand]; exact mirrors'.inBand order member

/-- The price of a level. -/
theorem LadderOk.exists_price (ladder : LadderOk book) {i : Nat}
    (inside : i < book.levelCount.toNat) :
    ∃ price, book.priceInBand price = true ∧ book.levelOf price = i := by
  have limit := book.levelCount.toNat_lt
  have value : (UInt32.ofNat i).toNat = i := by
    rw [UInt32.toNat_ofNat', Nat.mod_eq_of_lt (by omega)]
  have within : (UInt32.ofNat i).toNat < book.levelCount.toNat := by
    rw [value]
    exact inside
  have place := ladder.indexToPrice_toInt within
  have span := ladder.span
  rw [value] at place
  refine ⟨book.indexToPrice (UInt32.ofNat i), priceInBand_iff.mpr ⟨?_, ?_⟩, ?_⟩
  · omega
  · omega
  · rw [levelOf, place]
    omega

theorem fifo_of_sameQueues (left : book.Refines ref) (right : other.Refines told)
    (same : SameLadder book other) (queues : ArrivalBook.SameQueues ref told) :
    other.fifo = book.fifo := by
  obtain ⟨slots, mirrors⟩ := left
  obtain ⟨slots', mirrors'⟩ := right
  funext isBuy i
  by_cases inside : i < book.levelCount.toNat
  · obtain ⟨price, inBand, level⟩ := mirrors.rep.ladder.exists_price inside
    have there := mirrors'.sameOrders.queues isBuy price (by rw [same.priceInBand]; exact inBand)
    have here := mirrors.sameOrders.queues isBuy price inBand
    rw [same.levelOf, level] at there
    rw [level] at here
    rw [there, here, queues.queues]
  · rw [mirrors.fifo_beyond isBuy inside,
      mirrors'.fifo_beyond isBuy (by rw [same.levelCount]; exact inside)]

/-- A book with the queues of `left` follows events that tell how `left` came to
be `told`, as long as only the last can be an add. -/
theorem follow {book : OrderBook} {right : ArrivalBook}
    (tells : ArrivalBook.Tells live left events told)
    (same : ArrivalBook.SameQueues left right) (leftSound : left.Sound) (rightSound : right.Sound)
    (refines : book.Refines right) (room : events ≠ [] → right.orders.length < kNull.toNat)
    (addsLast : ∀ ev ∈ events.dropLast, ev.removes = true) (before : left.Uncrossed)
    (after : told.Uncrossed) :
    ∃ final right', run feed book events = .ok (final, events.map fun _ => true) ∧
    final.Refines right' ∧ ArrivalBook.SameQueues told right' ∧ SameLadder book final ∧
      ∀ front back, events = front ++ back → ∃ middle oks, run feed book front = .ok (middle, oks) ∧
      middle.Uncrossed := by
  induction tells generalizing book right with
  | nil =>
      refine ⟨book, right, rfl, refines, same, .refl book, fun front back split => ?_⟩
      obtain ⟨rfl, -⟩ := List.append_eq_nil_iff.mp split.symm
      exact ⟨book, [], rfl, refines.uncrossed (same.uncrossed before)⟩
  | @cons left ev middle events told head tail ih =>
      obtain ⟨ok, same'⟩ := same.feed leftSound rightSound ev
      have here := room (List.cons_ne_nil ev events)
      obtain ⟨next, fed, follows⟩ := feed_spec refines ev fun _ => here
      have kept := leftSound.feed ev
      rw [head.feed] at ok same' kept
      rw [ok] at fed
      -- Unless this event is the last one it removes, so the middle book is uncrossed and has room.
      have settled : middle.Uncrossed ∧
          (events ≠ [] → (right.feed ev).1.orders.length < kNull.toNat) := by
        cases tail with
        | nil => exact ⟨after, fun impossible => absurd rfl impossible⟩
        | @cons _ other _ rest =>
            have removes : ev.removes = true := addsLast ev (by
              rw [List.dropLast_cons_of_ne_nil (List.cons_ne_nil other rest)]
              exact List.mem_cons_self)
            have prices := (left.feed_removes removes).2
            rw [head.feed] at prices
            exact ⟨before.of_prices prices,
              fun _ => Nat.lt_of_le_of_lt (right.feed_removes removes).1 here⟩
      have addsLast : ∀ other ∈ events.dropLast, other.removes = true :=
        fun other member => addsLast other (by
          cases events with
          | nil => cases member
          | cons first rest =>
              rw [List.dropLast_cons_of_ne_nil (List.cons_ne_nil first rest)]
              exact List.mem_cons_of_mem ev member)
      obtain ⟨final, right', ran, refines', queues, ladder, prefixes⟩ :=
        ih same' kept (rightSound.feed ev) follows.refines settled.2 addsLast settled.1 after
      refine ⟨final, right', run_cons fed ran, refines', queues, follows.ladder.trans ladder,
        fun front back split => ?_⟩
      cases front with
      | nil => exact ⟨book, [], rfl, refines.uncrossed (same.uncrossed before)⟩
      | cons first front =>
          obtain ⟨rfl, rest⟩ := List.cons.inj split
          obtain ⟨last, oks, reached, uncrossed⟩ := prefixes front back rest
          exact ⟨last, true :: oks, run_cons fed reached, uncrossed⟩

theorem run_call_tracks {symbolId : SymbolId} {ladder : PriceLadderConfig} {calls : List BookCall}
    (created : OrderBook.create symbolId ladder = .ok fresh)
    (room : Along OrderBook.call (fun book _ => book.stats.liveOrders < 2 ^ 32 - 1) fresh calls) :
    ∃ after, run OrderBook.call fresh calls =
      .ok (after, (trace ArrivalBook.call fresh.blank calls).2) ∧
      SameLadder fresh after ∧ after.Tracks (trace ArrivalBook.call fresh.blank calls).1 := by
  have simulate : ∀ (book : OrderBook) (ref : ArrivalBook) (call : BookCall),
      SameLadder fresh book ∧ book.Tracks ref → book.stats.liveOrders < 2 ^ 32 - 1 →
      ∃ after, book.call call = .ok (after, (ref.call call).2) ∧ SameLadder fresh after ∧
      after.Tracks (ref.call call).1 := by
    intro book ref call ⟨ladder, refines, sound⟩ room
    rw [refines.liveOrders] at room
    obtain ⟨after, ran, follows⟩ := call_spec refines room call
    exact ⟨after, ran, ladder.trans follows.ladder, follows.refines, sound.call call⟩
  exact run_simulation simulate ⟨.refl fresh, create_tracks created⟩ room

/-- While fewer than `2^32 - 1` orders rest before each call, every call on a
book reached is explained by its events: fed to any book reached with the same
queues, each is applied, the queues end the same, and no prefix leaves the other
book crossed. -/
theorem matchCall_explained {symbolId : SymbolId} {ladder : PriceLadderConfig}
    {fresh book other : OrderBook} {calls : List MatchCall} {call : MatchCall}
    {others : List BookCall} {answers : List MatchAnswer}
    {otherAnswers : List BookAnswer} (created : OrderBook.create symbolId ladder = .ok fresh)
    (room : Along matchCall (fun book _ => book.stats.liveOrders < 2 ^ 32 - 1) fresh
      (calls ++ [call])) (ran : run matchCall fresh calls = .ok (book, answers))
    (otherRoom : Along OrderBook.call (fun book _ => book.stats.liveOrders < 2 ^ 32 - 1)
      fresh others) (otherRan : run OrderBook.call fresh others = .ok (other, otherAnswers))
    (same : other.fifo = book.fifo) :
    ∃ after answer, book.matchCall call = .ok (after, answer) ∧
      (∃ final, run feed other answer.events = .ok (final, answer.events.map fun _ => true) ∧
        final.fifo = after.fifo) ∧ ∀ front back, answer.events = front ++ back →
        ∃ middle oks, run feed other front = .ok (middle, oks) ∧ middle.Uncrossed := by
  obtain ⟨before, last⟩ := (along_append ran).mp room
  obtain ⟨left, ranLeft, leftLadder, leftTracks⟩ := run_tracks created before
  obtain ⟨right, ranRight, rightLadder, rightTracks⟩ := run_call_tracks created otherRoom
  have uncrossed := trace_uncrossed fresh calls
  obtain ⟨rfl, -⟩ := Prod.mk.inj (Except.ok.inj (ranLeft.symm.trans ran))
  obtain ⟨rfl, -⟩ := Prod.mk.inj (Except.ok.inj (ranRight.symm.trans otherRan))
  have ladders : SameLadder left right := leftLadder.symm.trans rightLadder
  have queues := sameQueues_of_fifo leftTracks.1 rightTracks.1 ladders same
  have small : left.stats.liveOrders < 2 ^ 32 - 1 := last.1
  rw [leftTracks.1.liveOrders] at small
  obtain ⟨after, called, follows⟩ := matchCall_spec leftTracks.1 small call
  have reported := leftTracks.2.reported call
  obtain ⟨final, told, fed, refines, ends, kept, prefixes⟩ :=
    follow (reported.tells _ fun _ _ _ => rfl) queues leftTracks.2
    rightTracks.2 rightTracks.1
      (fun _ => by rw [queues.length_eq leftTracks.2 rightTracks.2]; exact small)
    reported.addsLast uncrossed (uncrossed.matchCall leftTracks.2 call)
  have ladders' : SameLadder after final := follows.ladder.symm.trans (ladders.trans kept)
  exact ⟨after, _, called, ⟨final, fed, fifo_of_sameQueues follows.refines refines ladders' ends⟩,
    prefixes⟩

/-- A sweep and a rest, followed by a book that keeps its order in another slot. -/
theorem matchCall_explained_oneTick : ∃ (book other after : OrderBook) (answer : MatchAnswer),
    book.matchCall (.add 2 8 2 .sell 1 9 .gtc) = .ok (after, answer) ∧
      (∃ final, run feed other answer.events = .ok (final, answer.events.map fun _ => true) ∧
        final.fifo = after.fifo) ∧ ∀ front back, answer.events = front ++ back →
        ∃ middle oks, run feed other front = .ok (middle, oks) ∧ middle.Uncrossed := by
  have room : Along matchCall (fun book _ => book.stats.liveOrders < 2 ^ 32 - 1) oneTick
      ([.add 1 7 1 .buy 1 5 .gtc] ++ [.add 2 8 2 .sell 1 9 .gtc]) := by decide +kernel
  have before : Along matchCall (fun book _ => book.stats.liveOrders < 2 ^ 32 - 1) oneTick
      [.add 1 7 1 .buy 1 5 .gtc] := by
    decide +kernel
  have otherRoom : Along OrderBook.call (fun book _ => book.stats.liveOrders < 2 ^ 32 - 1) oneTick
      [.feedAdd 9 1 .buy 1 4, .feedAdd 7 1 .buy 1 5, .matching (.cancel 3 9)] := by decide +kernel
  obtain ⟨book, ran, ladder, refines, -⟩ := run_tracks oneTick_created before
  obtain ⟨other, otherRan, otherLadder, otherRefines, -⟩ :=
    run_call_tracks oneTick_created otherRoom
  have same : other.fifo = book.fifo := refines.fifo_eq otherRefines (ladder.symm.trans otherLadder)
  obtain ⟨after, answer, explained⟩ :=
    matchCall_explained oneTick_created room ran otherRoom otherRan same
  exact ⟨book, other, after, answer, explained⟩

theorem run_matching {calls : List MatchCall} {answers : List MatchAnswer}
    (ran : run matchCall book calls = .ok (after, answers)) :
    run OrderBook.call book (calls.map .matching) = .ok (after, answers.map .matched) := by
  induction calls generalizing book answers with
  | nil =>
      obtain ⟨rfl, rfl⟩ := Prod.mk.inj (Except.ok.inj ran)
      rfl
  | cons call calls ih =>
      obtain ⟨middle, answer, rest, stepped, tail, rfl⟩ := run_cons_ok ran
      have called : book.call (.matching call) = .ok (middle, .matched answer) := by
        rw [OrderBook.call, stepped]
        rfl
      exact run_cons called (ih tail)

/-- Where nothing crosses, a book follows its own add. -/
theorem feed_addOrder {seq : SeqNo} {id : OrderId} {accountId : AccountId} {side : Side}
    {price : Price} {qty : Qty} {answer : MatchAnswer} (quiet : book.crosses side price = false)
    (added : book.matchCall (.add seq id accountId side price qty .gtc) = .ok (after, answer)) :
    run feed book answer.events = .ok (after, answer.events.map fun _ => true) := by
  have stopped :
      matchLoop seq id side price (qty.toNat + book.nodes.size) book { remainingQty := qty } =
      .ok (book, { remainingQty := qty }) := matchLoop_stopped (by rw [quiet, Bool.and_false])
  rw [OrderBook.matchCall, OrderBook.addOrder, stopped] at added
  split at added
  · obtain ⟨rfl, rfl⟩ := Prod.mk.inj (Except.ok.inj added)
    rfl
  · rename_i positive
    split at added
    · obtain ⟨rfl, rfl⟩ := Prod.mk.inj (Except.ok.inj added)
      rfl
    · rename_i inBand
      split at added
      · obtain ⟨rfl, rfl⟩ := Prod.mk.inj (Except.ok.inj added)
        rfl
      · rename_i fresh
        have remains : decide (qty > 0) = true :=
          decide_eq_true (UInt32.pos_iff_ne_zero.mpr positive)
        simp only [↓reduceIte, exec_ok_bind, remains, decide_true, Bool.and_self] at added
        cases allocated : book.allocNode id accountId side price qty with
        | error fault => rw [allocated] at added; cases added
        | ok result =>
            rw [allocated, exec_ok_bind] at added
            cases appended : result.1.appendToLevel result.2 with
            | error fault => rw [appended] at added; cases added
            | ok final =>
                rw [appended, exec_ok_bind] at added
                obtain ⟨rfl, rfl⟩ := Prod.mk.inj (Except.ok.inj added)
                have followed : ∀ seq symbolId, book.feed
                    { seq, type := .add, symbolId, orderId := id, accountId, side, price, qty } =
                    .ok (final, true) := by
                  intro seq symbolId
                  simp only [OrderBook.feed, OrderBook.feedAdd, fresh, positive, inBand,
                    decide_false, Bool.or_false, Bool.false_eq_true,
                    ↓reduceIte, allocated, exec_ok_bind, appended]
                exact run_cons (followed _ _) run_nil

/-- Bids that fill the pool, one more and a cancel of the oldest. -/
def droppingCalls (count : Nat) : List MatchCall := buys (count + 1) ++ [.cancel 0 0]

theorem droppingCalls_cross {count : Nat} (full : count = kNull.toNat) :
    ∃ (book after final : OrderBook) (answers : List MatchAnswer) (answer : MatchAnswer),
      run matchCall oneTick (droppingCalls count) = .ok (book, answers) ∧
      book.matchCall (.add 0 (UInt64.ofNat (count + 1)) 0 .sell 1 1 .gtc) = .ok (after, answer) ∧
      run feed book answer.events = .ok (final, answer.events.map fun _ => true) ∧
      ¬ final.Uncrossed := by
  have many : 2 ≤ count := by
    rw [full]
    decide
  have small : count + 1 < 2 ^ 64 := by
    rw [full]
    decide
  obtain ⟨before, queues, overflown, outputs, bid, mirrors, ran, -, overflowed⟩ := run_overflow full
  obtain ⟨book, ev, oldest, second, cancelled, dropped⟩ := overflowed.cancel mirrors many (by omega)
  obtain ⟨after, out, ask, sold, bidFound, askFound, askSide, askPrice⟩ :=
    dropped.sell mirrors small many
  refine ⟨book, after, after, _, .output out, run_append ran (run_cons cancelled run_nil), sold,
    feed_addOrder dropped.quiet sold, fun uncrossed => ?_⟩
  have below := uncrossed.orders _ _ _ _ bidFound askFound rfl (by rw [askSide]; rfl)
  rw [askPrice] at below
  exact absurd below (by decide)

/-- After `2^32` bids and the cancel of the oldest, a book that follows its own
next ask holds that ask beside a bid at the same price. -/
theorem follower_crosses_at_exhaustion :
    OrderBook.create 1 { minPrice := 1, maxPrice := 1 } = .ok oneTick ∧
    ∃ (book after final : OrderBook) (answers : List MatchAnswer) (answer : MatchAnswer),
      run matchCall oneTick (droppingCalls (2 ^ 32 - 1)) = .ok (book, answers) ∧
      run OrderBook.call oneTick ((droppingCalls (2 ^ 32 - 1)).map .matching) =
        .ok (book, answers.map .matched) ∧
        book.matchCall (.add 0 (2 ^ 32) 0 .sell 1 1 .gtc) = .ok (after, answer) ∧
      run feed book answer.events = .ok (final, answer.events.map fun _ => true) ∧
      ¬ final.Uncrossed := by
  have count : 2 ^ 32 - 1 = kNull.toNat := by decide
  have id : (2 ^ 32 : OrderId) = UInt64.ofNat (kNull.toNat + 1) := by decide
  obtain ⟨book, after, final, answers, answer, ran, called, fed, crossed⟩ :=
    droppingCalls_cross (rfl : kNull.toNat = kNull.toNat)
  rw [count, id]
  exact ⟨oneTick_created, book, after, final, answers, answer, ran, run_matching ran, called,
    fed, crossed⟩

end

end OrderBook

end Exsim.Core
