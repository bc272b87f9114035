import Exsim.OrderBook.Cycle
import Exsim.OrderBook.Explained
import Exsim.OrderBook.Resting

/-! # The rounds of the matching loop

A run of the loop as the list of its iterations.  Each fills the head of the best
opposite level; all but the last use it up, so there are no more of them than
opposite orders that the limit crosses.
-/

namespace Exsim.Core

open Data

/-- The opposite orders whose price an order's limit crosses. -/
def Arrivals.crossed (side : Side) (limit : Price) (orders : Arrivals) : Arrivals :=
  orders.filter fun order => order.side.isBuy = (!side.isBuy) ∧
    Arrivals.asGood (!side.isBuy) order.price limit

namespace OrderBook

/-- One iteration: the head of the best opposite level, its quantity, and what was executed. -/
structure Round where
  slot : UInt32
  resting : Qty
  done : Qty
deriving DecidableEq, Repr

/-- The iterations the loop makes until it ends.  Every vector access of an
iteration is one of these successful steps. -/
inductive Rounds (seq : SeqNo) (aggressor : OrderId) (side : Side) (price : Price) :
    OrderBook → MatchOutput → List Round → OrderBook → MatchOutput → Prop
  | ends {book : OrderBook} {out : MatchOutput}
      (stopped : (out.remainingQty > 0 && book.crosses side price) = false) :
      Rounds seq aggressor side price book out [] book out
  | round {book after final : OrderBook} {out filled last : MatchOutput} {idxLevel : UInt32}
      {level : Level} {n : Node} {done : Qty} {rounds : List Round}
      (going : (out.remainingQty > 0 && book.crosses side price) = true)
      (best : (book.half !side.isBuy).bestIdx = some idxLevel)
      (readLevel : book.levelFor (!side.isBuy) idxLevel = .ok level)
      (readHead : book.node level.head = .ok n) (executed :
        book.executeHead seq (!side.isBuy) idxLevel level.head out.remainingQty out aggressor =
        .ok (after, filled, done))
      (rest : Rounds seq aggressor side price after
        { filled with remainingQty := filled.remainingQty - done } rounds final last) :
      Rounds seq aggressor side price book out
        ({ slot := level.head, resting := n.qty, done } :: rounds) final last

section

variable {book after final : OrderBook} {ref : ArrivalBook} {seq : SeqNo} {aggressor : OrderId}
  {side : Side} {price : Price}
  {out last : MatchOutput} {rounds : List Round} {orders : Arrivals} {order : RestingOrderView}

/-- The loop does what its rounds do, given steps for them. -/
theorem Rounds.matchLoop (made : Rounds seq aggressor side price book out rounds final last)
    {fuel : Nat} (enough : rounds.length ≤ fuel) :
    matchLoop seq aggressor side price fuel book out = .ok (final, last) := by
  induction made generalizing fuel with
  | ends stopped => exact matchLoop_stopped stopped
  | round going best readLevel readHead executed rest ih =>
      cases fuel with
      | zero => cases enough
      | succ fuel =>
          rw [OrderBook.matchLoop, if_pos going, best]
          dsimp only
          rw [readLevel, exec_ok_bind, executed, exec_ok_bind]
          exact ih (Nat.le_of_succ_le_succ enough)

theorem mem_crossed : order ∈ orders.crossed side price ↔
    order ∈ orders ∧ order.side.isBuy = (!side.isBuy) ∧
    Arrivals.asGood (!side.isBuy) order.price price = true := by
  rw [Arrivals.crossed, List.mem_filter, decide_eq_true_iff]

/-- Every round fills something, and every round but the last uses its order up. -/
structure Progress (rounds : List Round) : Prop where
  fills : ∀ round ∈ rounds, round.slot ≠ kNull ∧ 1 ≤ round.done
  completes : ∀ round ∈ rounds.dropLast, round.done = round.resting

theorem Progress.cons {round : Round} (proper : round.slot ≠ kNull) (fills : 1 ≤ round.done)
    (complete : round.done = round.resting)
    (progress : Progress rounds) : Progress (round :: rounds) := by
  refine ⟨List.forall_mem_cons.mpr ⟨⟨proper, fills⟩, progress.fills⟩, fun other member => ?_⟩
  cases rounds with
  | nil => cases member
  | cons next rounds =>
      rw [List.dropLast_cons_of_ne_nil (List.cons_ne_nil next rounds)] at member
      obtain rfl | member := List.mem_cons.mp member
      · exact complete
      · exact progress.completes other member

/-- A book that tracks resting orders is matched in at most as many rounds as the
limit crosses orders. -/
theorem Tracks.rounds_exist (tracks : book.Tracks ref) (seq : SeqNo) (aggressor : OrderId)
    (side : Side) (price : Price) (out : MatchOutput) :
    ∃ rounds final last, Rounds seq aggressor side price book out rounds final last ∧
      Progress rounds ∧ rounds.length ≤ (ref.orders.crossed side price).length := by
  induction counted : (ref.orders.crossed side price).length using Nat.strong_induction_on
    generalizing book ref out with
  | _ count ih =>
    obtain ⟨⟨queues, mirrors⟩, sound⟩ := tracks
    by_cases going : (out.remainingQty > 0 && book.crosses side price) = true
    · obtain ⟨unfilled, crosses⟩ := (Bool.and_eq_true _ _).mp going
      have unfilled := UInt32.pos_iff_ne_zero.mp (of_decide_eq_true unfilled)
      rw [mirrors.crosses] at crosses
      cases best : (book.half !side.isBuy).bestIdx with
      | none =>
          rw [mirrors.first_eq_none best, Option.any_none] at crosses
          cases crosses
      | some idxLevel =>
          obtain ⟨level, n, after, filled, done, readLevel, proper, readHead, first, executed,
              isDone, output, shrinks⟩ :=
            mirrors.executeHead best seq aggressor out
          rw [first, Option.any_some] at crosses
          obtain ⟨held, opposite⟩ := Arrivals.first_mem first
          have member : viewNode n ∈ ref.orders.crossed side price :=
            mem_crossed.mpr ⟨held, opposite, crosses⟩
          have resting : n.qty ≠ 0 := sound.positive (viewNode n) held
          have fills : 1 ≤ done := by
            rw [UInt32.le_iff_toNat_le, isDone, toNat_min]
            have some := UInt32.lt_iff_toNat_lt.mp (UInt32.pos_iff_ne_zero.mpr unfilled)
            have more := UInt32.lt_iff_toNat_lt.mp (UInt32.pos_iff_ne_zero.mpr resting)
            exact Nat.le_min.mpr ⟨more, some⟩
          by_cases used : n.qty ≤ out.remainingQty
          · -- The head is used up, and one order fewer is crossed.
            have whole : min n.qty out.remainingQty = n.qty := if_pos used
            have erased : (ref.trade seq aggressor (viewNode n) out).1 =
                { ref with
                  orders := Keyed.erase RestingOrderView.orderId n.orderId ref.orders } := by
              have filled : ref.orders.fill n.orderId (min n.qty out.remainingQty) =
                  if n.qty ≤ min n.qty out.remainingQty then
                  Keyed.erase RestingOrderView.orderId n.orderId ref.orders else _ :=
                    Arrivals.fill_of_mem sound.distinct held rfl
              rw [whole, if_pos (UInt32.le_refl n.qty)] at filled
              rw [ArrivalBook.trade]
              dsimp only
              rw [show (viewNode n).qty = n.qty from rfl, whole,
                show (viewNode n).orderId = n.orderId from rfl, filled]
            rw [erased] at shrinks
            have shorter : (Keyed.erase RestingOrderView.orderId n.orderId
                (ref.orders.crossed side price)).length + 1 =
                (ref.orders.crossed side price).length :=
              (sound.distinct.filter _).length_erase member
            have erasedCrossed : Arrivals.crossed side price
                (Keyed.erase RestingOrderView.orderId n.orderId ref.orders) =
                Keyed.erase RestingOrderView.orderId n.orderId (ref.orders.crossed side price) :=
              Keyed.filter_erase _
            have less : (Arrivals.crossed side price
                (Keyed.erase RestingOrderView.orderId n.orderId ref.orders)).length < count := by
              rw [erasedCrossed]
              omega
            obtain ⟨rounds, final, last, made, progress, few⟩ :=
              ih _ less ⟨shrinks.refines, sound.erase n.orderId⟩
              { filled with remainingQty := filled.remainingQty - done } rfl
            refine ⟨_, final, last, .round going best readLevel readHead executed made,
              progress.cons proper fills (isDone.trans whole), ?_⟩
            change rounds.length + 1 ≤ count
            exact Nat.lt_of_le_of_lt few less
          · -- The order is filled, so this round is the last.
            have whole : min n.qty out.remainingQty = out.remainingQty := if_neg used
            have remaining : filled.remainingQty - done = 0 := by
              have left := congrArg MatchOutput.remainingQty output
              rw [ArrivalBook.trade] at left
              exact left.trans
                (by rw [show (viewNode n).qty = n.qty from rfl, whole, UInt32.sub_self])
            refine ⟨_, after, _,
              .round going best readLevel readHead executed (.ends (by rw [remaining]; rfl)),
              ⟨?_, ?_⟩, ?_⟩
            · exact fun round listed => by
                rw [List.mem_singleton.mp listed]
                exact ⟨proper, fills⟩
            · exact fun round listed => absurd listed List.not_mem_nil
            · rw [← counted]
              exact List.length_pos_of_mem member
    · exact ⟨[], book, out, .ends (Bool.eq_false_iff.mpr going),
        ⟨fun _ member => absurd member List.not_mem_nil,
        fun _ member => absurd member List.not_mem_nil⟩,
        Nat.zero_le _⟩

/-- While fewer than `2^32 - 1` orders rest before each call, the matching loop
ends on every book reached and for every order: each round finds an order at the
head of the best opposite level and fills at least one unit, every round but the
last uses its order up, and there are at most as many as orders that the limit
crosses. -/
theorem matching_ends {symbolId : SymbolId} {ladder : PriceLadderConfig} {fresh book : OrderBook}
    {calls : List BookCall} {answers : List BookAnswer}
    (created : OrderBook.create symbolId ladder = .ok fresh)
    (room : Along OrderBook.call (fun book _ => book.stats.liveOrders < 2 ^ 32 - 1) fresh calls)
    (ran : run OrderBook.call fresh calls = .ok (book, answers)) (seq : SeqNo) (orderId : OrderId)
    (side : Side) (price : Price)
    (qty : Qty) : ∃ rounds final last,
      Rounds seq orderId side price book { remainingQty := qty } rounds final last ∧
      matchLoop seq orderId side price (qty.toNat + book.nodes.size) book { remainingQty := qty } =
        .ok (final, last) ∧ (∀ round ∈ rounds, round.slot ≠ kNull ∧ 1 ≤ round.done) ∧
      rounds.length ≤ (book.resting.crossed side price).length ∧
      ∀ round ∈ rounds.dropLast, round.done = round.resting := by
  obtain ⟨after, reached, -, tracks⟩ := run_call_tracks created room
  obtain ⟨rfl, -⟩ := Prod.mk.inj (Except.ok.inj (reached.symm.trans ran))
  obtain ⟨rounds, final, last, made, progress, few⟩ :=
    tracks.rounds_exist seq orderId side price { remainingQty := qty }
  have crossed : (after.resting.crossed side price).length = _ :=
    ((tracks.1.resting_perm tracks.2).filter _).length_eq
  have some : ((trace ArrivalBook.call fresh.blank calls).1.orders.crossed side price).length ≤ _ :=
    List.length_filter_le _ _
  have pool := tracks.1.length_le
  exact ⟨rounds, final, last, made, made.matchLoop (by omega), progress.fills,
    Nat.le_trans few (Nat.le_of_eq crossed.symm), progress.completes⟩

/-- A sell that takes the older bid whole and part of the other. -/
theorem matching_ends_oneTick : ∃ book answers rounds final last,
    run OrderBook.call oneTick [.feedAdd 7 1 .buy 1 5, .feedAdd 8 1 .buy 1 4] =
      .ok (book, answers) ∧ Rounds 3 9 .sell 1 book { remainingQty := 6 } rounds final last ∧
      matchLoop 3 9 .sell 1 ((6 : Qty).toNat + book.nodes.size) book { remainingQty := 6 } =
        .ok (final, last) ∧ (∀ round ∈ rounds, round.slot ≠ kNull ∧ 1 ≤ round.done) ∧
      rounds.length ≤ (book.resting.crossed .sell 1).length ∧
      ∀ round ∈ rounds.dropLast, round.done = round.resting := by
  have room : Along OrderBook.call (fun book _ => book.stats.liveOrders < 2 ^ 32 - 1) oneTick
      [.feedAdd 7 1 .buy 1 5, .feedAdd 8 1 .buy 1 4] := by decide +kernel
  obtain ⟨book, ran, -⟩ := run_call_tracks oneTick_created room
  obtain ⟨rounds, final, last, made⟩ := matching_ends oneTick_created room ran 3 9 .sell 1 6
  exact ⟨book, _, rounds, final, last, ran, made⟩

/-- After the calls that link an ask to itself, an order of two lots has no list
of rounds: the loop ends under no bound, and `add_order` does not return. -/
theorem matching_diverges_at_exhaustion :
    OrderBook.create 1 { minPrice := 1, maxPrice := 1 } = .ok oneTick ∧
    ∃ calls book answers orderId, run OrderBook.call oneTick calls = .ok (book, answers) ∧
      (∀ fuel, matchLoop 0 orderId .buy 1 fuel book { remainingQty := 2 } = .error .divergence) ∧
      (¬ ∃ rounds final last, Rounds 0 orderId .buy 1 book
        { remainingQty := 2 } rounds final last) ∧
      book.addOrder 0 orderId 0 .buy 1 2 .gtc = .error .divergence := by
  obtain ⟨k, -, after, answers, ran, cyclic⟩ := run_cyclic (rfl : kNull.toNat = kNull.toNat)
  refine ⟨oneTick_created, _, after, _, _, run_matching ran, cyclic.matching_diverges, ?_,
    cyclic.addOrder_diverges (by decide) 0 .gtc⟩
  rintro ⟨rounds, final, last, made⟩
  have ends := made.matchLoop (Nat.le_refl rounds.length)
  rw [cyclic.matching_diverges] at ends
  cases ends

end

end OrderBook

end Exsim.Core
