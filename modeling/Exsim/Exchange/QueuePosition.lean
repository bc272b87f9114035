import Exsim.Exchange.Refusals
import Exsim.Exchange.Specification
import Exsim.Reference.Succession

/-! # Places in a queue

At its price an order is served after those that were there before it, and after
no others.  Every later queue shows it: what is left of the queue before stands
in front, in its order.
-/

namespace Exsim.Core

open Data
open List (SublistForall₂)

namespace Arrivals

/-- The orders that events add to one queue. -/
def addedAt (symbol : SymbolId) (isBuy : Bool) (price : Price) (events : List MdEvent) : Arrivals :=
  (addedBy symbol events).filter fun order => order.side.isBuy = isBuy ∧ order.price = price

theorem addedBy_stamp (symbol : SymbolId) (next : SeqNo) (events : List MdEvent) :
    addedBy symbol (Exchange.stamp next events) = addedBy symbol events := by
  induction events generalizing next with
  | nil => rfl
  | cons ev events ih =>
      have first : addedBy symbol [{ ev with seq := next }] = addedBy symbol [ev] := by
        rw [addedBy, addedBy, List.filter_cons, List.filter_cons]
        split <;> rfl
      rw [Exchange.stamp, ← List.singleton_append, addedBy_append, first, ih, ← addedBy_append,
        List.singleton_append]

/-- An order that has its place in a queue keeps those behind it from going ahead. -/
theorem ahead_remains {id : OrderId} {before after added : Arrivals}
    (later : SublistForall₂ Remains after (before ++ added))
    (distinct : Keyed.Distinct RestingOrderView.orderId before)
    (others : ∀ order ∈ added, order.orderId ≠ id)
    (waits : ∃ order ∈ after, order.orderId = id) :
    SublistForall₂ Remains (after.ahead id) (before.ahead id) := by
  have once : before.countP (fun order => decide (order.orderId = id)) ≤ 1 := by
    have few := List.nodup_iff_count_le_one.mp distinct id
    rwa [List.count_eq_countP, List.countP_map] at few
  refine Succession.ahead_append (fun order old remains => by rw [remains.orderId]) later once
    (fun order new => ?_) ?_
  · exact decide_eq_false (others order new)
  · exact waits.imp fun order both => ⟨both.1, decide_eq_true both.2⟩

end Arrivals

namespace ReferenceExchange

variable {ref : ReferenceExchange}

theorem refuse_adds (ref : ReferenceExchange) (symbol : SymbolId) (seq : SeqNo)
    (cmd : ClientCommand) (reason : RejectReason) :
    Arrivals.addedBy symbol (ref.refuse seq cmd reason).2.events = [] :=
  Arrivals.addedBy_other fun type => by cases type

theorem publish_adds (ref : ReferenceExchange) (symbol : SymbolId) (seq : SeqNo)
    (cmd : ClientCommand) {out : MatchOutput}
    (silent : out.reject ≠ .none → ∀ ev ∈ out.mdEvents, ev.type ≠ .add) :
    Arrivals.addedBy symbol (ref.publish seq cmd out).2.events =
      Arrivals.addedBy symbol out.mdEvents := by
  rw [publish]
  split
  · rename_i refused
    rw [refuse_adds, Arrivals.addedBy_nil fun ev member type =>
      absurd type (silent refused ev member)]
  · exact Arrivals.addedBy_stamp symbol _ _

/-- After a call the orders of a book are those it had before, with what the call
published as added behind them. -/
theorem call_remains (sound : ref.market.Sound) (listed : ref.market.Listed) (input : ExchangeCall)
    (symbol : SymbolId) :
    SublistForall₂ Remains ((ref.call input).1.market.books symbol).orders
      ((ref.market.books symbol).orders ++ Arrivals.addedBy symbol (ref.call input).2.events) := by
  have still : ∀ {outcome : Outcome}, Arrivals.addedBy symbol outcome.events = [] →
      SublistForall₂ Remains (ref.market.books symbol).orders
        ((ref.market.books symbol).orders ++ Arrivals.addedBy symbol outcome.events) := by
    intro outcome none
    rw [none, List.append_nil]
    exact refl _
  rw [call]
  cases carried : input.command? with
  | none => exact still (refuse_adds _ symbol _ _ _)
  | some cmd =>
      dsimp only
      split
      · exact still (refuse_adds _ symbol _ _ _)
      · rw [execute]
        by_cases unknown : (decide (cmd.type = .new) &&
          !(ref.receive cmd input.nowNs).market.validSymbol cmd.symbolId) = true
        · rw [if_pos unknown]
          have silent : Arrivals.addedBy symbol
              (Outcome.threw (.outOfRange "bad symbol id")).events = [] := rfl
          exact still silent
        · have known : cmd.type = .new → ref.market.validSymbol cmd.symbolId = true :=
            fun isNew => by
              simpa [isNew, receive, numbered] using unknown
          rw [if_neg unknown]
          have received : (ref.receive cmd input.nowNs).market = ref.market := rfl
          dsimp only
          rw [Exchange.publish_market, received,
            publish_adds _ _ _ _ (ArrivalMarket.apply_refused_adds listed)]
          exact ArrivalMarket.apply_remains ref.nextSeq sound listed known symbol

end ReferenceExchange

namespace Exchange

section

variable {exchange fresh earlier last : Exchange} {ref : ReferenceExchange} {cfg : ExchangeConfig}
  {calls front back : List ExchangeCall} {told outcomes : List Outcome}

theorem Specified.run_remains (specified : exchange.Specified ref)
    (room : Along Exchange.call (fun exchange _ => exchange.books.HasRoom) exchange calls)
    (ran : run Exchange.call exchange calls = .ok (last, outcomes)) :
    ∃ later, last.Specified later ∧ BookManager.SameLadders exchange.books last.books ∧ ∀ symbol,
      SublistForall₂ Remains (later.market.books symbol).orders
        ((ref.market.books symbol).orders ++
          Arrivals.addedBy symbol (outcomes.flatMap Outcome.events)) := by
  induction calls generalizing exchange ref outcomes with
  | nil =>
      rw [run_nil, Except.ok.injEq, Prod.mk.injEq] at ran
      obtain ⟨rfl, rfl⟩ := ran
      refine ⟨ref, specified, .refl _, fun symbol => ?_⟩
      rw [List.flatMap_nil, Arrivals.addedBy_nil (by simp), List.append_nil]
      exact refl _
  | cons input calls ih =>
      have models := specified.models
      obtain ⟨middle, stepped, steps⟩ := specified.call (models.hasRoom room.1) input
      obtain ⟨_, outcome, rest, first, further, rfl⟩ := run_cons_ok ran
      obtain ⟨rfl, rfl⟩ := Prod.mk.inj (Except.ok.inj (stepped.symm.trans first))
      obtain ⟨later, reached, ladders, remains⟩ :=
        ih steps.specified (room.2 middle _ stepped) further
      refine ⟨later, reached, steps.ladders.trans ladders, fun symbol => ?_⟩
      rw [List.flatMap_cons, Arrivals.addedBy_append, ← List.append_assoc]
      have called := ReferenceExchange.call_remains models.sound models.listed input symbol
      exact IsTrans.trans _ _ _ (remains symbol) (Succession.append called (refl _))

/-- While no book runs out of slots, any queue holds after further calls orders it
held before, in their order and with no more quantity, and behind them only orders
published as added there since, in the order of the feed.  So nothing goes ahead of
an order that keeps its place: whoever is ahead of it was ahead of it before, and
no more quantity is. -/
theorem run_keeps_place (created : Exchange.create cfg = some (.ok fresh))
    (room : Along Exchange.call (fun exchange _ => exchange.books.HasRoom) fresh (front ++ back))
    (ran : run Exchange.call fresh front = .ok (earlier, told))
    (continued : run Exchange.call earlier back = .ok (last, outcomes))
    {symbol : SymbolId} {before : OrderBook} (found : earlier.books.findBook symbol = some before)
    (isBuy : Bool) {price : Price} (inBand : before.priceInBand price = true) :
    ∃ after, last.books.findBook symbol = some after ∧
      let queue : Arrivals := before.fifo isBuy (before.levelOf price)
      let later : Arrivals := after.fifo isBuy (after.levelOf price)
      let added := Arrivals.addedAt symbol isBuy price (outcomes.flatMap Outcome.events)
      SublistForall₂ Remains later (queue ++ added) ∧
      ∀ id, (∀ order ∈ added, order.orderId ≠ id) → (∃ order ∈ later, order.orderId = id) →
        SublistForall₂ Remains (later.ahead id) (queue.ahead id) ∧
        (later.ahead id).depth ≤ (queue.ahead id).depth := by
  have apart := (along_append ran).mp room
  obtain ⟨_, reached, specified⟩ := run_specified created apart.1
  obtain ⟨rfl, -⟩ := Prod.mk.inj (Except.ok.inj (reached.symm.trans ran))
  obtain ⟨ref, further, ladders, remains⟩ := specified.run_remains apart.2 continued
  obtain ⟨valid, stored, queues, mirrors⟩ := specified.models.of_findBook found
  obtain ⟨after, kept, same⟩ := ladders symbol before stored
  have validThen := further.models.valid_of_stored kept (BookManager.validSymbol_ne_zero valid)
  obtain ⟨other, otherStored, queues', mirrors'⟩ := further.models.books symbol validThen
  obtain rfl := Option.some.inj (kept.symm.trans otherStored)
  refine ⟨after, further.models.findBook validThen kept, ?_⟩
  rw [mirrors.sameOrders.queues isBuy price inBand,
    mirrors'.sameOrders.queues isBuy price (by rw [same.priceInBand]; exact inBand)]
  have sorted : ∀ order old, Remains order old →
      decide (order.side.isBuy = isBuy ∧ order.price = price) =
      decide (old.side.isBuy = isBuy ∧ old.price = price) := fun order old remains => by
    rw [remains.side, remains.price]
  have there := Succession.filter sorted (remains symbol)
  rw [List.filter_append] at there
  refine ⟨there, fun id others waits => ?_⟩
  have distinct := (specified.models.sound.books symbol valid).distinct.filter
    fun order => decide (order.side.isBuy = isBuy ∧ order.price = price)
  have ahead := Arrivals.ahead_remains there distinct others waits
  exact ⟨ahead, Succession.sum_le (fun _ _ remains => UInt32.le_iff_toNat_le.mp remains.qty) ahead⟩

/-- An ask that takes part of the first bid, and one more bid. -/
def askThenBid : List ExchangeCall :=
  [.command { orderId := 9, accountId := 2, symbolId := 1, side := .sell, price := 1, qty := 3 } 0,
    .command { orderId := 10, accountId := 3, symbolId := 1, price := 1, qty := 2 } 0]

theorem run_keeps_place_askThenBid : ∃ told last outcomes before,
    run Exchange.call oneSymbol twoBids = .ok (twoBidsResting, told) ∧
    run Exchange.call twoBidsResting askThenBid = .ok (last, outcomes) ∧
    twoBidsResting.books.findBook 1 = some before ∧ ∃ after, last.books.findBook 1 = some after ∧
      let queue : Arrivals := before.fifo true (before.levelOf 1)
      let later : Arrivals := after.fifo true (after.levelOf 1)
      let added := Arrivals.addedAt 1 true 1 (outcomes.flatMap Outcome.events)
      SublistForall₂ Remains later (queue ++ added) ∧
      ∀ id, (∀ order ∈ added, order.orderId ≠ id) → (∃ order ∈ later, order.orderId = id) →
        SublistForall₂ Remains (later.ahead id) (queue.ahead id) ∧
        (later.ahead id).depth ≤ (queue.ahead id).depth := by
  obtain ⟨told, ran⟩ := twoBids_run
  have continues : (run Exchange.call twoBidsResting askThenBid).toOption.isSome = true := by
    decide +kernel
  obtain ⟨⟨last, outcomes⟩, continued⟩ := Option.isSome_iff_exists.mp continues
  have listed : (twoBidsResting.books.findBook 1).any (fun book => book.priceInBand 1) = true := by
    decide +kernel
  obtain ⟨before, found, inBand⟩ := (Option.any_eq_true _ _).mp listed
  have continued := ok_of_toOption continued
  exact ⟨told, last, outcomes, before, ran, continued, found,
    run_keeps_place oneSymbol_created (by decide +kernel) ran continued found true inBand⟩

end

end Exchange

end Exsim.Core
