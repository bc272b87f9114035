import Exsim.Exchange.Delivery
import Exsim.OrderBook.Uncrossed
import Exsim.Reference.Succession

/-! # What a subscriber sees is never crossed

The exchange matches before it rests an order, and publishes in that order: the
events of a command but the last take away from the books.  So a subscriber finds
its books uncrossed behind every single event, not only between commands.
-/

namespace Exsim.Core

open Data Data.Channel Md Protocol
open List (SublistForall₂)

namespace ArrivalBook

variable {book middle after final : ArrivalBook} {live : OrderId → Bool}
  {events front back : List MdEvent} {weight : RestingOrderView → Nat}

theorem Tells.split (tells : Tells live book (front ++ back) final) :
    ∃ middle, Tells live book front middle ∧ Tells live middle back final := by
  induction front generalizing book with
  | nil => exact ⟨book, .nil, tells⟩
  | cons ev front ih =>
      cases tells with
      | cons head tail =>
          obtain ⟨middle, first, rest⟩ := ih tail
          exact ⟨middle, .cons head first, rest⟩

/-- Events that take away leave orders that were there. -/
theorem Tells.shrinks (tells : Tells live book events after) (sound : book.Sound)
    (removes : ∀ ev ∈ events, ev.removes = true) :
    SublistForall₂ Remains after.orders book.orders := by
  have remains := tells.remains sound
  have none : Arrivals.addedBy book.symbolId events = [] :=
    Arrivals.addedBy_nil fun ev member type => by
      have away := removes ev member
      rw [MdEvent.removes, type] at away
      cases away
  rwa [none, List.append_nil] at remains

theorem holds_of_remains (remains : SublistForall₂ Remains after.orders book.orders) {id : OrderId}
    (held : after.holds id = true) : book.holds id = true := by
  obtain ⟨order, member, named⟩ := Keyed.holds_iff.mp held
  obtain ⟨old, listed, same⟩ := Succession.origin remains member
  exact Keyed.holds_iff.mpr ⟨old, listed, same.orderId.symm.trans named⟩

theorem weigh_le_of_remains (remains : SublistForall₂ Remains after.orders book.orders)
    (monotone : Monotone weight) :
    after.weigh weight ≤ book.weigh weight := by
  refine Succession.sum_le (fun order old same => ?_) remains
  have isOld : order = { old with qty := order.qty } := by
    obtain ⟨orderId, accountId, side, price, -⟩ := same
    cases order
    cases old
    dsimp only at orderId accountId side price
    rw [orderId, accountId, side, price]
  rw [isOld]
  exact monotone old order.qty same.qty

theorem Uncrossed.remains (uncrossed : book.Uncrossed)
    (remains : SublistForall₂ Remains after.orders book.orders) :
    after.Uncrossed :=
  uncrossed.of_prices fun order member => by
    obtain ⟨old, listed, same⟩ := Succession.origin remains member
    exact ⟨old, listed, same.side.symm, same.price.symm⟩

end ArrivalBook

namespace ArrivalMarket

variable {market later : ArrivalMarket} {cmd : ClientCommand}

/-- No book is crossed. -/
def Uncrossed (market : ArrivalMarket) : Prop :=
  ∀ symbol, market.validSymbol symbol = true → (market.books symbol).Uncrossed

theorem Uncrossed.apply (uncrossed : market.Uncrossed) (seq : SeqNo) (sound : market.Sound)
    (listed : market.Listed) (known : cmd.type = .new → market.validSymbol cmd.symbolId = true) :
    (market.apply seq cmd).1.Uncrossed := by
  have kept := apply_invariant known (fun _ book => book.Sound ∧ book.Uncrossed) seq listed
    (fun symbol valid => ⟨sound.books symbol valid, uncrossed symbol valid⟩)
    (fun _ _ both => ⟨both.1.addOrder, both.2.addOrder both.1⟩)
    (fun _ _ both => ⟨both.1.cancelOrder seq _, both.2.cancelOrder seq _⟩)
    fun _ _ both => ⟨both.1.replaceOrder, both.2.replaceOrder both.1⟩
  intro symbol valid
  rw [validSymbol, apply_maxSymbol] at valid
  exact (kept symbol valid).2

/-- A market with the books of an uncrossed one. -/
theorem Uncrossed.congr (uncrossed : market.Uncrossed)
    (sameMax : later.maxSymbol = market.maxSymbol)
    (sameBooks : later.books = market.books) : later.Uncrossed := by
  intro symbol valid
  rw [validSymbol, sameMax] at valid
  rw [sameBooks]
  exact uncrossed symbol valid

/-- One book of an uncrossed market gives way to an uncrossed one. -/
theorem Uncrossed.update {symbol : SymbolId} {after : ArrivalBook} (uncrossed : market.Uncrossed)
    (sameMax : later.maxSymbol = market.maxSymbol)
    (changed : later.books = Function.update market.books symbol after)
    (kept : after.Uncrossed) : later.Uncrossed := by
  intro other valid
  rw [validSymbol, sameMax] at valid
  rw [changed]
  by_cases here : other = symbol
  · rw [here, Function.update_self]
    exact kept
  · rw [Function.update_of_ne here]
    exact uncrossed other valid

end ArrivalMarket

namespace SubscriberBook

/-- The books of a subscriber represent books that are not crossed. -/
def Uncrossed (subscriber : SubscriberBook) : Prop :=
  ∃ market, subscriber.books.Models market ∧ market.Uncrossed

section

variable {subscriber : SubscriberBook} {market : ArrivalMarket} {symbol : SymbolId}
  {final : ArrivalBook} {live : OrderId → Bool} {front back : List MdEvent} {next : SeqNo}

/-- Events that take away from one book are all taken. -/
theorem Keeps.takes (keeps : Keeps subscriber market next)
    (valid : market.validSymbol symbol = true)
    (tells : ArrivalBook.Tells live (market.books symbol) front final)
    (removes : ∀ ev ∈ front, ev.removes = true) (room : market.HasRoom)
    (uncrossed : market.Uncrossed) :
    ∃ later answers, run feedEvent subscriber (Exchange.stamp next front) = .ok (later, answers) ∧
    later.Uncrossed := by
  have remains := tells.shrinks (keeps.models.sound.books symbol valid) removes
  have alone : ∀ id, final.holds id = true → ¬market.Elsewhere symbol id :=
    fun id held => keeps.indexed.apart symbol id valid (ArrivalBook.holds_of_remains remains held)
  have fits : ∀ book, subscriber.books.books[symbol.toNat]? = some book → book.Fits final := by
    intro book stored isBuy i
    have before := keeps.exact.fits symbol book valid stored isBuy i
    rw [OrderBook.restingQty_eq_weigh] at before ⊢
    exact Nat.lt_of_le_of_lt
      (ArrivalBook.weigh_le_of_remains remains OrderBook.share_monotone) before
  obtain ⟨later, market', ran, kept, sameMax, books, -⟩ := keeps.tells tells rfl valid
    (fun ev member => removes ev (List.dropLast_subset front member)) room alone fits
  exact ⟨later, _, ran, market', kept.models,
    uncrossed.update sameMax books ((uncrossed symbol valid).remains remains)⟩

end

end SubscriberBook

namespace Exchange

section

variable {exchange after : Exchange} {subscriber : SubscriberBook}
  {market copy later : ArrivalMarket} {call : ExchangeCall} {outcome : Outcome}
  {events : List MdEvent} {count : Nat}

theorem Mirrored.uncrossed (mirrored : Mirrored exchange subscriber market copy)
    (uncrossed : market.Uncrossed) :
    subscriber.Uncrossed :=
  ⟨copy, mirrored.keeps.models, uncrossed.congr mirrored.sameMax mirrored.sameBooks⟩

/-- Before the last event of a command is taken, the books are those before the
command less what it took away. -/
theorem Mirrored.front (mirrored : Mirrored exchange subscriber market copy) (room : market.HasRoom)
    (uncrossed : market.Uncrossed) (moved : ArrivalMarket.Moved market events later)
    (fewer : count < events.length) :
    ∃ followed answers, run SubscriberBook.feedEvent subscriber
      ((stamp exchange.nextMdSeq events).take count) =
      .ok (followed, answers) ∧ followed.Uncrossed := by
  obtain ⟨-, rfl⟩ | ⟨symbol, final, valid, -, reported⟩ := moved
  · cases fewer
  · have tells := reported.tells final.holds fun _ _ _ => rfl
    rw [← List.take_append_drop count events] at tells
    obtain ⟨middle, first, -⟩ := tells.split
    have removes : ∀ ev ∈ events.take count, ev.removes = true := by
      intro ev member
      refine reported.addsLast ev ?_
      rw [List.dropLast_eq_take]
      exact List.take_subset_take_left events (Nat.le_sub_one_of_lt fewer) member
    have stamped : (stamp exchange.nextMdSeq events).take count =
        stamp exchange.nextMdSeq (events.take count) := by
      conv_lhs => rw [← List.take_append_drop count events, stamp_append]
      rw [List.take_left']
      rw [stamp_length, List.length_take, Nat.min_eq_left (Nat.le_of_lt fewer)]
    rw [stamped]
    have validCopy : copy.validSymbol symbol = true := by
      rw [ArrivalMarket.validSymbol, mirrored.sameMax]
      exact valid
    refine mirrored.keeps.takes validCopy (by rw [mirrored.sameBooks]; exact first) removes ?_
      (uncrossed.congr mirrored.sameMax mirrored.sameBooks)
    intro other ok
    rw [ArrivalMarket.validSymbol, mirrored.sameMax] at ok
    rw [mirrored.sameBooks]
    exact room other ok

/-- A subscriber that has taken part of the events of a call. -/
theorem Called.front (called : Called exchange market call after outcome later)
    (mirrored : Mirrored exchange subscriber market copy) (room : market.HasRoom)
    (uncrossed : market.Uncrossed) (fewer : count < outcome.events.length) :
    ∃ followed answers, run SubscriberBook.feedEvent subscriber (outcome.events.take count) =
      .ok (followed, answers) ∧
      followed.Uncrossed := by
  have atOnce : outcome.events.length = 1 →
      ∃ followed answers, run SubscriberBook.feedEvent subscriber (outcome.events.take count) =
        .ok (followed, answers) ∧
        followed.Uncrossed := by
    intro single
    have none : count = 0 := by omega
    rw [none]
    exact ⟨subscriber, [], rfl, mirrored.uncrossed uncrossed⟩
  cases called with
  | undecoded => exact atOnce rfl
  | refused => exact atOnce rfl
  | threw => cases fewer
  | @applied cmd books carried admitted known advances =>
      by_cases accepted : (market.apply exchange.nextSeq cmd).2.reject = .none
      · rw [publish_accepted accepted] at fewer ⊢
        change count < (stamp exchange.nextMdSeq _).length at fewer
        rw [stamp_length] at fewer
        exact mirrored.front room uncrossed
          (ArrivalMarket.apply_moved mirrored.models.sound mirrored.models.listed known) fewer
      · rw [publish_refused accepted] at atOnce ⊢
        exact atOnce rfl

theorem Called.uncrossed (called : Called exchange market call after outcome later)
    (models : exchange.books.Models market) (uncrossed : market.Uncrossed) : later.Uncrossed := by
  cases called with
  | undecoded => exact uncrossed
  | refused => exact uncrossed
  | threw => exact uncrossed
  | applied _ _ known => exact uncrossed.apply _ models.sound models.listed known

end

end Exchange

namespace Link

/-- Neither the feed as a whole nor any front of it leaves a crossed book. -/
structure Calm (listener : SubscriberBook) (link : Link) : Prop where
  published : ∃ followed replies market copy, run SubscriberBook.applyFrame listener link.wire =
    .ok (followed, replies) ∧ Exchange.Mirrored link.exchange followed market copy ∧
    market.Uncrossed
  fronts : ∀ count taker, Caught SubscriberBook.applyFrame listener link.wire count taker →
      taker.Uncrossed

section

variable {listener : SubscriberBook} {link after : Link} {frame : Bytes} {nowNs : TimestampNs}
  {answer : Option String}

theorem Calm.process (calm : Calm listener link) (room : link.exchange.books.HasRoom)
    (reportable : link.exchange.reportable (.frame frame nowNs) = true)
    (stepped : link.step (.process frame nowNs) = .ok (after, answer)) : Calm listener after := by
  obtain ⟨followed, replies, market, copy, ran, mirrored, uncrossed⟩ := calm.published
  have room := mirrored.models.hasRoom room
  obtain ⟨exchange, outcome, later, called, calls⟩ :=
    Exchange.call_spec mirrored.models room (.frame frame nowNs)
  obtain ⟨further, copy', fed, kept⟩ := calls.mirrored mirrored room reportable
  have uncrossed' := calls.uncrossed mirrored.models uncrossed
  have processed : link.exchange.processFrame frame nowNs = .ok (exchange, outcome) := called
  rw [step, processed, exec_ok_bind] at stepped
  dsimp only at stepped
  rw [Exchange.mapM_encode, exec_ok_bind] at stepped
  obtain ⟨rfl, -⟩ := Prod.mk.inj (Except.ok.inj stepped)
  have told := fed
  rw [SubscriberBook.run_feedEvent] at told
  refine ⟨⟨further, _, later, copy', run_append ran told, kept, uncrossed'⟩,
    fun count taker caught => ?_⟩
  obtain before | ⟨count, ⟨within, answers, taken⟩⟩ := caught.split ran
  · exact calm.fronts count taker before
  · rw [List.length_map] at within
    rw [← List.map_take, ← SubscriberBook.run_feedEvent] at taken
    obtain fewer | all := Nat.lt_or_eq_of_le within
    · obtain ⟨other, _, reached, kept⟩ := calls.front mirrored room uncrossed fewer
      obtain ⟨rfl, -⟩ := Prod.mk.inj (Except.ok.inj (reached.symm.trans taken))
      exact kept
    · rw [all, List.take_length] at taken
      obtain ⟨rfl, -⟩ := Prod.mk.inj (Except.ok.inj (fed.symm.trans taken))
      exact kept.uncrossed uncrossed'

theorem Calm.arrive (calm : Calm listener link)
    (stepped : link.step (.arrive frame) = .ok (after, answer)) :
    Calm listener after := by
  rw [step] at stepped
  cases applied : link.subscriber.applyFrame frame with
  | error fault =>
      rw [applied] at stepped
      cases stepped
  | ok result =>
      rw [applied, exec_ok_bind] at stepped
      obtain ⟨rfl, -⟩ := Prod.mk.inj (Except.ok.inj stepped)
      exact ⟨calm.published, calm.fronts⟩

theorem calm_created {cfg : ExchangeConfig} {fresh : Exchange}
    (created : Exchange.create cfg = some (.ok fresh))
    (subscribed : SubscriberBook.create cfg.maxSymbol cfg.ladder = some (.ok listener)) :
    Calm listener { exchange := fresh, subscriber := listener } := by
  obtain ⟨mirrored, rfl⟩ := Exchange.create_mirrored created subscribed
  have empty : fresh.books.blank.Uncrossed := by
    intro symbol _ bid member
    rw [BookManager.blank_orders] at member
    cases member
  refine ⟨⟨_, [], _, _, rfl, mirrored, empty⟩, fun count taker caught => ?_⟩
  obtain rfl : count = 0 := Nat.le_zero.mp caught.within
  obtain rfl := caught.unique (.init _ _ _)
  exact mirrored.uncrossed empty

/-- Along events that are all allowed, at no time does a book of the subscriber show
a bid that reaches an ask: not in its best prices, and not among the orders it holds. -/
theorem run_never_crosses {cfg : ExchangeConfig} {fresh : Exchange} {events : List LinkEvent}
    (created : Exchange.create cfg = some (.ok fresh))
    (subscribed : SubscriberBook.create cfg.maxSymbol cfg.ladder = some (.ok listener))
    (allowed : Along step Allows { exchange := fresh, subscriber := listener } events) :
    ∃ link answers, run step { exchange := fresh, subscriber := listener } events =
      .ok (link, answers) ∧ ∀ symbol book, link.subscriber.books.findBook symbol = some book →
        (∀ bid ask, book.stats.bestBid = some bid → book.stats.bestAsk = some ask → bid < ask) ∧
        ∀ bidId askId bid ask, book.find bidId = .ok (some bid) → book.find askId = .ok (some ask) →
          bid.side.isBuy = true → ask.side.isBuy = false → bid.price < ask.price := by
  obtain ⟨start, inBounds, expected⟩ := follows_created created subscribed
  have keep : ∀ link event, Follows listener link ∧ Calm listener link → link.Allows event →
      ∃ after answer, link.step event = .ok (after, answer) ∧ Follows listener after ∧
      Calm listener after := by
    intro link event both allowed
    cases event with
    | process frame nowNs =>
        obtain ⟨after, ran, kept⟩ := both.1.process allowed.1 allowed.2
        exact ⟨after, none, ran, kept, both.2.process allowed.1 allowed.2 ran⟩
    | arrive frame =>
        obtain ⟨after, answer, ran, kept⟩ := both.1.arrive inBounds expected allowed.1 allowed.2
        exact ⟨after, answer, ran, kept, both.2.arrive ran⟩
  obtain ⟨link, answers, ran, follows, calm⟩ :=
    run_invariant keep ⟨start, calm_created created subscribed⟩ allowed
  obtain ⟨count, caught⟩ := follows.caught
  obtain ⟨market, models, uncrossed⟩ := calm.fronts count _ caught
  refine ⟨link, answers, ran, fun symbol book found => ?_⟩
  obtain ⟨valid, -, queues, mirrors⟩ := models.of_findBook found
  exact mirrors.uncrossed (uncrossed symbol valid)

theorem run_never_crosses_rough :
    ∃ link answers,
      run step { exchange := .oneSymbol, subscriber := .oneSymbol } roughLink =
        .ok (link, answers) ∧ ∀ symbol book, link.subscriber.books.findBook symbol = some book →
        (∀ bid ask, book.stats.bestBid = some bid → book.stats.bestAsk = some ask → bid < ask) ∧
        ∀ bidId askId bid ask, book.find bidId = .ok (some bid) → book.find askId = .ok (some ask) →
          bid.side.isBuy = true → ask.side.isBuy = false → bid.price < ask.price :=
  run_never_crosses Exchange.oneSymbol_created SubscriberBook.oneSymbol_created (by decide +kernel)

end

end Link

end Exsim.Core
