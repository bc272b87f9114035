import Exsim.Subscriber.Events
import Exsim.Subscriber.Frames

/-! # The subscriber holds the books of the exchange

What the exchange publishes about a command tells how its books changed, so a
subscriber that takes every event holds the same orders after every call.
-/

namespace Exsim.Core

open Data Md Protocol

namespace BookManager

/-- Managers with the same orders in every queue of every book, under every id,
with equal checksums and as many live orders. -/
structure Agree (left right : BookManager) : Prop where
  maxSymbol : right.maxSymbol = left.maxSymbol
  books : ∀ symbol, left.validSymbol symbol = true →
    ∃ book other, left.findBook symbol = some book ∧
    right.findBook symbol = some other ∧ other.fifo = book.fifo ∧
    (∀ id, other.find id = book.find id) ∧ other.checksum = book.checksum ∧
    other.stats.liveOrders = book.stats.liveOrders
  checksum : ∃ h, left.checksum = .ok h ∧ right.checksum = .ok h
  liveOrders : right.liveOrders = left.liveOrders

section

variable {left right : BookManager} {market copy : ArrivalMarket}

/-- Two managers that model the same books, with exact totals on the same ladders, agree. -/
theorem Models.agree (here : left.Models market) (there : right.Models copy)
    (hereExact : left.Exact market) (thereExact : right.Exact copy)
    (sameMax : copy.maxSymbol = market.maxSymbol) (sameBooks : copy.books = market.books)
    (ladders : SameLadders left right) : Agree left right := by
  have valid : ∀ symbol, copy.validSymbol symbol = market.validSymbol symbol := fun symbol => by
    rw [ArrivalMarket.validSymbol, sameMax, ArrivalMarket.validSymbol]
  have maxSymbol : right.maxSymbol = left.maxSymbol := by
    rw [← there.maxSymbol, sameMax, here.maxSymbol]
  have each : ∀ symbol, market.validSymbol symbol = true →
      ∃ book other, left.books[symbol.toNat]? = some book ∧
      right.books[symbol.toNat]? = some other ∧ other.fifo = book.fifo ∧
      (∀ id, other.find id = book.find id) ∧ other.digest = book.digest ∧
      other.checksum = book.checksum ∧ other.stats.liveOrders = book.stats.liveOrders := by
    intro symbol ok
    obtain ⟨book, stored, refines⟩ := here.books symbol ok
    obtain ⟨other, found, follows⟩ := there.books symbol ((valid symbol).trans ok)
    obtain ⟨other', found', ladder⟩ := ladders symbol book stored
    obtain rfl := Option.some.inj (found.symm.trans found')
    have totals := thereExact symbol other ((valid symbol).trans ok) found
    rw [sameBooks] at follows totals
    have digest :=
      refines.digest_eq follows ladder ((hereExact symbol book ok stored).total_eq totals ladder)
    refine ⟨book, other, stored, found, refines.fifo_eq follows ladder, fun id => ?_,
      digest, ?_, ?_⟩
    · obtain ⟨queues, mirrors⟩ := refines
      obtain ⟨queues', mirrors'⟩ := follows
      rw [mirrors.find, mirrors'.find]
    · rw [refines.checksum, follows.checksum, digest]
    · rw [refines.liveOrders, follows.liveOrders]
  have same : ∀ {Value : Type} (f : OrderBook → Value),
      (∀ symbol book other, market.validSymbol symbol = true →
      left.books[symbol.toNat]? = some book → right.books[symbol.toNat]? = some other →
      f other = f book) → right.activeBooks.map f = left.activeBooks.map f := by
    intro Value f agree
    have mine := here.map_activeBooks (f := fun book => some (f book))
      (g := fun symbol => left.books[symbol.toNat]?.map f) fun symbol book ok stored => by
        rw [stored]; rfl
    have other := there.map_activeBooks (f := fun book => some (f book))
      (g := fun symbol => left.books[symbol.toNat]?.map f) fun symbol other ok found => by
        obtain ⟨book, stored, -⟩ := here.books symbol ((valid symbol).symm.trans ok)
        rw [stored, Option.map_some,
          agree symbol book other ((valid symbol).symm.trans ok) stored found]
    rw [maxSymbol, ← mine] at other
    refine List.map_injective_iff.mpr (Option.some_injective Value) ?_
    rw [List.map_map, List.map_map]
    exact other
  refine ⟨maxSymbol, fun symbol ok => ?_, ⟨left.digest, here.checksum, ?_⟩, ?_⟩
  · rw [here.validSymbol] at ok
    obtain ⟨book, other, stored, found, fifo, find, -, checksum, live⟩ := each symbol ok
    exact ⟨book, other, here.findBook ok stored, there.findBook ((valid symbol).trans ok) found,
      fifo, find, checksum, live⟩
  · rw [there.checksum, digest, digest, same OrderBook.digest]
    intro symbol book other ok stored found
    obtain ⟨book', other', stored', found', -, -, digest, -⟩ := each symbol ok
    obtain rfl := Option.some.inj (stored.symm.trans stored')
    obtain rfl := Option.some.inj (found.symm.trans found')
    exact digest
  · rw [liveOrders, liveOrders, same fun book => book.stats.liveOrders]
    intro symbol book other ok stored found
    obtain ⟨book', other', stored', found', -, -, -, -, live⟩ := each symbol ok
    obtain rfl := Option.some.inj (stored.symm.trans stored')
    obtain rfl := Option.some.inj (found.symm.trans found')
    exact live

end

end BookManager

namespace Exchange

/-- A frame for the exchange; every event it returns is encoded and applied to
the subscriber.  The answers are those of the subscriber. -/
def mirror (pair : Exchange × SubscriberBook) (input : Bytes × TimestampNs) :
    Exec ((Exchange × SubscriberBook) × List (Option String)) := do
  let (exchange, outcome) ← pair.1.processFrame input.1 input.2
  let (subscriber, answers) ← run SubscriberBook.feedEvent pair.2 outcome.events
  .ok ((exchange, subscriber), answers)

/-- Whether the events of a call tell all it changes: what it lets through is not
refused after a cancel, rests no order under an id that rests in another book,
and takes no level past its counter. -/
def reportable (exchange : Exchange) (call : ExchangeCall) : Bool :=
  match call.command? with
  | none => true
  | some cmd => !exchange.admits cmd call.nowNs ||
      !exchange.books.halts cmd && !exchange.books.crowds cmd && !exchange.books.overfills cmd

/-- A subscriber that holds the books of the exchange and expects its next event. -/
structure Mirrored (exchange : Exchange) (subscriber : SubscriberBook)
    (market copy : ArrivalMarket) : Prop where
  models : exchange.books.Models market
  exact : exchange.books.Exact market
  apart : market.Apart
  keeps : subscriber.Keeps copy exchange.nextMdSeq
  sameMax : copy.maxSymbol = market.maxSymbol
  sameBooks : copy.books = market.books
  ladders : BookManager.SameLadders exchange.books subscriber.books

section

variable {exchange after : Exchange} {subscriber : SubscriberBook}
  {market copy later : ArrivalMarket} {call : ExchangeCall} {outcome : Outcome}

theorem Mirrored.agree (mirrored : Mirrored exchange subscriber market copy) :
    exchange.books.Agree subscriber.books :=
  mirrored.models.agree mirrored.keeps.models mirrored.exact mirrored.keeps.exact mirrored.sameMax
    mirrored.sameBooks mirrored.ladders

/-- The reject of a refused call is taken, and changes no book. -/
theorem Mirrored.rejected (mirrored : Mirrored exchange subscriber market copy) (seq : SeqNo)
    (cmd : ClientCommand) (reason : RejectReason) :
    ∃ followed, run SubscriberBook.feedEvent subscriber
      (exchange.reject seq cmd reason).2.mdEvents = .ok (followed, [none]) ∧
      Mirrored (exchange.reject seq cmd reason).1 followed market copy := by
  let ev : MdEvent := {
    seq := exchange.nextMdSeq, type := .reject, symbolId := cmd.symbolId, orderId := cmd.orderId
    accountId := cmd.accountId, side := cmd.side, price := cmd.price, qty := cmd.qty, reason }
  have isReject : ev.type = .reject := rfl
  obtain ⟨followed, fed, kept, books⟩ := mirrored.keeps.rejected isReject rfl
  refine ⟨followed, run_cons fed run_nil, mirrored.models, mirrored.exact, mirrored.apart, kept,
    mirrored.sameMax, mirrored.sameBooks, ?_⟩
  rw [books]
  exact mirrored.ladders

/-- What the events of a reportable command tell, the subscriber does. -/
theorem Mirrored.moved {books : BookManager} {events : List MdEvent}
    (mirrored : Mirrored exchange subscriber market copy)
    (room : market.HasRoom) (advances : BookManager.Advances exchange.books books market later)
    (sameMax : later.maxSymbol = market.maxSymbol) (fits : books.Fits later) (apart : later.Apart)
    (moved : ArrivalMarket.Moved market events later) :
    ∃ followed copy', run SubscriberBook.feedEvent subscriber (stamp exchange.nextMdSeq events) =
        .ok (followed, events.map fun _ => none) ∧
      ∀ after : Exchange, after.books = books →
      after.nextMdSeq = exchange.nextMdSeq + UInt64.ofNat events.length →
        Mirrored after followed later copy' := by
  have size : books.books.size = exchange.books.books.size := by
    rw [advances.models.size, mirrored.models.size, ← advances.models.maxSymbol, sameMax,
      mirrored.models.maxSymbol]
  have exact := advances.exact fits mirrored.exact
  obtain ⟨same, rfl⟩ | ⟨symbol, final, valid, changed, reported⟩ := moved
  · refine ⟨subscriber, copy, rfl, fun after isBooks isNext => ?_⟩
    have next : after.nextMdSeq = exchange.nextMdSeq := isNext.trans (UInt64.add_zero _)
    subst isBooks
    refine ⟨advances.models, exact, apart, ?_, mirrored.sameMax.trans sameMax.symm,
      mirrored.sameBooks.trans same.symm,
      BookManager.SameLadders.beside advances.ladders mirrored.ladders size⟩
    rw [next]
    exact mirrored.keeps
  · have validCopy : ∀ symbol, copy.validSymbol symbol = market.validSymbol symbol :=
      fun symbol => by
        rw [ArrivalMarket.validSymbol, mirrored.sameMax, ArrivalMarket.validSymbol]
    have validLater : ∀ symbol, later.validSymbol symbol = market.validSymbol symbol :=
      fun symbol => by
        rw [ArrivalMarket.validSymbol, sameMax, ArrivalMarket.validSymbol]
    have roomCopy : copy.HasRoom := by
      intro other ok
      rw [mirrored.sameBooks]
      exact room other ((validCopy other).symm.trans ok)
    have alone : ∀ id, final.holds id = true → ¬copy.Elsewhere symbol id := by
      intro id held elsewhere
      refine apart symbol id ((validLater symbol).trans valid)
        (by rw [changed, Function.update_self]; exact held) ?_
      rw [ArrivalMarket.elsewhere_update sameMax changed]
      obtain ⟨other, ok, away, there⟩ := elsewhere
      exact ⟨other, (validCopy other).symm.trans ok,
        away, by rw [← mirrored.sameBooks]; exact there⟩
    have fitsCopy : ∀ book, subscriber.books.books[symbol.toNat]? = some book →
        book.Fits final := by
      intro book found
      obtain ⟨after, stored, -⟩ := advances.models.books symbol ((validLater symbol).trans valid)
      obtain ⟨other, there, ladder⟩ :=
        BookManager.SameLadders.beside advances.ladders mirrored.ladders size symbol after stored
      obtain rfl := Option.some.inj (found.symm.trans there)
      have fit := fits symbol after ((validLater symbol).trans valid) stored
      rw [changed, Function.update_self] at fit
      rw [OrderBook.Fits, ladder.restingQty]
      exact fit
    obtain ⟨followed, copy', ran, keeps, sameMax', books', ladders⟩ := mirrored.keeps.tells
      (reported.tells final.holds fun _ _ _ => rfl) (congrFun mirrored.sameBooks symbol)
      ((validCopy symbol).trans valid) reported.addsLast roomCopy alone fitsCopy
    refine ⟨followed, copy', ran, fun after isBooks isNext => ?_⟩
    subst isBooks
    refine ⟨advances.models, exact, apart, by rw [isNext]; exact keeps, ?_, ?_, ?_⟩
    · rw [sameMax', mirrored.sameMax, sameMax]
    · rw [books', mirrored.sameBooks, changed]
    · exact BookManager.SameLadders.beside advances.ladders (mirrored.ladders.trans ladders) size

/-- A reportable call is mirrored. -/
theorem Called.mirrored (called : Called exchange market call after outcome later)
    (mirrored : Mirrored exchange subscriber market copy) (room : market.HasRoom)
    (guarded : exchange.reportable call = true) :
    ∃ followed copy', run SubscriberBook.feedEvent subscriber outcome.events =
        .ok (followed, outcome.events.map fun _ => none) ∧ Mirrored after followed later copy' := by
  have unchanged : ∀ exchange' : Exchange, exchange'.books = exchange.books →
      exchange'.nextMdSeq = exchange.nextMdSeq → Mirrored exchange' subscriber market copy := by
    intro exchange' sameBooks sameNext
    obtain ⟨models, exact, apart, keeps, sameMax, same, ladders⟩ := mirrored
    exact ⟨sameBooks ▸ models, sameBooks ▸ exact, apart, sameNext ▸ keeps, sameMax, same,
      sameBooks ▸ ladders⟩
  cases called with
  | undecoded =>
      obtain ⟨followed, fed, kept⟩ :=
        (unchanged exchange.numbered rfl rfl).rejected exchange.nextSeq dummyCommand _
      exact ⟨followed, copy, fed, kept⟩
  | @refused cmd =>
      obtain ⟨followed, fed, kept⟩ :=
        (unchanged (exchange.received cmd call.nowNs) rfl rfl).rejected exchange.nextSeq cmd _
      exact ⟨followed, copy, fed, kept⟩
  | @threw cmd =>
      exact ⟨subscriber, copy, rfl, unchanged (exchange.received cmd call.nowNs) rfl rfl⟩
  | @applied cmd books carried admitted known advances =>
      have models := mirrored.models
      rw [reportable, carried] at guarded
      simp only [admitted, Bool.not_true, Bool.false_or, Bool.and_eq_true,
        Bool.not_eq_true'] at guarded
      obtain ⟨⟨whole, apart⟩, within⟩ := guarded
      have whole : ¬market.Halts cmd := fun halts => by
        rw [models.halts.mpr halts] at whole
        cases whole
      have alone : ¬market.Crowds cmd := fun crowds => by
        rw [(models.crowds known).mpr crowds] at apart
        cases apart
      have apart := ArrivalMarket.apply_apart known exchange.nextSeq models.sound models.listed
        mirrored.apart alone
      have fits := (models.apply_fits mirrored.exact exchange.nextSeq known within).transfer models
        ArrivalMarket.apply_maxSymbol advances.ladders
      by_cases accepted : (market.apply exchange.nextSeq cmd).2.reject = .none
      · obtain ⟨followed, copy', fed, kept⟩ :=
          mirrored.moved room advances ArrivalMarket.apply_maxSymbol fits apart
          (ArrivalMarket.apply_moved models.sound models.listed known)
        rw [publish_accepted accepted]
        refine ⟨followed, copy', ?_, kept _ (accountForMd_books _ _) ?_⟩
        · change run SubscriberBook.feedEvent subscriber (stamp exchange.nextMdSeq _) = .ok
            (followed, List.map _ (stamp _ _))
          rw [fed, List.map_const', List.map_const', stamp_length]
        · rw [accountForMd_eq]
          rfl
      · rw [publish_refused accepted]
        have same := ArrivalMarket.apply_refused_books models.listed accepted whole
        obtain ⟨followed, copy', fed, kept⟩ :=
          mirrored.moved room advances ArrivalMarket.apply_maxSymbol fits apart (.inl ⟨same, rfl⟩)
        obtain ⟨rfl, -⟩ := Prod.mk.inj (Except.ok.inj fed)
        have still :=
          kept { exchange.received cmd call.nowNs with books } rfl (UInt64.add_zero _).symm
        obtain ⟨last, rejected, kept⟩ :=
          still.rejected exchange.nextSeq cmd (market.apply exchange.nextSeq cmd).2.reject
        exact ⟨last, copy', rejected, kept⟩

/-- In every run of reportable calls in which no book runs out of slots, the
subscriber takes every event and agrees with the exchange. -/
theorem run_mirrored {cfg : ExchangeConfig} {fresh : Exchange} {listener : SubscriberBook}
    {inputs : List (Bytes × TimestampNs)}
    (created : Exchange.create cfg = some (.ok fresh))
    (subscribed : SubscriberBook.create cfg.maxSymbol cfg.ladder = some (.ok listener))
    (guarded : Along mirror (fun pair input => pair.1.books.HasRoom ∧
      pair.1.reportable (.frame input.1 input.2) = true) (fresh, listener) inputs) :
    ∃ after followed answers, run mirror (fresh, listener) inputs =
      .ok ((after, followed), answers) ∧ (∀ answer ∈ answers.flatten, answer = none) ∧
      after.books.Agree followed.books := by
  have simulate : ∀ (pair : Exchange × SubscriberBook) (input : Bytes × TimestampNs),
      (∃ market copy, Mirrored pair.1 pair.2 market copy) →
      pair.1.books.HasRoom ∧ pair.1.reportable (.frame input.1 input.2) = true →
      ∃ after answers, mirror pair input = .ok (after, answers) ∧
      (∀ answer ∈ answers, answer = none) ∧
      ∃ market copy, Mirrored after.1 after.2 market copy := by
    intro pair input kept guarded
    obtain ⟨market, copy, mirrored⟩ := kept
    have room := mirrored.models.hasRoom guarded.1
    obtain ⟨after, outcome, later, ran, called⟩ :=
      call_spec mirrored.models room (.frame input.1 input.2)
    obtain ⟨followed, copy', fed, kept⟩ := called.mirrored mirrored room guarded.2
    have processed : pair.1.processFrame input.1 input.2 = .ok (after, outcome) := ran
    refine ⟨(after, followed), outcome.events.map fun _ => none, ?_, ?_, later, copy', kept⟩
    · rw [mirror, processed, exec_ok_bind]
      dsimp only
      rw [fed, exec_ok_bind]
    · intro answer member
      obtain ⟨-, -, rfl⟩ := List.mem_map.mp member
      rfl
  have start : ∃ market copy, Mirrored fresh listener market copy := by
    obtain ⟨built, isFresh⟩ := create_ok created
    rw [SubscriberBook.create, Option.map_eq_some_iff] at subscribed
    obtain ⟨made, madeBooks, subscribed⟩ := subscribed
    have same : made = .ok fresh.books := Option.some.inj (madeBooks.symm.trans built)
    rw [same] at subscribed
    obtain rfl := Except.ok.inj subscribed
    obtain ⟨models, exact⟩ := BookManager.create_spec built
    have indexed := models.blank_indexed
    refine ⟨fresh.books.blank, fresh.books.blank, models, exact, indexed.apart,
      ⟨models, exact, indexed, ?_⟩, rfl, rfl, .refl _⟩
    rw [isFresh]
  obtain ⟨after, answers, ran, good, market, copy, mirrored⟩ := run_outputs simulate start guarded
  refine ⟨after.1, after.2, answers, ran, fun answer member => ?_, mirrored.agree⟩
  obtain ⟨some, listed, among⟩ := List.mem_flatten.mp member
  exact good some listed answer among

end

/-- The frame of a command, received at time zero. -/
def sent (cmd : ClientCommand) : Bytes × TimestampNs := (encodeClientCommand cmd, 0)

/-- Two bids, an ask that fills the first and part of the second, and a replace of what is left. -/
theorem run_mirrored_oneSymbol :
    let inputs := [sent BookManager.restingBid, sent secondBid,
      sent { orderId := 9, accountId := 2, symbolId := 1, side := .sell, price := 1, qty := 7 },
      sent { type := .replace, orderId := 10, cancelOrderId := 8, accountId := 1, symbolId := 1,
             price := 2, qty := 4 }]
    ∃ after followed answers, run mirror (oneSymbol, SubscriberBook.oneSymbol) inputs =
      .ok ((after, followed), answers) ∧ (∀ answer ∈ answers.flatten, answer = none) ∧
      after.books.Agree followed.books :=
  run_mirrored oneSymbol_created SubscriberBook.oneSymbol_created (by decide +kernel)

/-- A replace that is refused after its target has been cancelled leaves the
subscriber with an order that is gone. -/
theorem refusal_not_mirrored : Exchange.create oneSymbolConfig = some (.ok oneSymbol) ∧
    SubscriberBook.create oneSymbolConfig.maxSymbol oneSymbolConfig.ladder =
      some (.ok SubscriberBook.oneSymbol) ∧
      ∃ after followed answers, run mirror (oneSymbol, SubscriberBook.oneSymbol)
        [sent BookManager.restingBid, sent secondBid, sent duplicateReplace] =
          .ok ((after, followed), answers) ∧
      (∀ answer ∈ answers.flatten, answer = none) ∧ after.books.liveOrders = 1 ∧
      followed.books.liveOrders = 2 := by
  have counts : ((run mirror (oneSymbol, SubscriberBook.oneSymbol)
      [sent BookManager.restingBid, sent secondBid, sent duplicateReplace]).toOption.map
      fun result => (result.2.flatten, result.1.1.books.liveOrders, result.1.2.books.liveOrders)) =
      some ([none, none, none], 1, 2) := by
    decide +kernel
  obtain ⟨result, ran, counts⟩ := ok_of_map counts
  obtain ⟨answers, live⟩ := Prod.mk.inj counts
  obtain ⟨here, there⟩ := Prod.mk.inj live
  refine ⟨oneSymbol_created, SubscriberBook.oneSymbol_created, result.1.1, result.1.2, result.2,
    ran, ?_, here, there⟩
  rw [answers]
  decide

end Exchange

end Exsim.Core
