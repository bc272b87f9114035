import Exsim.BookManager.Checksum
import Exsim.BookManager.Totals
import Exsim.Core.Subscriber
import Exsim.Exchange.Numbering
import Exsim.Reference.MarketFeed

/-! # A subscriber that is told how a book changed

Every event that tells a change of a book the subscriber holds is decoded,
applied and brings that book along.
-/

namespace Exsim.Core

open Data Md

namespace ArrivalBook

variable {book after : ArrivalBook} {live : OrderId → Bool} {ev : MdEvent}
  {weight : RestingOrderView → Nat}

/-- An event that may remove an order takes from every level. -/
theorem Told.weigh_le (told : Told live book ev after) (sound : book.Sound)
    (monotone : Monotone weight) (removes : ev.removes = true) :
    after.weigh weight ≤ book.weigh weight := by
  have fed : (book.feed ev).1 = after := congrArg Prod.fst told.feed
  rw [MdEvent.removes, Bool.or_eq_true, decide_eq_true_iff, decide_eq_true_iff] at removes
  obtain type | type := removes
  · rw [feed_execute type] at fed
    rw [← fed]
    exact sound.weigh_feedExecute_le monotone ev.orderId ev.qty
  · rw [feed_cancel type] at fed
    rw [← fed]
    exact sound.weigh_cancelOrder_le ev.seq ev.orderId

theorem Told.length_le (told : Told live book ev after) (removes : ev.removes = true) :
    after.orders.length ≤ book.orders.length := by
  have fewer := (feed_removes book removes).1
  rw [told.feed] at fewer
  exact fewer

end ArrivalBook

namespace SubscriberBook

/-- Encodes an event and applies its frame. -/
def feedEvent (subscriber : SubscriberBook) (ev : MdEvent) :
    Exec (SubscriberBook × Option String) := do
  let frame ← encodeMdEventFrame ev
  subscriber.applyFrame frame

/-- A subscriber whose books model a market, with exact totals and a right
index, and which expects the event `next`. -/
structure Keeps (subscriber : SubscriberBook) (market : ArrivalMarket) (next : SeqNo) : Prop where
  models : subscriber.books.Models market
  exact : subscriber.books.Exact market
  indexed : market.Indexed
  expected : subscriber.decoder.expected = next

section

variable {subscriber : SubscriberBook} {market : ArrivalMarket} {symbol : SymbolId}
  {book after final : ArrivalBook} {live : OrderId → Bool} {ev : MdEvent} {events : List MdEvent}
  {next : SeqNo}

/-- The frame of the expected event is decoded and applied. -/
theorem feedEvent_expected (expected : subscriber.decoder.expected = ev.seq) :
    subscriber.feedEvent ev =
      { subscriber with decoder := { expected := ev.seq + 1 } }.applyEvent ev := by
  rw [feedEvent, encodeMdEventFrame_run, exec_ok_bind, applyFrame,
    Exchange.decode_encoded expected.symm, expected]

/-- An event that the market takes is applied to the books that model it. -/
theorem applyEvent_feed (models : subscriber.books.Models market)
    (room : ev.type = .add → market.HasRoom) (taken : (market.feed ev).2 = true) :
    ∃ books, subscriber.applyEvent ev = .ok ({ subscriber with books }, none) ∧
      BookManager.Advances subscriber.books books market (market.feed ev).1 := by
  rw [ArrivalMarket.feed] at taken ⊢
  rw [applyEvent]
  by_cases isAdd : ev.type = .add
  · obtain ⟨books, ran, advances⟩ := BookManager.feedAdd_spec models (room isAdd) ev
    rw [if_pos isAdd] at taken ⊢
    rw [if_pos isAdd, ran, exec_ok_bind, taken]
    exact ⟨books, rfl, advances⟩
  rw [if_neg isAdd] at taken ⊢
  rw [if_neg isAdd]
  by_cases isCancel : ev.type = .cancel
  · obtain ⟨books, ran, advances⟩ := BookManager.cancelOrder_spec models ev.seq ev.orderId
    rw [if_pos isCancel] at taken ⊢
    dsimp only at taken ⊢
    rw [if_pos isCancel, ran, exec_ok_bind]
    dsimp only
    rw [taken]
    exact ⟨books, rfl, advances⟩
  rw [if_neg isCancel] at taken ⊢
  rw [if_neg isCancel]
  by_cases isExecute : ev.type = .execute
  · obtain ⟨books, ran, advances⟩ := BookManager.feedExecute_spec models ev
    rw [if_pos isExecute] at taken ⊢
    rw [if_pos isExecute, ran, exec_ok_bind, taken]
    exact ⟨books, rfl, advances⟩
  rw [if_neg isExecute] at taken ⊢
  rw [if_neg isExecute]
  dsimp only at taken
  rw [Bool.or_eq_true, decide_eq_true_iff, decide_eq_true_iff] at taken
  refine ⟨subscriber.books, ?_, .refl models⟩
  obtain isReplace | isReject := taken
  · rw [if_pos isReplace]
  · rw [isReject]
    rfl

/-- A reject changes nothing but the number. -/
theorem Keeps.rejected (keeps : Keeps subscriber market next) (type : ev.type = .reject)
    (seq : ev.seq = next) :
    ∃ later, subscriber.feedEvent ev = .ok (later, none) ∧ Keeps later market (next + 1) ∧
    later.books = subscriber.books := by
  subst seq
  rw [feedEvent_expected keeps.expected, applyEvent, type]
  exact ⟨_, rfl, ⟨keeps.models, keeps.exact, keeps.indexed, rfl⟩, rfl⟩

/-- An event told of one book is applied to it. -/
theorem Keeps.told (keeps : Keeps subscriber market next) (valid : market.validSymbol symbol = true)
    (told : ArrivalBook.Told live (market.books symbol) ev after)
    (room : ev.type = .add → market.HasRoom)
    (alone : ev.type = .add → ¬market.Elsewhere symbol ev.orderId)
    (fits : ev.type = .add → ∀ book, subscriber.books.books[symbol.toNat]? = some book →
      book.Fits after) :
    ∃ later, subscriber.feedEvent { ev with seq := next } = .ok (later, none) ∧
      Keeps later (market.settle symbol after ev.orderId) (next + 1) ∧
      BookManager.SameLadders subscriber.books later.books := by
  have stamped := told.stamped next
  have fed := ArrivalMarket.feed_told keeps.models.sound keeps.indexed valid stamped
  have own : ev.symbolId = symbol := told.symbol.trans (keeps.models.sound.symbolId symbol valid)
  have numbered : Keeps { subscriber with decoder := { expected := next + 1 } } market (next + 1) :=
    ⟨keeps.models, keeps.exact, keeps.indexed, rfl⟩
  have room : ({ ev with seq := next } : MdEvent).type = .add → market.HasRoom := room
  have taken : (market.feed { ev with seq := next }).2 = true := congrArg Prod.snd fed
  obtain ⟨books, ran, advances⟩ := applyEvent_feed numbered.models room taken
  have indexed : (market.settle symbol after ev.orderId).Indexed := by
    have kept : (market.feed { ev with seq := next }).1.Indexed :=
      ArrivalMarket.feed_indexed keeps.indexed fun type => own ▸ alone type
    rw [fed] at kept
    exact kept
  rw [fed] at advances
  have small : subscriber.books.Fits (market.settle symbol after ev.orderId) := by
    refine keeps.exact.fits.update rfl rfl fun book stored => ?_
    obtain type | removes := told.type
    · exact fits type book stored
    · intro isBuy i
      have before := keeps.exact.fits symbol book valid stored isBuy i
      rw [OrderBook.restingQty_eq_weigh] at before ⊢
      exact Nat.lt_of_le_of_lt
        (told.weigh_le (keeps.models.sound.books _ valid) OrderBook.share_monotone removes) before
  refine ⟨_, (feedEvent_expected keeps.expected).trans ran, ⟨advances.models, ?_, indexed, rfl⟩,
    advances.ladders⟩
  exact advances.exact (small.transfer keeps.models rfl advances.ladders) keeps.exact

/-- The events a call tells of one book take that book to where the call left it. -/
theorem Keeps.tells (tells : ArrivalBook.Tells live book events final)
    (keeps : Keeps subscriber market next) (here : market.books symbol = book)
    (valid : market.validSymbol symbol = true)
    (addsLast : ∀ ev ∈ events.dropLast, ev.removes = true) (room : market.HasRoom)
    (alone : ∀ id, final.holds id = true → ¬market.Elsewhere symbol id)
    (fits : ∀ book, subscriber.books.books[symbol.toNat]? = some book → book.Fits final) :
    ∃ later market', run feedEvent subscriber (Exchange.stamp next events) =
      .ok (later, events.map fun _ => none) ∧ Keeps later market'
        (next + UInt64.ofNat events.length) ∧ market'.maxSymbol = market.maxSymbol ∧
      market'.books = Function.update market.books symbol final ∧
      BookManager.SameLadders subscriber.books later.books := by
  induction tells generalizing subscriber market next with
  | @nil book =>
      refine ⟨subscriber, market, rfl, ?_, rfl, ?_, .refl _⟩
      · have unmoved : next + UInt64.ofNat 0 = next := UInt64.add_zero next
        rw [List.length_nil, unmoved]
        exact keeps
      · rw [← here, Function.update_eq_self]
  | @cons book ev middle events final head tail ih =>
      subst here
      obtain ⟨removesOrLast, later⟩ := ArrivalBook.addsLast_cons addsLast
      have ends : ev.type = .add → middle = final := by
        intro type
        obtain removes | last := removesOrLast
        · rw [MdEvent.removes, type] at removes
          exact absurd removes (by decide)
        · subst last
          cases tail
          rfl
      have added : ev.type = .add → middle.holds ev.orderId = true := by
        intro type
        cases head with
        | add => rw [ArrivalBook.rest_holds]; simp [eventOrder]
        | cancel other => exact absurd (other.symm.trans type) (by decide)
        | execute other => exact absurd (other.symm.trans type) (by decide)
      obtain ⟨first, fed, kept, ladders⟩ := keeps.told valid head (fun _ => room)
        (fun type => alone _ (ends type ▸ added type)) (fun type => (ends type).symm ▸ fits)
      obtain removes | last := removesOrLast
      · have stillRoom : (market.settle symbol middle ev.orderId).HasRoom := by
          intro other ok
          by_cases isSymbol : other = symbol
          · rw [isSymbol, ArrivalMarket.settle_books_self]
            exact Nat.lt_of_le_of_lt (head.length_le removes) (room symbol valid)
          · rw [ArrivalMarket.settle_books_of_ne isSymbol]
            exact room other ok
        have stillAlone : ∀ id, final.holds id = true →
            ¬(market.settle symbol middle ev.orderId).Elsewhere symbol id := by
          intro id held elsewhere
          have same : (market.settle symbol middle ev.orderId).Elsewhere symbol id ↔
              market.Elsewhere symbol id :=
            ArrivalMarket.elsewhere_update rfl rfl
          exact alone id held (same.mp elsewhere)
        have stillFits : ∀ book, first.books.books[symbol.toNat]? = some book →
            book.Fits final := by
          intro book stored
          obtain ⟨before, found, -⟩ := keeps.models.books symbol valid
          obtain ⟨after, there, ladder⟩ := ladders symbol before found
          obtain rfl := Option.some.inj (stored.symm.trans there)
          rw [OrderBook.Fits, ladder.restingQty]
          exact fits before found
        obtain ⟨last, market', ran, keeps', sameMax, books, ladders'⟩ :=
          ih kept ArrivalMarket.settle_books_self valid later stillRoom stillAlone stillFits
        refine ⟨last, market', run_cons fed ran, ?_, sameMax, ?_, ladders.trans ladders'⟩
        · have advanced : next + 1 + UInt64.ofNat events.length =
              next + UInt64.ofNat (ev :: events).length := by
            rw [List.length_cons, UInt64.ofNat_add, UInt64.add_assoc, UInt64.add_comm 1]
            rfl
          rw [← advanced]
          exact keeps'
        · rw [books, ArrivalMarket.settle, Function.update_idem]
      · subst last
        cases tail
        exact ⟨first, _, run_cons fed run_nil, kept, rfl, rfl, ladders⟩

end

end SubscriberBook

end Exsim.Core
