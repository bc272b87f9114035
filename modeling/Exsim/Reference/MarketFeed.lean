import Exsim.Reference.Commands
import Exsim.Reference.Follower

/-! # Markets that follow the events of another

An event told of a book makes the same change in a market that holds the same
book, provided its index can find the order the event names.
-/

namespace Exsim.Core

open Data.Keyed

namespace ArrivalBook

variable {book after : ArrivalBook} {live : OrderId → Bool} {ev : MdEvent}

/-- What an event tells does not depend on its number. -/
theorem Told.stamped (told : Told live book ev after) (seq : SeqNo) :
    Told live book { ev with seq } after := by
  cases told with
  | add type symbol fresh positive inBand => exact .add type symbol fresh positive inBand
  | cancel type symbol member => exact .cancel type symbol member
  | execute type symbol member named positive enough survives =>
      exact .execute type symbol member named positive enough survives

theorem Told.symbol (told : Told live book ev after) : ev.symbolId = book.symbolId := by
  cases told with
  | add type symbol => exact symbol
  | cancel type symbol => exact symbol
  | execute type symbol => exact symbol

theorem Told.type (told : Told live book ev after) : ev.type = .add ∨ ev.removes = true := by
  cases told with
  | add type => exact .inl type
  | cancel type => exact .inr (by rw [MdEvent.removes, type]; rfl)
  | execute type => exact .inr (by rw [MdEvent.removes, type]; rfl)

/-- An order that an event may remove was there. -/
theorem Told.held (told : Told live book ev after) (removes : ev.removes = true) :
    book.holds ev.orderId = true := by
  cases told with
  | add type =>
      rw [MdEvent.removes, type] at removes
      cases removes
  | cancel type symbol member => exact holds_iff.mpr ⟨_, member, rfl⟩
  | execute type symbol member named =>
      exact holds_iff.mpr ⟨_, member, congrArg RestingOrderView.orderId named⟩

end ArrivalBook

namespace ArrivalMarket

/-- One event taken from the feed, and whether it could be applied. -/
def feed (market : ArrivalMarket) (ev : MdEvent) : ArrivalMarket × Bool :=
  if ev.type = .add then market.feedAdd ev
  else if ev.type = .cancel then
    let (market, cancelled) := market.cancelOrder ev.seq ev.orderId
    (market, cancelled.isSome)
  else if ev.type = .execute then market.feedExecute ev
  else (market, ev.type = .replace || ev.type = .reject)

section

variable {market later : ArrivalMarket} {symbol : SymbolId} {after : ArrivalBook}
  {live : OrderId → Bool} {ev : MdEvent}

/-- What other books hold does not depend on the one that changed. -/
theorem elsewhere_update {id : OrderId} (sameMax : later.maxSymbol = market.maxSymbol)
    (books : later.books = Function.update market.books symbol after) :
    later.Elsewhere symbol id ↔ market.Elsewhere symbol id := by
  refine exists_congr fun other => ?_
  rw [validSymbol, sameMax, books]
  refine and_congr_right fun _ => and_congr_right fun away => ?_
  rw [Function.update_of_ne away]

/-- An event told of one book settles that book, if the index knows the order. -/
theorem feed_told (sound : market.Sound) (indexed : market.Indexed)
    (valid : market.validSymbol symbol = true)
    (told : ArrivalBook.Told live (market.books symbol) ev after) :
    market.feed ev = (market.settle symbol after ev.orderId, true) := by
  have fed := told.feed
  have own : ev.symbolId = symbol := told.symbol.trans (sound.symbolId symbol valid)
  have target : ev.removes = true → market.symbolOf ev.orderId = some symbol := fun removes =>
    (indexed _ _).mpr ⟨valid, told.held removes⟩
  cases told with
  | add type =>
      rw [ArrivalBook.feed_add type] at fed
      rw [feed, if_pos type, feedAdd, own, valid, if_pos rfl, fed]
      rfl
  | cancel type =>
      have notAdd : ¬MdType.cancel = .add := by decide
      have target := target (by rw [MdEvent.removes, type]; rfl)
      rw [ArrivalBook.feed_cancel type] at fed
      obtain ⟨same, some⟩ := Prod.mk.inj fed
      rw [feed, type, if_neg notAdd, if_pos rfl, cancelOrder, target]
      dsimp only
      rw [same, some]
  | execute type =>
      have notAdd : ¬MdType.execute = .add := by decide
      have notCancel : ¬MdType.execute = .cancel := by decide
      have target := target (by rw [MdEvent.removes, type]; rfl)
      rw [ArrivalBook.feed_execute type] at fed
      rw [feed, type, if_neg notAdd, if_neg notCancel, if_pos rfl, feedExecute, target]
      dsimp only
      rw [fed]

/-- A right index stays so unless an event adds an order that another book holds. -/
theorem feed_indexed (indexed : market.Indexed)
    (alone : ev.type = .add → ¬market.Elsewhere ev.symbolId ev.orderId) :
    (market.feed ev).1.Indexed := by
  rw [feed]
  split
  · rename_i type
    exact (feedAdd_indexed indexed).mpr fun all => alone type all.2.2.2.2
  · split
    · exact cancelOrder_indexed indexed
    · split
      · exact feedExecute_indexed indexed
      · exact indexed

end

end ArrivalMarket

end Exsim.Core
