import Exsim.Reference.Feed

/-! # Books that follow the events of another

An event that tells how a book changed makes the same change when it is fed to
that book, and the same to the queues of any book with the same queues.
-/

namespace Exsim.Core.ArrivalBook

open Data.Keyed

/-- One event taken from the feed, and whether it could be applied. -/
def feed (book : ArrivalBook) (ev : MdEvent) : ArrivalBook × Bool :=
  if ev.type = .add then book.feedAdd ev.orderId ev.accountId ev.side ev.price ev.qty
  else if ev.type = .execute then book.feedExecute ev.orderId ev.qty
  else if ev.type = .cancel then
    let (book, cancelled) := book.cancelOrder ev.seq ev.orderId
    (book, cancelled.isSome)
  else (book, false)

section

variable {book after left right : ArrivalBook} {live : OrderId → Bool} {ev : MdEvent}
  {id : OrderId} {qty : Qty} {order : RestingOrderView}

theorem feed_cancel (type : ev.type = .cancel) : book.feed ev =
    ((book.cancelOrder ev.seq ev.orderId).1, (book.cancelOrder ev.seq ev.orderId).2.isSome) := by
  rw [feed, type]
  rfl

theorem feed_execute (type : ev.type = .execute) :
    book.feed ev = book.feedExecute ev.orderId ev.qty := by
  rw [feed, type]
  rfl

theorem feed_add (type : ev.type = .add) :
    book.feed ev = book.feedAdd ev.orderId ev.accountId ev.side ev.price ev.qty := by
  rw [feed, if_pos type]

/-- What an event tells of a book is what feeding it makes of the book. -/
theorem Told.feed (told : Told live book ev after) : book.feed ev = (after, true) := by
  cases told with
  | add type symbol fresh positive inBand =>
      rw [feed_add type, feedAdd_eq, if_pos ⟨fresh, positive, inBand⟩]
      rfl
  | cancel type symbol member =>
      have held : book.holds ev.orderId = true := holds_iff.mpr ⟨_, member, rfl⟩
      obtain ⟨order, found⟩ := Option.isSome_iff_exists.mp held
      rw [feed_cancel type, cancelOrder, ArrivalBook.find, found]
      rfl
  | execute type symbol member named positive enough survives =>
      have sameId := congrArg RestingOrderView.orderId named
      have held : book.holds ev.orderId = true := holds_iff.mpr ⟨_, member, sameId⟩
      rw [feed_execute type, feedExecute, held, if_pos (by simpa using positive)]

/-- The same orders in every queue, whatever the order of arrival across queues. -/
structure SameQueues (left right : ArrivalBook) : Prop where
  symbolId : right.symbolId = left.symbolId
  band : right.priceInBand = left.priceInBand
  queues : ∀ isBuy price, right.atPrice isBuy price = left.atPrice isBuy price

namespace SameQueues

theorem mem_iff (same : SameQueues left right) : order ∈ right.orders ↔ order ∈ left.orders := by
  have queued : ∀ book : ArrivalBook, order ∈ book.orders ↔
      order ∈ book.atPrice order.side.isBuy order.price := by
    intro book
    rw [atPrice, List.mem_filter]
    simp
  rw [queued right, same.queues, ← queued left]

theorem holds (same : SameQueues left right) (id : OrderId) : right.holds id = left.holds id := by
  rw [Bool.eq_iff_iff, ArrivalBook.holds, ArrivalBook.holds, holds_iff, holds_iff]
  exact exists_congr fun order => and_congr_left fun _ => same.mem_iff

theorem rest (same : SameQueues left right) (order : RestingOrderView) :
    SameQueues (left.rest order) (right.rest order) := by
  refine ⟨same.symbolId, same.band, fun isBuy price => ?_⟩
  have queues := same.queues isBuy price
  simp only [atPrice, ArrivalBook.rest, List.filter_append] at queues ⊢
  rw [queues]

theorem erase (same : SameQueues left right) (id : OrderId) :
    SameQueues { left with orders := Data.Keyed.erase RestingOrderView.orderId id left.orders }
      { right with orders := Data.Keyed.erase RestingOrderView.orderId id right.orders } := by
  refine ⟨same.symbolId, same.band, fun isBuy price => ?_⟩
  have queues := same.queues isBuy price
  simp only [atPrice, filter_erase] at queues ⊢
  rw [queues]

theorem lessen (same : SameQueues left right) (id : OrderId) (qty : Qty) :
    SameQueues { left with orders := left.orders.lessen id qty }
      { right with orders := right.orders.lessen id qty } := by
  refine ⟨same.symbolId, same.band, fun isBuy price => ?_⟩
  have queues := same.queues isBuy price
  have lessened : ∀ book : ArrivalBook,
      atPrice { book with orders := book.orders.lessen id qty } isBuy price =
      (book.atPrice isBuy price).lessen id qty := fun book => filter_adjust fun _ => rfl
  rw [lessened, lessened, queues]

/-- An id names the same order on both sides. -/
theorem find (same : SameQueues left right) (leftSound : left.Sound) (rightSound : right.Sound)
    (id : OrderId) :
    right.find id = left.find id := by
  refine Option.ext fun order => ?_
  rw [ArrivalBook.find, ArrivalBook.find, rightSound.distinct.find_eq_some,
    leftSound.distinct.find_eq_some, same.mem_iff]

theorem fill (same : SameQueues left right) (leftSound : left.Sound) (rightSound : right.Sound)
    (id : OrderId) (qty : Qty) :
    SameQueues { left with orders := left.orders.fill id qty }
      { right with orders := right.orders.fill id qty } := by
  have found := same.find leftSound rightSound id
  rw [ArrivalBook.find, ArrivalBook.find] at found
  rw [Arrivals.fill, Arrivals.fill, found]
  split
  · exact same
  · split
    · exact same.erase id
    · exact same.lessen id qty

/-- Fed the same event, books with the same queues keep them so. -/
theorem feed (same : SameQueues left right) (leftSound : left.Sound) (rightSound : right.Sound)
    (ev : MdEvent) :
    (right.feed ev).2 = (left.feed ev).2 ∧ SameQueues (left.feed ev).1 (right.feed ev).1 := by
  rw [ArrivalBook.feed, ArrivalBook.feed]
  split
  · rw [feedAdd_eq, feedAdd_eq, same.holds, same.band]
    split
    · exact ⟨rfl, same.rest _⟩
    · exact ⟨rfl, same⟩
  · split
    · rw [feedExecute, feedExecute, same.holds]
      split
      · exact ⟨rfl, same.fill leftSound rightSound _ _⟩
      · exact ⟨rfl, same⟩
    · split
      · rw [cancelOrder, cancelOrder, same.find leftSound rightSound]
        cases left.find ev.orderId with
        | none => exact ⟨rfl, same⟩
        | some old => exact ⟨rfl, same.erase ev.orderId⟩
      · exact ⟨rfl, same⟩

end SameQueues

theorem Sound.feed (sound : book.Sound) (ev : MdEvent) : (book.feed ev).1.Sound := by
  rw [ArrivalBook.feed]
  split
  · exact sound.feedAdd
  · split
    · exact sound.feedExecute
    · split
      · exact sound.cancelOrder ev.seq ev.orderId
      · exact sound

/-- An event that may remove an order adds none, and moves none. -/
theorem feed_removes (book : ArrivalBook) (removes : ev.removes = true) :
    (book.feed ev).1.orders.length ≤ book.orders.length ∧
    ∀ order ∈ (book.feed ev).1.orders, ∃ before ∈ book.orders, before.side = order.side ∧
    before.price = order.price := by
  have kept : ∀ order ∈ book.orders, ∃ before ∈ book.orders, before.side = order.side ∧
      before.price = order.price :=
    fun order member => ⟨order, member, rfl, rfl⟩
  rw [MdEvent.removes, Bool.or_eq_true, decide_eq_true_iff, decide_eq_true_iff] at removes
  obtain type | type := removes
  · rw [feed_execute type, feedExecute]
    split
    · refine ⟨Arrivals.length_fill_le _ _ _, fun order member => ?_⟩
      obtain ⟨before, listed, -, -, side, price⟩ := Arrivals.mem_fill member
      exact ⟨before, listed, side, price⟩
    · exact ⟨Nat.le_refl _, kept⟩
  · rw [feed_cancel type]
    refine ⟨cancelOrder_length_le book ev.seq ev.orderId, fun order member => ?_⟩
    rw [cancelOrder] at member
    split at member
    · exact kept order member
    · exact kept order (mem_erase.mp member).1

end

end Exsim.Core.ArrivalBook
