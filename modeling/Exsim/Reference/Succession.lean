import Exsim.Data.Succession
import Exsim.Reference.MarketFeed
import Exsim.Reference.Queues

/-! # What becomes of the orders of a book

Along the events of a command an order may lose quantity, or leave, but it keeps
its place among the others, and what is added comes behind.
-/

namespace Exsim.Core

open Data Data.Keyed
open List (SublistForall₂)

/-- The same order later on, with no more quantity. -/
structure Remains (later earlier : RestingOrderView) : Prop where
  orderId : later.orderId = earlier.orderId
  accountId : later.accountId = earlier.accountId
  side : later.side = earlier.side
  price : later.price = earlier.price
  qty : later.qty ≤ earlier.qty

instance : Std.Refl Remains := ⟨fun _ => ⟨rfl, rfl, rfl, rfl, UInt32.le_refl _⟩⟩

instance : IsTrans RestingOrderView Remains :=
  ⟨fun _ _ _ later earlier =>
    ⟨later.orderId.trans earlier.orderId, later.accountId.trans earlier.accountId,
    later.side.trans earlier.side, later.price.trans earlier.price,
    UInt32.le_trans later.qty earlier.qty⟩⟩

namespace Arrivals

/-- The orders that events add to the book of a symbol. -/
def addedBy (symbol : SymbolId) (events : List MdEvent) : Arrivals :=
  (events.filter fun ev => ev.type = .add ∧ ev.symbolId = symbol).map eventOrder

/-- The orders a queue serves before `id`. -/
def ahead (id : OrderId) (queue : Arrivals) : Arrivals :=
  queue.takeWhile fun order => !decide (order.orderId = id)

theorem addedBy_append (symbol : SymbolId) (events others : List MdEvent) :
    addedBy symbol (events ++ others) = addedBy symbol events ++ addedBy symbol others := by
  rw [addedBy, List.filter_append, List.map_append]
  rfl

theorem addedBy_nil {symbol : SymbolId} {events : List MdEvent}
    (none : ∀ ev ∈ events, ev.type = .add → ev.symbolId ≠ symbol) : addedBy symbol events = [] := by
  rw [addedBy, List.map_eq_nil_iff, List.filter_eq_nil_iff]
  intro ev member both
  rw [decide_eq_true_iff] at both
  exact none ev member both.1 both.2

theorem addedBy_other {symbol : SymbolId} {ev : MdEvent} (other : ev.type ≠ .add) :
    addedBy symbol [ev] = [] :=
  addedBy_nil fun _ member type => absurd (List.mem_singleton.mp member ▸ type) other

end Arrivals

namespace ArrivalBook

variable {book after : ArrivalBook} {order : RestingOrderView} {id oldId newId : OrderId}
  {qty : Qty} {price : Price} {accountId : AccountId} {side : Side} {tif : TimeInForce}
  {seq : SeqNo} {live : OrderId → Bool} {ev : MdEvent} {events : List MdEvent}

theorem Sound.fill_remains (sound : book.Sound) (member : order ∈ book.orders)
    (named : order.orderId = id) (enough : qty ≤ order.qty) :
    SublistForall₂ Remains (book.orders.fill id qty) book.orders := by
  rw [Arrivals.fill_of_mem sound.distinct member named]
  split
  · exact List.Sublist.sublistForall₂ List.filter_sublist
  · refine List.sublistForall₂_map_left_iff.mpr
      (List.sublistForall₂_iff.mpr ⟨book.orders, ?_, List.Sublist.refl _⟩)
    refine List.forall₂_same.mpr fun other listed => ?_
    split
    · rename_i same
      obtain rfl := sound.distinct.eq listed member (same.trans named.symm)
      refine ⟨rfl, rfl, rfl, rfl, ?_⟩
      rw [UInt32.le_iff_toNat_le, UInt32.toNat_sub_of_le _ _ enough]
      exact Nat.sub_le _ _
    · exact refl other

theorem Told.remains (told : Told live book ev after) (sound : book.Sound) :
    SublistForall₂ Remains after.orders (book.orders ++ Arrivals.addedBy book.symbolId [ev]) := by
  cases told with
  | add type symbol =>
      have added : Arrivals.addedBy book.symbolId [ev] = [eventOrder ev] := by
        simp [Arrivals.addedBy, type, symbol]
      rw [added]
      exact refl _
  | cancel type =>
      rw [Arrivals.addedBy_other (by rw [type]; decide), List.append_nil]
      exact List.Sublist.sublistForall₂ List.filter_sublist
  | execute type _ member named _ enough =>
      have same : _ = ev.orderId := congrArg RestingOrderView.orderId named
      rw [Arrivals.addedBy_other (by rw [type]; decide), List.append_nil]
      exact sound.fill_remains member same enough

theorem Told.symbolId (told : Told live book ev after) : after.symbolId = book.symbolId := by
  cases told <;> rfl

theorem Tells.symbols (tells : Tells live book events after) :
    ∀ ev ∈ events, ev.symbolId = book.symbolId := by
  induction tells with
  | nil => simp
  | cons head _ ih =>
      intro ev member
      obtain rfl | member := List.mem_cons.mp member
      · exact head.symbol
      · exact (ih ev member).trans head.symbolId

theorem Tells.remains (tells : Tells live book events after) (sound : book.Sound) :
    SublistForall₂ Remains after.orders (book.orders ++ Arrivals.addedBy book.symbolId events) := by
  induction tells with
  | nil =>
      rw [Arrivals.addedBy_nil (by simp), List.append_nil]
      exact refl _
  | @cons book ev middle events after head _ ih =>
      have same : middle.symbolId = book.symbolId := head.symbolId
      have first := head.remains sound
      have rest := ih (head.sound sound)
      rw [same] at rest
      rw [← List.singleton_append, Arrivals.addedBy_append, ← List.append_assoc]
      exact IsTrans.trans _ _ _ rest (Succession.append first (refl _))

/-- An add that is refused tells of no order. -/
theorem addOrder_refused_events
    (refused : (book.addOrder seq id accountId side price qty tif).2.reject ≠ .none) :
    (book.addOrder seq id accountId side price qty tif).2.mdEvents = [] := by
  rw [addOrder_reject] at refused
  rw [addOrder_rejected refused]

/-- A replace that is refused adds no order. -/
theorem replaceOrder_refused_events
    (refused : (book.replaceOrder seq oldId newId accountId side price qty tif).2.reject ≠ .none) :
    ∀ ev ∈ (book.replaceOrder seq oldId newId accountId side price qty tif).2.mdEvents,
      ev.type ≠ .add := by
  rw [replaceOrder] at refused ⊢
  split
  · simp
  · rename_i inBand
    rw [if_neg inBand] at refused
    rw [cancelOrder] at refused ⊢
    cases found : book.find oldId with
    | none => simp
    | some order =>
        rw [found] at refused
        dsimp only at refused ⊢
        rw [addOrder_refused_events refused]
        intro ev member
        rw [List.mem_singleton.mp member]
        exact fun type => by cases type

end ArrivalBook

namespace ArrivalMarket

variable {market : ArrivalMarket} {cmd : ClientCommand} {seq : SeqNo}

theorem apply_refused_adds (listed : market.Listed)
    (refused : (market.apply seq cmd).2.reject ≠ .none) :
    ∀ ev ∈ (market.apply seq cmd).2.mdEvents, ev.type ≠ .add := by
  obtain isNew | isCancel | isReplace := apply_refused_type refused
  · rw [apply_new isNew, addOrder] at refused ⊢
    dsimp only at refused ⊢
    rw [ArrivalBook.addOrder_refused_events refused]
    simp
  · obtain absent | ⟨ev, -, ran⟩ := apply_cancel seq listed isCancel
    · rw [absent.2]
      simp
    · rw [ran] at refused
      exact absurd rfl refused
  · rw [apply_replace isReplace, replaceOrder] at refused ⊢
    split
    · simp
    · rename_i target
      rw [target] at refused
      exact ArrivalBook.replaceOrder_refused_events refused

/-- After a command the orders of a book are those it had before, with what the
command added behind them. -/
theorem apply_remains (seq : SeqNo) (sound : market.Sound) (listed : market.Listed)
    (known : cmd.type = .new → market.validSymbol cmd.symbolId = true) (symbol : SymbolId) :
    SublistForall₂ Remains ((market.apply seq cmd).1.books symbol).orders
      ((market.books symbol).orders ++
        Arrivals.addedBy symbol (market.apply seq cmd).2.mdEvents) := by
  have moved : Moved market (market.apply seq cmd).2.mdEvents (market.apply seq cmd).1 :=
    apply_moved sound listed known
  obtain ⟨same, silent⟩ | ⟨target, after, targeted, books, reported⟩ := moved
  · rw [same, silent, Arrivals.addedBy_nil (by simp), List.append_nil]
    exact refl _
  · have tells := reported.tells after.holds fun ev _ _ => rfl
    have own := sound.symbolId target targeted
    rw [books]
    by_cases here : symbol = target
    · rw [here, Function.update_self]
      have remains := tells.remains (sound.books target targeted)
      rwa [own] at remains
    · have elsewhere : Arrivals.addedBy symbol (market.apply seq cmd).2.mdEvents = [] :=
        Arrivals.addedBy_nil fun ev member _ same =>
          here (same.symm.trans ((tells.symbols ev member).trans own))
      rw [Function.update_of_ne here, elsewhere, List.append_nil]
      exact refl _

end ArrivalMarket

end Exsim.Core
