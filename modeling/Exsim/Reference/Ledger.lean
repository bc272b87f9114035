import Exsim.Reference.Follower

/-! # Where the quantity of an order goes

From the add that rests an order to the next add of its id, what the events say
of it and what still rests make up the quantity of the add.
-/

namespace Exsim

/-- The quantity the events of a type tell of an order. -/
def toldQty (type : MdType) (id : OrderId) (events : List MdEvent) : Nat :=
  ((events.filter fun ev => ev.type = type ∧ ev.orderId = id).map fun ev => ev.qty.toNat).sum

/-- Whether an event starts another order under an id. -/
def MdEvent.starts (id : OrderId) (ev : MdEvent) : Bool := ev.type = .add && ev.orderId = id

/-- The events of an order, up to the next one with its id. -/
def lifetime (id : OrderId) (events : List MdEvent) : List MdEvent :=
  (events.takeWhile fun ev => !ev.starts id).filter fun ev => ev.orderId = id

/-- The quantity of an order is what its executions take, what its cancel takes
if there is one, and what still rests unless its id is used again. -/
def Accounted (id : OrderId) (qty : Nat) (events : List MdEvent) (resting : Nat) : Prop :=
  ∃ (fills : List MdEvent) (withdrawal : Option MdEvent),
    lifetime id events = fills ++ withdrawal.toList ∧
    (∀ ev ∈ fills, ev.type = .execute) ∧ (∀ ev ∈ withdrawal, ev.type = .cancel) ∧
    qty = (fills.map fun ev => ev.qty.toNat).sum + (withdrawal.map fun ev => ev.qty.toNat).getD 0 +
      if events.any (MdEvent.starts id) then 0 else resting

section

variable {id : OrderId} {ev : MdEvent} {events : List MdEvent} {qty resting : Nat}

theorem MdEvent.not_starts (type : ev.type ≠ .add) : ev.starts id = false := by simp [starts, type]

theorem lifetime_other (different : ev.orderId ≠ id) :
    lifetime id (ev :: events) = lifetime id events := by
  have goes : (!ev.starts id) = true := by simp [MdEvent.starts, different]
  rw [lifetime, List.takeWhile_cons, if_pos goes, List.filter_cons,
    if_neg (by simpa using different), lifetime]

theorem lifetime_named (named : ev.orderId = id) (type : ev.type ≠ .add) :
    lifetime id (ev :: events) = ev :: lifetime id events := by
  have goes : (!ev.starts id) = true := by simp [MdEvent.starts, type]
  rw [lifetime, List.takeWhile_cons, if_pos goes, List.filter_cons,
    if_pos (by simpa using named), lifetime]

theorem lifetime_starts (starts : ev.starts id = true) : lifetime id (ev :: events) = [] := by
  simp [lifetime, starts]

theorem any_starts_cons (goes : ev.starts id = false) :
    (ev :: events).any (MdEvent.starts id) = events.any (MdEvent.starts id) := by
  rw [List.any_cons, goes, Bool.false_or]

theorem Accounted.other (different : ev.orderId ≠ id)
    (accounted : Accounted id qty events resting) :
    Accounted id qty (ev :: events) resting := by
  obtain ⟨fills, withdrawal, life, executes, cancels, balance⟩ := accounted
  refine ⟨fills, withdrawal, by rw [lifetime_other different, life], executes, cancels, ?_⟩
  rw [any_starts_cons (by simp [MdEvent.starts, different]), balance]

theorem Accounted.fill (named : ev.orderId = id) (type : ev.type = .execute)
    (accounted : Accounted id qty events resting) :
    Accounted id (ev.qty.toNat + qty) (ev :: events) resting := by
  obtain ⟨fills, withdrawal, life, executes, cancels, balance⟩ := accounted
  refine ⟨ev :: fills, withdrawal, ?_, ?_, cancels, ?_⟩
  · rw [lifetime_named named (by rw [type]; decide), life, List.cons_append]
  · intro other member
    obtain rfl | member := List.mem_cons.mp member
    · exact type
    · exact executes other member
  · rw [any_starts_cons (MdEvent.not_starts (by rw [type]; decide)), balance, List.map_cons,
      List.sum_cons]
    omega

/-- What is known of an id whose order is gone. -/
theorem Accounted.gone (silent : lifetime id events = []) (resting : Nat)
    (left : events.any (MdEvent.starts id) = false → resting = 0) :
    Accounted id 0 events resting := by
  refine ⟨[], none, silent, fun _ member => absurd member List.not_mem_nil,
    fun _ member => absurd member (by simp), ?_⟩
  split
  · rfl
  · rename_i unused
    rw [left (Bool.eq_false_iff.mpr unused)]
    rfl

theorem Accounted.cancel (named : ev.orderId = id) (type : ev.type = .cancel)
    (silent : lifetime id events = [])
    (left : events.any (MdEvent.starts id) = false → resting = 0) :
    Accounted id ev.qty.toNat (ev :: events) resting := by
  refine ⟨[], some ev, ?_, fun _ member => absurd member List.not_mem_nil, ?_, ?_⟩
  · rw [lifetime_named named (by rw [type]; decide), silent]
    rfl
  · intro other isEv
    rw [← Option.mem_some.mp isEv]
    exact type
  · rw [any_starts_cons (MdEvent.not_starts (by rw [type]; decide))]
    split
    · simp
    · rename_i unused
      simp [left (Bool.eq_false_iff.mpr unused)]

end

namespace Core.ArrivalBook

open Data.Keyed

/-- The quantity under an id in a queue. -/
def queuedQty (book : ArrivalBook) (id : OrderId) (side : Side) (price : Price) : Nat :=
  (((book.atPrice side.isBuy price).filter fun order => order.orderId = id).map fun order =>
    order.qty.toNat).sum

/-- Events each told of the book the one before left, over any number of calls. -/
inductive Explains : ArrivalBook → List MdEvent → ArrivalBook → Prop
  | nil : Explains book [] book
  | cons {live : OrderId → Bool} (head : Told live book ev middle)
      (tail : Explains middle events after) :
      Explains book (ev :: events) after

section

variable {book middle after : ArrivalBook} {live : OrderId → Bool} {ev : MdEvent}
  {events front back : List MdEvent} {order : RestingOrderView} {id : OrderId}

theorem Tells.explains (tells : Tells live book events after) : Explains book events after := by
  induction tells with
  | nil => exact .nil
  | cons head _ ih => exact .cons head ih

theorem Explains.append (first : Explains book front middle) (second : Explains middle back after) :
    Explains book (front ++ back) after := by
  induction first with
  | nil => exact second
  | cons head _ ih => exact .cons head (ih second)

theorem Explains.split (explains : Explains book (front ++ back) after) :
    ∃ middle, Explains book front middle ∧ Explains middle back after := by
  induction front generalizing book with
  | nil => exact ⟨book, .nil, explains⟩
  | cons ev front ih =>
      cases explains with
      | cons head tail =>
          obtain ⟨middle, first, second⟩ := ih tail
          exact ⟨middle, .cons head first, second⟩

theorem Told.band (told : Told live book ev after) : after.priceInBand = book.priceInBand := by
  cases told <;> rfl

theorem Explains.band (explains : Explains book events after) :
    after.priceInBand = book.priceInBand := by
  induction explains with
  | nil => rfl
  | cons head _ ih => rw [ih, head.band]

theorem Explains.sound (explains : Explains book events after) (sound : book.Sound) :
    after.Sound := by
  induction explains with
  | nil => exact sound
  | cons head _ ih => exact ih (head.sound sound)

theorem queuedQty_of_gone (gone : book.holds id = false) (side : Side) (price : Price) :
    book.queuedQty id side price = 0 := by
  have none : (book.atPrice side.isBuy price).filter (fun order => order.orderId = id) = [] := by
    rw [List.filter_eq_nil_iff]
    intro order member same
    rw [ArrivalBook.holds, holds_eq_false] at gone
    exact gone order (List.mem_filter.mp member).1 (by simpa using same)
  rw [queuedQty, none]
  rfl

theorem Sound.queuedQty (sound : book.Sound) (member : order ∈ book.orders) :
    book.queuedQty order.orderId order.side order.price = order.qty.toNat := by
  have here : order ∈ book.atPrice order.side.isBuy order.price := by simp [atPrice, member]
  have alone := Distinct.filter_key (sound.distinct.filter _) here
  rw [ArrivalBook.queuedQty, atPrice, alone]
  simp

/-- Nothing is told of an id without an order, until it is used again. -/
theorem Explains.silent (explains : Explains book events after) (gone : book.holds id = false) :
    lifetime id events = [] ∧
    (events.any (MdEvent.starts id) = false → after.holds id = false) := by
  induction explains with
  | nil => exact ⟨rfl, fun _ => gone⟩
  | @cons book ev middle events after live head tail ih =>
      by_cases named : ev.orderId = id
      · have unknown : ∀ order ∈ book.orders, order.orderId ≠ ev.orderId := by
          rw [ArrivalBook.holds, holds_eq_false] at gone
          rw [named]
          exact gone
        have starts : ev.starts id = true := by
          cases head with
          | add type => simp [MdEvent.starts, type, named]
          | cancel type symbol member => exact absurd rfl (unknown _ member)
          | @execute resting type symbol member same =>
              have sameId : resting.orderId = ev.orderId := congrArg RestingOrderView.orderId same
              exact absurd sameId (unknown _ member)
        exact ⟨lifetime_starts starts, by simp [starts]⟩
      · rw [lifetime_other named, any_starts_cons (by simp [MdEvent.starts, named])]
        exact ih ((head.holds_other named).trans gone)

theorem Told.keeps (told : Told live book ev after) (other : ev.orderId ≠ order.orderId)
    (member : order ∈ book.orders) :
    order ∈ after.orders := by
  cases told with
  | add => exact List.mem_append_left _ member
  | cancel => exact mem_erase.mpr ⟨member, Ne.symm other⟩
  | execute =>
      dsimp only
      rw [Arrivals.fill]
      split
      · exact member
      · split
        · exact mem_erase.mpr ⟨member, Ne.symm other⟩
        · exact mem_adjust.mpr ⟨order, member, if_neg (Ne.symm other)⟩

/-- The quantity of a resting order is accounted for by the events that follow. -/
theorem Explains.accounted (explains : Explains book events after) (sound : book.Sound)
    (member : order ∈ book.orders) :
    Accounted order.orderId order.qty.toNat events
      (after.queuedQty order.orderId order.side order.price) := by
  induction explains generalizing order with
  | nil =>
      refine ⟨[], none, rfl, fun _ member => absurd member List.not_mem_nil,
        fun _ member => absurd member (by simp), ?_⟩
      simp [sound.queuedQty member]
  | @cons book ev middle events after live head tail ih =>
      have kept := head.sound sound
      by_cases named : ev.orderId = order.orderId
      · have gone : middle.holds order.orderId = false → lifetime order.orderId events = [] ∧
            (events.any (MdEvent.starts order.orderId) = false →
              after.queuedQty order.orderId order.side order.price = 0) := fun left =>
          ⟨(tail.silent left).1, fun unused => queuedQty_of_gone ((tail.silent left).2 unused) _ _⟩
        cases head with
        | add type symbol fresh =>
            rw [named, ArrivalBook.holds, holds_eq_false] at fresh
            exact absurd rfl (fresh order member)
        | cancel type symbol listed =>
            have same : eventOrder ev = order := sound.distinct.eq listed member named
            have qty : order.qty = ev.qty := by rw [← same]; rfl
            have left := gone (by simp [ArrivalBook.holds, holds_erase, named])
            rw [qty]
            exact .cancel named type left.1 left.2
        | @execute resting type symbol listed same positive enough =>
            have sameId : resting.orderId = ev.orderId := congrArg RestingOrderView.orderId same
            obtain rfl : resting = order := sound.distinct.eq listed member (sameId.trans named)
            rw [UInt32.le_iff_toNat_le] at enough
            by_cases used : resting.qty ≤ ev.qty
            · have left := gone (by
                rw [ArrivalBook.holds, Arrivals.fill_of_mem sound.distinct member sameId,
                  if_pos used, holds_erase]
                simp [named])
              rw [UInt32.le_iff_toNat_le] at used
              have qty : resting.qty.toNat = ev.qty.toNat + 0 := by omega
              rw [qty]
              exact .fill named type (.gone left.1 _ left.2)
            · have fewer : { resting with qty := resting.qty - ev.qty } ∈
                  book.orders.fill ev.orderId ev.qty := by
                rw [Arrivals.fill_of_mem sound.distinct member sameId, if_neg used]
                exact mem_adjust.mpr ⟨resting, member, if_pos sameId⟩
              have rest := ih kept fewer
              have left : (resting.qty - ev.qty).toNat = resting.qty.toNat - ev.qty.toNat :=
                UInt32.toNat_sub_of_le _ _ (UInt32.le_iff_toNat_le.mpr enough)
              have qty : resting.qty.toNat = ev.qty.toNat + (resting.qty - ev.qty).toNat := by omega
              rw [qty]
              exact .fill named type rest
      · exact .other named (ih kept (head.keeps named member))

/-- Every add among the events is accounted for by those after it. -/
theorem Explains.ledger (explains : Explains book (front ++ ev :: back) after) (sound : book.Sound)
    (added : ev.type = .add) :
    book.priceInBand ev.price = true ∧
      Accounted ev.orderId ev.qty.toNat back (after.queuedQty ev.orderId ev.side ev.price) := by
  obtain ⟨middle, first, second⟩ := explains.split
  cases second with
  | cons head tail =>
      have kept := head.sound (first.sound sound)
      cases head with
      | add type symbol fresh positive inBand =>
          have rests : eventOrder ev ∈ (middle.rest (eventOrder ev)).orders :=
            List.mem_append_right _ List.mem_cons_self
          exact ⟨by rw [← first.band]; exact inBand, tail.accounted kept rests⟩
      | cancel type => exact absurd (type.symm.trans added) (by decide)
      | execute type => exact absurd (type.symm.trans added) (by decide)

end

end Core.ArrivalBook

end Exsim
