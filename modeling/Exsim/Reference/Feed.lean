import Exsim.Reference.Sweep

/-! # Market-data events as changes of a list of orders

An event tells how one resting order came, went or lost quantity.  The events a
call publishes tell, one after the other, how its book came to be what it is.
-/

namespace Exsim

/-- An event after which its order may be gone. -/
def MdEvent.removes (ev : MdEvent) : Bool := ev.type = .execute || ev.type = .cancel

namespace Core

open Data.Keyed

/-- The order an event speaks of, with the event's quantity. -/
def eventOrder (ev : MdEvent) : RestingOrderView :=
  { orderId := ev.orderId, accountId := ev.accountId, side := ev.side, price := ev.price,
    qty := ev.qty }

namespace ArrivalBook

/-- `after` is what `ev` tells of `book`.  `live` says of an executed order
whether it outlives the command. -/
inductive Told (live : OrderId → Bool) (book : ArrivalBook) (ev : MdEvent) : ArrivalBook → Prop
  | add (type : ev.type = .add) (symbol : ev.symbolId = book.symbolId)
      (fresh : book.holds ev.orderId = false) (positive : ev.qty ≠ 0)
      (inBand : book.priceInBand ev.price = true) :
      Told live book ev (book.rest (eventOrder ev))
  | cancel (type : ev.type = .cancel) (symbol : ev.symbolId = book.symbolId)
      (member : eventOrder ev ∈ book.orders) :
      Told live book ev
        { book with orders := erase RestingOrderView.orderId ev.orderId book.orders }
  | execute {order : RestingOrderView} (type : ev.type = .execute)
      (symbol : ev.symbolId = book.symbolId) (member : order ∈ book.orders)
      (named : { order with qty := ev.qty } = eventOrder ev) (positive : ev.qty ≠ 0)
      (enough : ev.qty ≤ order.qty) (survives : live ev.orderId = decide (ev.qty < order.qty)) :
      Told live book ev { book with orders := book.orders.fill ev.orderId ev.qty }

/-- A sequence of events each told of the book the one before left. -/
inductive Tells (live : OrderId → Bool) : ArrivalBook → List MdEvent → ArrivalBook → Prop
  | nil : Tells live book [] book
  | cons (head : Told live book ev middle) (tail : Tells live middle events after) :
      Tells live book (ev :: events) after

/-- What the caller of a book learns from the events of a call. -/
structure Reported (book : ArrivalBook) (events : List MdEvent) (after : ArrivalBook) : Prop where
  tells : ∀ live : OrderId → Bool,
    (∀ ev ∈ events, ev.type = .execute → live ev.orderId = after.holds ev.orderId) →
    Tells live book events after
  /-- An event that may remove an order names one that was there before the call. -/
  known : ∀ ev ∈ events, ev.removes = true → book.holds ev.orderId = true
  /-- Only the last event can be an add. -/
  addsLast : ∀ ev ∈ events.dropLast, ev.removes = true

section

variable {book middle after : ArrivalBook} {seq : SeqNo} {id oldId : OrderId}
  {accountId : AccountId} {side : Side} {price : Price} {qty : Qty} {tif : TimeInForce}
  {live : OrderId → Bool} {ev : MdEvent} {events others : List MdEvent}

theorem Tells.append (front : Tells live book events middle)
    (back : Tells live middle others after) :
    Tells live book (events ++ others) after := by
  induction front with
  | nil => exact back
  | cons head _ ih => exact .cons head (ih back)

theorem Tells.snoc (front : Tells live book events middle) (last : Told live middle ev after) :
    Tells live book (events ++ [ev]) after :=
  front.append (.cons last .nil)

theorem Told.sound (told : Told live book ev after) (sound : book.Sound) : after.Sound := by
  cases told with
  | add _ _ fresh positive => exact sound.rest fresh positive
  | cancel => exact sound.erase _
  | execute => exact sound.fill _ _

/-- An order that an event does not name stays. -/
theorem Told.holds_other (told : Told live book ev after) (other : ev.orderId ≠ id) :
    after.holds id = book.holds id := by
  cases told with
  | add =>
      have different : (eventOrder ev).orderId ≠ id := other
      rw [ArrivalBook.holds, rest, holds_push, decide_eq_false different, Bool.or_false,
        ArrivalBook.holds]
  | cancel =>
      rw [ArrivalBook.holds, holds_erase, decide_eq_true (Ne.symm other), Bool.and_true,
        ArrivalBook.holds]
  | execute =>
      rw [ArrivalBook.holds, Arrivals.fill]
      split
      · rfl
      · split
        · rw [holds_erase, decide_eq_true (Ne.symm other), Bool.and_true, ArrivalBook.holds]
        · rw [Arrivals.holds_lessen, ArrivalBook.holds]

/-- An order leaves only by an event that names it. -/
theorem Tells.left (tells : Tells live book events after) (before : book.holds id = true)
    (gone : after.holds id = false) : ∃ ev ∈ events, ev.removes = true ∧ ev.orderId = id := by
  induction tells with
  | nil =>
      rw [before] at gone
      cases gone
  | @cons book ev middle events after head tail ih =>
      by_cases named : ev.orderId = id ∧ ev.removes = true
      · exact ⟨ev, List.mem_cons_self, named.2, named.1⟩
      · have stays : middle.holds id = true := by
          by_cases sameId : ev.orderId = id
          · cases head with
            | add _ _ fresh =>
                rw [sameId, before] at fresh
                cases fresh
            | cancel type => exact absurd ⟨sameId, by rw [MdEvent.removes, type]; decide⟩ named
            | execute type => exact absurd ⟨sameId, by rw [MdEvent.removes, type]; decide⟩ named
          · rw [head.holds_other sameId, before]
        obtain ⟨ev, member, rest⟩ := ih stays gone
        exact ⟨ev, List.mem_cons_of_mem _ member, rest⟩

/-- The events told are adds, cancels and executions. -/
theorem Tells.types (tells : Tells live book events after) : ∀ ev ∈ events, ev.type ≠ .reject := by
  induction tells with
  | nil => exact fun ev member => absurd member List.not_mem_nil
  | cons head _ ih =>
      refine List.forall_mem_cons.mpr ⟨?_, ih⟩
      cases head with
      | add type => rw [type]; decide
      | cancel type => rw [type]; decide
      | execute type => rw [type]; decide

/-- An order comes only by an event that adds it. -/
theorem Tells.entered (tells : Tells live book events after) (held : after.holds id = true) :
    book.holds id = true ∨ ∃ ev ∈ events, ev.type = .add ∧ ev.orderId = id := by
  induction tells with
  | nil => exact .inl held
  | @cons book ev middle events after head tail ih =>
      obtain before | ⟨other, member, added⟩ := ih held
      · by_cases named : ev.orderId = id
        · cases head with
          | add type => exact .inr ⟨ev, List.mem_cons_self, type, named⟩
          | cancel =>
              rw [ArrivalBook.holds, holds_erase, Bool.and_eq_true] at before
              exact .inl before.1
          | execute => exact .inl (Arrivals.holds_fill before)
        · rw [head.holds_other named] at before
          exact .inl before
      · exact .inr ⟨other, List.mem_cons_of_mem ev member, added⟩

/-- An order that leaves in a call is reported as cancelled or executed. -/
theorem Reported.left (reported : Reported book events after) (before : book.holds id = true)
    (gone : after.holds id = false) : ∃ ev ∈ events, ev.removes = true ∧ ev.orderId = id :=
  (reported.tells after.holds fun _ _ _ => rfl).left before gone

/-- Where only the last event can be an add, an add ends the list. -/
theorem addsLast_cons (addsLast : ∀ other ∈ (ev :: events).dropLast, other.removes = true) :
    (ev.removes = true ∨ events = []) ∧ ∀ other ∈ events.dropLast, other.removes = true := by
  cases events with
  | nil => exact ⟨.inr rfl, fun other member => (nomatch member)⟩
  | cons first rest =>
      rw [List.dropLast_cons_of_ne_nil (List.cons_ne_nil first rest)] at addsLast
      exact ⟨.inl (addsLast ev List.mem_cons_self),
        fun other member => addsLast other (List.mem_cons_of_mem ev member)⟩

theorem Reported.refl (book : ArrivalBook) : Reported book [] book :=
  ⟨fun _ _ => .nil, fun _ member => absurd member List.not_mem_nil,
    fun _ member => absurd member List.not_mem_nil⟩

end

section Swept

variable {book : ArrivalBook} {seq : SeqNo} {id oldId : OrderId} {accountId : AccountId}
  {side : Side} {price : Price} {qty : Qty} {tif : TimeInForce}

/-- The events of a sweep so far: executions only, of orders that are gone by
now, except that the last may still rest when nothing is left to fill. -/
structure SweptSo (book after : ArrivalBook) (out : MatchOutput) : Prop where
  sound : after.Sound
  symbolId : after.symbolId = book.symbolId
  executes : ∀ ev ∈ out.mdEvents, ev.type = .execute
  known : ∀ ev ∈ out.mdEvents, book.holds ev.orderId = true
  fewer : ∀ id, after.holds id = true → book.holds id = true
  gone : out.remainingQty ≠ 0 → ∀ ev ∈ out.mdEvents, after.holds ev.orderId = false
  tells : ∀ live : OrderId → Bool, (∀ ev ∈ out.mdEvents, live ev.orderId = after.holds ev.orderId) →
    Tells live book out.mdEvents after

theorem SweptSo.removes {before after : ArrivalBook} {out : MatchOutput}
    (swept : SweptSo before after out) :
    ∀ ev ∈ out.mdEvents, ev.removes = true := by
  intro ev listed
  rw [MdEvent.removes, swept.executes ev listed]
  rfl

/-- A trade takes a positive part of its resting order. -/
theorem traded_pos {resting left : Qty} (rests : resting ≠ 0) (unfilled : left ≠ 0) :
    min resting left ≠ 0 := by
  intro zero
  have value := congrArg UInt32.toNat zero
  rw [Data.toNat_min, UInt32.toNat_zero] at value
  rcases Nat.le_total resting.toNat left.toNat with le | le
  · rw [Nat.min_eq_left le] at value
    exact rests (UInt32.toNat_inj.mp value)
  · rw [Nat.min_eq_right le] at value
    exact unfilled (UInt32.toNat_inj.mp value)

theorem traded_le {resting left : Qty} : min resting left ≤ resting :=
  UInt32.le_iff_toNat_le.mpr (by rw [Data.toNat_min]; exact Nat.min_le_left _ _)

/-- Whether the resting order of a trade is used up. -/
theorem Sound.holds_filled (sound : book.Sound) {resting : RestingOrderView}
    (member : resting ∈ book.orders) (qty : Qty) : Data.Keyed.holds RestingOrderView.orderId
    resting.orderId (book.orders.fill resting.orderId qty) = decide (qty < resting.qty) := by
  have held : Data.Keyed.holds RestingOrderView.orderId resting.orderId book.orders = true :=
    holds_iff.mpr ⟨resting, member, rfl⟩
  rw [Arrivals.fill_of_mem sound.distinct member rfl]
  split
  · rename_i used
    rw [holds_erase, decide_eq_false (by simp), Bool.and_false, decide_eq_false]
    rw [UInt32.lt_iff_toNat_lt]
    rw [UInt32.le_iff_toNat_le] at used
    omega
  · rename_i more
    rw [Arrivals.holds_lessen, held, decide_eq_true]
    rw [UInt32.lt_iff_toNat_lt]
    rw [UInt32.le_iff_toNat_le] at more
    omega

/-- Whether the order an event names rests after it. -/
theorem Told.holds_self {live : OrderId → Bool} {after : ArrivalBook} {ev : MdEvent}
    (told : Told live book ev after) (sound : book.Sound) :
    after.holds ev.orderId = (ev.type = .add || ev.type = .execute && live ev.orderId) := by
  cases told with
  | add type =>
      rw [rest_holds, type]
      simp [eventOrder]
  | cancel type =>
      rw [erase_holds, type]
      simp [show MdType.cancel ≠ .add by decide, show MdType.cancel ≠ .execute by decide]
  | @execute order type symbol member named positive enough survives =>
      have isId : order.orderId = ev.orderId := congrArg RestingOrderView.orderId named
      have filled := sound.holds_filled member ev.qty
      rw [isId] at filled
      rw [ArrivalBook.holds, filled, ← survives, type]
      simp [show MdType.execute ≠ .add by decide]

theorem SweptSo.trade {before after : ArrivalBook} {out : MatchOutput} {resting : RestingOrderView}
    (swept : SweptSo before after out) (seq : SeqNo) (aggressor : OrderId)
    (unfilled : out.remainingQty ≠ 0) (member : resting ∈ after.orders) :
    SweptSo before (after.trade seq aggressor resting out).1
      (after.trade seq aggressor resting out).2 := by
  have held : after.holds resting.orderId = true := holds_iff.mpr ⟨resting, member, rfl⟩
  have filled := swept.sound.holds_filled member (min resting.qty out.remainingQty)
  have earlier : ∀ ev ∈ out.mdEvents, (after.trade seq aggressor resting out).1.holds ev.orderId =
      false := by
    intro ev listed
    rw [Bool.eq_false_iff]
    intro still
    have again := holds_trade still
    rw [swept.gone unfilled ev listed] at again
    cases again
  have told : ∀ live : OrderId → Bool, live resting.orderId =
      (after.trade seq aggressor resting out).1.holds
      resting.orderId →
      Told live after (after.eventOf seq .execute resting (min resting.qty out.remainingQty))
        (after.trade seq aggressor resting out).1 := fun live survives =>
    .execute rfl rfl member rfl
      (traded_pos (swept.sound.positive resting member) unfilled) traded_le (survives.trans filled)
  constructor
  · exact swept.sound.fill _ _
  · exact swept.symbolId
  · intro ev listed
    rcases List.mem_append.mp listed with listed | listed
    · exact swept.executes ev listed
    · rw [List.mem_singleton.mp listed]
      rfl
  · intro ev listed
    rcases List.mem_append.mp listed with listed | listed
    · exact swept.known ev listed
    · rw [List.mem_singleton.mp listed]
      exact swept.fewer _ held
  · exact fun id still => swept.fewer id (holds_trade still)
  · intro more ev listed
    rcases List.mem_append.mp listed with listed | listed
    · exact earlier ev listed
    · rw [List.mem_singleton.mp listed]
      refine filled.trans (decide_eq_false ?_)
      have used := Data.le_min_of_sub_ne_zero
        (show out.remainingQty - min resting.qty out.remainingQty ≠ 0 from more)
      rw [UInt32.lt_iff_toNat_lt]
      rw [UInt32.le_iff_toNat_le] at used
      omega
  · intro live survives
    refine (swept.tells live fun ev listed => ?_).snoc (told live ?_)
    · rw [survives ev (List.mem_append_left _ listed), earlier ev listed,
        swept.gone unfilled ev listed]
    · exact survives _ (List.mem_append_right _ (List.mem_singleton_self _))

theorem Sound.sweptSo (sound : book.Sound) (seq : SeqNo) (id : OrderId) (side : Side)
    (price : Price) (qty : Qty) :
    SweptSo book (book.swept seq id side price qty).1 (book.swept seq id side price qty).2 := by
  refine sweep_induction (motive := SweptSo book) seq id side price
    (fun _ _ _ before unfilled first _ => before.trade seq id unfilled (Arrivals.first_mem first).1)
    book.orders.length ?_
  have nothing : ∀ ev : MdEvent, ev ∉ ({ remainingQty := qty } : MatchOutput).mdEvents :=
    fun _ => List.not_mem_nil
  exact ⟨sound, rfl, fun ev member => absurd member (nothing ev),
    fun ev member => absurd member (nothing ev), fun _ held => held,
    fun _ ev member => absurd member (nothing ev), fun _ _ => .nil⟩

end Swept

section Calls

variable {book : ArrivalBook} {seq : SeqNo} {id oldId : OrderId} {accountId : AccountId}
  {side : Side} {price : Price} {qty : Qty} {tif : TimeInForce}

theorem Sound.reported_addOrder (sound : book.Sound) (seq : SeqNo) (id : OrderId)
    (accountId : AccountId) (side : Side) (price : Price) (qty : Qty) (tif : TimeInForce) :
    Reported book (book.addOrder seq id accountId side price qty tif).2.mdEvents
      (book.addOrder seq id accountId side price qty tif).1 := by
  by_cases accepted : book.addReject id price qty = .none
  · have swept := sound.sweptSo seq id side price qty
    obtain ⟨-, inBand, fresh⟩ := addReject_eq_none.mp accepted
    rw [addOrder_accepted accepted]
    split
    · rename_i remains
      rw [Bool.and_eq_true, decide_eq_true_iff] at remains
      have absent : (book.swept seq id side price qty).1.holds id = false :=
        Bool.eq_false_iff.mpr fun held => by
          rw [swept.fewer id held] at fresh
          cases fresh
      refine ⟨fun live survives => ?_, fun ev listed removes => ?_, fun ev listed => ?_⟩
      · refine (swept.tells live fun ev listed => ?_).snoc
          (.add rfl swept.symbolId.symm absent ?_ ?_)
        · rw [survives ev (List.mem_append_left _ listed) (swept.executes ev listed), rest_holds,
            decide_eq_false, Bool.or_false]
          intro isNew
          have named := swept.known ev listed
          rw [← isNew] at named
          exact absurd (fresh.symm.trans named) (by decide)
        · exact UInt32.pos_iff_ne_zero.mp remains.1
        · exact (congrFun (sweep_priceInBand book seq id side price _ _) price).trans inBand
      · rcases List.mem_append.mp listed with listed | listed
        · exact swept.known ev listed
        · rw [List.mem_singleton.mp listed] at removes
          exact absurd removes Bool.false_ne_true
      · rw [List.dropLast_concat] at listed
        exact swept.removes ev listed
    · refine ⟨fun live survives => swept.tells live fun ev listed => ?_,
        fun ev listed _ => swept.known ev listed,
        fun ev listed => swept.removes ev (List.mem_of_mem_dropLast listed)⟩
      exact survives ev listed (swept.executes ev listed)
  · rw [addOrder_rejected accepted]
    exact .refl book

theorem reported_cancelOrder (book : ArrivalBook) (seq : SeqNo) (id : OrderId) :
    Reported book (book.cancelOrder seq id).2.toList (book.cancelOrder seq id).1 := by
  rw [ArrivalBook.cancelOrder]
  cases found : book.find id with
  | none => exact .refl book
  | some order =>
      obtain ⟨member, rfl⟩ := mem_of_find found
      refine ⟨fun live _ => .cons (.cancel rfl rfl member) .nil, fun ev listed _ => ?_,
        fun ev listed => absurd listed List.not_mem_nil⟩
      rw [List.mem_singleton.mp listed]
      exact holds_iff.mpr ⟨order, member, rfl⟩

theorem Sound.reported_replaceOrder (sound : book.Sound) (seq : SeqNo) (oldId id : OrderId)
    (accountId : AccountId) (side : Side) (price : Price) (qty : Qty) (tif : TimeInForce) :
    Reported book (book.replaceOrder seq oldId id accountId side price qty tif).2.mdEvents
      (book.replaceOrder seq oldId id accountId side price qty tif).1 := by
  rw [ArrivalBook.replaceOrder]
  split
  · exact .refl book
  · rw [ArrivalBook.cancelOrder]
    cases found : book.find oldId with
    | none => exact .refl book
    | some order =>
        obtain ⟨member, rfl⟩ := mem_of_find found
        have added :=
          (sound.erase order.orderId).reported_addOrder seq id accountId side price qty tif
        dsimp only
        generalize ArrivalBook.addOrder _ seq id accountId side price qty tif = result at added ⊢
        refine ⟨fun live survives => ?_, fun ev listed removes => ?_, fun ev listed => ?_⟩
        · refine .cons (.cancel rfl rfl member) (added.tells live fun ev listed isExecute => ?_)
          exact survives ev (List.mem_cons_of_mem _ listed) isExecute
        · rcases List.mem_cons.mp listed with rfl | listed
          · exact holds_iff.mpr ⟨order, member, rfl⟩
          · have held := added.known ev listed removes
            rw [erase_holds, Bool.and_eq_true] at held
            exact held.1
        · change ev ∈ (_ :: result.2.mdEvents).dropLast at listed
          cases events : result.2.mdEvents with
          | nil => rw [events] at listed; cases listed
          | cons first rest =>
              rw [events, List.dropLast_cons_of_ne_nil (List.cons_ne_nil first rest)] at listed
              cases List.mem_cons.mp listed with
              | inl isCancel => rw [isCancel]; rfl
              | inr listed => exact added.addsLast ev (by rw [events]; exact listed)

end Calls

end ArrivalBook

end Core

end Exsim
