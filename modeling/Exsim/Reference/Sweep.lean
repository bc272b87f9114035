import Exsim.Reference.ArrivalBook

/-! # What the reference book keeps true, and how its calls end -/

namespace Exsim.Core.ArrivalBook

open Data.Keyed

variable {book : ArrivalBook} {seq : SeqNo} {id : OrderId} {accountId : AccountId} {side : Side}
  {price : Price} {qty : Qty} {tif : TimeInForce} {out : MatchOutput}

/-- No order rests with nothing left, and ids are told apart. -/
structure Sound (book : ArrivalBook) : Prop where
  distinct : Distinct RestingOrderView.orderId book.orders
  positive : ∀ order ∈ book.orders, order.qty ≠ 0

theorem Sound.erase (sound : book.Sound) (id : OrderId) :
    Sound { book with orders := Data.Keyed.erase RestingOrderView.orderId id book.orders } :=
  ⟨sound.distinct.erase id, fun order member => sound.positive order (mem_erase.mp member).1⟩

theorem Sound.rest {order : RestingOrderView} (sound : book.Sound)
    (fresh : book.holds order.orderId = false) (positive : order.qty ≠ 0) :
    (book.rest order).Sound := by
  refine ⟨sound.distinct.push fresh, fun other member => ?_⟩
  rcases List.mem_append.mp member with member | member
  · exact sound.positive other member
  · rw [List.mem_singleton.mp member]
    exact positive

theorem Sound.fill (sound : book.Sound) (id : OrderId) (qty : Qty) :
    Sound { book with orders := book.orders.fill id qty } := by
  cases found : Data.Keyed.find RestingOrderView.orderId id book.orders with
  | none =>
      rw [Arrivals.fill, found]
      exact sound
  | some order =>
      obtain ⟨member, isId⟩ := mem_of_find found
      rw [Arrivals.fill_of_mem sound.distinct member isId]
      split
      · exact sound.erase id
      · rename_i more
        refine ⟨sound.distinct.adjust fun _ => rfl, fun other held => ?_⟩
        obtain ⟨before, listed, rfl⟩ := mem_adjust.mp held
        split
        · rename_i sameId
          rw [sound.distinct.eq listed member (sameId.trans isId.symm)]
          intro zero
          rw [UInt32.le_iff_toNat_le] at more
          have enough : qty ≤ order.qty := UInt32.le_iff_toNat_le.mpr (by omega)
          rw [← UInt32.toNat_inj, UInt32.toNat_sub_of_le _ _ enough, UInt32.toNat_zero] at zero
          omega
        · exact sound.positive before listed

/-- What a fill leaves of a weighted sum over the orders. -/
theorem Sound.sum_fill (sound : book.Sound) {resting : RestingOrderView}
    (member : resting ∈ book.orders) (qty : Qty) (weight : RestingOrderView → Nat) :
    ((book.orders.fill resting.orderId qty).map weight).sum + weight resting =
      (book.orders.map weight).sum + if resting.qty ≤ qty then 0
        else weight { resting with qty := resting.qty - qty } := by
  rw [Arrivals.fill_of_mem sound.distinct member rfl]
  split
  · exact sound.distinct.sum_erase member weight
  · exact sound.distinct.sum_adjust member weight

theorem Sound.sweep (sound : book.Sound) (seq : SeqNo) (id : OrderId) (side : Side) (price : Price)
    (out : MatchOutput) (rounds : Nat) : (sweep seq id side price rounds book out).1.Sound :=
  sweep_induction (motive := fun after _ => after.Sound) seq id side price
    (fun _ _ _ before _ _ _ => before.fill _ _) rounds sound

/-- Without opposite orders nothing trades. -/
theorem sweep_quiet {aggressor : OrderId} {limit : Price} (rounds : Nat)
    (none : book.orders.first (!side.isBuy) = none) :
    book.sweep seq aggressor side limit rounds out = (book, out) := by
  cases rounds with
  | zero => rfl
  | succ rounds =>
      rw [ArrivalBook.sweep, none]
      split <;> rfl

section Best

theorem asGood_refl (isBuy : Bool) (price : Price) : Arrivals.asGood isBuy price price = true := by
  cases isBuy <;> simp [Arrivals.asGood]

theorem asGood_trans {isBuy : Bool} {first second third : Price}
    (left : Arrivals.asGood isBuy first second = true)
    (right : Arrivals.asGood isBuy second third = true) :
    Arrivals.asGood isBuy first third = true := by
  cases isBuy <;>
    simp only [Arrivals.asGood, Bool.false_eq_true, ↓reduceIte, decide_eq_true_iff,
      Int64.le_iff_toInt_le] at left right ⊢ <;> omega

theorem asGood_total (isBuy : Bool) (left right : Price) :
    Arrivals.asGood isBuy left right = true ∨ Arrivals.asGood isBuy right left = true := by
  cases isBuy <;>
    simp only [Arrivals.asGood, Bool.false_eq_true, ↓reduceIte, decide_eq_true_iff,
      Int64.le_iff_toInt_le] <;> omega

/-- A side with orders has a best price. -/
theorem exists_best (isBuy : Bool) {orders : Arrivals} (nonempty : orders ≠ []) :
    ∃ order ∈ orders, ∀ other ∈ orders, Arrivals.asGood isBuy order.price other.price = true := by
  induction orders with
  | nil => exact absurd rfl nonempty
  | cons order rest ih =>
      by_cases last : rest = []
      · subst last
        refine ⟨order, by simp, fun other member => ?_⟩
        rw [List.mem_singleton.mp member]
        exact asGood_refl isBuy order.price
      · obtain ⟨best, member, beats⟩ := ih last
        rcases asGood_total isBuy order.price best.price with better | worse
        · refine ⟨order, by simp, fun other listed => ?_⟩
          rcases List.mem_cons.mp listed with rfl | listed
          · exact asGood_refl isBuy other.price
          · exact asGood_trans better (beats other listed)
        · refine ⟨best, by simp [member], fun other listed => ?_⟩
          rcases List.mem_cons.mp listed with rfl | listed
          · exact worse
          · exact beats other listed

/-- No order of a side is better than its first. -/
theorem first_best {isBuy : Bool} {orders : Arrivals} {resting other : RestingOrderView}
    (first : orders.first isBuy = some resting) (member : other ∈ orders)
    (side : other.side.isBuy = isBuy) :
    Arrivals.asGood isBuy resting.price other.price = true := by
  have best := List.find?_some first
  rw [List.all_eq_true] at best
  exact best other (Arrivals.mem_ofSide.mpr ⟨member, side⟩)

/-- A side without a first order is empty. -/
theorem first_none {isBuy : Bool} {orders : Arrivals} {other : RestingOrderView}
    (first : orders.first isBuy = none) (member : other ∈ orders) : other.side.isBuy ≠ isBuy := by
  intro side
  have listed : other ∈ orders.ofSide isBuy := Arrivals.mem_ofSide.mpr ⟨member, side⟩
  obtain ⟨best, bestMember, beats⟩ := exists_best isBuy (List.ne_nil_of_mem listed)
  refine List.find?_eq_none.mp first best bestMember ?_
  exact List.all_eq_true.mpr beats

/-- When a sweep ends with something left to fill, no opposite price is within the limit. -/
theorem Sound.sweep_done (sound : book.Sound) (seq : SeqNo) (aggressor : OrderId) (side : Side)
    (limit : Price) (out : MatchOutput) {rounds : Nat} (enough : book.orders.length ≤ rounds)
    (unfilled : (book.sweep seq aggressor side limit rounds out).2.remainingQty ≠ 0)
    {other : RestingOrderView}
    (member : other ∈ (book.sweep seq aggressor side limit rounds out).1.orders)
    (opposite : other.side.isBuy = !side.isBuy) :
    Arrivals.asGood (!side.isBuy) other.price limit = false := by
  induction rounds generalizing book out with
  | zero =>
      have empty : book.orders = [] := List.length_eq_zero_iff.mp (Nat.le_zero.mp enough)
      rw [ArrivalBook.sweep, empty] at member
      cases member
  | succ rounds ih =>
      by_cases filled : out.remainingQty = 0
      · rw [sweep_filled _ _ filled] at unfilled
        exact absurd filled unfilled
      · rw [ArrivalBook.sweep, if_neg filled] at unfilled member
        cases first : book.orders.first (!side.isBuy) with
        | none =>
            rw [first] at member
            exact absurd opposite (first_none first member)
        | some resting =>
            rw [first] at unfilled member
            dsimp only at unfilled member
            by_cases within : Arrivals.asGood (!side.isBuy) resting.price limit = true
            · rw [if_pos within] at unfilled member
              have listed := (Arrivals.first_mem first).1
              by_cases complete : (book.trade seq aggressor resting out).2.remainingQty = 0
              · rw [sweep_filled _ _ complete] at unfilled
                exact absurd complete unfilled
              · have shorter := trade_length sound.distinct listed complete
                have traded : (book.trade seq aggressor resting out).1.Sound := sound.fill _ _
                exact ih traded _ (by omega) unfilled member
            · rw [if_neg within] at member
              rw [Bool.eq_false_iff]
              exact fun better => within (asGood_trans (first_best first member opposite) better)

end Best

/-- Why an add is turned away, `none` if it is not. -/
def addReject (book : ArrivalBook) (orderId : OrderId) (price : Price) (qty : Qty) : RejectReason :=
  if qty = 0 then .invalidQty
  else if !book.priceInBand price then .invalidPrice
  else if book.holds orderId then .duplicateOrder
  else .none

theorem addReject_eq_none {orderId : OrderId} : book.addReject orderId price qty = .none ↔
    qty ≠ 0 ∧ book.priceInBand price = true ∧ book.holds orderId = false := by
  rw [addReject]
  split
  · rename_i zero
    exact ⟨fun impossible => absurd impossible (by decide), fun accepted => absurd zero accepted.1⟩
  · rename_i positive
    split
    · rename_i outside
      refine ⟨fun impossible => absurd impossible (by decide), fun accepted => ?_⟩
      rw [accepted.2.1] at outside
      exact absurd outside (by decide)
    · rename_i inBand
      split
      · rename_i held
        refine ⟨fun impossible => absurd impossible (by decide), fun accepted => ?_⟩
        rw [accepted.2.2] at held
        exact absurd held (by decide)
      · rename_i fresh
        exact ⟨fun _ => ⟨positive, by simpa using inBand, Bool.eq_false_iff.mpr fresh⟩,
          fun _ => rfl⟩

/-- The sweep an accepted add starts with. -/
def swept (book : ArrivalBook) (seq : SeqNo) (orderId : OrderId) (side : Side) (price : Price)
    (qty : Qty) :
    ArrivalBook × MatchOutput :=
  book.sweep seq orderId side price book.orders.length { remainingQty := qty }

theorem addOrder_rejected {orderId : OrderId}
    (rejected : book.addReject orderId price qty ≠ .none) :
    book.addOrder seq orderId accountId side price qty tif =
      (book, { remainingQty := qty, reject := book.addReject orderId price qty }) := by
  rw [addOrder]
  rw [addReject] at rejected ⊢
  split
  · rfl
  · rename_i positive
    rw [if_neg positive] at rejected
    split
    · rfl
    · rename_i inBand
      rw [if_neg inBand] at rejected
      split
      · rfl
      · rename_i fresh
        rw [if_neg fresh] at rejected
        exact absurd rfl rejected

/-- The remainder an accepted add leaves for resting. -/
def remainder (book : ArrivalBook) (seq : SeqNo) (orderId : OrderId) (accountId : AccountId)
    (side : Side) (price : Price) (qty : Qty) : RestingOrderView :=
  { orderId, accountId, side, price, qty := (book.swept seq orderId side price qty).2.remainingQty }

theorem addOrder_accepted {orderId : OrderId}
    (accepted : book.addReject orderId price qty = .none) :
    book.addOrder seq orderId accountId side price qty tif =
      if (book.swept seq orderId side price qty).2.remainingQty > 0 && tif = .gtc then
        ((book.swept seq orderId side price qty).1.rest
          (book.remainder seq orderId accountId side price qty),
          { (book.swept seq orderId side price qty).2 with
            mdEvents := (book.swept seq orderId side price qty).2.mdEvents ++
              [book.eventOf seq .add (book.remainder seq orderId accountId side price qty)
                (book.remainder seq orderId accountId side price qty).qty]
            remainingQty := 0 })
      else book.swept seq orderId side price qty := by
  obtain ⟨positive, inBand, fresh⟩ := addReject_eq_none.mp accepted
  have symbolId :=
    sweep_symbolId book seq orderId side price { remainingQty := qty } book.orders.length
  rw [addOrder, if_neg positive, inBand, fresh, remainder, swept]
  simp only [Bool.not_true, Bool.false_eq_true, ↓reduceIte]
  split
  · simp only [eventOf, symbolId]
  · rfl

theorem swept_holds {orderId other : OrderId}
    (held : (book.swept seq orderId side price qty).1.holds other = true) :
    book.holds other = true :=
  sweep_holds held

theorem Sound.swept (sound : book.Sound) : (book.swept seq id side price qty).1.Sound :=
  sound.sweep seq id side price { remainingQty := qty } book.orders.length

theorem Sound.addOrder (sound : book.Sound) :
    (book.addOrder seq id accountId side price qty tif).1.Sound := by
  by_cases accepted : book.addReject id price qty = .none
  · rw [addOrder_accepted accepted]
    split
    · rename_i remains
      have fresh : (book.swept seq id side price qty).1.holds id = false := by
        rw [Bool.eq_false_iff]
        intro held
        have before := swept_holds held
        rw [(addReject_eq_none.mp accepted).2.2] at before
        exact absurd before (by decide)
      rw [Bool.and_eq_true, decide_eq_true_iff] at remains
      exact sound.swept.rest fresh (UInt32.pos_iff_ne_zero.mp remains.1)
    · exact sound.swept
  · rw [addOrder_rejected accepted]
    exact sound

theorem Sound.cancelOrder (sound : book.Sound) (seq : SeqNo) (id : OrderId) :
    (book.cancelOrder seq id).1.Sound := by
  rw [ArrivalBook.cancelOrder]
  split
  · exact sound
  · exact sound.erase id

theorem Sound.replaceOrder {oldId : OrderId} (sound : book.Sound) :
    (book.replaceOrder seq oldId id accountId side price qty tif).1.Sound := by
  have cancelled := sound.cancelOrder seq oldId
  rw [ArrivalBook.replaceOrder]
  split
  · exact sound
  · split
    · rename_i same
      rw [same] at cancelled
      exact cancelled
    · rename_i same
      rw [same] at cancelled
      exact cancelled.addOrder

theorem Sound.feedAdd (sound : book.Sound) :
    (book.feedAdd id accountId side price qty).1.Sound := by
  rw [ArrivalBook.feedAdd]
  split
  · exact sound
  · rename_i accepted
    simp only [Bool.or_eq_true, not_or, decide_eq_true_iff] at accepted
    exact sound.rest (Bool.eq_false_iff.mpr accepted.1.1) accepted.1.2

theorem Sound.feedExecute (sound : book.Sound) : (book.feedExecute id qty).1.Sound := by
  rw [ArrivalBook.feedExecute]
  split
  · exact sound.fill id qty
  · exact sound

section Shapes

theorem cancelOrder_holds {other : OrderId} :
    (book.cancelOrder seq id).1.holds other = (book.holds other && decide (other ≠ id)) := by
  rw [ArrivalBook.cancelOrder]
  cases found : book.find id with
  | some order => exact erase_holds id
  | none =>
      by_cases isId : other = id
      · subst isId
        have absent : book.holds other = false := holds_eq_false.mpr (find_eq_none.mp found)
        rw [absent, Bool.false_and]
      · rw [decide_eq_true isId, Bool.and_true]

/-- A replace within the band of an order that rests is a cancel and an add. -/
theorem replaceOrder_inBand (inBand : book.priceInBand price = true) {oldId : OrderId}
    {old : RestingOrderView} (found : book.find oldId = some old) :
    book.replaceOrder seq oldId id accountId side price qty tif =
      let added := (book.cancelOrder seq oldId).1.addOrder seq id accountId side price qty tif
      (added.1,
        { added.2 with mdEvents := book.eventOf seq .cancel old old.qty :: added.2.mdEvents }) := by
  rw [replaceOrder, inBand, cancelOrder, found]
  rfl

theorem replaceOrder_outOfBand {oldId : OrderId} (outOfBand : book.priceInBand price = false) :
    book.replaceOrder seq oldId id accountId side price qty tif =
      (book, { reject := .invalidPrice }) := by
  rw [replaceOrder, outOfBand]
  rfl

theorem feedAdd_eq : book.feedAdd id accountId side price qty =
    if book.holds id = false ∧ qty ≠ 0 ∧ book.priceInBand price = true then
      (book.rest { orderId := id, accountId, side, price, qty }, true)
    else (book, false) := by
  rw [feedAdd]
  by_cases held : book.holds id = true
  · simp [held]
  · by_cases zero : qty = 0
    · simp [zero]
    · by_cases inBand : book.priceInBand price = true
      · simp [held, zero, inBand]
      · simp [held, zero, inBand]

theorem feedExecute_holds {other : OrderId}
    (held : (book.feedExecute id qty).1.holds other = true) :
    book.holds other = true := by
  rw [feedExecute] at held
  split at held
  · exact Arrivals.holds_fill held
  · exact held

end Shapes

end Exsim.Core.ArrivalBook
