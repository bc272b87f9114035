import Exsim.Reference.Sweep

/-! # How much of an order trades at once -/

namespace Exsim.Core

open Data.Keyed

namespace Arrivals

/-- What a resting order offers an order of `side` limited to `limit`. -/
def offered (side : Side) (limit : Price) (order : RestingOrderView) : Nat :=
  if order.side.isBuy = (!side.isBuy) ∧ asGood (!side.isBuy) order.price limit then
    order.qty.toNat else 0

/-- The quantity resting within the limit of an order. -/
def crossing (side : Side) (limit : Price) (orders : Arrivals) : Nat :=
  (orders.map (offered side limit)).sum

/-- What the orders weigh that an order of `side` limited to `limit` does not reach. -/
def spared (side : Side) (limit : Price) (weight : RestingOrderView → Nat)
    (orders : Arrivals) : Nat :=
  (orders.map fun order =>
    if order.side.isBuy = (!side.isBuy) ∧ asGood (!side.isBuy) order.price limit then 0
    else weight order).sum

/-- Whether an order within the band leaves a remainder that rests: its id is
free, it is good till cancelled, and it is for more than rests within its limit. -/
def rests (id : OrderId) (side : Side) (limit : Price) (qty : Qty) (tif : TimeInForce)
    (orders : Arrivals) : Bool :=
  !Data.Keyed.holds RestingOrderView.orderId id orders && tif = .gtc &&
    orders.crossing side limit < qty.toNat

/-- Whether a remainder rests and takes a sum of weights to `limit`: its own, that
of the orders the sweep does not reach, and `others` elsewhere. -/
def outgrows (order : RestingOrderView) (tif : TimeInForce) (weight : RestingOrderView → Nat)
    (others limit : Nat) (orders : Arrivals) : Bool :=
  orders.rests order.orderId order.side order.price order.qty tif &&
    limit ≤ others + orders.spared order.side order.price weight +
      weight { order with
        qty := UInt32.ofNat (order.qty.toNat - orders.crossing order.side order.price) }

theorem rests_iff {id : OrderId} {side : Side} {limit : Price} {qty : Qty} {tif : TimeInForce}
    {orders : Arrivals} :
    orders.rests id side limit qty tif = true ↔
      Data.Keyed.holds RestingOrderView.orderId id orders = false ∧ tif = .gtc ∧
        orders.crossing side limit < qty.toNat := by
  rw [rests, Bool.and_eq_true, Bool.and_eq_true, Bool.not_eq_true', decide_eq_true_iff,
    decide_eq_true_iff, and_assoc]

end Arrivals

namespace ArrivalBook

variable {book : ArrivalBook} {seq : SeqNo} {id : OrderId} {accountId : AccountId} {side : Side}
  {price : Price} {qty : Qty} {tif : TimeInForce} {out : MatchOutput}

theorem Sound.crossing_fill (sound : book.Sound) {resting : RestingOrderView}
    (member : resting ∈ book.orders) (qty : Qty) (opposite : resting.side.isBuy = !side.isBuy)
    (within : Arrivals.asGood (!side.isBuy) resting.price price = true)
    (enough : qty ≤ resting.qty) :
    (book.orders.fill resting.orderId qty).crossing side price + qty.toNat =
      book.orders.crossing side price := by
  have filled := sound.sum_fill member qty (Arrivals.offered side price)
  have whole : Arrivals.offered side price resting = resting.qty.toNat := if_pos ⟨opposite, within⟩
  have part : Arrivals.offered side price { resting with qty := resting.qty - qty } =
      resting.qty.toNat - qty.toNat :=
    (if_pos ⟨opposite, within⟩).trans (UInt32.toNat_sub_of_le _ _ enough)
  rw [whole, part] at filled
  rw [Arrivals.crossing, Arrivals.crossing]
  rw [UInt32.le_iff_toNat_le] at enough
  split at filled
  · rename_i used
    rw [UInt32.le_iff_toNat_le] at used
    omega
  · omega

/-- What is left of an order when its sweep ends is what exceeds the quantity
resting within its limit. -/
theorem Sound.remaining (sound : book.Sound) (seq : SeqNo) (id : OrderId) (side : Side)
    (price : Price) (qty : Qty) :
    (book.swept seq id side price qty).2.remainingQty.toNat =
      qty.toNat - book.orders.crossing side price := by
  have balance := sweep_induction
    (motive := fun after out => after.Sound ∧
      out.remainingQty.toNat + book.orders.crossing side price =
        qty.toNat + after.orders.crossing side price)
    seq id side price (fun after out resting before _ first within => by
      obtain ⟨kept, balance⟩ := before
      obtain ⟨member, opposite⟩ := Arrivals.first_mem first
      have enough : min resting.qty out.remainingQty ≤ resting.qty :=
        UInt32.le_iff_toNat_le.mpr (by rw [Data.toNat_min]; exact Nat.min_le_left _ _)
      have filled := kept.crossing_fill member _ opposite within enough
      refine ⟨kept.fill _ _, ?_⟩
      change (out.remainingQty - min resting.qty out.remainingQty).toNat + _ = _ +
        (after.orders.fill resting.orderId (min resting.qty out.remainingQty)).crossing side price
      have taken : (out.remainingQty - min resting.qty out.remainingQty).toNat =
          out.remainingQty.toNat - (min resting.qty out.remainingQty).toNat :=
        UInt32.toNat_sub_of_le
          _ _ (UInt32.le_iff_toNat_le.mpr (by rw [Data.toNat_min]; exact Nat.min_le_right _ _))
      have least : (min resting.qty out.remainingQty).toNat ≤ out.remainingQty.toNat := by
        rw [Data.toNat_min]
        exact Nat.min_le_right _ _
      omega)
    book.orders.length
      (show book.Sound ∧ ({ remainingQty := qty } : MatchOutput).remainingQty.toNat + _ = _ from
      ⟨sound, rfl⟩)
  change _ ∧ (book.swept seq id side price qty).2.remainingQty.toNat + _ =
    _ + (book.swept seq id side price qty).1.orders.crossing side price at balance
  replace balance := balance.2
  by_cases filled : (book.swept seq id side price qty).2.remainingQty = 0
  · rw [filled, UInt32.toNat_zero] at balance ⊢
    omega
  · have nothing : (book.swept seq id side price qty).1.orders.crossing side price = 0 := by
      rw [Arrivals.crossing, List.sum_eq_zero_iff_forall_eq_nat]
      intro share listed
      obtain ⟨order, member, rfl⟩ := List.mem_map.mp listed
      refine if_neg ?_
      rintro ⟨opposite, within⟩
      have beyond := sound.sweep_done seq id side price _ (Nat.le_refl _) filled member opposite
      rw [beyond] at within
      cases within
    omega

/-- An add within the band rests what exceeds the quantity within its limit, or
nothing. -/
theorem Sound.addOrder_cases (sound : book.Sound) (seq : SeqNo) (id : OrderId)
    (accountId : AccountId) (side : Side) (price : Price) (qty : Qty) (tif : TimeInForce) :
    (book.priceInBand price && book.orders.rests id side price qty tif) = true ∧
      (book.addOrder seq id accountId side price qty tif).1 =
        (book.swept seq id side price qty).1.rest (book.remainder seq id accountId side price qty) ∨
    (book.priceInBand price && book.orders.rests id side price qty tif) = false ∧
      ((book.addOrder seq id accountId side price qty tif).1 = book ∨
        (book.addOrder seq id accountId side price qty tif).1 =
          (book.swept seq id side price qty).1) := by
  by_cases accepted : book.addReject id price qty = .none
  · obtain ⟨-, inBand, fresh⟩ := addReject_eq_none.mp accepted
    have left := sound.remaining seq id side price qty
    have remains : (book.swept seq id side price qty).2.remainingQty > 0 ↔
        book.orders.crossing side price < qty.toNat := by
      rw [gt_iff_lt, UInt32.lt_iff_toNat_lt, UInt32.toNat_zero, left]
      omega
    have would : book.orders.rests id side price qty tif =
        ((book.swept seq id side price qty).2.remainingQty > 0 && tif = .gtc) := by
      rw [Bool.eq_iff_iff, Arrivals.rests_iff, Bool.and_eq_true, decide_eq_true_iff,
        decide_eq_true_iff, remains]
      exact ⟨fun met => ⟨met.2.2, met.2.1⟩, fun met => ⟨fresh, met.2, met.1⟩⟩
    rw [addOrder_accepted accepted, inBand, would, Bool.true_and]
    cases (book.swept seq id side price qty).2.remainingQty > 0 && tif = .gtc with
    | true => exact .inl ⟨rfl, rfl⟩
    | false => exact .inr ⟨rfl, .inr rfl⟩
  · refine .inr ⟨Bool.eq_false_iff.mpr fun both => accepted ?_,
      .inl (by rw [addOrder_rejected accepted])⟩
    rw [Bool.and_eq_true, Arrivals.rests_iff] at both
    obtain ⟨inBand, fresh, -, more⟩ := both
    refine addReject_eq_none.mpr ⟨?_, inBand, fresh⟩
    rintro rfl
    rw [UInt32.toNat_zero] at more
    omega

/-- What the orders of a book are after an add. -/
theorem Sound.addOrder_holds (sound : book.Sound) (seq : SeqNo) (id : OrderId)
    (accountId : AccountId) (side : Side) (price : Price) (qty : Qty) (tif : TimeInForce)
    (other : OrderId) :
    ((book.addOrder seq id accountId side price qty tif).1.holds other = true →
      book.holds other = true ∨ other = id) ∧
    ((book.addOrder seq id accountId side price qty tif).1.holds id = true ↔ book.holds id = true ∨
      book.priceInBand price = true ∧ book.orders.rests id side price qty tif = true) := by
  by_cases accepted : book.addReject id price qty = .none
  · obtain ⟨-, inBand, fresh⟩ := addReject_eq_none.mp accepted
    have left := sound.remaining seq id side price qty
    have gone : (book.swept seq id side price qty).1.holds id = false :=
      Bool.eq_false_iff.mpr fun held => by
        rw [swept_holds held] at fresh
        cases fresh
    rw [addOrder_accepted accepted]
    split
    · rename_i remains
      rw [Bool.and_eq_true, decide_eq_true_iff, decide_eq_true_iff] at remains
      have remains' := UInt32.lt_iff_toNat_lt.mp remains.1
      rw [UInt32.toNat_zero] at remains'
      refine ⟨fun held => ?_,
        fun _ => .inr ⟨inBand, Arrivals.rests_iff.mpr ⟨fresh, remains.2, by omega⟩⟩, fun _ => ?_⟩
      · rw [rest_holds, Bool.or_eq_true, decide_eq_true_iff] at held
        exact held.imp swept_holds Eq.symm
      · rw [rest_holds, Bool.or_eq_true, decide_eq_true_iff]
        exact .inr rfl
    · rename_i filled
      refine ⟨fun held => .inl (swept_holds held),
        fun held => absurd held (Bool.eq_false_iff.mp gone), ?_⟩
      rintro (held | ⟨-, would⟩)
      · rw [fresh] at held
        cases held
      · obtain ⟨-, gtc, more⟩ := Arrivals.rests_iff.mp would
        refine absurd ?_ filled
        rw [Bool.and_eq_true, decide_eq_true_iff, decide_eq_true_iff]
        refine ⟨UInt32.lt_iff_toNat_lt.mpr ?_, gtc⟩
        rw [UInt32.toNat_zero, left]
        omega
  · rw [addOrder_rejected accepted]
    refine ⟨.inl, .inl, ?_⟩
    rintro (held | ⟨inBand, would⟩)
    · exact held
    · obtain ⟨fresh, -, more⟩ := Arrivals.rests_iff.mp would
      refine absurd (addReject_eq_none.mpr ⟨?_, inBand, fresh⟩) accepted
      rintro rfl
      rw [UInt32.toNat_zero] at more
      omega

end ArrivalBook

end Exsim.Core
