import Exsim.Reference.Sweep

/-! # Sweeps in two parts

What a sweep does to the resting orders, as a relation that counts no rounds.
Two sweeps in a row are one sweep of both quantities: at the seam, two fills of
one resting order are one.
-/

namespace Exsim.Core

open Data.Keyed

/-- What one resting order gave at once. -/
structure Fill where
  restingOrderId : OrderId
  price : Price
  qty : Nat
deriving DecidableEq, Repr

def fillOf (trade : Trade) : Fill :=
  { restingOrderId := trade.restingOrderId, price := trade.price, qty := trade.qty.toNat }

/-- Consecutive fills of one resting order as one fill. -/
def mergeFills : List Fill → List Fill
  | [] => []
  | fill :: fills =>
      match mergeFills fills with
      | [] => [fill]
      | next :: rest =>
          if next.restingOrderId = fill.restingOrderId ∧ next.price = fill.price then
            { fill with qty := fill.qty + next.qty } :: rest
          else fill :: next :: rest

theorem mergeFills_cons {fills others : List Fill} (fill : Fill)
    (same : mergeFills fills = mergeFills others) :
    mergeFills (fill :: fills) = mergeFills (fill :: others) := by
  rw [mergeFills, mergeFills, same]

theorem mergeFills_merge (id : OrderId) (price : Price) (first second : Nat) (fills : List Fill) :
    mergeFills (⟨id, price, first⟩ :: ⟨id, price, second⟩ :: fills) =
      mergeFills (⟨id, price, first + second⟩ :: fills) := by
  rw [mergeFills, mergeFills, mergeFills]
  cases mergeFills fills with
  | nil => simp
  | cons next rest =>
      by_cases same : next.restingOrderId = id ∧ next.price = price
      · simp [same, Nat.add_assoc]
      · simp [same]

namespace Arrivals

variable {orders : Arrivals} {resting : RestingOrderView} {taken more : Qty} {isBuy : Bool}

theorem lessen_lessen (id : OrderId) (taken more : Qty) (orders : Arrivals) :
    (orders.lessen id taken).lessen id more = orders.lessen id (taken + more) := by
  rw [lessen, lessen, lessen, adjust, adjust, adjust, List.map_map]
  refine List.map_congr_left fun order _ => ?_
  have both : order.qty - taken - more = order.qty - (taken + more) := by grind
  by_cases here : order.orderId = id
  · simp only [Function.comp_apply, here, ↓reduceIte, both]
  · simp only [Function.comp_apply, here, ↓reduceIte]

/-- Taking less than an order has lessens it. -/
theorem fill_part (distinct : Distinct RestingOrderView.orderId orders) (member : resting ∈ orders)
    (less : taken < resting.qty) :
    orders.fill resting.orderId taken = orders.lessen resting.orderId taken := by
  rw [fill_of_mem distinct member rfl, if_neg]
  rw [UInt32.le_iff_toNat_le]
  have less := UInt32.lt_iff_toNat_lt.mp less
  omega

/-- Taking part of an order and then more is taking both at once. -/
theorem fill_fill (distinct : Distinct RestingOrderView.orderId orders) (member : resting ∈ orders)
    (less : taken < resting.qty)
    (small : taken.toNat + more.toNat < 2 ^ 32) :
    (orders.fill resting.orderId taken).fill resting.orderId more =
      orders.fill resting.orderId (taken + more) := by
  have still : Distinct RestingOrderView.orderId (orders.lessen resting.orderId taken) :=
    distinct.adjust fun _ => rfl
  have stays : { resting with qty := resting.qty - taken } ∈ orders.lessen resting.orderId taken :=
    mem_adjust.mpr ⟨resting, member, by rw [if_pos rfl]⟩
  have used : resting.qty - taken ≤ more ↔ resting.qty ≤ taken + more := by
    have less := UInt32.lt_iff_toNat_lt.mp less
    rw [UInt32.le_iff_toNat_le, UInt32.le_iff_toNat_le,
      UInt32.toNat_sub_of_le _ _ (UInt32.le_iff_toNat_le.mpr (Nat.le_of_lt less)), UInt32.toNat_add,
      Nat.mod_eq_of_lt small]
    omega
  rw [fill_part distinct member less, fill_of_mem still stays rfl, fill_of_mem distinct member rfl,
    erase_lessen, lessen_lessen]
  simp only [used]

/-- Changes that keep sides and prices keep which order is first. -/
theorem first_map {change : RestingOrderView → RestingOrderView}
    (sides : ∀ order, (change order).side = order.side)
    (prices : ∀ order, (change order).price = order.price) :
    Arrivals.first isBuy (orders.map change) = (orders.first isBuy).map change := by
  have listed : Arrivals.ofSide isBuy (orders.map change) = (orders.ofSide isBuy).map change := by
    rw [Arrivals.ofSide, Arrivals.ofSide, List.filter_map]
    exact congrArg _ (List.filter_congr fun order _ => by rw [Function.comp_apply, sides])
  rw [Arrivals.first, Arrivals.first, listed, List.find?_map]
  congr 2
  funext order
  simp only [Function.comp_def, List.all_map, prices]

/-- An order that loses part of its quantity stays first. -/
theorem first_fill (distinct : Distinct RestingOrderView.orderId orders)
    (isFirst : orders.first isBuy = some resting) (less : taken < resting.qty) :
    (orders.fill resting.orderId taken).first isBuy =
      some { resting with qty := resting.qty - taken } := by
  rw [fill_part distinct (first_mem isFirst).1 less, lessen, adjust,
    first_map (fun order => by split <;> rfl) (fun order => by split <;> rfl), isFirst]
  simp

end Arrivals

namespace ArrivalBook

/-- The fills of a quantity within a limit, the orders they leave, and what they leave to fill. -/
inductive Takes (side : Side) (limit : Price) :
    ArrivalBook → Qty → List Fill → ArrivalBook → Qty → Prop
  | ends {book : ArrivalBook} {qty : Qty}
      (stopped : qty = 0 ∨ ∀ resting, book.orders.first (!side.isBuy) = some resting →
      Arrivals.asGood (!side.isBuy) resting.price limit = false) :
      Takes side limit book qty [] book qty
  | fills {book after : ArrivalBook} {qty left : Qty} {resting : RestingOrderView}
      {fills : List Fill} (unfilled : qty ≠ 0)
      (first : book.orders.first (!side.isBuy) = some resting)
      (within : Arrivals.asGood (!side.isBuy) resting.price limit = true)
      (rest : Takes side limit
        { book with orders := book.orders.fill resting.orderId (min resting.qty qty) }
        (qty - min resting.qty qty) fills after left) :
      Takes side limit book qty
        (⟨resting.orderId, resting.price, (min resting.qty qty).toNat⟩ :: fills) after left

section

variable {book middle after other : ArrivalBook} {side : Side} {limit : Price}
  {qty more left rest : Qty} {fills others : List Fill}

theorem Takes.of_zero (takes : Takes side limit book 0 fills after left) :
    fills = [] ∧ after = book ∧ left = 0 := by
  cases takes with
  | ends stopped => exact ⟨rfl, rfl, rfl⟩
  | fills unfilled => exact absurd rfl unfilled

theorem Takes.fill {taken : Qty} {resting : RestingOrderView} (unfilled : qty ≠ 0)
    (first : book.orders.first (!side.isBuy) = some resting)
    (within : Arrivals.asGood (!side.isBuy) resting.price limit = true)
    (least : min resting.qty qty = taken)
    (takes : Takes side limit { book with orders := book.orders.fill resting.orderId taken }
      (qty - taken) fills after left) :
    Takes side limit book qty (⟨resting.orderId, resting.price, taken.toNat⟩ :: fills)
      after left := by
  subst least
  exact .fills unfilled first within takes

/-- What is taken is determined. -/
theorem Takes.unique (takes : Takes side limit book qty fills after left)
    (also : Takes side limit book qty others other rest) :
    fills = others ∧ after = other ∧ left = rest := by
  induction takes generalizing others other rest with
  | ends stopped =>
      cases also with
      | ends => exact ⟨rfl, rfl, rfl⟩
      | fills unfilled first within =>
          obtain filled | beyond := stopped
          · exact absurd filled unfilled
          · rw [beyond _ first] at within
            cases within
  | fills unfilled first within _ ih =>
      cases also with
      | ends stopped =>
          obtain filled | beyond := stopped
          · exact absurd filled unfilled
          · rw [beyond _ first] at within
            cases within
      | fills _ first' _ takes' =>
          obtain rfl := Option.some.inj (first.symm.trans first')
          obtain ⟨rfl, rfl, rfl⟩ := ih takes'
          exact ⟨rfl, rfl, rfl⟩

/-- Taking one quantity and then another is taking both at once, up to the fill that is split. -/
theorem Takes.append (takes : Takes side limit book qty fills middle left) (sound : book.Sound)
    (next : Takes side limit middle more others after rest)
    (small : qty.toNat + more.toNat < 2 ^ 32) :
    ∃ merged remaining, Takes side limit book (qty + more) merged after remaining ∧
      mergeFills merged = mergeFills (fills ++ others) ∧
      remaining.toNat = left.toNat + rest.toNat := by
  induction takes generalizing others rest with
  | @ends book qty stopped =>
      obtain rfl | beyond := stopped
      · refine ⟨others, rest, ?_, rfl, by rw [UInt32.toNat_zero, Nat.zero_add]⟩
        rw [UInt32.zero_add]
        exact next
      · cases next with
        | ends => exact ⟨[], qty + more, .ends (.inr beyond),
              rfl, by rw [UInt32.toNat_add, Nat.mod_eq_of_lt small]⟩
        | fills _ first within =>
            rw [beyond _ first] at within
            cases within
  | @fills book middle qty left resting fills unfilled first within takes ih =>
      have member := (Arrivals.first_mem first).1
      have some : qty + more ≠ 0 := fun none => by
        have value := congrArg UInt32.toNat none
        rw [UInt32.toNat_add, Nat.mod_eq_of_lt small, UInt32.toNat_zero] at value
        exact unfilled (UInt32.toNat_inj.mp (by rw [UInt32.toNat_zero]; omega))
      by_cases used : resting.qty ≤ qty
      · -- The first quantity uses the order up, as both would.
        have part : min resting.qty qty = resting.qty := if_pos used
        have whole : min resting.qty (qty + more) = resting.qty := if_pos (by
          rw [UInt32.le_iff_toNat_le] at used ⊢
          rw [UInt32.toNat_add, Nat.mod_eq_of_lt small]
          omega)
        rw [part] at takes ih ⊢
        have less : (qty - resting.qty).toNat ≤ qty.toNat := by
          rw [UInt32.toNat_sub_of_le _ _ used]
          exact Nat.sub_le _ _
        obtain ⟨merged, remaining, both, same, total⟩ := ih (sound.fill _ _) next (by omega)
        have order : qty + more - resting.qty = qty - resting.qty + more := by grind
        exact ⟨_, remaining, .fill some first within whole (order ▸ both),
          mergeFills_cons _ same, total⟩
      · -- The order outlasts the first quantity, so the second goes on with it.
        have part : min resting.qty qty = qty := if_neg used
        have less : qty < resting.qty :=
          UInt32.lt_iff_toNat_lt.mpr (by rw [UInt32.le_iff_toNat_le] at used; omega)
        rw [part, UInt32.sub_self] at takes
        obtain ⟨rfl, rfl, rfl⟩ := takes.of_zero
        have still := Arrivals.first_fill sound.distinct first less
        have split : min resting.qty (qty + more) = qty + min (resting.qty - qty) more :=
          Data.min_add_of_lt less small
        cases next with
        | ends stopped =>
            obtain rfl | beyond := stopped
            · rw [part, UInt32.add_zero]
              exact ⟨_, 0, .fill unfilled first within part
                (by rw [UInt32.sub_self]; exact .ends (.inl rfl)), rfl, rfl⟩
            · have outside := beyond _ still
              rw [within] at outside
              cases outside
        | @fills _ _ _ _ other others _ first' _ takes' =>
            obtain rfl := Option.some.inj (still.symm.trans first')
            have least : (min (resting.qty - qty) more).toNat ≤ more.toNat := by
              rw [Data.toNat_min]
              exact Nat.min_le_right _ _
            have order : qty + more - (qty + min (resting.qty - qty) more) =
                more - min (resting.qty - qty) more := by grind
            have orders := Arrivals.fill_fill sound.distinct member less
              (show qty.toNat + (min (resting.qty - qty) more).toNat < 2 ^ 32 by omega)
            refine ⟨_ :: others, rest, .fill some first within split ?_,
              ?_, by rw [UInt32.toNat_zero, Nat.zero_add]⟩
            · rw [order, ← orders]
              exact takes'
            · rw [part, UInt32.toNat_add, Nat.mod_eq_of_lt (by omega)]
              exact (mergeFills_merge _ _ _ _ _).symm

/-- A sweep with rounds enough takes what can be taken. -/
theorem Sound.sweep_takes (sound : book.Sound) (seq : SeqNo) (id : OrderId) (side : Side)
    (limit : Price) (out : MatchOutput)
    {rounds : Nat} (enough : book.orders.length ≤ rounds) : ∃ fills,
    Takes side limit book out.remainingQty fills (book.sweep seq id side limit rounds out).1
      (book.sweep seq id side limit rounds out).2.remainingQty ∧
    (book.sweep seq id side limit rounds out).2.trades.map fillOf =
      out.trades.map fillOf ++ fills := by
  induction rounds generalizing book out with
  | zero =>
      have empty : book.orders = [] := List.length_eq_zero_iff.mp (Nat.le_zero.mp enough)
      refine ⟨[], .ends (.inr fun resting first => ?_), (List.append_nil _).symm⟩
      rw [empty] at first
      cases first
  | succ rounds ih =>
      by_cases filled : out.remainingQty = 0
      · rw [sweep_filled _ _ filled]
        exact ⟨[], .ends (.inl filled), (List.append_nil _).symm⟩
      · cases first : book.orders.first (!side.isBuy) with
        | none =>
            rw [sweep_quiet _ first]
            exact ⟨[], .ends (.inr fun resting other => by rw [first] at other; cases other),
              (List.append_nil _).symm⟩
        | some resting =>
            rw [ArrivalBook.sweep, if_neg filled, first]
            dsimp only
            split
            · rename_i within
              let traded := book.trade seq id resting out
              have fills : traded.2.trades.map fillOf = out.trades.map fillOf ++
                  [⟨resting.orderId, resting.price, (min resting.qty out.remainingQty).toNat⟩] := by
                rw [show traded.2.trades = out.trades ++ [_] from rfl, List.map_append]
                rfl
              by_cases complete : traded.2.remainingQty = 0
              · rw [sweep_filled _ _ complete]
                exact ⟨[_], .fills filled first within (.ends (.inl complete)), fills⟩
              · have shorter : traded.1.orders.length + 1 = book.orders.length :=
                  trade_length sound.distinct (Arrivals.first_mem first).1 complete
                have kept : traded.1.Sound := sound.fill _ _
                obtain ⟨more, takes, listed⟩ := ih kept traded.2 (by omega)
                rw [fills, List.append_assoc] at listed
                exact ⟨_ :: more, .fills filled first within takes, listed⟩
            · rename_i outside
              refine ⟨[], .ends (.inr fun other also => ?_), (List.append_nil _).symm⟩
              obtain rfl := Option.some.inj (first.symm.trans also)
              exact Bool.eq_false_iff.mpr outside

/-- Sweeps of two quantities, one after the other, are the sweep of their sum. -/
theorem Sound.swept_append (sound : book.Sound) (seq seq' seq'' : SeqNo) (id id' id'' : OrderId)
    (side : Side) (price : Price)
    {first second : Qty} (small : first.toNat + second.toNat < 2 ^ 32) :
    (book.swept seq'' id'' side price (first + second)).1 =
    ((book.swept seq id side price first).1.swept seq' id' side price second).1 ∧
    mergeFills ((book.swept seq'' id'' side price (first + second)).2.trades.map fillOf) =
      mergeFills ((book.swept seq id side price first).2.trades.map fillOf ++
        ((book.swept seq id side price first).1.swept seq' id' side price second).2.trades.map
        fillOf) ∧ (book.swept seq'' id'' side price (first + second)).2.remainingQty.toNat =
      (book.swept seq id side price first).2.remainingQty.toNat +
        ((book.swept seq id side price first).1.swept seq' id' side price
          second).2.remainingQty.toNat := by
  obtain ⟨fills, takes, traded⟩ :=
    sound.sweep_takes seq id side price { remainingQty := first } (Nat.le_refl _)
  obtain ⟨others, next, tradedNext⟩ :=
    sound.swept.sweep_takes seq' id' side price { remainingQty := second } (Nat.le_refl _)
  obtain ⟨both, whole, tradedWhole⟩ :=
    sound.sweep_takes seq'' id'' side price { remainingQty := first + second } (Nat.le_refl _)
  obtain ⟨merged, remaining, append, same, total⟩ := takes.append sound next small
  obtain ⟨rfl, after, left⟩ := whole.unique append
  have listed : mergeFills (fills ++ others) =
      mergeFills ((book.swept seq id side price first).2.trades.map fillOf ++
      ((book.swept seq id side price first).1.swept seq' id' side price second).2.trades.map
      fillOf) :=
    congrArg mergeFills (congrArg₂ (· ++ ·) traded.symm tradedNext.symm)
  exact ⟨after, (congrArg mergeFills tradedWhole).trans (same.trans listed),
    (congrArg UInt32.toNat left).trans total⟩

end

end ArrivalBook

end Exsim.Core
