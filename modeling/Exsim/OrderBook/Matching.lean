import Exsim.OrderBook.Refinement
import Mathlib.Algebra.Order.BigOperators.Group.List

/-! # The best level, fills and level totals -/

namespace Exsim.Core.OrderBook

open Data

/-- The quantity resting at a level, without the 32-bit counter. -/
def restingQty (book : OrderBook) (orders : Arrivals) (isBuy : Bool) (i : Nat) : Nat :=
  ((orders.filter (book.atLevel isBuy i)).map fun order => order.qty.toNat).sum

/-- The stored totals are the quantities resting. -/
def Exact (book : OrderBook) (ref : ArrivalBook) : Prop :=
  ∀ isBuy i, (book.total isBuy i).toNat = book.restingQty ref.orders isBuy i

/-- Every level's quantity fits its counter. -/
def Fits (book : OrderBook) (ref : ArrivalBook) : Prop :=
  ∀ isBuy i, book.restingQty ref.orders isBuy i < 2 ^ 32

section Totals

variable {book after : OrderBook} {queues queues' : Queues} {ref : ArrivalBook}
  {order : RestingOrderView} {isBuy : Bool} {i : Nat}

theorem SameLadder.restingQty (same : SameLadder book after) :
    after.restingQty = book.restingQty := by
  funext orders isBuy i
  rw [OrderBook.restingQty, same.atLevel, OrderBook.restingQty]

/-- An order's share of the quantity at a level. -/
def share (book : OrderBook) (isBuy : Bool) (i : Nat) (order : RestingOrderView) : Nat :=
  if book.atLevel isBuy i order then order.qty.toNat else 0

theorem restingQty_eq_sum (orders : Arrivals) :
    book.restingQty orders isBuy i = (orders.map (book.share isBuy i)).sum := by
  rw [restingQty]
  induction orders with
  | nil => rfl
  | cons order rest ih =>
      rw [List.map_cons, List.sum_cons, ← ih, share, List.filter_cons]
      split
      · rw [List.map_cons, List.sum_cons]
      · rw [Nat.zero_add]

theorem restingQty_rest (orders : Arrivals) :
    book.restingQty (orders ++ [order]) isBuy i = book.restingQty orders isBuy i +
      book.share isBuy i order := by
  simp only [restingQty_eq_sum, List.map_append, List.sum_append, List.map_cons, List.map_nil,
    List.sum_cons, List.sum_nil, Nat.add_zero]

theorem restingQty_erase (book : OrderBook) (isBuy : Bool) (i : Nat) {orders : Arrivals}
    (distinct : Keyed.Distinct RestingOrderView.orderId orders)
    (member : order ∈ orders) :
    book.restingQty (Keyed.erase RestingOrderView.orderId order.orderId orders) isBuy i +
      book.share isBuy i order = book.restingQty orders isBuy i := by
  simp only [restingQty_eq_sum]
  exact distinct.sum_erase member _

theorem restingQty_lessen (book : OrderBook) (isBuy : Bool) (i : Nat)
    {orders : Arrivals} (qty : Qty) (distinct : Keyed.Distinct RestingOrderView.orderId orders)
    (member : order ∈ orders) :
    book.restingQty (orders.lessen order.orderId qty) isBuy i + book.share isBuy i order =
      book.restingQty orders isBuy i +
        book.share isBuy i { order with qty := order.qty - qty } := by
  simp only [restingQty_eq_sum]
  exact distinct.sum_adjust member _

theorem share_le_restingQty (book : OrderBook) (isBuy : Bool) (i : Nat) {orders : Arrivals}
    (member : order ∈ orders) :
    book.share isBuy i order ≤ book.restingQty orders isBuy i := by
  rw [restingQty_eq_sum]
  exact List.le_sum_of_mem (List.mem_map_of_mem member)

/-- Resting an order keeps the totals exact while they fit. -/
theorem Exact.rest (exact : book.Exact ref) (same : SameLadder book after)
    (totals : ∀ d j, after.total d j =
      if book.atLevel d j order then book.total d j + order.qty else book.total d j)
    (fits : after.Fits (ref.rest order)) : after.Exact (ref.rest order) := by
  intro d j
  have bound := fits d j
  rw [same.restingQty, ArrivalBook.rest, restingQty_rest, share] at bound ⊢
  rw [totals]
  split
  · rename_i here
    rw [if_pos here] at bound
    rw [UInt32.toNat_add, exact d j, Nat.mod_eq_of_lt bound]
  · exact exact d j

/-- Erasing an order of the removed quantity keeps the totals exact. -/
theorem Exact.erase (exact : book.Exact ref) (same : SameLadder book after)
    (distinct : Keyed.Distinct RestingOrderView.orderId ref.orders) (member : order ∈ ref.orders)
    (queue : ∀ d j, queues' d j = [] →
      after.restingQty (Keyed.erase RestingOrderView.orderId order.orderId ref.orders) d j = 0)
    (totals : ∀ d j, after.total d j = if book.atLevel d j order then
      shrunkTotal (book.total d j) order.qty (queues' d j) else book.total d j) :
    after.Exact
      { ref with orders := Keyed.erase RestingOrderView.orderId order.orderId ref.orders } := by
  intro d j
  have removed := restingQty_erase book d j distinct member
  have before := exact d j
  rw [totals]
  split
  · rename_i here
    rw [share, if_pos here] at removed
    rw [shrunkTotal]
    split
    · rename_i empty
      exact (queue d j empty).symm
    · rw [toNat_sub_min, same.restingQty]
      change _ = book.restingQty (Keyed.erase RestingOrderView.orderId order.orderId ref.orders) d j
      omega
  · rename_i elsewhere
    rw [share, if_neg elsewhere, Nat.add_zero] at removed
    rw [same.restingQty, before, ← removed]

end Totals

section Best

variable {book : OrderBook} {queues : Queues} {ref : ArrivalBook} {isBuy : Bool} {idx : UInt32}

/-- Levels are ordered as their prices are. -/
theorem asGood_iff (isBuy : Bool) {left right : Price} (leftInBand : book.priceInBand left = true)
    (rightInBand : book.priceInBand right = true) :
    Arrivals.asGood isBuy left right = true ↔
    AtLeastAsGood isBuy (book.levelOf left) (book.levelOf right) := by
  have leftPrice := price_eq leftInBand
  have rightPrice := price_eq rightInBand
  cases isBuy <;>
    simp only [Arrivals.asGood, AtLeastAsGood, Bool.false_eq_true, ↓reduceIte, decide_eq_true_iff,
      Int64.le_iff_toInt_le, leftPrice, rightPrice] <;> omega

/-- Without a best level a side is empty. -/
theorem Mirrors.first_eq_none (mirrors : book.Mirrors queues ref)
    (best : (book.half isBuy).bestIdx = none) :
    ref.orders.first isBuy = none := by
  have empty : ref.orders.ofSide isBuy = [] := by
    rw [List.eq_nil_iff_forall_not_mem]
    intro order held
    obtain ⟨member, side⟩ := Arrivals.mem_ofSide.mp held
    obtain ⟨slot, -, -, -, queued, -⟩ := mirrors.slot_of_order member
    rw [side] at queued
    exact (mirrors.rep.occupancy isBuy).none best _ (List.ne_nil_of_mem queued)
  rw [Arrivals.first, empty, List.find?_nil]

/-- The head of the best level is the earliest arrival at the best price. -/
theorem Mirrors.first_eq_some (mirrors : book.Mirrors queues ref)
    (best : (book.half isBuy).bestIdx = some idx) :
    ∃ slot rest n, queues isBuy idx.toNat = slot :: rest ∧ book.nodes[slot.toNat]? = some n ∧
      n.side.isBuy = isBuy ∧ n.levelIdx = idx ∧ book.index.lookup n.orderId = some slot ∧
      ref.orders.first isBuy = some (viewNode n) ∧ book.indexToPrice idx = n.price := by
  obtain ⟨occupied, order⟩ := (mirrors.rep.occupancy isBuy).best idx best
  obtain ⟨slot, rest, split⟩ := List.exists_cons_of_ne_nil occupied
  have member : slot ∈ queues isBuy idx.toNat := by simp [split]
  obtain ⟨n, found, listed, -, side, level, levelOf, indexed⟩ := mirrors.order_of_queued member
  have inBand : book.priceInBand n.price = true := mirrors.inBand (viewNode n) listed
  have price : book.indexToPrice idx = n.price := by
    apply Int64.toInt_inj.mp
    rw [mirrors.rep.ladder.indexToPrice_toInt (mirrors.rep.inside member), price_eq inBand]
    exact congrArg _ (congrArg _ levelOf.symm)
  -- The best orders of the side are those of the best level.
  have atBest : ∀ other ∈ ref.orders.ofSide isBuy,
      ((ref.orders.ofSide isBuy).all fun rival => Arrivals.asGood isBuy other.price rival.price) =
        book.atLevel isBuy idx.toNat other := by
    intro other otherMember
    obtain ⟨otherListed, otherSide⟩ := Arrivals.mem_ofSide.mp otherMember
    have rank : ∀ rival ∈ ref.orders.ofSide isBuy,
        AtLeastAsGood isBuy idx.toNat (book.levelOf rival.price) := by
      intro rival rivalMember
      obtain ⟨rivalListed, rivalSide⟩ := Arrivals.mem_ofSide.mp rivalMember
      obtain ⟨rivalSlot, -, -, -, queued, -⟩ := mirrors.slot_of_order rivalListed
      rw [rivalSide] at queued
      exact order _ (List.ne_nil_of_mem queued)
    rw [Bool.eq_iff_iff, List.all_eq_true, atLevel_iff]
    constructor
    · intro best
      have firstMember : viewNode n ∈ ref.orders.ofSide isBuy :=
        Arrivals.mem_ofSide.mpr ⟨listed, side⟩
      have otherInBand := mirrors.inBand other otherListed
      have beats := (asGood_iff isBuy otherInBand inBand).mp (best (viewNode n) firstMember)
      have beaten := rank other otherMember
      rw [levelOf] at beats
      refine ⟨otherSide, ?_⟩
      cases isBuy <;> simp only [AtLeastAsGood, Bool.false_eq_true, ↓reduceIte] at beats beaten <;>
        omega
    · rintro ⟨-, sameLevel⟩ rival rivalMember
      rw [asGood_iff isBuy (mirrors.inBand other otherListed)
        (mirrors.inBand rival (Arrivals.mem_ofSide.mp rivalMember).1), sameLevel]
      exact rank rival rivalMember
  refine ⟨slot, rest, n, split, found, side, UInt32.toNat_inj.mp level, indexed, ?_, price⟩
  have queue := mirrors.queue isBuy idx.toNat
  rw [split, List.map_cons, orderAt_of_getElem? found] at queue
  obtain ⟨head, tail, filtered, same, -⟩ := List.map_eq_cons_iff.mp queue.symm
  rw [Arrivals.first, ← List.head?_filter, List.filter_congr atBest, Arrivals.ofSide,
    List.filter_filter]
  have both :
      (fun order => book.atLevel isBuy idx.toNat order && decide (order.side.isBuy = isBuy)) =
      book.atLevel isBuy idx.toNat := by
    funext order
    rw [Bool.eq_iff_iff, Bool.and_eq_true, atLevel_iff, decide_eq_true_iff]
    exact and_iff_left_of_imp And.left
  rw [both, filtered, List.head?_cons, same]

/-- `crosses` compares the limit with the best opposite price. -/
theorem Mirrors.crosses (mirrors : book.Mirrors queues ref) (side : Side) (price : Price) :
    book.crosses side price =
      (ref.orders.first (!side.isBuy)).any fun resting =>
        Arrivals.asGood (!side.isBuy) resting.price price := by
  have reads : book.crosses side price =
      (book.half !side.isBuy).bestIdx.any fun idx =>
        Arrivals.asGood (!side.isBuy) (book.indexToPrice idx) price := by
    rw [OrderBook.crosses]
    cases side.isBuy
    · simp only [Bool.false_eq_true, ↓reduceIte, Bool.not_false, half]
      cases book.bids.bestIdx <;> rfl
    · simp only [↓reduceIte, Bool.not_true, half, Bool.false_eq_true]
      cases book.asks.bestIdx <;> rfl
  rw [reads]
  cases best : (book.half !side.isBuy).bestIdx with
  | none => rw [mirrors.first_eq_none best, Option.any_none, Option.any_none]
  | some idx =>
      obtain ⟨-, -, n, -, -, -, -, -, first, levelPrice⟩ := mirrors.first_eq_some best
      rw [first, Option.any_some, Option.any_some, levelPrice, viewNode]

end Best

/-- A step of the engine that follows the reference book without adding quantity. -/
structure Shrinks (book after : OrderBook) (ref ref' : ArrivalBook) : Prop where
  ladder : SameLadder book after
  refines : after.Refines ref'
  exact : book.Exact ref → after.Exact ref'

/-- A step of the engine that follows the reference book; the totals stay exact
as long as they fit. -/
structure Follows (book after : OrderBook) (ref ref' : ArrivalBook) : Prop where
  ladder : SameLadder book after
  refines : after.Refines ref'
  exact : after.Fits ref' → book.Exact ref → after.Exact ref'

section Steps

variable {book middle after : OrderBook} {queues : Queues} {ref ref₁ ref₂ : ArrivalBook}
  {slot idx : UInt32} {n : Node} {order : RestingOrderView} {id : OrderId} {isBuy : Bool}

theorem Shrinks.refl (refines : book.Refines ref) : Shrinks book book ref ref :=
  ⟨.refl book, refines, fun exact => exact⟩

theorem Shrinks.follows (shrinks : Shrinks book after ref ref₁) : Follows book after ref ref₁ :=
  ⟨shrinks.ladder, shrinks.refines, fun _ => shrinks.exact⟩

theorem Shrinks.trans (left : Shrinks book middle ref ref₁)
    (right : Shrinks middle after ref₁ ref₂) :
    Shrinks book after ref ref₂ :=
  ⟨left.ladder.trans right.ladder, right.refines, fun exact => right.exact (left.exact exact)⟩

theorem Shrinks.trans_follows (left : Shrinks book middle ref ref₁)
    (right : Follows middle after ref₁ ref₂) :
    Follows book after ref ref₂ :=
  ⟨left.ladder.trans right.ladder, right.refines,
    fun fits exact => right.exact fits (left.exact exact)⟩

theorem Follows.refl (refines : book.Refines ref) : Follows book book ref ref :=
  (Shrinks.refl refines).follows

/-- Nothing rests at a level without a queue. -/
theorem Mirrors.restingQty_of_empty {i : Nat} (mirrors : book.Mirrors queues ref)
    (empty : queues isBuy i = []) :
    book.restingQty ref.orders isBuy i = 0 := by
  have queue := mirrors.queue isBuy i
  rw [empty, List.map_nil] at queue
  rw [restingQty, List.map_eq_nil_iff.mp queue.symm, List.map_nil, List.sum_nil]

/-- Removing an order with its whole quantity. -/
theorem Mirrors.unrest (mirrors : book.Mirrors queues ref)
    (indexed : book.index.lookup id = some slot) (found : book.nodes[slot.toNat]? = some n)
    (seq : SeqNo) (type : MdType) :
    ∃ after, book.removeNode seq slot n.qty type =
      .ok (after, ref.eventOf seq type (viewNode n) n.qty) ∧
      Shrinks book after ref
        { ref with orders := Keyed.erase RestingOrderView.orderId id ref.orders } := by
  obtain ⟨after, queues', ran, same, mirrors', totals⟩ :=
    mirrors.remove indexed found seq n.qty type
  obtain ⟨m, found', isId, listed, -⟩ := mirrors.order_of_index indexed
  obtain rfl := Option.some.inj (found.symm.trans found')
  refine ⟨after, ran, same, ⟨queues', mirrors'⟩, fun exact => ?_⟩
  have isView : (viewNode n).orderId = id := isId
  rw [← isView] at mirrors' ⊢
  exact exact.erase same mirrors.distinct listed
    (fun d j empty => mirrors'.restingQty_of_empty empty) totals

/-- Taking part of an order's quantity keeps the totals exact. -/
theorem Exact.lessen {qty : Qty} (exact : book.Exact ref) (same : SameLadder book after)
    (distinct : Keyed.Distinct RestingOrderView.orderId ref.orders) (member : order ∈ ref.orders)
    (enough : qty ≤ order.qty) (totals : ∀ d j, after.total d j =
      if book.atLevel d j order then book.total d j - qty else book.total d j) :
    after.Exact { ref with orders := ref.orders.lessen order.orderId qty } := by
  intro d j
  have taken := restingQty_lessen book d j qty distinct member
  have part := share_le_restingQty book d j member
  have before := exact d j
  rw [totals, same.restingQty]
  have level : book.atLevel d j { order with qty := order.qty - qty } =
      book.atLevel d j order := rfl
  rw [share, share, level] at taken
  rw [share] at part
  rw [UInt32.le_iff_toNat_le] at enough
  split
  · rename_i here
    rw [if_pos here, if_pos here,
      UInt32.toNat_sub_of_le _ _ (UInt32.le_iff_toNat_le.mpr enough)] at taken
    rw [if_pos here] at part
    rw [UInt32.toNat_sub_of_le _ _ (UInt32.le_iff_toNat_le.mpr (by omega)), before]
    change _ = book.restingQty (ref.orders.lessen order.orderId qty) d j
    omega
  · rename_i elsewhere
    rw [if_neg elsewhere, if_neg elsewhere] at taken
    rw [before]
    exact taken.symm

/-- The book after `qty` is taken from the order in a slot. -/
def withFill (book : OrderBook) (slot : UInt32) (n : Node) (level : Level) (qty : Qty) :
    OrderBook :=
  (book.withQty slot n (n.qty - qty)).withTotal n.side.isBuy n.levelIdx.toNat level
    (level.totalQty - qty)

theorem sameLadder_withFill {level : Level} {qty : Qty} :
    SameLadder book (book.withFill slot n level qty) := by
  have first : SameLadder book (book.withQty slot n (n.qty - qty)) := ⟨rfl, rfl, rfl, rfl⟩
  exact first.trans sameLadder_withHalf

theorem node_withFill (level : Level) (qty : Qty) (found : book.nodes[slot.toNat]? = some n) :
    (book.withFill slot n level qty).nodes[slot.toNat]? = some { n with qty := n.qty - qty } := by
  rw [withFill, withTotal, nodes_withHalf, nodes_withQty found, if_pos rfl]

theorem index_withFill {level : Level} {qty : Qty} :
    (book.withFill slot n level qty).index = book.index := by
  rw [withFill, withTotal, index_withHalf, withQty]

/-- The writes of a fill: less in the node and in its level. -/
theorem withFill_run {level : Level} (qty : Qty) (found : book.nodes[slot.toNat]? = some n)
    (here : (book.half n.side.isBuy).levels[n.levelIdx.toNat]? = some level) :
    book.setNode slot { n with qty := n.qty - qty } = .ok (book.withQty slot n (n.qty - qty)) ∧
    (book.withQty slot n (n.qty - qty)).levelFor n.side.isBuy n.levelIdx = .ok level ∧
    (book.withQty slot n (n.qty - qty)).setLevel n.side.isBuy n.levelIdx
      { level with totalQty := level.totalQty - qty } = .ok (book.withFill slot n level qty) := by
  have stored : ((book.withQty slot n (n.qty - qty)).half n.side.isBuy).levels[n.levelIdx.toNat]? =
      some level := by
    rw [half_withQty]
    exact here
  exact ⟨setNode_qty found, levelFor_of_getElem? stored, setLevel_total stored⟩

/-- A fill lessens the order in the list. -/
theorem Mirrors.withFill {level : Level} {qty : Qty} (mirrors : book.Mirrors queues ref)
    (indexed : book.index.lookup id = some slot) (found : book.nodes[slot.toNat]? = some n)
    (here : (book.half n.side.isBuy).levels[n.levelIdx.toNat]? = some level)
    (enough : qty ≤ n.qty) :
    (book.withFill slot n level qty).Mirrors queues
    { ref with orders := ref.orders.lessen id qty } ∧
    (book.Exact ref →
      (book.withFill slot n level qty).Exact { ref with orders := ref.orders.lessen id qty }) := by
  obtain ⟨m, found', isId, listed, -, -, levelOf⟩ := mirrors.order_of_index indexed
  obtain rfl := Option.some.inj (found.symm.trans found')
  subst isId
  have stored : ((book.withQty slot n (n.qty - qty)).half n.side.isBuy).levels[n.levelIdx.toNat]? =
      some level := by
    rw [half_withQty]
    exact here
  have lessened : ref.orders.lessen n.orderId qty = Keyed.adjust RestingOrderView.orderId n.orderId
      (fun order => { order with qty := n.qty - qty }) ref.orders := by
    apply Keyed.adjust_congr
    intro order member sameId
    rw [mirrors.distinct.eq member listed sameId]
    rfl
  constructor
  · rw [lessened]
    exact (mirrors.withQty indexed found _).withTotal stored _
  · intro exact
    refine exact.lessen sameLadder_withFill mirrors.distinct listed enough fun d j => ?_
    have base : (book.withQty slot n (n.qty - qty)).total d j = book.total d j := by
      rw [total, half_withQty, total]
    have levelHere : book.atLevel d j (viewNode n) = true ↔ d = n.side.isBuy ∧
        j = n.levelIdx.toNat := by
      rw [atLevel_iff, viewNode, levelOf]
      exact and_congr eq_comm eq_comm
    rw [OrderBook.withFill, total_withTotal stored]
    by_cases atHere : d = n.side.isBuy ∧ j = n.levelIdx.toNat
    · rw [if_pos atHere, if_pos (levelHere.mpr atHere)]
      obtain ⟨rfl, rfl⟩ := atHere
      rw [total, here]
    · rw [if_neg atHere, if_neg (mt levelHere.mp atHere), base]

end Steps

end Exsim.Core.OrderBook
