import Exsim.OrderBook.Append
import Exsim.OrderBook.Remove
import Exsim.OrderBook.Quantity
import Exsim.Reference.ArrivalBook

/-! # The engine's book against the reference book

`Mirrors` relates the representation to a list of resting orders in arrival
order; each primitive write of the engine is one operation on that list.
-/

namespace Exsim.Core.OrderBook

open Data

/-- Whether an order rests at level `i` of a side. -/
def atLevel (book : OrderBook) (isBuy : Bool) (i : Nat) (order : RestingOrderView) : Bool :=
  order.side.isBuy = isBuy ∧ book.levelOf order.price = i

structure Mirrors (book : OrderBook) (queues : Queues) (ref : ArrivalBook) : Prop where
  rep : book.Represents queues
  symbolId : ref.symbolId = book.symbolId
  minPrice : ref.minPrice = book.minPrice
  maxPrice : ref.maxPrice = book.maxPrice
  queue : ∀ isBuy i, (queues isBuy i).map book.orderAt =
      (ref.orders.filter (book.atLevel isBuy i)).map some
  inBand : ∀ order ∈ ref.orders, book.priceInBand order.price = true
  distinct : Keyed.Distinct RestingOrderView.orderId ref.orders
  pool : book.nodes.size = book.free.length + ref.orders.length

def Refines (book : OrderBook) (ref : ArrivalBook) : Prop := ∃ queues, book.Mirrors queues ref

section

variable {book after : OrderBook} {queues : Queues} {ref : ArrivalBook} {slot : UInt32} {n : Node}
  {order : RestingOrderView} {id : OrderId} {isBuy : Bool} {i : Nat}

theorem atLevel_iff : book.atLevel isBuy i order = true ↔
    order.side.isBuy = isBuy ∧ book.levelOf order.price = i := by
  simp [atLevel]

theorem SameLadder.atLevel (same : SameLadder book after) : after.atLevel = book.atLevel := by
  funext isBuy i order
  simp only [OrderBook.atLevel, same.levelOf]

theorem orderAt_of_getElem? (found : book.nodes[slot.toNat]? = some n) :
    book.orderAt slot = some (viewNode n) := by
  rw [orderAt, bare_of_getElem? found]
  rfl

theorem orderAt_congr (same : after.bare slot = book.bare slot) :
    after.orderAt slot = book.orderAt slot := by
  rw [orderAt, same, orderAt]

namespace Mirrors

theorem priceInBand (mirrors : book.Mirrors queues ref) (price : Price) :
    ref.priceInBand price = book.priceInBand price := by
  rw [ArrivalBook.priceInBand, OrderBook.priceInBand, mirrors.minPrice, mirrors.maxPrice]

/-- A queued slot holds a resting order of its level. -/
theorem order_of_queued (mirrors : book.Mirrors queues ref) (member : slot ∈ queues isBuy i) :
    ∃ n, book.nodes[slot.toNat]? = some n ∧ viewNode n ∈ ref.orders ∧ n.active = true ∧
      n.side.isBuy = isBuy ∧ n.levelIdx.toNat = i ∧ book.levelOf n.price = i ∧
      book.index.lookup n.orderId = some slot := by
  obtain ⟨m, placed⟩ := mirrors.rep.placed isBuy i slot member
  obtain ⟨n, found, rfl⟩ := getElem?_of_bare placed.found
  refine ⟨n, found, ?_, placed.active, placed.side, placed.level, placed.price, placed.indexed⟩
  have listed : book.orderAt slot ∈ (queues isBuy i).map book.orderAt := List.mem_map_of_mem member
  rw [mirrors.queue, orderAt_of_getElem? found] at listed
  obtain ⟨order, held, same⟩ := List.mem_map.mp listed
  rw [← Option.some.inj same]
  exact List.mem_of_mem_filter held

/-- A resting order has a slot in the queue of its level. -/
theorem slot_of_order (mirrors : book.Mirrors queues ref) (member : order ∈ ref.orders) :
    ∃ slot n, book.nodes[slot.toNat]? = some n ∧ viewNode n = order ∧
      slot ∈ queues order.side.isBuy (book.levelOf order.price) ∧
      book.index.lookup order.orderId = some slot := by
  have listed : some order ∈
      (ref.orders.filter (book.atLevel order.side.isBuy (book.levelOf order.price))).map some :=
    List.mem_map_of_mem (List.mem_filter.mpr ⟨member, atLevel_iff.mpr ⟨rfl, rfl⟩⟩)
  rw [← mirrors.queue] at listed
  obtain ⟨slot, queued, stored⟩ := List.mem_map.mp listed
  obtain ⟨n, found, -, -, -, -, -, indexed⟩ := mirrors.order_of_queued queued
  rw [orderAt_of_getElem? found] at stored
  obtain rfl := Option.some.inj stored
  exact ⟨slot, n, found, rfl, queued, indexed⟩

/-- An indexed id names a resting order and its slot. -/
theorem order_of_index (mirrors : book.Mirrors queues ref)
    (indexed : book.index.lookup id = some slot) :
    ∃ n, book.nodes[slot.toNat]? = some n ∧ n.orderId = id ∧ viewNode n ∈ ref.orders ∧
    n.active = true ∧ slot ∈ queues n.side.isBuy n.levelIdx.toNat ∧
    book.levelOf n.price = n.levelIdx.toNat := by
  obtain ⟨isBuy, i, m, member, stands, isId⟩ := mirrors.rep.index id slot indexed
  obtain ⟨n, found, listed, active, rfl, rfl, level, -⟩ := mirrors.order_of_queued member
  rw [bare_of_getElem? found] at stands
  obtain rfl := Option.some.inj stands
  exact ⟨n, found, isId, listed, active, member, level⟩

theorem lookup_isSome (mirrors : book.Mirrors queues ref) (id : OrderId) :
    (book.index.lookup id).isSome = ref.holds id := by
  rw [Bool.eq_iff_iff, ArrivalBook.holds, Keyed.holds_iff, Option.isSome_iff_exists]
  constructor
  · rintro ⟨slot, indexed⟩
    obtain ⟨n, -, isId, listed, -⟩ := mirrors.order_of_index indexed
    exact ⟨viewNode n, listed, isId⟩
  · rintro ⟨order, member, rfl⟩
    obtain ⟨slot, -, -, -, -, indexed⟩ := mirrors.slot_of_order member
    exact ⟨slot, indexed⟩

theorem contains (mirrors : book.Mirrors queues ref) (id : OrderId) :
    book.contains id = ref.holds id :=
  mirrors.lookup_isSome id

theorem find_of_index (mirrors : book.Mirrors queues ref)
    (indexed : book.index.lookup id = some slot) (found : book.nodes[slot.toNat]? = some n) :
    ref.find id = some (viewNode n) := by
  obtain ⟨m, found', isId, listed, -⟩ := mirrors.order_of_index indexed
  obtain rfl := Option.some.inj (found.symm.trans found')
  exact mirrors.distinct.find_eq_some.mpr ⟨listed, isId⟩

theorem find_of_absent (mirrors : book.Mirrors queues ref) (absent : book.index.lookup id = none) :
    ref.find id = none := by
  have held := mirrors.lookup_isSome id
  rw [absent] at held
  exact Option.not_isSome_iff_eq_none.mp
    (by rw [ArrivalBook.holds, Keyed.holds] at held; simp [ArrivalBook.find, ← held])

/-- `find` answers as the reference book. -/
theorem find (mirrors : book.Mirrors queues ref) (id : OrderId) :
    book.find id = .ok (ref.find id) := by
  cases indexed : book.index.lookup id with
  | none => simp only [OrderBook.find, indexed, mirrors.find_of_absent indexed]
  | some slot =>
      obtain ⟨n, found, -, -, active, -⟩ := mirrors.order_of_index indexed
      simp only [OrderBook.find, indexed, node_of_getElem? found, exec_ok_bind, active, ↓reduceIte,
        mirrors.find_of_index indexed found]

theorem hasSlot (mirrors : book.Mirrors queues ref) (room : ref.orders.length < kNull.toNat) :
    book.HasSlot := by
  have pool := mirrors.pool
  cases recycled : book.free with
  | nil =>
      rw [recycled, List.length_nil, Nat.zero_add] at pool
      exact .inr (pool ▸ room)
  | cons slot rest => exact .inl (by simp [recycled])

/-- Allocating and appending a slot rests an order behind all others. -/
theorem rest (mirrors : book.Mirrors queues ref) (fresh : ref.holds order.orderId = false)
    (inBand : book.priceInBand order.price = true) (room : ref.orders.length < kNull.toNat) :
    ∃ middle slot after queues',
      book.allocNode order.orderId order.accountId order.side order.price order.qty =
        .ok (middle, slot) ∧ middle.appendToLevel slot = .ok after ∧ SameLadder book after ∧
      after.Mirrors queues' (ref.rest order) ∧
      ∀ d j, after.total d j = if book.atLevel d j order then book.total d j + order.qty
        else book.total d j := by
  obtain ⟨middle, slot, ran, allocated⟩ := allocNode_spec order.orderId order.accountId
    order.side order.price order.qty mirrors.rep (mirrors.hasSlot room)
  have level : (book.priceToIndex order.price).toNat = book.levelOf order.price :=
    mirrors.rep.ladder.priceToIndex_toNat inBand
  have inside : (book.priceToIndex order.price).toNat < book.levelCount.toNat :=
    level ▸ mirrors.rep.ladder.levelOf_lt inBand
  obtain ⟨after, appendRan, appended⟩ := appendToLevel_spec mirrors.rep allocated inside
  have absent : book.index.lookup order.orderId = none :=
    Option.not_isSome_iff_eq_none.mp
      (by rw [mirrors.lookup_isSome, fresh]; exact Bool.false_ne_true)
  have rep : after.Represents (queues.set order.side.isBuy (book.priceToIndex order.price).toNat
      (queues order.side.isBuy (book.priceToIndex order.price).toNat ++ [slot])) :=
    appended.represents mirrors.rep allocated absent rfl inBand level
  have same : SameLadder book after := allocated.ladder.trans appended.ladder
  have here : ∀ d j, book.atLevel d j order = true ↔
      d = order.side.isBuy ∧ j = (book.priceToIndex order.price).toNat := by
    intro d j
    rw [atLevel_iff, level]
    exact and_congr eq_comm eq_comm
  have kept : ∀ d j, (queues d j).map after.orderAt = (queues d j).map book.orderAt := by
    intro d j
    apply List.map_congr_left
    intro other member
    have different : other ≠ slot := fun isSlot => allocated.unused d j (isSlot ▸ member)
    exact orderAt_congr (appended.bareOther other different)
  have stored : after.orderAt slot = some order := by
    rw [orderAt, appended.bareSlot]
    rfl
  refine ⟨middle, slot, after, _, ran, appendRan, same, ⟨rep, ?_, ?_, ?_, ?_, ?_, ?_, ?_⟩, ?_⟩
  · exact mirrors.symbolId.trans same.symbolId.symm
  · exact mirrors.minPrice.trans same.minPrice.symm
  · exact mirrors.maxPrice.trans same.maxPrice.symm
  · intro d j
    rw [same.atLevel, ArrivalBook.rest, List.filter_append,
      List.map_append, ← mirrors.queue, ← kept]
    by_cases level : book.atLevel d j order = true
    · obtain ⟨rfl, rfl⟩ := (here d j).mp level
      rw [Queues.set_same, List.map_append, List.filter_singleton, level, cond_true,
        List.map_singleton, List.map_singleton, stored]
    · rw [Queues.set_other (mt (here d j).mpr level), List.filter_singleton,
        Bool.eq_false_iff.mpr level, cond_false, List.map_nil, List.append_nil]
  · intro other member
    rw [same.priceInBand]
    rcases List.mem_append.mp member with member | member
    · exact mirrors.inBand other member
    · rw [List.mem_singleton.mp member]
      exact inBand
  · exact mirrors.distinct.push fresh
  · have pool := mirrors.pool
    have grown := allocated.pool
    rw [appended.size, appended.free, ArrivalBook.rest, List.length_append, List.length_singleton]
    omega
  · intro d j
    by_cases level : book.atLevel d j order = true
    · rw [if_pos level]
      obtain ⟨rfl, rfl⟩ := (here d j).mp level
      obtain ⟨written, found⟩ : ∃ written,
          (after.half order.side.isBuy).levels[(book.priceToIndex order.price).toNat]? =
            some written :=
        ⟨_, Array.getElem?_eq_getElem (by rw [appended.levels]; exact inside)⟩
      have totalQty := (appended.levelHere written found).2.2.2
      rw [total, found]
      exact totalQty
    · rw [if_neg level, total, appended.levelOther d j (mt (here d j).mpr level), total]

/-- The queue of a level that loses the order in `slot`. -/
theorem queue_erase {front back : List UInt32} (mirrors : book.Mirrors queues ref)
    (split : queues isBuy i = front ++ slot :: back) (found : book.nodes[slot.toNat]? = some n) :
    (front ++ back).map book.orderAt =
      ((Keyed.erase RestingOrderView.orderId n.orderId ref.orders).filter
        (book.atLevel isBuy i)).map some := by
  have queue := mirrors.queue isBuy i
  rw [split, List.map_append, List.map_cons, orderAt_of_getElem? found] at queue
  obtain ⟨before, rest, listed, frontEq, restEq⟩ := List.map_eq_append_iff.mp queue.symm
  obtain ⟨order, behind, rfl, same, backEq⟩ := List.map_eq_cons_iff.mp restEq
  obtain rfl := Option.some.inj same
  have distinct := mirrors.distinct.filter (book.atLevel isBuy i)
  rw [listed] at distinct
  have erased := distinct.erase_middle
  rw [Keyed.filter_erase, listed, List.map_append, ← frontEq, ← backEq, ← List.map_append, ← erased]
  rfl

/-- `remove_node` erases its order from the list. -/
theorem remove (mirrors : book.Mirrors queues ref) (indexed : book.index.lookup id = some slot)
    (found : book.nodes[slot.toNat]? = some n) (seq : SeqNo) (removedQty : Qty) (type : MdType) :
    ∃ after queues',
      book.removeNode seq slot removedQty type =
        .ok (after, ref.eventOf seq type (viewNode n) removedQty) ∧ SameLadder book after ∧
      after.Mirrors queues'
        { ref with orders := Keyed.erase RestingOrderView.orderId id ref.orders } ∧
      ∀ d j, after.total d j = if book.atLevel d j (viewNode n) then
        shrunkTotal (book.total d j) removedQty (queues' d j) else book.total d j := by
  obtain ⟨m, found', isId, listed, -, member, level⟩ := mirrors.order_of_index indexed
  obtain rfl := Option.some.inj (found.symm.trans found')
  obtain ⟨front, back, split⟩ := List.append_of_mem member
  obtain ⟨after, ran, removed⟩ := removeNode_spec seq removedQty type mirrors.rep found split
  have rep := removed.represents mirrors.rep found split
  have same := removed.ladder
  have here : ∀ d j, book.atLevel d j (viewNode n) = true ↔ d = n.side.isBuy ∧
      j = n.levelIdx.toNat := by
    intro d j
    rw [atLevel_iff, viewNode, level]
    exact and_congr eq_comm eq_comm
  have nodup := mirrors.rep.nodup n.side.isBuy n.levelIdx.toNat
  rw [split, List.nodup_middle, List.nodup_cons] at nodup
  have kept : ∀ slots : List UInt32, slot ∉ slots →
      slots.map after.orderAt = slots.map book.orderAt := by
    intro slots absent
    apply List.map_congr_left
    intro other queued
    exact orderAt_congr (removed.bareOther other fun isSlot => absent (isSlot ▸ queued))
  refine ⟨after, _, ?_, same, ⟨rep, ?_, ?_, ?_, ?_, ?_, ?_, ?_⟩, ?_⟩
  · rw [ran, removalEvent, ArrivalBook.eventOf, mirrors.symbolId]
    rfl
  · exact mirrors.symbolId.trans same.symbolId.symm
  · exact mirrors.minPrice.trans same.minPrice.symm
  · exact mirrors.maxPrice.trans same.maxPrice.symm
  · intro d j
    rw [same.atLevel]
    by_cases level : d = n.side.isBuy ∧ j = n.levelIdx.toNat
    · obtain ⟨rfl, rfl⟩ := level
      rw [Queues.set_same, kept _ nodup.1, ← isId]
      exact mirrors.queue_erase split found
    · rw [Queues.set_other level, kept _ fun queued => level (mirrors.rep.unique queued member),
        mirrors.queue, Keyed.filter_erase, Keyed.erase_eq_self]
      rw [Keyed.holds_eq_false]
      intro order held sameId
      have atHere := List.mem_filter.mp held
      have isOrder : order = viewNode n :=
        mirrors.distinct.eq atHere.1 listed (sameId.trans isId.symm)
      rw [isOrder] at atHere
      exact level ((here d j).mp atHere.2)
  · intro order held
    rw [same.priceInBand]
    exact mirrors.inBand order (Keyed.mem_erase.mp held).1
  · exact mirrors.distinct.erase id
  · have pool := mirrors.pool
    have shorter := mirrors.distinct.length_erase listed
    rw [← isId, removed.size, removed.free, List.length_cons]
    change _ = _ + (Keyed.erase RestingOrderView.orderId n.orderId ref.orders).length
    rw [show (viewNode n).orderId = n.orderId from rfl] at shorter
    omega
  · intro d j
    by_cases level : book.atLevel d j (viewNode n) = true
    · rw [if_pos level]
      obtain ⟨rfl, rfl⟩ := (here d j).mp level
      obtain ⟨written, stored⟩ : ∃ written, (after.half n.side.isBuy).levels[n.levelIdx.toNat]? =
          some written :=
        ⟨_, Array.getElem?_eq_getElem (by rw [removed.levels]; exact mirrors.rep.inside member)⟩
      rw [Queues.set_same, total, stored]
      exact (removed.levelHere written stored).2.2.2
    · rw [if_neg level, total, removed.levelOther d j (mt (here d j).mpr level), total]

/-- Storing another quantity changes it in the list, in place. -/
theorem withQty (mirrors : book.Mirrors queues ref) (indexed : book.index.lookup id = some slot)
    (found : book.nodes[slot.toNat]? = some n) (qty : Qty) :
    (book.withQty slot n qty).Mirrors queues { ref with
      orders := Keyed.adjust RestingOrderView.orderId id
        (fun order => { order with qty }) ref.orders } := by
  obtain ⟨m, found', isId, listed, -, member, level⟩ := mirrors.order_of_index indexed
  obtain rfl := Option.some.inj (found.symm.trans found')
  have orderAt : ∀ other, (book.withQty slot n qty).orderAt other =
      if other = slot then some { viewNode n with qty } else book.orderAt other := by
    intro other
    rw [OrderBook.orderAt, bare_withQty found, OrderBook.orderAt]
    split <;> rfl
  refine ⟨mirrors.rep.withQty found member, mirrors.symbolId, mirrors.minPrice, mirrors.maxPrice,
    ?_, ?_, ?_, ?_⟩
  · intro d j
    have adjusted : (Keyed.adjust RestingOrderView.orderId id (fun order => { order with qty })
        ref.orders).filter (book.atLevel d j) = Keyed.adjust RestingOrderView.orderId id
          (fun order => { order with qty }) (ref.orders.filter (book.atLevel d j)) :=
      Keyed.filter_adjust fun _ => rfl
    change _ = (List.filter (book.atLevel d j) _).map some
    rw [adjusted, Keyed.adjust, List.map_map]
    have queue := mirrors.queue d j
    apply List.ext_getElem?
    intro k
    have place := congrArg (·[k]?) queue
    simp only [List.getElem?_map] at place ⊢
    cases queued : (queues d j)[k]? with
    | none =>
        rw [queued, Option.map_none] at place
        rw [Option.map_none, eq_comm, Option.map_eq_none_iff]
        exact Option.map_eq_none_iff.mp place.symm
    | some other =>
        obtain ⟨order, at_k, stored⟩ :
            ∃ order, (ref.orders.filter (book.atLevel d j))[k]? = some order ∧
            some order = book.orderAt other := by
          rw [queued, Option.map_some] at place
          exact Option.map_eq_some_iff.mp place.symm
        rw [at_k, Option.map_some, Option.map_some, orderAt, Option.some.injEq, Function.comp_apply]
        obtain ⟨m, stands, -, -, -, -, -, indexed'⟩ :=
          mirrors.order_of_queued (List.mem_of_getElem? queued)
        rw [orderAt_of_getElem? stands] at stored
        obtain rfl := Option.some.inj stored
        by_cases isSlot : other = slot
        · subst isSlot
          have sameNode : n = m := Option.some.inj (found.symm.trans stands)
          have sameId : (viewNode n).orderId = id := isId
          rw [if_pos rfl, ← sameNode, if_pos sameId]
        · have notId : (viewNode m).orderId ≠ id := by
            intro sameId
            rw [show m.orderId = id from sameId, indexed] at indexed'
            exact isSlot (Option.some.inj indexed').symm
          rw [if_neg isSlot, if_neg notId, orderAt_of_getElem? stands]
  · intro order held
    obtain ⟨before, member, rfl⟩ := Keyed.mem_adjust.mp held
    have price : (if before.orderId = id then { before with qty } else before).price =
        before.price := by
      split <;> rfl
    rw [price]
    exact mirrors.inBand before member
  · exact mirrors.distinct.adjust fun _ => rfl
  · change (book.nodes.setIfInBounds _ _).size = book.free.length + (Keyed.adjust _ _ _ _).length
    rw [Array.size_setIfInBounds, Keyed.length_adjust]
    exact mirrors.pool

/-- The stored totals are no part of the list. -/
theorem withTotal {level : Level} (mirrors : book.Mirrors queues ref)
    (found : (book.half isBuy).levels[i]? = some level) (totalQty : Qty) :
    (book.withTotal isBuy i level totalQty).Mirrors queues ref := by
  have same : SameLadder book (book.withTotal isBuy i level totalQty) := sameLadder_withHalf
  refine ⟨mirrors.rep.withTotal found, mirrors.symbolId.trans same.symbolId.symm,
    mirrors.minPrice.trans same.minPrice.symm, mirrors.maxPrice.trans same.maxPrice.symm, ?_, ?_,
    mirrors.distinct, ?_⟩
  · intro d j
    rw [same.atLevel, ← mirrors.queue]
    apply List.map_congr_left
    intro other _
    apply orderAt_congr
    rw [OrderBook.withTotal, bare, nodes_withHalf, bare]
  · intro order held
    rw [same.priceInBand]
    exact mirrors.inBand order held
  · rw [OrderBook.withTotal, nodes_withHalf, free_withHalf]
    exact mirrors.pool

end Mirrors

end

end Exsim.Core.OrderBook
