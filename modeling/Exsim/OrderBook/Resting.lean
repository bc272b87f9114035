import Exsim.OrderBook.Fifo
import Exsim.Reference.Crossing

/-! # The resting orders of a book as one list

Read off the node pool, in no particular order.
-/

namespace Exsim.Core

open Data

namespace OrderBook

/-- The active nodes, as a caller sees them. -/
def resting (book : OrderBook) : Arrivals := (book.nodes.toList.filter Node.active).map viewNode

variable {book : OrderBook} {ref : ArrivalBook} {queues : Queues}

theorem mem_resting {order : RestingOrderView} : order ∈ book.resting ↔
    ∃ (i : Nat) (n : Node), book.nodes[i]? = some n ∧ n.active = true ∧ viewNode n = order := by
  simp only [resting, List.mem_map, List.mem_filter, Array.mem_toList_iff, Array.mem_iff_getElem?]
  constructor
  · rintro ⟨n, ⟨⟨i, found⟩, active⟩, view⟩
    exact ⟨i, n, found, active, view⟩
  · rintro ⟨i, n, found, active, view⟩
    exact ⟨n, ⟨⟨i, found⟩, active⟩, view⟩

/-- Every slot of the pool has a slot number. -/
theorem WellFormed.slot (wellFormed : book.WellFormed) {i : Nat} {n : Node}
    (found : book.nodes[i]? = some n) :
    (UInt32.ofNat i).toNat = i := by
  have bound := (Array.getElem?_eq_some_iff.mp found).1
  have slots := wellFormed.slots
  have null : kNull.toNat = 2 ^ 32 - 1 := rfl
  rw [UInt32.toNat_ofNat', Nat.mod_eq_of_lt (by omega)]

/-- An active node is indexed under its id. -/
theorem WellFormed.indexed (wellFormed : book.WellFormed) {i : Nat} {n : Node}
    (found : book.nodes[i]? = some n) (active : n.active = true) :
    book.index.lookup n.orderId = some (UInt32.ofNat i) :=
  (wellFormed.index n.orderId (UInt32.ofNat i)).mpr
    ⟨n, by rw [wellFormed.slot found, found], active, rfl⟩

theorem WellFormed.resting_distinct (wellFormed : book.WellFormed) :
    Keyed.Distinct RestingOrderView.orderId book.resting := by
  rw [Keyed.Distinct, resting, List.map_map, List.Nodup, List.pairwise_map, List.pairwise_filter,
    List.pairwise_iff_getElem]
  intro i j iBound jBound before iActive jActive same
  have iFound : book.nodes[i]? = some book.nodes.toList[i] := by
    rw [← Array.getElem?_toList, List.getElem?_eq_getElem iBound]
  have jFound : book.nodes[j]? = some book.nodes.toList[j] := by
    rw [← Array.getElem?_toList, List.getElem?_eq_getElem jBound]
  have left := wellFormed.indexed iFound iActive
  have right := wellFormed.indexed jFound jActive
  have sameId : book.nodes.toList[i].orderId = book.nodes.toList[j].orderId := same
  rw [sameId, right] at left
  have slots := congrArg UInt32.toNat (Option.some.inj left)
  rw [wellFormed.slot iFound, wellFormed.slot jFound] at slots
  omega

/-- The active nodes are the orders of the reference book. -/
theorem Mirrors.mem_resting (mirrors : book.Mirrors queues ref) (wellFormed : book.WellFormed)
    {order : RestingOrderView} : order ∈ book.resting ↔ order ∈ ref.orders := by
  rw [OrderBook.mem_resting]
  constructor
  · rintro ⟨i, n, found, active, rfl⟩
    obtain ⟨m, stands, -, listed, -⟩ := mirrors.order_of_index (wellFormed.indexed found active)
    rw [wellFormed.slot found, found] at stands
    rw [Option.some.inj stands]
    exact listed
  · intro member
    obtain ⟨slot, n, found, view, queued, -⟩ := mirrors.slot_of_order member
    obtain ⟨m, stands, -, active, -⟩ := mirrors.order_of_queued queued
    obtain rfl := Option.some.inj (found.symm.trans stands)
    exact ⟨slot.toNat, n, found, active, view⟩

theorem Refines.resting_perm (refines : book.Refines ref) (sound : ref.Sound) :
    book.resting.Perm ref.orders := by
  obtain ⟨queues, mirrors⟩ := refines
  have wellFormed := mirrors.wellFormed sound
  rw [List.perm_ext_iff_of_nodup (List.Nodup.of_map _ wellFormed.resting_distinct)
    (List.Nodup.of_map _ sound.distinct)]
  exact fun order => mirrors.mem_resting wellFormed

end OrderBook

namespace Arrivals

variable {orders others : Arrivals}

theorem rests_perm (same : orders.Perm others) (id : OrderId) (side : Side)
    (limit : Price) (qty : Qty) (tif : TimeInForce) :
    orders.rests id side limit qty tif = others.rests id side limit qty tif := by
  have held : Keyed.holds RestingOrderView.orderId id orders =
      Keyed.holds RestingOrderView.orderId id others := by
    rw [Bool.eq_iff_iff, Keyed.holds_iff, Keyed.holds_iff]
    exact exists_congr fun order => and_congr_left fun _ => same.mem_iff
  have crossing : orders.crossing side limit = others.crossing side limit := (same.map _).sum_eq
  rw [rests, held, crossing, rests]

theorem outgrows_perm (same : orders.Perm others) (order : RestingOrderView) (tif : TimeInForce)
    (weight : RestingOrderView → Nat) (elsewhere limit : Nat) :
    orders.outgrows order tif weight elsewhere limit =
      others.outgrows order tif weight elsewhere limit := by
  have crossing : orders.crossing order.side order.price = others.crossing order.side order.price :=
    (same.map _).sum_eq
  have spared : orders.spared order.side order.price weight =
      others.spared order.side order.price weight :=
    (same.map _).sum_eq
  rw [outgrows, outgrows, rests_perm same, crossing, spared]

theorem erase_perm (same : orders.Perm others) (id : OrderId) :
    (Keyed.erase RestingOrderView.orderId id orders).Perm
    (Keyed.erase RestingOrderView.orderId id others) :=
  same.filter _

end Arrivals

end Exsim.Core
