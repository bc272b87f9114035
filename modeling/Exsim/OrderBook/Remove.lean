import Exsim.OrderBook.Representation

/-! # Taking an order off its level: `remove_node` -/

namespace Exsim.Core.OrderBook

open Data

section Parts

/-- Rewriting a neighbour, if there is one. -/
theorem relink_spec (book : OrderBook) (slot : UInt32) (f : Node → Node)
    (slots : book.nodes.size ≤ kNull.toNat) (inside : slot ≠ kNull → slot.toNat < book.nodes.size) :
    ∃ nodes,
      (if slot ≠ kNull then (do let n ← book.node slot; book.setNode slot (f n)) else pure book) =
        .ok { book with nodes } ∧
      nodes.size = book.nodes.size ∧
      ∀ other : UInt32, nodes[other.toNat]? =
        if other = slot then book.nodes[other.toNat]?.map f else book.nodes[other.toNat]? := by
  by_cases null : slot = kNull
  · subst null
    refine ⟨book.nodes, by simp only [ne_eq, not_true_eq_false, ↓reduceIte, exec_pure], rfl, ?_⟩
    intro other
    split
    · rename_i same
      subst same
      rw [Array.getElem?_eq_none slots]
      rfl
    · rfl
  · have bound := inside null
    obtain ⟨n, found⟩ : ∃ n, book.nodes[slot.toNat]? = some n :=
      ⟨_, Array.getElem?_eq_getElem bound⟩
    refine ⟨book.nodes.setIfInBounds slot.toNat (f n), ?_, Array.size_setIfInBounds, ?_⟩
    · simp only [ne_eq, null, not_false_eq_true, ↓reduceIte, node_of_getElem? found, exec_ok_bind,
        setNode_of_lt _ bound]
    · intro other
      split
      · rename_i same
        subst same
        rw [Array.getElem?_setIfInBounds_self_of_lt bound, found]
        rfl
      · rename_i different
        exact Array.getElem?_setIfInBounds_ne fun same => different (UInt32.toNat_inj.mp same.symm)

/-- The level part of `remove_node`: an emptied level is reset and gives up its bit. -/
theorem shrinkLevel_spec (book : OrderBook) (isBuy : Bool) (idx : UInt32) (level : Level)
    {occupied : Nat → Prop}
    (occupancy : Occupancy isBuy book.levelCount.toNat (book.half isBuy) occupied)
    (size : (book.half isBuy).levels.size = book.levelCount.toNat)
    (inside : idx.toNat < book.levelCount.toNat) :
    ∃ half, (if level.count = 0 then (do
          let book ← book.setLevel isBuy idx
              { level with head := kNull, tail := kNull, totalQty := 0 }
          (book.uncountLevel isBuy).clearOccupied isBuy idx)
        else book.setLevel isBuy idx level) = .ok (book.withHalf isBuy half) ∧
      half.levels =
        (book.half isBuy).levels.setIfInBounds idx.toNat (if level.count = 0 then {} else level) ∧
      half.levelCount = (book.half isBuy).levelCount - (if level.count = 0 then 1 else 0) ∧
      Occupancy isBuy book.levelCount.toNat half fun i => (level.count = 0 → i ≠ idx.toNat) ∧
        occupied i := by
  have bound : idx.toNat < (book.half isBuy).levels.size := by
    rw [size]
    exact inside
  by_cases zero : level.count = 0
  · let half : BookSide := { book.half isBuy with
      levels := (book.half isBuy).levels.setIfInBounds idx.toNat {}
      levelCount := (book.half isBuy).levelCount - 1 }
    have kept : Occupancy isBuy book.levelCount.toNat half occupied := occupancy.transfer rfl rfl
    obtain ⟨cleared, ran, levels, counted, tracked⟩ := BookSide.clearOccupied_spec kept inside
    refine ⟨cleared, ?_, ?_, ?_, ?_⟩
    · simp only [zero, ↓reduceIte, setLevel_of_lt _ bound, exec_ok_bind, uncountLevel,
        clearOccupied, half_withHalf_same, withHalf_withHalf, levelCount_withHalf]
      simp only [half] at ran
      rw [ran]
      rfl
    · rw [levels, if_pos zero]
    · rw [counted, if_pos zero]
    · exact tracked.congr fun i => by simp [zero]
  · let half : BookSide := { book.half isBuy with
      levels := (book.half isBuy).levels.setIfInBounds idx.toNat level }
    have kept : Occupancy isBuy book.levelCount.toNat half occupied := occupancy.transfer rfl rfl
    refine ⟨half, ?_, ?_, ?_, ?_⟩
    · rw [if_neg zero, setLevel_of_lt _ bound]
    · rw [if_neg zero]
    · rw [if_neg zero]
      exact (UInt64.sub_zero _).symm
    · exact kept.congr fun i => by simp [zero]

end Parts

section Bypass

variable {book : OrderBook} {queues : Queues} {slot : UInt32} {n : Node} {front back : List UInt32}
  {nodes : Array Node}

/-- The pool once the neighbours of slot `slot` are chained to each other. -/
structure Bypassed (book : OrderBook) (nodes : Array Node) (slot : UInt32) (n : Node)
    (front back : List UInt32) : Prop where
  size : nodes.size = book.nodes.size
  kept : nodes[slot.toNat]? = some n
  bare : ∀ other, OrderBook.bare { book with nodes } other = book.bare other
  linked : Linked (OrderBook.links { book with nodes }) kNull (front ++ back) kNull
  linksOther : ∀ other, other ∉ front ++ slot :: back →
    OrderBook.links { book with nodes } other = book.links other

/-- The pointers of a queued slot name its neighbours. -/
theorem Represents.neighbours (rep : book.Represents queues)
    (found : book.nodes[slot.toNat]? = some n) {isBuy : Bool} {i : Nat}
    (split : queues isBuy i = front ++ slot :: back) :
    n.prev = front.getLastD kNull ∧ n.next = back.headD kNull := by
  have linked := rep.linked isBuy i
  rw [split] at linked
  have stored := linked.links_mid
  rw [links_of_getElem? found, Option.some.injEq, Prod.mk.injEq] at stored
  exact stored

/-- A neighbour is the null slot or one of the slots on its side. -/
theorem getLastD_mem_or (cells : List UInt32) : cells.getLastD kNull = kNull ∨
    cells.getLastD kNull ∈ cells := by
  rcases List.eq_nil_or_concat cells with rfl | ⟨others, last, rfl⟩ <;> simp

theorem headD_mem_or (cells : List UInt32) : cells.headD kNull = kNull ∨
    cells.headD kNull ∈ cells := by
  cases cells <;> simp

theorem bypass_spec (rep : book.Represents queues) (found : book.nodes[slot.toNat]? = some n)
    {isBuy : Bool} {i : Nat} (split : queues isBuy i = front ++ slot :: back) :
    ∃ nodes₁ nodes₂,
      (if n.prev ≠ kNull then (do
          let before ← book.node n.prev
          book.setNode n.prev { before with next := n.next })
        else pure book) = .ok { book with nodes := nodes₁ } ∧
      (if n.next ≠ kNull then (do
          let after ← { book with nodes := nodes₁ }.node n.next
          { book with nodes := nodes₁ }.setNode n.next { after with prev := n.prev })
        else pure { book with nodes := nodes₁ }) = .ok { book with nodes := nodes₂ } ∧
      Bypassed book nodes₂ slot n front back := by
  have proper : ∀ other ∈ front ++ slot :: back, other ≠ kNull ∧ other.toNat < book.nodes.size := by
    rw [← split]
    exact fun other queued => ⟨rep.slot_ne_null queued, rep.slot_lt queued⟩
  have nodup : (front ++ slot :: back).Nodup := split ▸ rep.nodup _ _
  have linked : Linked book.links kNull (front ++ slot :: back) kNull := split ▸ rep.linked _ _
  obtain ⟨frontNodup, slotBackNodup, disjoint⟩ := List.nodup_append.mp nodup
  obtain ⟨slotNotBack, backNodup⟩ := List.nodup_cons.mp slotBackNodup
  obtain ⟨prev, next⟩ := rep.neighbours found split
  have prevCases : n.prev = kNull ∨ n.prev ∈ front := prev ▸ getLastD_mem_or front
  have nextCases : n.next = kNull ∨ n.next ∈ back := next ▸ headD_mem_or back
  obtain ⟨nodes₁, ran₁, size₁, read₁⟩ := relink_spec book n.prev
    (fun before => { before with next := n.next }) rep.slots fun some =>
      (proper _ (by simp [prevCases.resolve_left some])).2
  obtain ⟨nodes₂, ran₂, size₂, read₂⟩ := relink_spec { book with nodes := nodes₁ } n.next
    (fun after => { after with prev := n.prev }) (size₁ ▸ rep.slots) fun some => by
      rw [size₁]
      exact (proper _ (by simp [nextCases.resolve_left some])).2
  have notPrev : ∀ {other}, other ∈ slot :: back → other ≠ n.prev := by
    intro other queued same
    rcases prevCases with null | inFront
    · exact (proper other (by simp [queued])).1 (same.trans null)
    · exact disjoint _ inFront other queued same.symm
  have notNext : ∀ {other}, other ∈ front ∨ other = slot → other ≠ n.next := by
    intro other queued same
    rcases nextCases with null | inBack
    · refine (proper other ?_).1 (same.trans null)
      rcases queued with queued | rfl
      · exact List.mem_append_left _ queued
      · exact List.mem_append_right _ List.mem_cons_self
    · rcases queued with queued | rfl
      · exact disjoint other queued n.next (by simp [inBack]) same
      · exact slotNotBack (same ▸ inBack)
  have linksKept : ∀ other, other ≠ n.prev → other ≠ n.next →
      OrderBook.links { book with nodes := nodes₂ } other = book.links other := by
    intro other apartPrev apartNext
    simp only [links, read₂, if_neg apartNext, read₁, if_neg apartPrev]
  refine ⟨nodes₁, nodes₂, ran₁, ran₂, size₂.trans size₁, ?_, ?_, ?_, ?_⟩
  · rw [read₂, if_neg (notNext (.inr rfl))]
    exact (read₁ slot).trans (by rw [if_neg (notPrev (by simp)), found])
  · intro other
    simp only [bare, read₂, read₁]
    split <;> split <;> simp only [Option.map_map] <;> rfl
  · apply linked.unlink
    · rintro others last rfl
      have isPrev : last = n.prev := by simp [prev]
      have neighbour : book.links last = some (others.getLastD kNull, slot) := by
        have shape : (others ++ [last]) ++ slot :: back = others ++ last :: slot :: back := by simp
        rw [shape] at linked
        exact linked.links_mid
      constructor
      · obtain ⟨m, lastFound, pair⟩ := Option.map_eq_some_iff.mp neighbour
        have apart : last ≠ n.next := notNext (.inl (by simp))
        simp only [links, read₂, if_neg apart, read₁, if_pos isPrev]
        rw [lastFound, ← next, ← (Prod.mk.inj pair).1]
        rfl
      · intro other member
        apply linksKept
        · rw [← isPrev]
          rintro rfl
          exact (List.nodup_append.mp frontNodup).2.2 other member other (by simp) rfl
        · exact notNext (.inl (by simp [member]))
    · rintro first others rfl
      have isNext : first = n.next := by simp [next]
      have neighbour : book.links first = some (slot, others.headD kNull) :=
        (linked_append.mp linked).2.2.1
      constructor
      · obtain ⟨m, firstFound, pair⟩ := Option.map_eq_some_iff.mp neighbour
        have apart : first ≠ n.prev := notPrev (by simp)
        simp only [links, read₂, if_pos isNext, read₁, if_neg apart]
        rw [firstFound, ← prev, ← (Prod.mk.inj pair).2]
        rfl
      · intro other member
        apply linksKept
        · exact notPrev (by simp [member])
        · rw [← isNext]
          rintro rfl
          exact (List.nodup_cons.mp backNodup).1 member
  · intro other outside
    simp only [List.mem_append, List.mem_cons, not_or] at outside
    by_cases null : other = kNull
    · subst null
      have none₂ : nodes₂[kNull.toNat]? = none :=
        Array.getElem?_eq_none (size₂.trans size₁ ▸ rep.slots)
      simp only [links, none₂, Array.getElem?_eq_none rep.slots]
    · apply linksKept other
      · rintro rfl
        exact outside.1 (prevCases.resolve_left null)
      · rintro rfl
        exact outside.2.2 (nextCases.resolve_left null)

end Bypass

section Level

variable {book : OrderBook} {queues : Queues} {slot : UInt32} {n : Node} {front back : List UInt32}
  {isBuy : Bool} {i : Nat} {level : Level}

/-- The decremented count of a level that loses one order. -/
theorem Represents.count_pred (rep : book.Represents queues)
    (split : queues isBuy i = front ++ slot :: back)
    (found : (book.half isBuy).levels[i]? = some level) :
    (if level.count > 0 then level.count - 1 else level.count) =
      UInt32.ofNat (front ++ back).length := by
  have length := rep.count_toNat found
  rw [split, List.length_append, List.length_cons] at length
  have small := level.count.toNat_lt
  have positive : level.count > 0 := by
    rw [gt_iff_lt, UInt32.lt_iff_toNat_lt, length]
    exact Nat.succ_pos _
  have one : (1 : UInt32) ≤ level.count :=
    UInt32.le_iff_toNat_le.mpr (UInt32.lt_iff_toNat_lt.mp positive)
  apply UInt32.toNat_inj.mp
  rw [if_pos positive, UInt32.toNat_sub_of_le _ _ one, length, UInt32.toNat_ofNat',
    List.length_append, Nat.mod_eq_of_lt (by omega)]
  change _ + (_ + 1) - 1 = _
  omega

theorem Represents.count_pred_eq_zero (rep : book.Represents queues)
    (split : queues isBuy i = front ++ slot :: back) :
    UInt32.ofNat (front ++ back).length = 0 ↔ front ++ back = [] := by
  have limit := Nat.le_trans (rep.length_le isBuy i) rep.slots
  have bound : kNull.toNat < 2 ^ 32 := by decide
  rw [split, List.length_append, List.length_cons] at limit
  rw [← UInt32.toNat_inj, UInt32.toNat_ofNat', Nat.mod_eq_of_lt]
  · exact List.length_eq_zero_iff
  · rw [List.length_append]
    omega

/-- The ends of a level that loses one order. -/
theorem Represents.ends (rep : book.Represents queues)
    (split : queues isBuy i = front ++ slot :: back)
    (found : (book.half isBuy).levels[i]? = some level) :
    (if front.getLastD kNull ≠ kNull then level.head else back.headD kNull) =
      (front ++ back).headD kNull ∧
      (if back.headD kNull ≠ kNull then level.tail else front.getLastD kNull) =
      (front ++ back).getLastD kNull := by
  obtain ⟨head, tail, -⟩ := rep.level isBuy i level found
  have proper : ∀ other ∈ front ++ slot :: back, other ≠ kNull := by
    rw [← split]
    exact fun other queued => rep.slot_ne_null queued
  rw [split] at head tail
  constructor
  · cases front with
    | nil => simp
    | cons first others =>
        have some : (first :: others).getLastD kNull ≠ kNull := by
          rw [List.getLastD_cons]
          exact proper _ (List.mem_append_left _ List.getLastD_mem_cons)
        rw [if_pos some, head]
        rfl
  · cases back with
    | nil => simp
    | cons first others =>
        have some : (first :: others).headD kNull ≠ kNull := proper _ (by simp)
        rw [if_pos some, tail]
        simp

end Level

section Remove

variable {book after : OrderBook} {queues : Queues} {slot : UInt32} {n : Node}
  {front back : List UInt32} {removedQty : Qty}

/-- The total `remove_node` stores in the level of its order. -/
def shrunkTotal (old removedQty : Qty) (rest : List UInt32) : Qty :=
  if rest = [] then 0 else old - min old removedQty

/-- What `remove_node` leaves: slot `slot` blank and free, its neighbours chained to each other. -/
structure Removed (book after : OrderBook) (queues : Queues) (slot : UInt32) (n : Node)
    (front back : List UInt32) (removedQty : Qty) : Prop where
  ladder : SameLadder book after
  free : after.free = slot :: book.free
  index : after.index = book.index.erase n.orderId
  size : after.nodes.size = book.nodes.size
  bareSlot : after.bare slot = some {}
  bareOther : ∀ other, other ≠ slot → after.bare other = book.bare other
  linked : Linked after.links kNull (front ++ back) kNull
  linksOther : ∀ other, other ∉ front ++ slot :: back → after.links other = book.links other
  levels : ∀ isBuy, (after.half isBuy).levels.size = book.levelCount.toNat
  levelHere : ∀ level, (after.half n.side.isBuy).levels[n.levelIdx.toNat]? = some level →
    level.head = (front ++ back).headD kNull ∧ level.tail = (front ++ back).getLastD kNull ∧
      level.count = UInt32.ofNat (front ++ back).length ∧
      level.totalQty = shrunkTotal (book.total n.side.isBuy n.levelIdx.toNat) removedQty
        (front ++ back)
  levelOther : ∀ isBuy i, ¬ (isBuy = n.side.isBuy ∧ i = n.levelIdx.toNat) →
    (after.half isBuy).levels[i]? = (book.half isBuy).levels[i]?
  occupancy : ∀ isBuy, Occupancy isBuy book.levelCount.toNat (after.half isBuy) fun i =>
    ¬ (isBuy = n.side.isBuy ∧ i = n.levelIdx.toNat ∧ front ++ back = []) ∧ queues isBuy i ≠ []
  count : ∀ isBuy, (after.half isBuy).levelCount = (book.half isBuy).levelCount -
    if isBuy = n.side.isBuy ∧ front ++ back = [] then 1 else 0

/-- The event `remove_node` reports. -/
def removalEvent (book : OrderBook) (seq : SeqNo) (n : Node) (removedQty : Qty) (type : MdType) :
    MdEvent := {
  seq, type, symbolId := book.symbolId, orderId := n.orderId, accountId := n.accountId
  side := n.side, price := n.price, qty := removedQty }

theorem freeNode_of_getElem? (found : book.nodes[slot.toNat]? = some n) :
    book.freeNode slot = .ok { book with
    index := book.index.erase n.orderId, nodes := book.nodes.setIfInBounds slot.toNat {},
      free := slot :: book.free } := by
  have bound :
      slot.toNat < ({ book with index := book.index.erase n.orderId } : OrderBook).nodes.size :=
    (Array.getElem?_eq_some_iff.mp found).1
  rw [freeNode, node_of_getElem? found, exec_ok_bind, setNode_of_lt _ bound]
  rfl

/-- The level that `remove_node` writes unless it is empty. -/
def shrunkLevel (level : Level) (n : Node) (removedQty : Qty) : Level where
  head := if n.prev ≠ kNull then level.head else n.next
  tail := if n.next ≠ kNull then level.tail else n.prev
  totalQty := level.totalQty - min level.totalQty removedQty
  count := if level.count > 0 then level.count - 1 else level.count

/-- `remove_node` from its parts: the two neighbours, the level and the slot. -/
theorem removeNode_run {nodes₂ : Array Node} {level : Level} {half : BookSide} {isBuy : Bool}
    {idx : UInt32} (seq : SeqNo) (type : MdType) (nodes₁ : Array Node)
    (found : book.nodes[slot.toNat]? = some n) (side : n.side.isBuy = isBuy)
    (place : n.levelIdx = idx) (here : (book.half isBuy).levels[idx.toNat]? = some level)
    (before : (if n.prev ≠ kNull then (do
        let before ← book.node n.prev
        book.setNode n.prev { before with next := n.next })
      else pure book) = .ok { book with nodes := nodes₁ })
    (behind : (if n.next ≠ kNull then (do
        let after ← { book with nodes := nodes₁ }.node n.next
        { book with nodes := nodes₁ }.setNode n.next { after with prev := n.prev })
      else pure { book with nodes := nodes₁ }) = .ok { book with nodes := nodes₂ })
    (shrunk : (if (shrunkLevel level n removedQty).count = 0 then (do
        let book ← ({ book with nodes := nodes₂ } : OrderBook).setLevel isBuy idx
          { shrunkLevel level n removedQty with head := kNull, tail := kNull, totalQty := 0 }
        (book.uncountLevel isBuy).clearOccupied isBuy idx)
      else ({ book with nodes := nodes₂ } : OrderBook).setLevel isBuy idx
        (shrunkLevel level n removedQty)) =
        .ok (({ book with nodes := nodes₂ } : OrderBook).withHalf isBuy half))
    (kept : nodes₂[slot.toNat]? = some n) :
    book.removeNode seq slot removedQty type =
      .ok ({ ({ book with nodes := nodes₂ } : OrderBook).withHalf isBuy half with
      index := book.index.erase n.orderId, nodes := nodes₂.setIfInBounds slot.toNat {},
        free := slot :: book.free }, book.removalEvent seq n removedQty type) := by
  subst side place
  have kept :
      (({ book with nodes := nodes₂ } : OrderBook).withHalf n.side.isBuy half).nodes[slot.toNat]? =
        some n := by
    rw [nodes_withHalf]
    exact kept
  have released := freeNode_of_getElem? kept
  rw [nodes_withHalf, free_withHalf, index_withHalf] at released
  simp only [removeNode, node_of_getElem? found, exec_ok_bind, levelFor_of_getElem? here]
  rw [before, exec_ok_bind, behind, exec_ok_bind]
  refine (congrArg (· >>= _) shrunk).trans ?_
  rw [exec_ok_bind, released, exec_ok_bind]
  rfl

theorem removeNode_spec (seq : SeqNo) (removedQty : Qty) (type : MdType)
    (rep : book.Represents queues) (found : book.nodes[slot.toNat]? = some n)
    (split : queues n.side.isBuy n.levelIdx.toNat = front ++ slot :: back) :
    ∃ after, book.removeNode seq slot removedQty type =
        .ok (after, book.removalEvent seq n removedQty type) ∧
      Removed book after queues slot n front back removedQty := by
  have queued : slot ∈ queues n.side.isBuy n.levelIdx.toNat := by simp [split]
  have inside := rep.inside queued
  obtain ⟨nodes₁, nodes₂, ran₁, ran₂, bypassed⟩ := bypass_spec rep found split
  obtain ⟨level, here⟩ := rep.level_exists n.side.isBuy inside
  obtain ⟨prev, next⟩ := rep.neighbours found split
  obtain ⟨head, tail⟩ := rep.ends split here
  rw [← prev, ← next] at head
  rw [← next, ← prev] at tail
  have levelLt : n.levelIdx.toNat < (book.half n.side.isBuy).levels.size := by
    rw [rep.levels]
    exact inside
  let middle : OrderBook := { book with nodes := nodes₂ }
  have middleHalf : ∀ d, middle.half d = book.half d := fun d => by cases d <;> rfl
  let written := shrunkLevel level n removedQty
  have pred : written.count = UInt32.ofNat (front ++ back).length := rep.count_pred split here
  have emptied : written.count = 0 ↔ front ++ back = [] := by
    rw [← rep.count_pred_eq_zero split, ← pred]
  obtain ⟨half, ran₃, levels, counted, tracked⟩ := shrinkLevel_spec middle n.side.isBuy n.levelIdx
    written (middleHalf _ ▸ rep.occupancy _)
    (middleHalf _ ▸ rep.levels _) inside
  rw [middleHalf] at levels counted
  have slotLt : slot.toNat < nodes₂.size := (Array.getElem?_eq_some_iff.mp bypassed.kept).1
  let after : OrderBook := { middle.withHalf n.side.isBuy half with
    index := book.index.erase n.orderId, nodes := nodes₂.setIfInBounds slot.toNat {}
    free := slot :: book.free }
  have run : book.removeNode seq slot removedQty type =
      .ok (after, book.removalEvent seq n removedQty type) :=
    removeNode_run seq type nodes₁ found rfl rfl here ran₁ ran₂ ran₃ bypassed.kept
  have halves : ∀ d, after.half d = if d = n.side.isBuy then half else book.half d := fun d => by
    rw [← middleHalf, ← half_withHalf]
    cases d <;> rfl
  have afterSlot : after.nodes[slot.toNat]? = some {} :=
    Array.getElem?_setIfInBounds_self_of_lt slotLt
  have afterOther : ∀ other, other ≠ slot → after.nodes[other.toNat]? = nodes₂[other.toNat]? :=
    fun other different =>
      Array.getElem?_setIfInBounds_ne fun same => different (UInt32.toNat_inj.mp same.symm)
  have nodup : (front ++ slot :: back).Nodup := split ▸ rep.nodup _ _
  refine ⟨after, run, ?_⟩
  constructor
  · have step : SameLadder book middle := ⟨rfl, rfl, rfl, rfl⟩
    have kept : SameLadder middle (middle.withHalf n.side.isBuy half) := sameLadder_withHalf
    obtain ⟨symbolId, minPrice, maxPrice, levelCount⟩ := step.trans kept
    exact ⟨symbolId, minPrice, maxPrice, levelCount⟩
  · rfl
  · rfl
  · exact Array.size_setIfInBounds.trans bypassed.size
  · rw [bare, afterSlot]
    rfl
  · intro other different
    rw [bare, afterOther other different]
    exact bypassed.bare other
  · refine bypassed.linked.frame fun other member => ?_
    have different : other ≠ slot := by
      rintro rfl
      exact (List.nodup_middle.mp nodup |> List.nodup_cons.mp).1 member
    rw [links, afterOther other different]
    rfl
  · intro other outside
    have different : other ≠ slot := by
      rintro rfl
      exact outside (by simp)
    rw [links, afterOther other different]
    exact bypassed.linksOther other outside
  · intro d
    rw [halves]
    split
    · rw [levels, Array.size_setIfInBounds, rep.levels]
    · exact rep.levels d
  · intro stored stands
    rw [halves, if_pos rfl, levels, Array.getElem?_setIfInBounds_self_of_lt levelLt] at stands
    obtain rfl := Option.some.inj stands
    by_cases last : front ++ back = []
    · rw [if_pos (emptied.mpr last), last, shrunkTotal, if_pos rfl]
      exact ⟨rfl, rfl, rfl, rfl⟩
    · rw [if_neg (mt emptied.mp last), shrunkTotal, if_neg last]
      refine ⟨head, tail, pred, ?_⟩
      simp only [written, shrunkLevel, total, here]
  · intro d i elsewhere
    rw [halves]
    split
    · rename_i same
      subst same
      rw [levels]
      exact Array.getElem?_setIfInBounds_ne fun same => elsewhere ⟨rfl, same.symm⟩
    · rfl
  · intro d
    rw [halves]
    split
    · rename_i same
      subst same
      refine tracked.congr fun i => ?_
      rw [emptied]
      simp only [true_and]
      tauto
    · rename_i different
      exact (rep.occupancy d).congr fun i => by simp [different]
  · intro d
    rw [halves]
    split
    · rename_i same
      subst same
      rw [counted]
      simp only [emptied, true_and]
    · rename_i different
      simp [different]

/-- The non-empty levels once level `i` holds `slots` instead of at least one order. -/
theorem card_pop {levels i : Nat} {queue : Nat → List UInt32} (slots : List UInt32)
    (inside : i < levels) (nonempty : queue i ≠ []) :
    ({j ∈ Finset.range levels | (if j = i then slots else queue j) ≠ []}.card +
      if slots = [] then 1 else 0) =
      {j ∈ Finset.range levels | queue j ≠ []}.card := by
  by_cases empty : slots = []
  · have shrunk : {j ∈ Finset.range levels | (if j = i then slots else queue j) ≠ []} =
        {j ∈ Finset.range levels | queue j ≠ []}.erase i := by
      ext j
      by_cases same : j = i <;> simp [same, empty]
    rw [shrunk, if_pos empty, Finset.card_erase_add_one (by simp [inside, nonempty])]
  · have kept : {j ∈ Finset.range levels | (if j = i then slots else queue j) ≠ []} =
        {j ∈ Finset.range levels | queue j ≠ []} := by
      apply Finset.filter_congr
      intro j _
      by_cases same : j = i
      · subst same
        simp [nonempty, empty]
      · simp [same]
    rw [kept, if_neg empty, Nat.add_zero]

/-- Taking a queued order out restores the agreement of all members. -/
theorem Removed.represents (rep : book.Represents queues) (found : book.nodes[slot.toNat]? = some n)
    (split : queues n.side.isBuy n.levelIdx.toNat = front ++ slot :: back)
    (removed : Removed book after queues slot n front back removedQty) :
    after.Represents (queues.set n.side.isBuy n.levelIdx.toNat (front ++ back)) := by
  have here : slot ∈ queues n.side.isBuy n.levelIdx.toNat := by simp [split]
  have inside := rep.inside here
  have same := removed.ladder
  have nodup : (front ++ slot :: back).Nodup := split ▸ rep.nodup _ _
  have queued :
      ∀ d i other, other ∈ (queues.set n.side.isBuy n.levelIdx.toNat (front ++ back)) d i ↔
      other ∈ queues d i ∧ other ≠ slot := by
    intro d i other
    rw [Queues.set]
    split
    · rename_i level
      obtain ⟨rfl, rfl⟩ := level
      have apart := (List.nodup_cons.mp (List.nodup_middle.mp nodup)).1
      rw [split]
      simp only [List.mem_append, List.mem_cons] at apart ⊢
      constructor
      · intro member
        exact ⟨by tauto, fun isSlot => apart (isSlot ▸ member)⟩
      · tauto
    · rename_i elsewhere
      refine ⟨fun member => ⟨member, ?_⟩, And.left⟩
      rintro rfl
      exact elsewhere (rep.unique member here)
  obtain ⟨m, placed⟩ := rep.placed _ _ slot here
  have whole : m = n.bare := Option.some.inj (placed.found.symm.trans (bare_of_getElem? found))
  have indexed : book.index.lookup n.orderId = some slot := by
    have listed := placed.indexed
    rwa [whole] at listed
  constructor
  · exact same.ladderOk rep.ladder
  · intro d
    rw [removed.levels, same.levelCount]
  · intro d
    rw [same.levelCount]
    refine (removed.occupancy d).congr fun i => ?_
    rw [Queues.set]
    split
    · rename_i level
      obtain ⟨rfl, rfl⟩ := level
      simp [split]
    · rename_i elsewhere
      have apart : ¬ (d = n.side.isBuy ∧ i = n.levelIdx.toNat ∧ front ++ back = []) := fun level =>
        elsewhere ⟨level.1, level.2.1⟩
      exact (and_iff_right apart).symm
  · intro d
    rw [removed.count, rep.count, same.levelCount]
    by_cases level : d = n.side.isBuy
    · subst level
      simp only [Queues.set, true_and]
      rw [← card_pop (front ++ back) inside (List.ne_nil_of_mem here), UInt64.ofNat_add]
      split
      · exact UInt64.add_sub_cancel _ _
      · exact (UInt64.sub_zero _).trans (UInt64.add_zero _)
    · simp [Queues.set, level]
  · rw [removed.size]
    exact rep.slots
  · intro d i stored stands
    by_cases level : d = n.side.isBuy ∧ i = n.levelIdx.toNat
    · obtain ⟨rfl, rfl⟩ := level
      obtain ⟨head, tail, count, -⟩ := removed.levelHere stored stands
      rw [Queues.set_same]
      exact ⟨head, tail, count⟩
    · rw [removed.levelOther d i level] at stands
      rw [Queues.set_other level]
      exact rep.level d i stored stands
  · intro d i
    by_cases level : d = n.side.isBuy ∧ i = n.levelIdx.toNat
    · obtain ⟨rfl, rfl⟩ := level
      rw [Queues.set_same]
      exact removed.linked
    · rw [Queues.set_other level]
      refine (rep.linked d i).frame fun other member => removed.linksOther other ?_
      rw [← split]
      exact fun alsoHere => level (rep.unique member alsoHere)
  · intro d i
    rw [Queues.set]
    split
    · exact (List.nodup_cons.mp (List.nodup_middle.mp nodup)).2
    · exact rep.nodup d i
  · intro d i other member
    obtain ⟨before, apart⟩ := (queued d i other).mp member
    obtain ⟨m, placed⟩ := rep.placed d i other before
    refine ⟨m, ?_, placed.active, placed.side, placed.level, ?_, ?_, ?_⟩
    · rw [removed.bareOther other apart, placed.found]
    · rw [same.priceInBand]
      exact placed.inBand
    · rw [same.levelOf]
      exact placed.price
    · rw [removed.index, Finmap.lookup_erase_ne]
      · exact placed.indexed
      · intro sameId
        have listed := placed.indexed
        rw [sameId, indexed] at listed
        exact apart (Option.some.inj listed).symm
  · intro id other listed
    rw [removed.index] at listed
    have different : id ≠ n.orderId := by
      rintro rfl
      rw [Finmap.lookup_erase] at listed
      cases listed
    rw [Finmap.lookup_erase_ne different] at listed
    obtain ⟨d, i, m, member, stands, isId⟩ := rep.index id other listed
    have apart : other ≠ slot := by
      rintro rfl
      rw [bare_of_getElem? found] at stands
      obtain rfl := Option.some.inj stands
      exact different isId.symm
    exact ⟨d, i, m,
      (queued d i other).mpr ⟨member, apart⟩, by rw [removed.bareOther other apart, stands], isId⟩
  · intro other
    rw [removed.free, List.mem_cons, rep.free, removed.size]
    constructor
    · rintro (rfl | ⟨bound, unqueued⟩)
      · exact ⟨rep.slot_lt here, fun d i member => ((queued d i other).mp member).2 rfl⟩
      · exact ⟨bound, fun d i member => unqueued d i ((queued d i other).mp member).1⟩
    · rintro ⟨bound, unqueued⟩
      refine or_iff_not_imp_left.mpr fun apart => ⟨bound, fun d i member => ?_⟩
      exact unqueued d i ((queued d i other).mpr ⟨member, apart⟩)
  · rw [removed.free, List.nodup_cons]
    exact ⟨fun listed => ((rep.free slot).mp listed).2 _ _ here, rep.freeNodup⟩
  · intro other m stands unqueued
    by_cases isSlot : other = slot
    · subst isSlot
      rw [removed.bareSlot] at stands
      obtain rfl := Option.some.inj stands
      rfl
    · rw [removed.bareOther other isSlot] at stands
      exact rep.inactive other m stands fun d i member =>
        unqueued d i ((queued d i other).mpr ⟨member, isSlot⟩)

end Remove

end Exsim.Core.OrderBook
