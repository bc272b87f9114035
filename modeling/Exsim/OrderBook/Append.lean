import Exsim.OrderBook.Representation

/-! # Resting a new order: `alloc_node` then `append_to_level` -/

namespace Exsim.Core.OrderBook

open Data

/-- The book after `alloc_node`: slot `slot` holds the unqueued order `n`. -/
structure Allocated (before after : OrderBook) (queues : Queues) (slot : UInt32)
    (n : Node) : Prop where
  ladder : SameLadder before after
  half : ∀ isBuy, after.half isBuy = before.half isBuy
  found : after.nodes[slot.toNat]? = some n
  others : ∀ other, other ≠ slot → after.nodes[other.toNat]? = before.nodes[other.toNat]?
  slots : after.nodes.size ≤ kNull.toNat
  unused : ∀ isBuy i, slot ∉ queues isBuy i
  index : after.index = before.index.insert n.orderId slot
  free : ∀ other, other ∈ after.free ↔
    other.toNat < after.nodes.size ∧ other ≠ slot ∧ ∀ isBuy i, other ∉ queues isBuy i
  freeNodup : after.free.Nodup
  pool : after.nodes.size + before.free.length = before.nodes.size + after.free.length + 1

section Alloc

variable {book : OrderBook} {queues : Queues} {slot : UInt32} {rest : List UInt32}

/-- The node `alloc_node` writes. -/
def newNode (book : OrderBook) (id : OrderId) (accountId : AccountId) (side : Side) (price : Price)
    (qty : Qty) : Node :=
  { orderId := id, accountId, side, price, qty, levelIdx := book.priceToIndex price,
    active := true }

/-- A freed slot is used again. -/
theorem allocNode_recycled (id : OrderId) (accountId : AccountId) (side : Side)
    (price : Price) (qty : Qty) (recycled : book.free = slot :: rest)
    (inside : slot.toNat < book.nodes.size) :
    book.allocNode id accountId side price qty = .ok ({ book with
      free := rest, nodes := book.nodes.setIfInBounds slot.toNat
        (book.newNode id accountId side price qty)
      index := book.index.insert id slot }, slot) := by
  have bound : slot.toNat < ({ book with free := rest } : OrderBook).nodes.size := inside
  rw [allocNode, recycled]
  dsimp only
  rw [setNode_of_lt _ bound]
  rfl

/-- With no freed slot a node is pushed; its slot number is the old size, modulo `2^32`. -/
theorem allocNode_pushed (id : OrderId) (accountId : AccountId) (side : Side)
    (price : Price) (qty : Qty) (none : book.free = [])
    (place : UInt32.ofNat book.nodes.size = slot) (inside : slot.toNat ≤ book.nodes.size) :
    book.allocNode id accountId side price qty = .ok ({ book with
      free := [], nodes := (book.nodes.push {}).setIfInBounds slot.toNat
        (book.newNode id accountId side price qty)
      index := book.index.insert id slot }, slot) := by
  have bound : slot.toNat <
      ({ book with free := [], nodes := book.nodes.push {} } : OrderBook).nodes.size := by
    change slot.toNat < (book.nodes.push {}).size
    rw [Array.size_push]
    exact Nat.lt_succ_of_le inside
  rw [allocNode, none]
  dsimp only
  rw [place, setNode_of_lt _ bound]
  rfl

/-- A slot is at hand: a recycled one, or a new one that is not the null slot. -/
def HasSlot (book : OrderBook) : Prop := book.free ≠ [] ∨ book.nodes.size < kNull.toNat

theorem allocNode_spec (id : OrderId) (accountId : AccountId) (side : Side)
    (price : Price) (qty : Qty) (rep : book.Represents queues) (room : book.HasSlot) :
    ∃ after slot, book.allocNode id accountId side price qty = .ok (after, slot) ∧
      Allocated book after queues slot (book.newNode id accountId side price qty) := by
  cases recycled : book.free with
  | cons slot rest =>
      have listed := (rep.free slot).mp (by simp [recycled])
      have nodup := rep.freeNodup
      rw [recycled, List.nodup_cons] at nodup
      let n := book.newNode id accountId side price qty
      refine ⟨_, slot, allocNode_recycled id accountId side price qty recycled listed.1, ?_⟩
      · refine ⟨⟨rfl, rfl, rfl, rfl⟩,
          fun isBuy => by cases isBuy <;> rfl, ?_, ?_, ?_, listed.2, rfl, ?_, nodup.2, ?_⟩
        · exact Array.getElem?_setIfInBounds_self_of_lt listed.1
        · intro other different
          exact Array.getElem?_setIfInBounds_ne fun same =>
            different (UInt32.toNat_inj.mp same.symm)
        · change (book.nodes.setIfInBounds slot.toNat n).size ≤ _
          simpa using rep.slots
        · intro other
          have member := rep.free other
          rw [recycled, List.mem_cons] at member
          change other ∈ rest ↔ other.toNat < (book.nodes.setIfInBounds slot.toNat n).size ∧ _
          rw [Array.size_setIfInBounds]
          constructor
          · intro inRest
            have held := member.mp (.inr inRest)
            exact ⟨held.1, fun same => nodup.1 (same ▸ inRest), held.2⟩
          · rintro ⟨bound, different, unqueued⟩
            exact (member.mpr ⟨bound, unqueued⟩).resolve_left different
        · change (book.nodes.setIfInBounds slot.toNat n).size + _ = _ + rest.length + 1
          rw [Array.size_setIfInBounds, recycled, List.length_cons]
          omega
  | nil =>
      have bound : book.nodes.size < kNull.toNat :=
        room.resolve_left fun nonempty => nonempty recycled
      have value : (UInt32.ofNat book.nodes.size).toNat = book.nodes.size := by
        rw [UInt32.toNat_ofNat']
        exact Nat.mod_eq_of_lt (Nat.lt_trans bound (by decide))
      have unqueued : ∀ isBuy i, UInt32.ofNat book.nodes.size ∉ queues isBuy i := by
        intro isBuy i member
        have small := rep.slot_lt member
        omega
      have inside : (UInt32.ofNat book.nodes.size).toNat < (book.nodes.push {}).size := by
        rw [value, Array.size_push]
        omega
      let n := book.newNode id accountId side price qty
      refine ⟨_, _, allocNode_pushed id accountId side price qty recycled rfl (Nat.le_of_eq value),
        ?_⟩
      · refine ⟨⟨rfl, rfl, rfl, rfl⟩,
          fun isBuy => by cases isBuy <;> rfl, ?_, ?_, ?_, unqueued, rfl, ?_, ?_, ?_⟩
        · exact Array.getElem?_setIfInBounds_self_of_lt inside
        · intro other different
          have apart : other.toNat ≠ book.nodes.size := fun same =>
            different (UInt32.toNat_inj.mp (same.trans value.symm))
          have notHere : (UInt32.ofNat book.nodes.size).toNat ≠ other.toNat := by omega
          change ((book.nodes.push {}).setIfInBounds _ _)[other.toNat]? = _
          rw [Array.getElem?_setIfInBounds_ne notHere, Array.getElem?_push, if_neg apart]
        · change ((book.nodes.push {}).setIfInBounds _ n).size ≤ _
          rw [Array.size_setIfInBounds, Array.size_push]
          omega
        · intro other
          have member := rep.free other
          rw [recycled] at member
          change other ∈ [] ↔ other.toNat < ((book.nodes.push {}).setIfInBounds _ n).size ∧ _
          rw [Array.size_setIfInBounds, Array.size_push]
          constructor
          · intro impossible
            simp at impossible
          · rintro ⟨small, different, unlisted⟩
            have apart : other.toNat ≠ book.nodes.size := fun same =>
              different (UInt32.toNat_inj.mp (same.trans value.symm))
            exact member.mpr ⟨by omega, unlisted⟩
        · exact List.nodup_nil
        · change ((book.nodes.push {}).setIfInBounds _ n).size + _ = _
          rw [Array.size_setIfInBounds, Array.size_push, recycled]
          rfl

end Alloc

section Append

variable {book start after : OrderBook} {queues : Queues} {slot last idx : UInt32}
  {n lastNode : Node} {level : Level} {isBuy : Bool}

/-- What `append_to_level` leaves: slot `slot` chained behind level `levelIdx`,
every other slot keeping its contents. -/
structure Appended (book start after : OrderBook) (queues : Queues) (slot : UInt32)
    (n : Node) : Prop where
  ladder : SameLadder start after
  free : after.free = start.free
  index : after.index = start.index
  size : after.nodes.size = start.nodes.size
  bareSlot : after.bare slot = some n.bare
  bareOther : ∀ other, other ≠ slot → after.bare other = book.bare other
  linksSlot : after.links slot = some ((queues n.side.isBuy n.levelIdx.toNat).getLastD kNull, kNull)
  linksLast : ∀ front last, queues n.side.isBuy n.levelIdx.toNat = front ++ [last] →
    after.links last = some (front.getLastD kNull, slot)
  linksOther : ∀ other, other ≠ slot → other ≠
    (queues n.side.isBuy n.levelIdx.toNat).getLastD kNull → after.links other = book.links other
  levels : ∀ isBuy, (after.half isBuy).levels.size = book.levelCount.toNat
  levelHere : ∀ level, (after.half n.side.isBuy).levels[n.levelIdx.toNat]? = some level →
    level.head = (queues n.side.isBuy n.levelIdx.toNat ++ [slot]).headD kNull ∧ level.tail = slot ∧
      level.count = UInt32.ofNat ((queues n.side.isBuy n.levelIdx.toNat).length + 1) ∧
      level.totalQty = book.total n.side.isBuy n.levelIdx.toNat + n.qty
  levelOther : ∀ isBuy i, ¬ (isBuy = n.side.isBuy ∧ i = n.levelIdx.toNat) →
    (after.half isBuy).levels[i]? = (book.half isBuy).levels[i]?
  occupancy : ∀ isBuy, Occupancy isBuy book.levelCount.toNat (after.half isBuy) fun i =>
    (isBuy = n.side.isBuy ∧ i = n.levelIdx.toNat) ∨ queues isBuy i ≠ []
  count : ∀ isBuy, (after.half isBuy).levelCount = (book.half isBuy).levelCount +
    if isBuy = n.side.isBuy ∧ queues n.side.isBuy n.levelIdx.toNat = [] then 1 else 0

/-- Appending to a level that counts no order makes it occupied. -/
theorem appendToLevel_first {occupied : Nat → Prop} (stored : start.nodes[slot.toNat]? = some n)
    (side : n.side.isBuy = isBuy) (place : n.levelIdx = idx)
    (found : (start.half isBuy).levels[idx.toNat]? = some level)
    (tail : level.tail = kNull) (zero : level.count = 0)
    (occupancy : Occupancy isBuy start.levelCount.toNat (start.half isBuy) occupied)
    (inside : idx.toNat < start.levelCount.toNat) :
    ∃ half, start.appendToLevel slot = .ok (({ start with
        nodes := start.nodes.setIfInBounds slot.toNat { n with prev := kNull, next := kNull } } :
          OrderBook).withHalf isBuy half) ∧
      half.levels = (start.half isBuy).levels.setIfInBounds idx.toNat
        { head := slot, tail := slot, totalQty := level.totalQty + n.qty, count := 1 } ∧
      half.levelCount = (start.half isBuy).levelCount + 1 ∧
      Occupancy isBuy start.levelCount.toNat half fun i => i = idx.toNat ∨ occupied i := by
  subst side place
  have slotLt : slot.toNat < start.nodes.size := (Array.getElem?_eq_some_iff.mp stored).1
  have levelLt : n.levelIdx.toNat < (start.half n.side.isBuy).levels.size :=
    (Array.getElem?_eq_some_iff.mp found).1
  let middle : OrderBook := { start with
    nodes := start.nodes.setIfInBounds slot.toNat { n with prev := kNull, next := kNull } }
  let half : BookSide := { start.half n.side.isBuy with
    levels := (start.half n.side.isBuy).levels.setIfInBounds n.levelIdx.toNat
      { head := slot, tail := slot, totalQty := level.totalQty + n.qty, count := 1 }
    levelCount := (start.half n.side.isBuy).levelCount + 1 }
  have vacant : Occupancy n.side.isBuy start.levelCount.toNat half occupied :=
    occupancy.transfer rfl rfl
  obtain ⟨marked, ran, levels, counted, tracked⟩ := BookSide.setOccupied_spec vacant inside
  refine ⟨marked, ?_, levels, counted, tracked⟩
  have writeNode : start.setNode slot { n with prev := kNull, next := kNull } = .ok middle :=
    setNode_of_lt _ slotLt
  have middleHalf : middle.half n.side.isBuy = start.half n.side.isBuy := by
    cases n.side.isBuy <;> rfl
  have writeLevel (level : Level) : middle.setLevel n.side.isBuy n.levelIdx level =
      .ok (middle.withHalf n.side.isBuy { start.half n.side.isBuy with
        levels := (start.half n.side.isBuy).levels.setIfInBounds n.levelIdx.toNat level }) := by
    rw [setLevel_of_lt _ (by rw [middleHalf]; exact levelLt), middleHalf]
  simp only [appendToLevel, node_of_getElem? stored, exec_ok_bind, levelFor_of_getElem? found, tail,
    writeNode, ne_eq, not_true_eq_false, ↓reduceIte, exec_pure, writeLevel, zero, countLevel,
    setOccupied, half_withHalf_same, withHalf_withHalf]
  rw [show (0 : UInt32) + 1 = 1 from rfl]
  simp only [half] at ran
  rw [ran]
  rfl

/-- Appending behind the last order of a level relinks that order. -/
theorem appendToLevel_behind (stored : start.nodes[slot.toNat]? = some n)
    (side : n.side.isBuy = isBuy) (place : n.levelIdx = idx)
    (found : (start.half isBuy).levels[idx.toNat]? = some level) (tail : level.tail = last)
    (proper : last ≠ kNull) (several : level.count ≠ 0)
    (lastFound :
      (start.nodes.setIfInBounds slot.toNat { n with prev := last, next := kNull })[last.toNat]? =
      some lastNode) :
    start.appendToLevel slot = .ok (({ start with
      nodes := (start.nodes.setIfInBounds slot.toNat
        { n with prev := last, next := kNull }).setIfInBounds last.toNat
        { lastNode with next := slot } } : OrderBook).withHalf isBuy { start.half isBuy with
          levels := (start.half isBuy).levels.setIfInBounds idx.toNat
            { head := level.head, tail := slot, totalQty := level.totalQty + n.qty,
              count := level.count + 1 } }) := by
  subst side place
  have slotLt : slot.toNat < start.nodes.size := (Array.getElem?_eq_some_iff.mp stored).1
  have levelLt : n.levelIdx.toNat < (start.half n.side.isBuy).levels.size :=
    (Array.getElem?_eq_some_iff.mp found).1
  let first : OrderBook := { start with
    nodes := start.nodes.setIfInBounds slot.toNat { n with prev := last, next := kNull } }
  let second : OrderBook :=
    { first with nodes := first.nodes.setIfInBounds last.toNat { lastNode with next := slot } }
  have lastLt : last.toNat < first.nodes.size := (Array.getElem?_eq_some_iff.mp lastFound).1
  have secondHalf : second.half n.side.isBuy = start.half n.side.isBuy := by
    cases n.side.isBuy <;> rfl
  have writeNode : start.setNode slot { n with prev := last, next := kNull } = .ok first :=
    setNode_of_lt _ slotLt
  have readLast : first.node last = .ok lastNode := node_of_getElem? lastFound
  have writeLast : first.setNode last { lastNode with next := slot } = .ok second :=
    setNode_of_lt _ lastLt
  have writeLevel (level : Level) : second.setLevel n.side.isBuy n.levelIdx level =
      .ok (second.withHalf n.side.isBuy { start.half n.side.isBuy with
        levels := (start.half n.side.isBuy).levels.setIfInBounds n.levelIdx.toNat level }) := by
    rw [setLevel_of_lt _ (by rw [secondHalf]; exact levelLt), secondHalf]
  simp only [appendToLevel, node_of_getElem? stored, exec_ok_bind, levelFor_of_getElem? found, tail,
    writeNode, ne_eq, proper, not_false_eq_true, ↓reduceIte, readLast, writeLast, writeLevel,
    several, exec_pure]
  rfl

/-- What an append to an empty level leaves. -/
theorem appendToLevel_empty (rep : book.Represents queues)
    (allocated : Allocated book start queues slot n)
    (inside : n.levelIdx.toNat < book.levelCount.toNat)
    (empty : queues n.side.isBuy n.levelIdx.toNat = []) :
    ∃ after, start.appendToLevel slot = .ok after ∧ Appended book start after queues slot n := by
  obtain ⟨level, found⟩ := rep.level_exists n.side.isBuy inside
  obtain ⟨head, tail, count⟩ := rep.level _ _ level found
  rw [empty, List.headD_nil] at head
  rw [empty, List.getLastD_nil] at tail
  rw [empty, List.length_nil] at count
  have slotLt : slot.toNat < start.nodes.size := (Array.getElem?_eq_some_iff.mp allocated.found).1
  have levelLt : n.levelIdx.toNat < (book.half n.side.isBuy).levels.size :=
    (Array.getElem?_eq_some_iff.mp found).1
  let middle : OrderBook := { start with
    nodes := start.nodes.setIfInBounds slot.toNat { n with prev := kNull, next := kNull } }
  have middleHalf : ∀ isBuy, middle.half isBuy = book.half isBuy := fun isBuy => by
    rw [← allocated.half]
    cases isBuy <;> rfl
  have here : (start.half n.side.isBuy).levels[n.levelIdx.toNat]? = some level := by
    rw [allocated.half]
    exact found
  have occupancy := rep.occupancy n.side.isBuy
  rw [← allocated.half, ← allocated.ladder.levelCount] at occupancy
  obtain ⟨occupied, run, levels, counted, tracked⟩ :=
    appendToLevel_first allocated.found rfl rfl here tail count occupancy
    (by rw [allocated.ladder.levelCount]; exact inside)
  rw [allocated.half] at levels counted
  rw [allocated.ladder.levelCount] at tracked
  refine ⟨middle.withHalf n.side.isBuy occupied, run, ?_⟩
  have halves : ∀ d, (middle.withHalf n.side.isBuy occupied).half d =
      if d = n.side.isBuy then occupied else book.half d := fun d => by
    rw [half_withHalf, middleHalf]
  have nodesSlot : middle.nodes[slot.toNat]? = some { n with prev := kNull, next := kNull } :=
    Array.getElem?_setIfInBounds_self_of_lt slotLt
  have nodesOther : ∀ other, other ≠ slot →
      middle.nodes[other.toNat]? = book.nodes[other.toNat]? := by
    intro other different
    rw [← allocated.others other different]
    exact Array.getElem?_setIfInBounds_ne fun same => different (UInt32.toNat_inj.mp same.symm)
  constructor
  · have first : SameLadder start middle := ⟨rfl, rfl, rfl, rfl⟩
    exact first.trans sameLadder_withHalf
  · rw [free_withHalf]
  · rw [index_withHalf]
  · rw [nodes_withHalf]
    exact Array.size_setIfInBounds
  · rw [bare, nodes_withHalf, nodesSlot]
    rfl
  · intro other different
    rw [bare, nodes_withHalf, nodesOther other different, bare]
  · rw [links, nodes_withHalf, nodesSlot, empty]
    rfl
  · intro front last split
    rw [empty] at split
    simp at split
  · intro other different notLast
    rw [links, nodes_withHalf, nodesOther other different, links]
  · intro d
    rw [halves]
    split
    · rename_i same
      rw [levels, Array.size_setIfInBounds, rep.levels]
    · exact rep.levels d
  · intro stored here
    rw [halves, if_pos rfl, levels, Array.getElem?_setIfInBounds_self_of_lt levelLt] at here
    obtain rfl := Option.some.inj here
    refine ⟨by rw [empty]; rfl, rfl, by rw [empty]; rfl, ?_⟩
    simp only [total, found]
  · intro d i elsewhere
    rw [halves]
    split
    · rename_i same
      subst same
      rw [levels]
      exact Array.getElem?_setIfInBounds_ne fun same => elsewhere ⟨rfl, same.symm⟩
    · rfl
  · intro d
    rw [halves]
    split
    · rename_i same
      subst same
      exact tracked.congr fun i => by simp
    · rename_i different
      exact (rep.occupancy d).congr fun i => by simp [different]
  · intro d
    rw [halves, empty]
    split
    · rename_i same
      subst same
      simp [counted]
    · rename_i different
      simp [different]

/-- Appending behind the last order of a level relinks that order. -/
theorem appendToLevel_nonempty (rep : book.Represents queues)
    (allocated : Allocated book start queues slot n) {front : List UInt32} {last : UInt32}
    (split : queues n.side.isBuy n.levelIdx.toNat = front ++ [last]) :
    ∃ after, start.appendToLevel slot = .ok after ∧ Appended book start after queues slot n := by
  have member : last ∈ queues n.side.isBuy n.levelIdx.toNat := by simp [split]
  have inside := rep.inside member
  obtain ⟨level, found⟩ := rep.level_exists n.side.isBuy inside
  obtain ⟨head, tail, count⟩ := rep.level _ _ level found
  have lastHere : (queues n.side.isBuy n.levelIdx.toNat).getLastD kNull = last := by simp [split]
  rw [lastHere] at tail
  have proper := rep.slot_ne_null member
  have counted : level.count ≠ 0 := by
    intro zero
    have length := rep.count_toNat found
    rw [zero, split] at length
    simp at length
  have apart : last ≠ slot := fun same => allocated.unused _ _ (same ▸ member)
  obtain ⟨lastNode, lastFound⟩ : ∃ lastNode, book.nodes[last.toNat]? = some lastNode :=
    ⟨_, Array.getElem?_eq_getElem (rep.slot_lt member)⟩
  have lastLinks := (rep.linked n.side.isBuy n.levelIdx.toNat)
  rw [split, linked_append] at lastLinks
  have stored := lastLinks.2.1
  rw [links_of_getElem? lastFound] at stored
  have lastPrev : lastNode.prev = front.getLastD kNull := (Prod.mk.inj (Option.some.inj stored)).1
  have slotLt : slot.toNat < start.nodes.size := (Array.getElem?_eq_some_iff.mp allocated.found).1
  have levelLt : n.levelIdx.toNat < (book.half n.side.isBuy).levels.size :=
    (Array.getElem?_eq_some_iff.mp found).1
  let first : OrderBook := { start with
    nodes := start.nodes.setIfInBounds slot.toNat { n with prev := last, next := kNull } }
  let second : OrderBook := { first with
    nodes := first.nodes.setIfInBounds last.toNat { lastNode with next := slot } }
  let half : BookSide := { book.half n.side.isBuy with
    levels := (book.half n.side.isBuy).levels.setIfInBounds n.levelIdx.toNat
      { head := level.head, tail := slot, totalQty := level.totalQty + n.qty,
        count := level.count + 1 } }
  have secondHalf : ∀ isBuy, second.half isBuy = book.half isBuy := fun isBuy => by
    rw [← allocated.half]
    cases isBuy <;> rfl
  have lastKept : first.nodes[last.toNat]? = some lastNode := by
    rw [← lastFound, ← allocated.others last apart]
    exact Array.getElem?_setIfInBounds_ne fun same => apart (UInt32.toNat_inj.mp same.symm)
  have lastLt : last.toNat < first.nodes.size := (Array.getElem?_eq_some_iff.mp lastKept).1
  have here : (start.half n.side.isBuy).levels[n.levelIdx.toNat]? = some level := by
    rw [allocated.half]
    exact found
  have run : start.appendToLevel slot = .ok (second.withHalf n.side.isBuy half) := by
    rw [appendToLevel_behind allocated.found rfl rfl here tail proper counted lastKept,
      allocated.half]
  refine ⟨second.withHalf n.side.isBuy half, run, ?_⟩
  have halves : ∀ d, (second.withHalf n.side.isBuy half).half d =
      if d = n.side.isBuy then half else book.half d := fun d => by
    rw [half_withHalf, secondHalf]
  have nodesSlot : second.nodes[slot.toNat]? = some { n with prev := last, next := kNull } := by
    rw [Array.getElem?_setIfInBounds_ne fun same => apart (UInt32.toNat_inj.mp same)]
    exact Array.getElem?_setIfInBounds_self_of_lt slotLt
  have nodesLast : second.nodes[last.toNat]? = some { lastNode with next := slot } :=
    Array.getElem?_setIfInBounds_self_of_lt lastLt
  have nodesOther : ∀ other, other ≠ slot → other ≠ last →
      second.nodes[other.toNat]? = book.nodes[other.toNat]? := by
    intro other notSlot notLast
    rw [← allocated.others other notSlot,
      Array.getElem?_setIfInBounds_ne fun same => notLast (UInt32.toNat_inj.mp same.symm)]
    exact Array.getElem?_setIfInBounds_ne fun same => notSlot (UInt32.toNat_inj.mp same.symm)
  constructor
  · have step : SameLadder start second := ⟨rfl, rfl, rfl, rfl⟩
    exact step.trans sameLadder_withHalf
  · rw [free_withHalf]
  · rw [index_withHalf]
  · rw [nodes_withHalf]
    exact Array.size_setIfInBounds.trans Array.size_setIfInBounds
  · rw [bare, nodes_withHalf, nodesSlot]
    rfl
  · intro other notSlot
    rw [bare, nodes_withHalf, bare]
    by_cases isLast : other = last
    · subst isLast
      rw [nodesLast, lastFound]
      rfl
    · rw [nodesOther other notSlot isLast]
  · rw [links, nodes_withHalf, nodesSlot, lastHere]
    rfl
  · intro others other otherSplit
    obtain ⟨rfl, same⟩ := List.append_inj' (split.symm.trans otherSplit) rfl
    obtain rfl := List.head_eq_of_cons_eq same
    rw [links, nodes_withHalf, nodesLast, ← lastPrev]
    rfl
  · intro other notSlot notLast
    rw [lastHere] at notLast
    rw [links, nodes_withHalf, nodesOther other notSlot notLast, links]
  · intro d
    rw [halves]
    split
    · exact Array.size_setIfInBounds.trans (rep.levels _)
    · exact rep.levels d
  · intro written here
    rw [halves, if_pos rfl, Array.getElem?_setIfInBounds_self_of_lt levelLt] at here
    obtain rfl := Option.some.inj here
    refine ⟨?_, rfl, ?_, ?_⟩
    · rw [head, split]
      cases front <;> rfl
    · rw [count, UInt32.ofNat_add]
      rfl
    · simp only [total, found]
  · intro d i elsewhere
    rw [halves]
    split
    · rename_i same
      subst same
      exact Array.getElem?_setIfInBounds_ne fun same => elsewhere ⟨rfl, same.symm⟩
    · rfl
  · intro d
    rw [halves]
    split
    · rename_i same
      subst same
      have kept : Occupancy n.side.isBuy book.levelCount.toNat half fun i =>
          queues n.side.isBuy i ≠ [] :=
        (rep.occupancy _).transfer rfl rfl
      refine kept.congr fun i => or_iff_right_of_imp ?_
      rintro ⟨-, rfl⟩
      simp [split]
    · rename_i different
      exact (rep.occupancy d).congr fun i => by simp [different]
  · intro d
    rw [halves, split]
    split
    · rename_i same
      subst same
      simp [half]
    · simp

/-- `append_to_level` on an allocated slot. -/
theorem appendToLevel_spec (rep : book.Represents queues)
    (allocated : Allocated book start queues slot n)
    (inside : n.levelIdx.toNat < book.levelCount.toNat) :
    ∃ after, start.appendToLevel slot = .ok after ∧ Appended book start after queues slot n := by
  rcases List.eq_nil_or_concat
    (queues n.side.isBuy n.levelIdx.toNat) with empty | ⟨front, last, split⟩
  · exact appendToLevel_empty rep allocated inside empty
  · exact appendToLevel_nonempty rep allocated (split.trans List.concat_eq_append)

/-- The non-empty levels after one more level counts as non-empty. -/
theorem card_push {levels i : Nat} {queue : Nat → List UInt32} {slots : List UInt32}
    (inside : i < levels) (nonempty : slots ≠ []) :
    {j ∈ Finset.range levels | (if j = i then slots else queue j) ≠ []}.card =
      {j ∈ Finset.range levels | queue j ≠ []}.card + if queue i = [] then 1 else 0 := by
  by_cases empty : queue i = []
  · have grown : {j ∈ Finset.range levels | (if j = i then slots else queue j) ≠ []} =
        insert i {j ∈ Finset.range levels | queue j ≠ []} := by
      ext j
      by_cases same : j = i <;> simp [same, nonempty, inside]
    rw [grown, Finset.card_insert_of_notMem (by simp [empty]), if_pos empty]
  · have kept : {j ∈ Finset.range levels | (if j = i then slots else queue j) ≠ []} =
        {j ∈ Finset.range levels | queue j ≠ []} := by
      apply Finset.filter_congr
      intro j _
      by_cases same : j = i
      · subst same
        simp [nonempty, empty]
      · simp [same]
    rw [kept, if_neg empty, Nat.add_zero]

/-- Queueing a fresh active order restores the agreement of all members. -/
theorem Appended.represents (rep : book.Represents queues)
    (allocated : Allocated book start queues slot n)
    (appended : Appended book start after queues slot n)
    (fresh : book.index.lookup n.orderId = none) (active : n.active = true)
    (inBand : book.priceInBand n.price = true) (level : n.levelIdx.toNat = book.levelOf n.price) :
    after.Represents (queues.set n.side.isBuy n.levelIdx.toNat
      (queues n.side.isBuy n.levelIdx.toNat ++ [slot])) := by
  have inside : n.levelIdx.toNat < book.levelCount.toNat := by
    rw [level]
    exact rep.ladder.levelOf_lt inBand
  have same : SameLadder book after := allocated.ladder.trans appended.ladder
  have queued : ∀ d i other, other ∈ (queues.set n.side.isBuy n.levelIdx.toNat
      (queues n.side.isBuy n.levelIdx.toNat ++ [slot])) d i ↔ other ∈ queues d i ∨
        other = slot ∧ d = n.side.isBuy ∧ i = n.levelIdx.toNat := by
    intro d i other
    rw [Queues.set]
    split
    · rename_i here
      obtain ⟨rfl, rfl⟩ := here
      simp
    · rename_i elsewhere
      simp [elsewhere]
  have apart : ∀ d i other, other ∈ queues d i → other ≠ slot := fun d i other member isSlot =>
    allocated.unused d i (isSlot ▸ member)
  constructor
  · exact same.ladderOk rep.ladder
  · intro d
    rw [appended.levels, same.levelCount]
  · intro d
    rw [same.levelCount]
    refine (appended.occupancy d).congr fun i => ?_
    rw [Queues.set]
    split
    · rename_i here
      simp [here]
    · rename_i elsewhere
      simp [elsewhere]
  · intro d
    rw [appended.count, rep.count, same.levelCount]
    by_cases here : d = n.side.isBuy
    · subst here
      simp only [Queues.set, true_and]
      rw [card_push inside (by simp), UInt64.ofNat_add]
      split <;> rfl
    · simp [Queues.set, here]
  · rw [appended.size]
    exact allocated.slots
  · intro d i stored found
    by_cases here : d = n.side.isBuy ∧ i = n.levelIdx.toNat
    · obtain ⟨rfl, rfl⟩ := here
      obtain ⟨head, tail, count, -⟩ := appended.levelHere stored found
      rw [Queues.set_same]
      exact ⟨head, by rw [tail, List.getLastD_concat], by rw [count, List.length_append]; rfl⟩
    · rw [appended.levelOther d i here] at found
      rw [Queues.set_other here]
      exact rep.level d i stored found
  · intro d i
    by_cases here : d = n.side.isBuy ∧ i = n.levelIdx.toNat
    · obtain ⟨rfl, rfl⟩ := here
      rw [Queues.set_same]
      refine (rep.linked _ _).push appended.linksSlot fun front last split => ?_
      refine ⟨appended.linksLast front last split, fun other member => ?_⟩
      have nodup := rep.nodup n.side.isBuy n.levelIdx.toNat
      have queuedOther : other ∈ queues n.side.isBuy n.levelIdx.toNat := by simp [split, member]
      refine appended.linksOther other (apart _ _ _ queuedOther) ?_
      rw [split] at nodup ⊢
      rw [List.getLastD_concat]
      rintro rfl
      exact (List.nodup_append.mp nodup).2.2 _ member _ (by simp) rfl
    · rw [Queues.set_other here]
      refine (rep.linked d i).frame fun other member => ?_
      refine appended.linksOther other (apart _ _ _ member) ?_
      intro isLast
      rcases List.eq_nil_or_concat
        (queues n.side.isBuy n.levelIdx.toNat) with empty | ⟨front, last, split⟩
      · rw [empty, List.getLastD_nil] at isLast
        exact rep.slot_ne_null member isLast
      · rw [split, List.concat_eq_append, List.getLastD_concat] at isLast
        have lastMember : other ∈ queues n.side.isBuy n.levelIdx.toNat := by simp [split, isLast]
        exact here (rep.unique member lastMember)
  · intro d i
    rw [Queues.set]
    split
    · rw [List.nodup_append]
      refine ⟨rep.nodup _ _, List.nodup_singleton _, ?_⟩
      intro other member last inLast
      rw [List.mem_singleton.mp inLast]
      exact apart _ _ _ member
    · exact rep.nodup d i
  · intro d i other member
    rcases (queued d i other).mp member with before | ⟨rfl, rfl, rfl⟩
    · obtain ⟨m, placed⟩ := rep.placed d i other before
      refine ⟨m, ?_, placed.active, placed.side, placed.level, ?_, ?_, ?_⟩
      · rw [appended.bareOther other (apart d i other before), placed.found]
      · rw [same.priceInBand]
        exact placed.inBand
      · rw [same.levelOf]
        exact placed.price
      · rw [appended.index, allocated.index, Finmap.lookup_insert_of_ne]
        · exact placed.indexed
        · rintro sameId
          have indexed := placed.indexed
          rw [sameId, fresh] at indexed
          cases indexed
    · refine ⟨n.bare, appended.bareSlot, active, rfl, rfl, ?_, ?_, ?_⟩
      · rw [same.priceInBand]
        exact inBand
      · rw [same.levelOf]
        exact level.symm
      · rw [appended.index, allocated.index]
        exact Finmap.lookup_insert _
  · intro id other listed
    rw [appended.index, allocated.index] at listed
    by_cases sameId : id = n.orderId
    · subst sameId
      rw [Finmap.lookup_insert] at listed
      obtain rfl := Option.some.inj listed
      exact ⟨_, _, n.bare, (queued _ _ _).mpr (.inr ⟨rfl, rfl, rfl⟩), appended.bareSlot, rfl⟩
    · rw [Finmap.lookup_insert_of_ne _ sameId] at listed
      obtain ⟨d, i, m, member, found, isId⟩ := rep.index id other listed
      refine ⟨d, i, m, (queued d i other).mpr (.inl member), ?_, isId⟩
      rw [appended.bareOther other (apart d i other member), found]
  · intro other
    rw [appended.free, allocated.free, appended.size]
    constructor
    · rintro ⟨bound, different, unqueued⟩
      refine ⟨bound, fun d i member => ?_⟩
      rcases (queued d i other).mp member with before | ⟨isSlot, -⟩
      · exact unqueued d i before
      · exact different isSlot
    · rintro ⟨bound, unqueued⟩
      refine ⟨bound, ?_, fun d i member => unqueued d i ((queued d i other).mpr (.inl member))⟩
      rintro rfl
      exact unqueued _ _ ((queued _ _ other).mpr (.inr ⟨rfl, rfl, rfl⟩))
  · rw [appended.free]
    exact allocated.freeNodup
  · intro other m found unqueued
    have different : other ≠ slot := by
      rintro rfl
      exact unqueued _ _ ((queued _ _ other).mpr (.inr ⟨rfl, rfl, rfl⟩))
    rw [appended.bareOther other different] at found
    exact rep.inactive other m found fun d i member =>
      unqueued d i ((queued d i other).mpr (.inl member))

end Append

end Exsim.Core.OrderBook
