import Exsim.OrderBook.Representation

/-! # Writes that leave the shape of the book alone

A partial fill stores a new quantity in a node and a new total in its level.
Neither touches a pointer, a cache or the index.
-/

namespace Exsim.Core.OrderBook

open Data

variable {book : OrderBook} {queues : Queues} {slot : UInt32} {n : Node} {isBuy : Bool} {i : Nat}
  {level : Level}

/-- The book with another quantity stored in slot `slot`. -/
def withQty (book : OrderBook) (slot : UInt32) (n : Node) (qty : Qty) : OrderBook :=
  { book with nodes := book.nodes.setIfInBounds slot.toNat { n with qty } }

/-- The book with another total stored in level `i`. -/
def withTotal (book : OrderBook) (isBuy : Bool) (i : Nat) (level : Level) (totalQty : Qty) :
    OrderBook :=
  book.withHalf isBuy { book.half isBuy with
    levels := (book.half isBuy).levels.setIfInBounds i { level with totalQty } }

section Qty

variable {qty : Qty}

theorem half_withQty (d : Bool) : (book.withQty slot n qty).half d = book.half d := by
  cases d <;> rfl

theorem setNode_qty (found : book.nodes[slot.toNat]? = some n) :
    book.setNode slot { n with qty } = .ok (book.withQty slot n qty) :=
  setNode_of_lt _ (Array.getElem?_eq_some_iff.mp found).1

theorem nodes_withQty (found : book.nodes[slot.toNat]? = some n) (other : UInt32) :
    (book.withQty slot n qty).nodes[other.toNat]? =
      if other = slot then some { n with qty } else book.nodes[other.toNat]? := by
  split
  · rename_i same
    subst same
    exact Array.getElem?_setIfInBounds_self_of_lt (Array.getElem?_eq_some_iff.mp found).1
  · rename_i different
    exact Array.getElem?_setIfInBounds_ne fun same => different (UInt32.toNat_inj.mp same.symm)

theorem bare_withQty (found : book.nodes[slot.toNat]? = some n) (other : UInt32) :
    (book.withQty slot n qty).bare other =
      if other = slot then some { n.bare with qty } else book.bare other := by
  rw [bare, nodes_withQty found]
  split <;> rfl

theorem links_withQty (found : book.nodes[slot.toNat]? = some n) :
    (book.withQty slot n qty).links = book.links := by
  funext other
  rw [links, nodes_withQty found, links]
  split
  · rename_i same
    rw [same, found]
    rfl
  · rfl

theorem Represents.withQty (rep : book.Represents queues) (found : book.nodes[slot.toNat]? = some n)
    (member : slot ∈ queues isBuy i) : (book.withQty slot n qty).Represents queues := by
  have size : (book.withQty slot n qty).nodes.size = book.nodes.size := Array.size_setIfInBounds
  have relabel : ∀ other m, book.bare other = some m →
      ∃ m', (book.withQty slot n qty).bare other = some m' ∧
      m'.active = m.active ∧ m'.side = m.side ∧ m'.levelIdx = m.levelIdx ∧ m'.price = m.price ∧
        m'.orderId = m.orderId := by
    intro other m stands
    rw [bare_withQty found]
    split
    · rename_i same
      rw [same, bare_of_getElem? found] at stands
      obtain rfl := Option.some.inj stands
      exact ⟨_, rfl, rfl, rfl, rfl, rfl, rfl⟩
    · exact ⟨m, stands, rfl, rfl, rfl, rfl, rfl⟩
  constructor
  · have same : SameLadder book (book.withQty slot n qty) := ⟨rfl, rfl, rfl, rfl⟩
    exact same.ladderOk rep.ladder
  · intro d
    rw [half_withQty]
    exact rep.levels d
  · intro d
    rw [half_withQty]
    exact rep.occupancy d
  · intro d
    rw [half_withQty]
    exact rep.count d
  · rw [size]
    exact rep.slots
  · intro d j level stands
    rw [half_withQty] at stands
    exact rep.level d j level stands
  · intro d j
    rw [links_withQty found]
    exact rep.linked d j
  · exact rep.nodup
  · intro d j other queued
    obtain ⟨m, placed⟩ := rep.placed d j other queued
    obtain ⟨m', stands, active, side, levelIdx, price, orderId⟩ := relabel other m placed.found
    refine ⟨m', stands, active.trans placed.active, ?_, ?_, ?_, ?_, ?_⟩
    · rw [side]
      exact placed.side
    · rw [levelIdx]
      exact placed.level
    · rw [price]
      exact placed.inBand
    · rw [price]
      exact placed.price
    · rw [orderId]
      exact placed.indexed
  · intro id other listed
    obtain ⟨d, j, m, queued, stands, isId⟩ := rep.index id other listed
    obtain ⟨m', stands', -, -, -, -, orderId⟩ := relabel other m stands
    exact ⟨d, j, m', queued, stands', orderId.trans isId⟩
  · intro other
    rw [size]
    exact rep.free other
  · exact rep.freeNodup
  · intro other m stands unqueued
    rw [bare_withQty found] at stands
    split at stands
    · rename_i same
      exact absurd member (same ▸ unqueued isBuy i)
    · exact rep.inactive other m stands unqueued

end Qty

section Total

variable {totalQty : Qty}

theorem half_withTotal (d : Bool) : (book.withTotal isBuy i level totalQty).half d =
    if d = isBuy then { book.half isBuy with
      levels := (book.half isBuy).levels.setIfInBounds i { level with totalQty } }
        else book.half d :=
  half_withHalf

theorem setLevel_total {idx : UInt32} (found : (book.half isBuy).levels[idx.toNat]? = some level) :
    book.setLevel isBuy idx { level with totalQty } =
      .ok (book.withTotal isBuy idx.toNat level totalQty) :=
  setLevel_of_lt _ (Array.getElem?_eq_some_iff.mp found).1

theorem levels_withTotal (found : (book.half isBuy).levels[i]? = some level) (d : Bool) (j : Nat) :
    ((book.withTotal isBuy i level totalQty).half d).levels[j]? =
      if d = isBuy ∧ j = i then some { level with totalQty } else (book.half d).levels[j]? := by
  rw [half_withTotal]
  by_cases same : d = isBuy
  · subst same
    rw [if_pos rfl]
    by_cases here : j = i
    · subst here
      rw [if_pos ⟨rfl, rfl⟩]
      exact Array.getElem?_setIfInBounds_self_of_lt (Array.getElem?_eq_some_iff.mp found).1
    · rw [if_neg fun level => here level.2]
      exact Array.getElem?_setIfInBounds_ne fun same => here same.symm
  · rw [if_neg same, if_neg fun level => same level.1]

theorem total_withTotal (found : (book.half isBuy).levels[i]? = some level) (d : Bool) (j : Nat) :
    (book.withTotal isBuy i level totalQty).total d j =
      if d = isBuy ∧ j = i then totalQty else book.total d j := by
  rw [total, levels_withTotal found]
  by_cases here : d = isBuy ∧ j = i
  · rw [if_pos here, if_pos here]
  · rw [if_neg here, if_neg here, total]

theorem Represents.withTotal (rep : book.Represents queues)
    (found : (book.half isBuy).levels[i]? = some level) :
    (book.withTotal isBuy i level totalQty).Represents queues := by
  have frame : ∀ other, (book.withTotal isBuy i level totalQty).bare other = book.bare other :=
    fun other => by
      rw [OrderBook.withTotal, bare, nodes_withHalf, bare]
  have ladder : SameLadder book (book.withTotal isBuy i level totalQty) := sameLadder_withHalf
  constructor
  · exact ladder.ladderOk rep.ladder
  · intro d
    rw [half_withTotal, ladder.levelCount]
    split
    · exact Array.size_setIfInBounds.trans (rep.levels _)
    · exact rep.levels d
  · intro d
    rw [half_withTotal, ladder.levelCount]
    split
    · rename_i same
      subst same
      exact (rep.occupancy d).transfer rfl rfl
    · exact rep.occupancy d
  · intro d
    rw [half_withTotal, ladder.levelCount]
    split
    · rename_i same
      subst same
      exact rep.count d
    · exact rep.count d
  · rw [OrderBook.withTotal, nodes_withHalf]
    exact rep.slots
  · intro d j stored stands
    rw [levels_withTotal found] at stands
    split at stands
    · rename_i here
      obtain ⟨rfl, rfl⟩ := here
      obtain rfl := Option.some.inj stands
      exact rep.level d j level found
    · exact rep.level d j stored stands
  · intro d j
    have links : (book.withTotal isBuy i level totalQty).links = book.links := by
      funext other
      rw [OrderBook.withTotal, OrderBook.links, nodes_withHalf, OrderBook.links]
    rw [links]
    exact rep.linked d j
  · exact rep.nodup
  · intro d j other queued
    obtain ⟨m, placed⟩ := rep.placed d j other queued
    refine ⟨m, (frame other).trans placed.found, placed.active, placed.side,
      placed.level, ?_, ?_, ?_⟩
    · rw [ladder.priceInBand]
      exact placed.inBand
    · rw [ladder.levelOf]
      exact placed.price
    · rw [OrderBook.withTotal, index_withHalf]
      exact placed.indexed
  · intro id other listed
    rw [OrderBook.withTotal, index_withHalf] at listed
    obtain ⟨d, j, m, queued, stands, isId⟩ := rep.index id other listed
    exact ⟨d, j, m, queued, (frame other).trans stands, isId⟩
  · intro other
    rw [OrderBook.withTotal, free_withHalf, nodes_withHalf]
    exact rep.free other
  · rw [OrderBook.withTotal, free_withHalf]
    exact rep.freeNodup
  · intro other m stands unqueued
    rw [frame] at stands
    exact rep.inactive other m stands unqueued

end Total

end Exsim.Core.OrderBook
