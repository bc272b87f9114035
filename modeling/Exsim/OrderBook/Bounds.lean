import Exsim.OrderBook.Invariant

/-! # Every index stays in range

The feed path follows stored slots and level indices.  Whatever those have come
to stand for, also once the null slot itself has been handed out, each is the
null slot or lies within the pool, so no read or write leaves its array.
-/

namespace Exsim.Core

open Data

/-- The null slot, or one of `size` slots. -/
def Within (size : Nat) (slot : UInt32) : Prop := slot = kNull ∨ slot.toNat < size

theorem Within.mono {size larger : Nat} {slot : UInt32} (within : Within size slot)
    (grows : size ≤ larger) :
    Within larger slot := within.imp_right fun inside => Nat.lt_of_lt_of_le inside grows

theorem Within.null (size : Nat) : Within size kNull := .inl rfl

structure Node.InBounds (size levels : Nat) (n : Node) : Prop where
  level : n.levelIdx.toNat < levels
  prev : Within size n.prev
  next : Within size n.next

structure Level.InBounds (size : Nat) (level : Level) : Prop where
  head : Within size level.head
  tail : Within size level.tail

namespace OrderBook

structure InBounds (book : OrderBook) : Prop where
  ladder : LadderOk book
  levels : ∀ isBuy, (book.half isBuy).levels.size = book.levelCount.toNat
  bitmap : ∀ isBuy, (book.half isBuy).bitmap.size =
      (book.levelCount.toNat + bitsPerWord - 1) / bitsPerWord
  index : ∀ id slot, book.index.lookup id = some slot → slot.toNat < book.nodes.size
  free : ∀ slot ∈ book.free, slot.toNat < book.nodes.size
  node : ∀ n ∈ book.nodes, n.InBounds book.nodes.size book.levelCount.toNat
  level : ∀ isBuy, ∀ level ∈ (book.half isBuy).levels, level.InBounds book.nodes.size

/-- A step that keeps to the bounds; the pool only grows. -/
structure Stays (book after : OrderBook) : Prop where
  inBounds : after.InBounds
  ladder : SameLadder book after
  size : book.nodes.size ≤ after.nodes.size

section

variable {book middle after : OrderBook} {slot idx : UInt32} {n : Node} {lvl : Level} {isBuy : Bool}
  {id : OrderId} {accountId : AccountId} {side : Side} {price : Price} {qty : Qty}

theorem Stays.refl (inBounds : book.InBounds) : Stays book book :=
  ⟨inBounds, .refl book, Nat.le_refl _⟩

theorem Stays.trans (left : Stays book middle) (right : Stays middle after) : Stays book after :=
  ⟨right.inBounds, left.ladder.trans right.ladder, Nat.le_trans left.size right.size⟩

theorem Stays.node (stays : Stays book after)
    (inBounds : n.InBounds book.nodes.size book.levelCount.toNat) :
    n.InBounds after.nodes.size after.levelCount.toNat := by
  rw [stays.ladder.levelCount]
  exact ⟨inBounds.level, inBounds.prev.mono stays.size, inBounds.next.mono stays.size⟩

theorem Stays.level (stays : Stays book after) (inBounds : lvl.InBounds book.nodes.size) :
    lvl.InBounds after.nodes.size := ⟨inBounds.head.mono stays.size, inBounds.tail.mono stays.size⟩

theorem Stays.inside (stays : Stays book after) (inside : slot.toNat < book.nodes.size) :
    slot.toNat < after.nodes.size := Nat.lt_of_lt_of_le inside stays.size

namespace InBounds

theorem readNode (inBounds : book.InBounds) (inside : slot.toNat < book.nodes.size) :
    ∃ n, book.node slot = .ok n ∧ n.InBounds book.nodes.size book.levelCount.toNat :=
  ⟨_, node_of_getElem? (Array.getElem?_eq_getElem inside),
    inBounds.node _ (Array.getElem_mem inside)⟩

theorem readLevel (inBounds : book.InBounds) (isBuy : Bool)
    (inside : idx.toNat < book.levelCount.toNat) :
    ∃ level, book.levelFor isBuy idx = .ok level ∧ level.InBounds book.nodes.size := by
  have stored : idx.toNat < (book.half isBuy).levels.size := by
    rw [inBounds.levels]
    exact inside
  exact ⟨_, levelFor_of_getElem? (Array.getElem?_eq_getElem stored),
    inBounds.level isBuy _ (Array.getElem_mem stored)⟩

theorem setNode (inBounds : book.InBounds) (inside : slot.toNat < book.nodes.size)
    (fits : n.InBounds book.nodes.size book.levelCount.toNat) :
    ∃ after, book.setNode slot n = .ok after ∧ Stays book after := by
  have size : (book.nodes.setIfInBounds slot.toNat n).size = book.nodes.size :=
    Array.size_setIfInBounds
  have node : ∀ m ∈ book.nodes.setIfInBounds slot.toNat n,
      m.InBounds (book.nodes.setIfInBounds slot.toNat n).size book.levelCount.toNat := by
    intro m member
    rw [size]
    obtain member | isNew := Array.mem_or_eq_of_mem_setIfInBounds member
    · exact inBounds.node m member
    · rw [isNew]
      exact fits
  refine ⟨_, setNode_of_lt n inside,
    ⟨⟨?_, inBounds.levels, inBounds.bitmap, ?_, ?_, node, ?_⟩, ⟨rfl, rfl, rfl, rfl⟩,
    Nat.le_of_eq size.symm⟩⟩
  · exact ⟨inBounds.ladder.positive, inBounds.ladder.order, inBounds.ladder.span⟩
  · intro id slot indexed
    rw [size]
    exact inBounds.index id slot indexed
  · intro slot free
    rw [size]
    exact inBounds.free slot free
  · intro isBuy level member
    rw [size]
    exact inBounds.level isBuy level member

theorem withHalf (inBounds : book.InBounds) {half : BookSide}
    (levels : half.levels.size = (book.half isBuy).levels.size)
    (bitmap : half.bitmap.size = (book.half isBuy).bitmap.size)
    (level : ∀ level ∈ half.levels, level.InBounds book.nodes.size) :
    Stays book (book.withHalf isBuy half) := by
  refine ⟨?_, sameLadder_withHalf, by rw [nodes_withHalf]⟩
  constructor
  · exact sameLadder_withHalf.ladderOk inBounds.ladder
  · intro d
    rw [half_withHalf, levelCount_withHalf, ← inBounds.levels d]
    split
    · rename_i same
      rw [levels, same]
    · rfl
  · intro d
    rw [half_withHalf, levelCount_withHalf, ← inBounds.bitmap d]
    split
    · rename_i same
      rw [bitmap, same]
    · rfl
  · intro id slot indexed
    rw [index_withHalf] at indexed
    rw [nodes_withHalf]
    exact inBounds.index id slot indexed
  · intro slot free
    rw [free_withHalf] at free
    rw [nodes_withHalf]
    exact inBounds.free slot free
  · intro n member
    rw [nodes_withHalf] at member ⊢
    rw [levelCount_withHalf]
    exact inBounds.node n member
  · intro d stored member
    rw [half_withHalf] at member
    rw [nodes_withHalf]
    split at member
    · exact level stored member
    · exact inBounds.level d stored member

theorem setLevel (inBounds : book.InBounds) (isBuy : Bool) (lvl : Level)
    (inside : idx.toNat < book.levelCount.toNat) (fits : lvl.InBounds book.nodes.size) :
    ∃ after, book.setLevel isBuy idx lvl = .ok after ∧ Stays book after := by
  have stored : idx.toNat < (book.half isBuy).levels.size := by
    rw [inBounds.levels]
    exact inside
  refine ⟨_, setLevel_of_lt lvl stored, inBounds.withHalf Array.size_setIfInBounds rfl
    fun other member => ?_⟩
  obtain member | isNew := Array.mem_or_eq_of_mem_setIfInBounds member
  · exact inBounds.level isBuy other member
  · rw [isNew]
    exact fits

theorem countLevel (inBounds : book.InBounds) (isBuy : Bool) : Stays book (book.countLevel isBuy) :=
  inBounds.withHalf rfl rfl (inBounds.level isBuy)

theorem uncountLevel (inBounds : book.InBounds) (isBuy : Bool) :
    Stays book (book.uncountLevel isBuy) :=
  inBounds.withHalf rfl rfl (inBounds.level isBuy)

/-- The bitmap has a word for every level. -/
theorem word (inBounds : book.InBounds) (isBuy : Bool)
    (inside : idx.toNat < book.levelCount.toNat) :
    idx.toNat / bitsPerWord < (book.half isBuy).bitmap.size := by
  rw [inBounds.bitmap, bitsPerWord]
  omega

theorem setOccupied (inBounds : book.InBounds) (isBuy : Bool)
    (inside : idx.toNat < book.levelCount.toNat) :
    ∃ after, book.setOccupied isBuy idx = .ok after ∧ Stays book after := by
  have word := inBounds.word isBuy inside
  rw [OrderBook.setOccupied, BookSide.setOccupied,
    readAt_of_getElem? (Array.getElem?_eq_getElem word), exec_ok_bind,
    writeAt_of_lt _ word, exec_ok_bind]
  dsimp only
  split
  · exact ⟨_, rfl, inBounds.withHalf rfl Array.size_setIfInBounds (inBounds.level isBuy)⟩
  · exact ⟨_, rfl, inBounds.withHalf rfl Array.size_setIfInBounds (inBounds.level isBuy)⟩

theorem clearOccupied (inBounds : book.InBounds) (isBuy : Bool)
    (inside : idx.toNat < book.levelCount.toNat) :
    ∃ after, book.clearOccupied isBuy idx = .ok after ∧ Stays book after := by
  have word := inBounds.word isBuy inside
  rw [OrderBook.clearOccupied, BookSide.clearOccupied,
    readAt_of_getElem? (Array.getElem?_eq_getElem word), exec_ok_bind,
    writeAt_of_lt _ word, exec_ok_bind, exec_ok_bind, BookSide.recomputeBestAfterClear]
  split
  · exact ⟨_, rfl, inBounds.withHalf rfl Array.size_setIfInBounds (inBounds.level isBuy)⟩
  · exact ⟨_, rfl, inBounds.withHalf rfl Array.size_setIfInBounds (inBounds.level isBuy)⟩

theorem withFree (inBounds : book.InBounds) {free : List UInt32}
    (within : ∀ slot ∈ free, slot.toNat < book.nodes.size) :
    Stays book { book with free } := by
  obtain ⟨⟨positive, order, span⟩, levels, bitmap, index, -, node, level⟩ := inBounds
  exact ⟨⟨⟨positive, order, span⟩, levels, bitmap, index, within, node, level⟩,
    ⟨rfl, rfl, rfl, rfl⟩, Nat.le_refl _⟩

theorem withIndex (inBounds : book.InBounds) {index : UnorderedMap OrderId UInt32}
    (within : ∀ id slot, index.lookup id = some slot → slot.toNat < book.nodes.size) :
    Stays book { book with index } := by
  obtain ⟨⟨positive, order, span⟩, levels, bitmap, -, free, node, level⟩ := inBounds
  exact ⟨⟨⟨positive, order, span⟩, levels, bitmap, within, free, node, level⟩, ⟨rfl, rfl, rfl, rfl⟩,
    Nat.le_refl _⟩

theorem pushNode (inBounds : book.InBounds) :
    Stays book { book with nodes := book.nodes.push {} } := by
  have size : (book.nodes.push {}).size = book.nodes.size + 1 := Array.size_push _
  have grows : book.nodes.size ≤ (book.nodes.push {}).size := by omega
  have some : 0 < book.levelCount.toNat := by
    have span := inBounds.ladder.span
    have order := inBounds.ladder.order
    omega
  have node : ∀ n ∈ book.nodes.push {},
      n.InBounds (book.nodes.push {}).size book.levelCount.toNat := by
    intro n member
    obtain member | isNew := Array.mem_push.mp member
    · obtain ⟨level, prev, next⟩ := inBounds.node n member
      exact ⟨level, prev.mono grows, next.mono grows⟩
    · rw [isNew]
      exact ⟨some, .null _, .null _⟩
  obtain ⟨⟨positive, order, span⟩, levels, bitmap, index, free, -, level⟩ := inBounds
  refine ⟨⟨⟨positive, order, span⟩, levels, bitmap, ?_, ?_, node, ?_⟩, ⟨rfl, rfl, rfl, rfl⟩, grows⟩
  · exact fun id slot indexed => Nat.lt_of_lt_of_le (index id slot indexed) grows
  · exact fun slot listed => Nat.lt_of_lt_of_le (free slot listed) grows
  · exact fun isBuy stored member => ⟨(level isBuy stored member).head.mono grows,
      (level isBuy stored member).tail.mono grows⟩

theorem allocNode (inBounds : book.InBounds) (id : OrderId) (accountId : AccountId)
    (side : Side) (qty : Qty) (inBand : book.priceInBand price = true) :
    ∃ after slot, book.allocNode id accountId side price qty = .ok (after, slot) ∧
    Stays book after ∧ slot.toNat < after.nodes.size := by
  have level : (book.priceToIndex price).toNat < book.levelCount.toNat := by
    rw [inBounds.ladder.priceToIndex_toNat inBand]
    exact inBounds.ladder.levelOf_lt inBand
  -- Both branches write the node into a slot of a book within bounds and index it.
  have indexed : ∀ {base : OrderBook} {slot : UInt32}, Stays book base →
      slot.toNat < base.nodes.size → ∃ after, base.setNode slot
        { orderId := id, accountId, side, price, qty, levelIdx := book.priceToIndex price,
          active := true } = .ok after ∧
        Stays book { after with index := after.index.insert id slot } ∧
        slot.toNat < after.nodes.size := by
    intro base slot stays inside
    have fits : Node.InBounds book.nodes.size book.levelCount.toNat
        { orderId := id, accountId, side, price, qty, levelIdx := book.priceToIndex price,
          active := true } :=
      ⟨level, .null _, .null _⟩
    obtain ⟨after, wrote, kept⟩ := stays.inBounds.setNode inside (stays.node fits)
    have inside := kept.inside inside
    refine ⟨after, wrote,
      (stays.trans kept).trans (kept.inBounds.withIndex fun other found listed => ?_), inside⟩
    by_cases same : other = id
    · rw [same, Finmap.lookup_insert] at listed
      rw [← Option.some.inj listed]
      exact inside
    · rw [Finmap.lookup_insert_of_ne _ same] at listed
      exact kept.inBounds.index other found listed
  rw [OrderBook.allocNode]
  dsimp only
  split
  · rename_i slot free split
    have within : ∀ other ∈ slot :: free, other.toNat < book.nodes.size := by
      rw [← split]
      exact inBounds.free
    obtain ⟨after, wrote, kept, inside⟩ := indexed
      (inBounds.withFree fun other listed => within other (List.mem_cons_of_mem slot listed))
      (within slot List.mem_cons_self)
    rw [wrote, exec_ok_bind]
    exact ⟨_, slot, rfl, kept, inside⟩
  · have pushed := inBounds.pushNode
    have inside : (UInt32.ofNat book.nodes.size).toNat < (book.nodes.push {}).size := by
      rw [UInt32.toNat_ofNat', Array.size_push]
      exact Nat.lt_succ_of_le (Nat.mod_le _ _)
    obtain ⟨after, wrote, kept, inside⟩ := indexed pushed inside
    rw [wrote, exec_ok_bind]
    exact ⟨_, _, rfl, kept, inside⟩

theorem freeNode (inBounds : book.InBounds) (inside : slot.toNat < book.nodes.size) :
    ∃ after, book.freeNode slot = .ok after ∧ Stays book after := by
  obtain ⟨n, read, fits⟩ := inBounds.readNode inside
  have erased : Stays book { book with index := book.index.erase n.orderId } :=
    inBounds.withIndex fun id found listed => by
      by_cases same : id = n.orderId
      · rw [same, Finmap.lookup_erase] at listed
        cases listed
      · rw [Finmap.lookup_erase_ne same] at listed
        exact inBounds.index id found listed
  have blank : Node.InBounds book.nodes.size book.levelCount.toNat {} :=
    ⟨Nat.lt_of_le_of_lt (Nat.zero_le _) fits.level, .null _, .null _⟩
  obtain ⟨after, wrote, kept⟩ := erased.inBounds.setNode (erased.inside inside) (erased.node blank)
  have stays := erased.trans kept
  rw [OrderBook.freeNode, read, exec_ok_bind, wrote, exec_ok_bind]
  refine ⟨_, rfl, stays.trans (kept.inBounds.withFree fun other listed => ?_)⟩
  obtain isSlot | listed := List.mem_cons.mp listed
  · rw [isSlot]
    exact stays.inside inside
  · exact kept.inBounds.free other listed

/-- Rewriting a neighbour, unless it is the null slot. -/
theorem relink (inBounds : book.InBounds) (within : Within book.nodes.size slot)
    (change : Node → Node) (fits : ∀ n : Node, n.InBounds book.nodes.size book.levelCount.toNat →
      (change n).InBounds book.nodes.size book.levelCount.toNat) :
    ∃ after, (if slot ≠ kNull then do
        let n ← book.node slot
        book.setNode slot (change n)
      else pure book) = .ok after ∧ Stays book after := by
  split
  · rename_i proper
    have inside := within.resolve_left proper
    obtain ⟨n, read, bounds⟩ := inBounds.readNode inside
    rw [read, exec_ok_bind]
    exact inBounds.setNode inside (fits n bounds)
  · exact ⟨book, rfl, .refl inBounds⟩

theorem appendToLevel (inBounds : book.InBounds) (inside : slot.toNat < book.nodes.size) :
    ∃ after, book.appendToLevel slot = .ok after ∧ Stays book after := by
  obtain ⟨n, read, fits⟩ := inBounds.readNode inside
  obtain ⟨level, readLevel, bounds⟩ := inBounds.readLevel n.side.isBuy fits.level
  obtain ⟨first, wrote, stays₁⟩ :=
    inBounds.setNode (n := { n with prev := level.tail, next := kNull }) inside
    ⟨fits.level, bounds.tail, .null _⟩
  obtain ⟨second, linked, stays₂⟩ := stays₁.inBounds.relink (stays₁.level bounds).tail
    (fun last => { last with next := slot })
    fun last kept => ⟨kept.level, kept.prev, .inr (stays₁.inside inside)⟩
  have stays := stays₁.trans stays₂
  have level' : Level.InBounds second.nodes.size {
      head := if level.tail ≠ kNull then level.head else slot
      tail := slot, totalQty := level.totalQty + n.qty, count := level.count + 1 } := by
    refine ⟨?_, .inr (stays.inside inside)⟩
    dsimp only
    split
    · exact (stays.level bounds).head
    · exact .inr (stays.inside inside)
  obtain ⟨third, wroteLevel, stays₃⟩ :=
    stays₂.inBounds.setLevel n.side.isBuy _ (stays.node fits).level level'
  have stays := stays.trans stays₃
  rw [OrderBook.appendToLevel, read, exec_ok_bind]
  dsimp only
  rw [readLevel, exec_ok_bind, wrote, exec_ok_bind]
  have jumps : ∀ next : OrderBook → Exec OrderBook,
      (if level.tail ≠ kNull then do
        let last ← first.node level.tail
        let book ← first.setNode level.tail { last with next := slot }
        next book
      else do
        let book ← pure first
        next book) = next second := by
    intro next
    split at linked
    · rename_i proper
      rw [if_pos proper, ← bind_assoc, linked, exec_ok_bind]
    · rename_i null
      rw [if_neg null, linked, exec_ok_bind]
  rw [jumps, wroteLevel, exec_ok_bind]
  split
  · have counted := stays₃.inBounds.countLevel n.side.isBuy
    obtain ⟨after, occupied, stays₄⟩ :=
      counted.inBounds.setOccupied n.side.isBuy ((stays.trans counted).node fits).level
    exact ⟨after, occupied, (stays.trans counted).trans stays₄⟩
  · exact ⟨third, rfl, stays⟩

theorem removeNode (inBounds : book.InBounds) (inside : slot.toNat < book.nodes.size)
    (seq : SeqNo) (qty : Qty) (type : MdType) :
    ∃ after ev, book.removeNode seq slot qty type = .ok (after, ev) ∧ Stays book after := by
  obtain ⟨n, read, fits⟩ := inBounds.readNode inside
  obtain ⟨level, readLevel, bounds⟩ := inBounds.readLevel n.side.isBuy fits.level
  obtain ⟨first, before, stays₁⟩ :=
    inBounds.relink fits.prev (fun before => { before with next := n.next })
    fun before kept => ⟨kept.level, kept.prev, fits.next⟩
  obtain ⟨second, after, stays₂⟩ := stays₁.inBounds.relink (stays₁.node fits).next
    (fun after => { after with prev := n.prev })
    fun after kept => ⟨kept.level, (stays₁.node fits).prev, kept.next⟩
  have stays := stays₁.trans stays₂
  have fits := stays.node fits
  have bounds := stays.level bounds
  rw [OrderBook.removeNode, read, exec_ok_bind]
  dsimp only
  rw [readLevel, exec_ok_bind, before, exec_ok_bind, after, exec_ok_bind]
  have emptied : ∀ lvl : Level, lvl.InBounds second.nodes.size → ∃ third,
      (if lvl.count = 0 then do
        let book ← second.setLevel n.side.isBuy n.levelIdx
            { lvl with head := kNull, tail := kNull, totalQty := 0 }
        (book.uncountLevel n.side.isBuy).clearOccupied n.side.isBuy n.levelIdx
      else second.setLevel n.side.isBuy n.levelIdx lvl) = .ok third ∧ Stays second third := by
    intro lvl kept
    split
    · obtain ⟨third, wrote, stays₃⟩ := stays₂.inBounds.setLevel n.side.isBuy
        { lvl with head := kNull, tail := kNull, totalQty := 0 } fits.level ⟨.null _, .null _⟩
      have uncounted := stays₃.trans (stays₃.inBounds.uncountLevel n.side.isBuy)
      obtain ⟨fourth, cleared, stays₄⟩ :=
        uncounted.inBounds.clearOccupied n.side.isBuy (uncounted.node fits).level
      rw [wrote, exec_ok_bind]
      exact ⟨fourth, cleared, uncounted.trans stays₄⟩
    · exact stays₂.inBounds.setLevel n.side.isBuy lvl fits.level kept
  have shrunk : Level.InBounds second.nodes.size {
      head := if n.prev ≠ kNull then level.head else n.next
      tail := if n.next ≠ kNull then level.tail else n.prev
      totalQty := level.totalQty - min level.totalQty qty
      count := if level.count > 0 then level.count - 1 else level.count } := by
    constructor <;> dsimp only <;> split
    · exact bounds.head
    · exact fits.next
    · exact bounds.tail
    · exact fits.prev
  obtain ⟨third, wrote, stays₃⟩ := emptied _ shrunk
  have stays := stays.trans stays₃
  obtain ⟨last, freed, stays₄⟩ := stays₃.inBounds.freeNode (stays.inside inside)
  rw [wrote, exec_ok_bind, freed, exec_ok_bind]
  exact ⟨last, _, rfl, stays.trans stays₄⟩

/-- A cancel never faults, and changes nothing when it finds no order. -/
theorem cancelOrder (inBounds : book.InBounds) (seq : SeqNo) (id : OrderId) :
    ∃ after ev, book.cancelOrder seq id = .ok (after, ev) ∧ Stays book after ∧
    (ev = none → after = book) := by
  rw [OrderBook.cancelOrder]
  cases indexed : book.index.lookup id with
  | none => exact ⟨book, none, rfl, .refl inBounds, fun _ => rfl⟩
  | some slot =>
      have inside := inBounds.index id slot indexed
      obtain ⟨n, read, -⟩ := inBounds.readNode inside
      obtain ⟨after, ev, removed, stays⟩ := inBounds.removeNode inside seq n.qty .cancel
      dsimp only
      rw [read, exec_ok_bind, removed, exec_ok_bind]
      exact ⟨after, some ev, rfl, stays, fun impossible =>
        absurd impossible (Option.some_ne_none ev)⟩

/-- A feed add never faults, and changes nothing when it is refused. -/
theorem feedAdd (inBounds : book.InBounds) (id : OrderId) (accountId : AccountId) (side : Side)
    (price : Price) (qty : Qty) :
    ∃ after ok, book.feedAdd id accountId side price qty = .ok (after, ok) ∧ Stays book after ∧
    (ok = false → after = book) := by
  rw [OrderBook.feedAdd]
  split
  · exact ⟨book, false, rfl, .refl inBounds, fun _ => rfl⟩
  · rename_i accepted
    simp only [Bool.or_eq_true, not_or, Bool.not_eq_true', Bool.not_eq_false] at accepted
    obtain ⟨middle, slot, allocated, stays₁, inside⟩ :=
      inBounds.allocNode id accountId side qty accepted.2
    obtain ⟨after, appended, stays₂⟩ := stays₁.inBounds.appendToLevel inside
    rw [allocated, exec_ok_bind]
    dsimp only
    rw [appended, exec_ok_bind]
    exact ⟨after, true, rfl, stays₁.trans stays₂, fun impossible => absurd impossible (by decide)⟩

/-- A feed execution never faults, and changes nothing when it is refused. -/
theorem feedExecute (inBounds : book.InBounds) (id : OrderId) (qty : Qty) :
    ∃ after ok, book.feedExecute id qty = .ok (after, ok) ∧ Stays book after ∧
    (ok = false → after = book) := by
  rw [OrderBook.feedExecute]
  cases indexed : book.index.lookup id with
  | none => exact ⟨book, false, rfl, .refl inBounds, fun _ => rfl⟩
  | some slot =>
      dsimp only
      split
      · exact ⟨book, false, rfl, .refl inBounds, fun _ => rfl⟩
      · have inside := inBounds.index id slot indexed
        obtain ⟨n, read, fits⟩ := inBounds.readNode inside
        obtain ⟨level, readLevel, bounds⟩ := inBounds.readLevel n.side.isBuy fits.level
        rw [read, exec_ok_bind, readLevel, exec_ok_bind]
        split
        · obtain ⟨after, ev, removed, stays⟩ := inBounds.removeNode inside 0 n.qty .execute
          rw [removed, exec_ok_bind]
          exact ⟨after, true, rfl, stays, fun impossible => absurd impossible (by decide)⟩
        · obtain ⟨middle, wrote, stays₁⟩ :=
            inBounds.setNode (n := { n with qty := n.qty - qty }) inside
            ⟨fits.level, fits.prev, fits.next⟩
          obtain ⟨after, wroteLevel, stays₂⟩ := stays₁.inBounds.setLevel n.side.isBuy
            { level with totalQty := level.totalQty - qty } (stays₁.node fits).level
            ⟨(stays₁.level bounds).head, (stays₁.level bounds).tail⟩
          rw [wrote, exec_ok_bind, wroteLevel, exec_ok_bind]
          exact ⟨after, true, rfl, stays₁.trans stays₂,
            fun impossible => absurd impossible (by decide)⟩

end InBounds

/-- A constructed book keeps to its bounds. -/
theorem create_inBounds {symbolId : SymbolId} {ladder : PriceLadderConfig} {fresh : OrderBook}
    (created : OrderBook.create symbolId ladder = .ok fresh) : fresh.InBounds := by
  obtain ⟨ladderOk, -, nodes, free, index, halves⟩ := create_ok created
  constructor
  · exact ladderOk
  · intro isBuy
    rw [halves, BookSide.empty, Array.size_replicate]
  · intro isBuy
    rw [halves, BookSide.empty, Array.size_replicate]
  · intro id slot indexed
    rw [index, Finmap.lookup_empty] at indexed
    cases indexed
  · intro slot listed
    rw [free] at listed
    cases listed
  · intro n member
    rw [nodes] at member
    cases Array.not_mem_empty n member
  · intro isBuy level member
    rw [halves, BookSide.empty, Array.mem_replicate] at member
    rw [member.2]
    exact ⟨.null _, .null _⟩

end

end OrderBook

end Exsim.Core
