import Exsim.OrderBook.Occupancy
import Exsim.Data.Linked
import Exsim.Data.Words
import Mathlib.Data.Finset.Card

/-! # What the slot pool, the level lists and the caches stand for -/

namespace Exsim.Core

open Data

/-- The slots queued at every level of both sides, `true` for bids. -/
abbrev Queues := Bool → Nat → List UInt32

def Queues.set (queues : Queues) (isBuy : Bool) (i : Nat) (slots : List UInt32) : Queues :=
  fun d j => if d = isBuy ∧ j = i then slots else queues d j

@[simp] theorem Queues.set_same (queues : Queues) (isBuy : Bool) (i : Nat) (slots : List UInt32) :
    queues.set isBuy i slots isBuy i = slots := by
  simp [Queues.set]

theorem Queues.set_other {queues : Queues} {isBuy d : Bool} {i j : Nat} {slots : List UInt32}
    (different : ¬ (d = isBuy ∧ j = i)) : queues.set isBuy i slots d j = queues d j := by
  simp only [Queues.set, if_neg different]

/-- A node without its pointers. -/
def Node.bare (n : Node) : Node := { n with prev := kNull, next := kNull }

namespace OrderBook

/-- The pointers stored in a slot. -/
def links (book : OrderBook) (slot : UInt32) : Option (UInt32 × UInt32) :=
  book.nodes[slot.toNat]?.map fun n => (n.prev, n.next)

/-- The contents of a slot without its pointers. -/
def bare (book : OrderBook) (slot : UInt32) : Option Node := book.nodes[slot.toNat]?.map Node.bare

/-- The order resting in a slot. -/
def orderAt (book : OrderBook) (slot : UInt32) : Option RestingOrderView :=
  (book.bare slot).map viewNode

/-- The level index of a price, without the cast. -/
def levelOf (book : OrderBook) (price : Price) : Nat := (price.toInt - book.minPrice.toInt).toNat

/-- The stored total of a level. -/
def total (book : OrderBook) (isBuy : Bool) (i : Nat) : Qty :=
  match (book.half isBuy).levels[i]? with
  | some level => level.totalQty
  | none => 0

/-- What the constructor checks about the price range. -/
structure LadderOk (book : OrderBook) : Prop where
  positive : 0 < book.minPrice.toInt
  order : book.minPrice.toInt ≤ book.maxPrice.toInt
  span : (book.levelCount.toNat : Int) = book.maxPrice.toInt - book.minPrice.toInt + 1

/-- The members no operation writes. -/
structure SameLadder (before after : OrderBook) : Prop where
  symbolId : after.symbolId = before.symbolId
  minPrice : after.minPrice = before.minPrice
  maxPrice : after.maxPrice = before.maxPrice
  levelCount : after.levelCount = before.levelCount

theorem SameLadder.refl (book : OrderBook) : SameLadder book book := ⟨rfl, rfl, rfl, rfl⟩

theorem SameLadder.trans {first second third : OrderBook} (left : SameLadder first second)
    (right : SameLadder second third) : SameLadder first third :=
  ⟨right.symbolId.trans left.symbolId, right.minPrice.trans left.minPrice,
    right.maxPrice.trans left.maxPrice, right.levelCount.trans left.levelCount⟩

theorem SameLadder.symm {before after : OrderBook} (same : SameLadder before after) :
    SameLadder after before :=
  ⟨same.symbolId.symm, same.minPrice.symm, same.maxPrice.symm, same.levelCount.symm⟩

/-- Slot `slot` holds the active order `n` queued at level `i` of its side. -/
structure Placed (book : OrderBook) (isBuy : Bool) (i : Nat) (slot : UInt32) (n : Node) : Prop where
  found : book.bare slot = some n
  active : n.active = true
  side : n.side.isBuy = isBuy
  level : n.levelIdx.toNat = i
  inBand : book.priceInBand n.price = true
  price : book.levelOf n.price = i
  indexed : book.index.lookup n.orderId = some slot

/-- The book's members agree that `queues` lists the resting orders' slots. -/
structure Represents (book : OrderBook) (queues : Queues) : Prop where
  ladder : LadderOk book
  levels : ∀ isBuy, (book.half isBuy).levels.size = book.levelCount.toNat
  occupancy : ∀ isBuy,
    Occupancy isBuy book.levelCount.toNat (book.half isBuy) fun i => queues isBuy i ≠ []
  count : ∀ isBuy, (book.half isBuy).levelCount =
    UInt64.ofNat {i ∈ Finset.range book.levelCount.toNat | queues isBuy i ≠ []}.card
  slots : book.nodes.size ≤ kNull.toNat
  level : ∀ isBuy i level, (book.half isBuy).levels[i]? = some level →
    level.head = (queues isBuy i).headD kNull ∧ level.tail = (queues isBuy i).getLastD kNull ∧
      level.count = UInt32.ofNat (queues isBuy i).length
  linked : ∀ isBuy i, Linked book.links kNull (queues isBuy i) kNull
  nodup : ∀ isBuy i, (queues isBuy i).Nodup
  placed : ∀ isBuy i slot, slot ∈ queues isBuy i → ∃ n, book.Placed isBuy i slot n
  index : ∀ id slot, book.index.lookup id = some slot →
    ∃ isBuy i n, slot ∈ queues isBuy i ∧ book.bare slot = some n ∧ n.orderId = id
  free : ∀ slot, slot ∈ book.free ↔ slot.toNat < book.nodes.size ∧ ∀ isBuy i, slot ∉ queues isBuy i
  freeNodup : book.free.Nodup
  inactive : ∀ slot n, book.bare slot = some n → (∀ isBuy i, slot ∉ queues isBuy i) →
      n.active = false

section Arithmetic

variable {book : OrderBook} {price : Price} {idx : UInt32}

theorem priceInBand_iff : book.priceInBand price = true ↔
    book.minPrice.toInt ≤ price.toInt ∧ price.toInt ≤ book.maxPrice.toInt := by
  simp [priceInBand, Int64.le_iff_toInt_le]

theorem price_eq (inBand : book.priceInBand price = true) :
    price.toInt = book.minPrice.toInt + book.levelOf price := by
  have bounds := priceInBand_iff.mp inBand
  rw [levelOf]
  omega

theorem LadderOk.levelOf_lt (ladder : LadderOk book) (inBand : book.priceInBand price = true) :
    book.levelOf price < book.levelCount.toNat := by
  have bounds := priceInBand_iff.mp inBand
  have span := ladder.span
  rw [levelOf]
  omega

theorem LadderOk.priceToIndex_toNat (ladder : LadderOk book)
    (inBand : book.priceInBand price = true) :
    (book.priceToIndex price).toNat = book.levelOf price := by
  have bounds := priceInBand_iff.mp inBand
  have positive := ladder.positive
  have difference : (price - book.minPrice).toInt = price.toInt - book.minPrice.toInt :=
    toInt_sub_of_le (by omega) bounds.1
  have word := toUInt64_toNat (price - book.minPrice) (by omega)
  have small := ladder.levelOf_lt inBand
  have limit := book.levelCount.toNat_lt
  rw [levelOf] at small ⊢
  rw [priceToIndex, UInt64.toNat_toUInt32]
  omega

theorem LadderOk.indexToPrice_toInt (ladder : LadderOk book)
    (inside : idx.toNat < book.levelCount.toNat) :
    (book.indexToPrice idx).toInt = book.minPrice.toInt + idx.toNat := by
  have positive := ladder.positive
  have span := ladder.span
  have upper := book.maxPrice.toInt_lt
  have word : idx.toUInt64.toInt64.toInt = idx.toNat := by
    rw [toInt_toInt64_of_lt] <;> rw [UInt32.toNat_toUInt64]
    have limit := idx.toNat_lt
    omega
  rw [indexToPrice, toInt_add_of_lt] <;> rw [word] <;> omega

/-- In-band prices are told apart by their level. -/
theorem levelOf_inj {other : Price}
    (inBand : book.priceInBand price = true) (otherInBand : book.priceInBand other = true)
    (same : book.levelOf price = book.levelOf other) : price = other := by
  apply Int64.toInt_inj.mp
  rw [price_eq inBand, price_eq otherInBand, same]

theorem SameLadder.priceInBand {before after : OrderBook} (same : SameLadder before after)
    (price : Price) :
    after.priceInBand price = before.priceInBand price := by
  simp only [OrderBook.priceInBand, same.minPrice, same.maxPrice]

theorem SameLadder.levelOf {before after : OrderBook} (same : SameLadder before after)
    (price : Price) :
    after.levelOf price = before.levelOf price := by
  simp only [OrderBook.levelOf, same.minPrice]

theorem SameLadder.ladderOk {before after : OrderBook} (same : SameLadder before after)
    (ladder : LadderOk before) : LadderOk after := by
  obtain ⟨positive, order, span⟩ := ladder
  constructor
  · rwa [same.minPrice]
  · rwa [same.minPrice, same.maxPrice]
  · rwa [same.minPrice, same.maxPrice, same.levelCount]

end Arithmetic

section Fields

variable {book : OrderBook} {isBuy d : Bool} {half : BookSide}

@[simp] theorem half_withHalf_same : (book.withHalf isBuy half).half isBuy = half := by
  cases isBuy <;> rfl

theorem half_withHalf : (book.withHalf isBuy half).half d =
    if d = isBuy then half else book.half d := by
  cases isBuy <;> cases d <;> rfl

@[simp] theorem nodes_withHalf : (book.withHalf isBuy half).nodes = book.nodes := by
  cases isBuy <;> rfl
@[simp] theorem free_withHalf : (book.withHalf isBuy half).free = book.free := by
  cases isBuy <;> rfl
@[simp] theorem index_withHalf : (book.withHalf isBuy half).index = book.index := by
  cases isBuy <;> rfl
@[simp] theorem symbolId_withHalf : (book.withHalf isBuy half).symbolId = book.symbolId := by
  cases isBuy <;> rfl
@[simp] theorem minPrice_withHalf : (book.withHalf isBuy half).minPrice = book.minPrice := by
  cases isBuy <;> rfl
@[simp] theorem maxPrice_withHalf : (book.withHalf isBuy half).maxPrice = book.maxPrice := by
  cases isBuy <;> rfl
@[simp] theorem levelCount_withHalf : (book.withHalf isBuy half).levelCount = book.levelCount := by
  cases isBuy <;> rfl

theorem sameLadder_withHalf : SameLadder book (book.withHalf isBuy half) :=
  ⟨symbolId_withHalf, minPrice_withHalf, maxPrice_withHalf, levelCount_withHalf⟩

@[simp] theorem withHalf_withHalf {other : BookSide} :
    (book.withHalf isBuy half).withHalf isBuy other = book.withHalf isBuy other := by
  cases isBuy <;> rfl

theorem node_of_getElem? {slot : UInt32} {n : Node} (found : book.nodes[slot.toNat]? = some n) :
    book.node slot = .ok n := readAt_of_getElem? found

theorem setNode_of_lt {slot : UInt32} (n : Node) (inside : slot.toNat < book.nodes.size) :
    book.setNode slot n = .ok { book with nodes := book.nodes.setIfInBounds slot.toNat n } := by
  rw [setNode, writeAt_of_lt n inside]
  rfl

theorem levelFor_of_getElem? {idx : UInt32} {level : Level}
    (found : (book.half isBuy).levels[idx.toNat]? = some level) :
    book.levelFor isBuy idx = .ok level :=
  readAt_of_getElem? found

theorem setLevel_of_lt {idx : UInt32} (level : Level)
    (inside : idx.toNat < (book.half isBuy).levels.size) :
    book.setLevel isBuy idx level = .ok (book.withHalf isBuy
      { book.half isBuy with
        levels := (book.half isBuy).levels.setIfInBounds idx.toNat level }) := by
  rw [setLevel, writeAt_of_lt level inside]
  rfl

theorem getElem?_of_bare {slot : UInt32} {n : Node} (found : book.bare slot = some n) :
    ∃ full, book.nodes[slot.toNat]? = some full ∧ full.bare = n := by
  rw [bare, Option.map_eq_some_iff] at found
  exact found

theorem links_of_getElem? {slot : UInt32} {n : Node} (found : book.nodes[slot.toNat]? = some n) :
    book.links slot = some (n.prev, n.next) := by
  simp only [links, found, Option.map_some]

theorem bare_of_getElem? {slot : UInt32} {n : Node} (found : book.nodes[slot.toNat]? = some n) :
    book.bare slot = some n.bare := by
  simp only [bare, found, Option.map_some]

/-- `contains` as an index lookup. -/
theorem contains_eq_false {id : OrderId} : book.contains id = false ↔
    book.index.lookup id = none := by
  simp [contains]

end Fields

namespace Represents

variable {book : OrderBook} {queues : Queues} {isBuy d : Bool} {i j : Nat} {slot : UInt32}

theorem inside (rep : book.Represents queues) (member : slot ∈ queues isBuy i) :
    i < book.levelCount.toNat :=
  (rep.occupancy isBuy).inside i (List.ne_nil_of_mem member)

theorem slot_lt (rep : book.Represents queues) (member : slot ∈ queues isBuy i) :
    slot.toNat < book.nodes.size := by
  obtain ⟨n, placed⟩ := rep.placed isBuy i slot member
  obtain ⟨full, found, -⟩ := getElem?_of_bare placed.found
  exact (Array.getElem?_eq_some_iff.mp found).1

theorem slot_ne_null (rep : book.Represents queues) (member : slot ∈ queues isBuy i) :
    slot ≠ kNull := by
  rintro rfl
  exact Nat.not_lt.mpr rep.slots (rep.slot_lt member)

/-- A slot is queued at one level only. -/
theorem unique (rep : book.Represents queues) (left : slot ∈ queues isBuy i)
    (right : slot ∈ queues d j) :
    isBuy = d ∧ i = j := by
  obtain ⟨n, placed⟩ := rep.placed isBuy i slot left
  obtain ⟨m, other⟩ := rep.placed d j slot right
  have same : n = m := Option.some.inj (placed.found.symm.trans other.found)
  subst same
  exact ⟨placed.side.symm.trans other.side, placed.level.symm.trans other.level⟩

theorem length_le (rep : book.Represents queues) (isBuy : Bool) (i : Nat) :
    (queues isBuy i).length ≤ book.nodes.size := by
  have injective : ((queues isBuy i).map UInt32.toNat).Nodup :=
    (rep.nodup isBuy i).map fun _ _ same => UInt32.toNat_inj.mp same
  have bounded : ((queues isBuy i).map UInt32.toNat).toFinset ⊆ Finset.range book.nodes.size := by
    intro n member
    simp only [List.mem_toFinset, List.mem_map] at member
    obtain ⟨slot, member, rfl⟩ := member
    exact Finset.mem_range.mpr (rep.slot_lt member)
  have card := Finset.card_le_card bounded
  rwa [List.toFinset_card_of_nodup injective, List.length_map, Finset.card_range] at card

theorem count_toNat (rep : book.Represents queues) {level : Level}
    (found : (book.half isBuy).levels[i]? = some level) :
    level.count.toNat = (queues isBuy i).length := by
  have bound := Nat.le_trans (rep.length_le isBuy i) rep.slots
  rw [(rep.level isBuy i level found).2.2, UInt32.toNat_ofNat']
  exact Nat.mod_eq_of_lt (Nat.lt_of_le_of_lt bound (by decide))

/-- There are too few levels for their count to wrap. -/
theorem levelCount_toNat (rep : book.Represents queues) (isBuy : Bool) :
    (book.half isBuy).levelCount.toNat =
    {i ∈ Finset.range book.levelCount.toNat | queues isBuy i ≠ []}.card := by
  have few := Finset.card_filter_le (Finset.range book.levelCount.toNat) fun i =>
    queues isBuy i ≠ []
  rw [Finset.card_range] at few
  have bound := book.levelCount.toNat_lt
  rw [rep.count,
    UInt64.toNat_ofNat_of_lt' (Nat.lt_of_le_of_lt few (Nat.lt_trans bound (by decide)))]

theorem level_exists (rep : book.Represents queues) (isBuy : Bool)
    (bound : i < book.levelCount.toNat) :
    ∃ level, (book.half isBuy).levels[i]? = some level :=
  ⟨_, Array.getElem?_eq_getElem (by rw [rep.levels isBuy]; exact bound)⟩

end Represents

end OrderBook

end Exsim.Core
