import Exsim.OrderBook.Invariant
import Exsim.Reference.ArrivalMarket
import Exsim.Data.Run

/-! # The book manager against the reference market -/

namespace Exsim.Core

open Data

namespace ArrivalMarket

/-- Every book can take one more order. -/
def HasRoom (market : ArrivalMarket) : Prop :=
  ∀ symbol, market.validSymbol symbol = true → (market.books symbol).orders.length < kNull.toNat

end ArrivalMarket

namespace BookManager

structure Models (manager : BookManager) (market : ArrivalMarket) : Prop where
  maxSymbol : market.maxSymbol = manager.maxSymbol
  size : manager.books.size = manager.maxSymbol.toNat + 1
  books : ∀ symbol, market.validSymbol symbol = true →
    ∃ book, manager.books[symbol.toNat]? = some book ∧ book.Refines (market.books symbol)
  index : ∀ id, manager.orderToSymbol.lookup id = market.symbolOf id
  sound : market.Sound
  listed : market.Listed

/-- Every stored level total is the quantity resting there. -/
def Exact (manager : BookManager) (market : ArrivalMarket) : Prop :=
  ∀ symbol book, market.validSymbol symbol = true → manager.books[symbol.toNat]? = some book →
    book.Exact (market.books symbol)

/-- Every level's quantity fits its counter. -/
def Fits (manager : BookManager) (market : ArrivalMarket) : Prop :=
  ∀ symbol book, market.validSymbol symbol = true → manager.books[symbol.toNat]? = some book →
    book.Fits (market.books symbol)

/-- A call of the manager that follows the reference market. -/
structure Advances (manager later : BookManager) (market market' : ArrivalMarket) : Prop where
  models : later.Models market'
  exact : later.Fits market' → manager.Exact market → later.Exact market'
  /-- The books of the other symbols, and their ladders, stay. -/
  ladders : ∀ (symbol : SymbolId) (book : OrderBook), manager.books[symbol.toNat]? = some book →
    ∃ after, later.books[symbol.toNat]? = some after ∧ OrderBook.SameLadder book after

section

variable {manager later : BookManager} {market base : ArrivalMarket} {symbol : SymbolId}
  {book after : OrderBook} {ref : ArrivalBook} {id added : OrderId} {events : List MdEvent}

theorem Models.validSymbol (models : manager.Models market) (symbol : SymbolId) :
    manager.validSymbol symbol = market.validSymbol symbol := by
  rw [BookManager.validSymbol, ArrivalMarket.validSymbol, models.maxSymbol]

theorem Advances.refl (models : manager.Models market) : Advances manager manager market market :=
  ⟨models, fun _ exact => exact, fun _ book stored => ⟨book, stored, .refl book⟩⟩

theorem Models.containsOrder (models : manager.Models market) (id : OrderId) :
    manager.containsOrder id = (market.symbolOf id).isSome := by
  rw [BookManager.containsOrder, models.index]

/-- Symbol zero stands for no symbol. -/
theorem Models.orderSymbol (models : manager.Models market) (id : OrderId) :
    manager.orderSymbol id = (market.symbolOf id).getD 0 := by
  rw [BookManager.orderSymbol, models.index]

theorem validSymbol_ne_zero (valid : market.validSymbol symbol = true) : symbol ≠ 0 := by
  rintro rfl
  cases valid

theorem Models.inside (models : manager.Models market) (valid : market.validSymbol symbol = true) :
    symbol.toNat < manager.books.size := by
  simp only [ArrivalMarket.validSymbol, Bool.not_eq_true', Bool.or_eq_false_iff,
    decide_eq_false_iff_not, gt_iff_lt, UInt32.lt_iff_toNat_lt, models.maxSymbol] at valid
  rw [models.size]
  omega

theorem withBook_run (inside : symbol.toNat < manager.books.size) :
    manager.withBook symbol after =
      .ok { manager with books := manager.books.setIfInBounds symbol.toNat after } := by
  rw [withBook, writeAt_of_lt after inside]
  rfl

/-- The books once one of them is replaced. -/
theorem getElem?_withBook (inside : symbol.toNat < manager.books.size) (other : SymbolId) :
    (manager.books.setIfInBounds symbol.toNat after)[other.toNat]? =
      if other = symbol then some after else manager.books[other.toNat]? := by
  rw [Array.getElem?_setIfInBounds]
  split
  · rename_i same
    rw [if_pos (UInt32.toNat_inj.mp same.symm)]
  · rename_i different
    rw [if_neg fun same => different (congrArg UInt32.toNat same).symm]

/-- A call that takes one book to `after` and brings the index up to date. -/
theorem Models.settle (models : manager.Models market) (valid : market.validSymbol symbol = true)
    (stored : manager.books[symbol.toNat]? = some book)
    (follows : OrderBook.Follows book after (market.books symbol) ref) (sound : ref.Sound)
    (maxSymbol : later.maxSymbol = manager.maxSymbol)
    (books : later.books = manager.books.setIfInBounds symbol.toNat after)
    (sameMax : base.maxSymbol = market.maxSymbol) (sameBooks : base.books = market.books)
    (listed : base.Listed)
    (index : ∀ id, later.orderToSymbol.lookup id = (base.settle symbol ref added).symbolOf id) :
    Advances manager later market (base.settle symbol ref added) := by
  have inside := models.inside valid
  have validBase : ∀ other, base.validSymbol other = market.validSymbol other := fun other => by
    rw [ArrivalMarket.validSymbol, sameMax, ArrivalMarket.validSymbol]
  have baseSound : base.Sound :=
    ⟨fun other ok => sameBooks ▸ models.sound.books other (validBase other ▸ ok),
      fun other ok => sameBooks ▸ models.sound.symbolId other (validBase other ▸ ok)⟩
  have ownSymbol : ref.symbolId = symbol := by
    obtain ⟨before, found, refines⟩ := models.books symbol valid
    obtain rfl := Option.some.inj (stored.symm.trans found)
    rw [← follows.refines.symbolId, follows.ladder.symbolId, refines.symbolId,
      models.sound.symbolId symbol valid]
  refine ⟨⟨?_, ?_, ?_, index, baseSound.settle sound ownSymbol,
    listed.settle (validBase symbol ▸ valid)⟩, ?_, ?_⟩
  · exact sameMax.trans (models.maxSymbol.trans maxSymbol.symm)
  · rw [books, Array.size_setIfInBounds, maxSymbol, models.size]
  · intro other ok
    rw [books, getElem?_withBook inside]
    by_cases isSymbol : other = symbol
    · rw [if_pos isSymbol, isSymbol, ArrivalMarket.settle_books_self]
      exact ⟨after, rfl, follows.refines⟩
    · rw [if_neg isSymbol, ArrivalMarket.settle_books_of_ne isSymbol, sameBooks]
      exact models.books other (validBase other ▸ ok)
  · intro fits exact other final ok found
    have fit := fits other final ok found
    rw [books, getElem?_withBook inside] at found
    by_cases isSymbol : other = symbol
    · rw [if_pos isSymbol] at found
      obtain rfl := Option.some.inj found
      rw [isSymbol, ArrivalMarket.settle_books_self] at fit ⊢
      exact follows.exact fit (exact symbol book valid stored)
    · rw [if_neg isSymbol] at found
      rw [ArrivalMarket.settle_books_of_ne isSymbol, sameBooks]
      exact exact other final (validBase other ▸ ok) found
  · intro other before found
    rw [books, getElem?_withBook inside]
    by_cases isSymbol : other = symbol
    · rw [isSymbol, stored] at found
      obtain rfl := Option.some.inj found
      rw [if_pos isSymbol]
      exact ⟨after, rfl, follows.ladder⟩
    · rw [if_neg isSymbol]
      exact ⟨before, found, .refl before⟩

section Index

theorem dropGone_same (book : OrderBook) (manager : BookManager) (events : List MdEvent) :
    (dropGone book manager events).books = manager.books ∧
      (dropGone book manager events).maxSymbol = manager.maxSymbol := by
  induction events generalizing manager with
  | nil => exact ⟨rfl, rfl⟩
  | cons ev events ih =>
      rw [dropGone, List.foldl_cons]
      split
      · exact ih (manager.removeIndex ev.orderId)
      · exact ih manager

theorem dropGone_lookup (book : OrderBook) (manager : BookManager) (events : List MdEvent)
    (id : OrderId) :
    (dropGone book manager events).orderToSymbol.lookup id =
      if (∃ ev ∈ events, ev.removes = true ∧ ev.orderId = id) ∧ book.contains id = false then none
      else manager.orderToSymbol.lookup id := by
  induction events generalizing manager with
  | nil => rw [if_neg (by simp)]; rfl
  | cons ev events ih =>
      rw [dropGone, List.foldl_cons]
      change (dropGone book (if ev.removes && !book.contains ev.orderId then _ else _)
        events).orderToSymbol.lookup id = _
      rw [ih]
      by_cases later : (∃ ev ∈ events, ev.removes = true ∧ ev.orderId = id) ∧
        book.contains id = false
      · rw [if_pos later, if_pos]
        obtain ⟨⟨ev, member, named⟩, gone⟩ := later
        exact ⟨⟨ev, List.mem_cons_of_mem _ member, named⟩, gone⟩
      · rw [if_neg later]
        by_cases now : (ev.removes && !book.contains ev.orderId) = true
        · rw [if_pos now]
          rw [Bool.and_eq_true, Bool.not_eq_true'] at now
          by_cases isId : ev.orderId = id
          · subst isId
            rw [if_pos ⟨⟨ev, List.mem_cons_self, now.1, rfl⟩, now.2⟩]
            exact Finmap.lookup_erase _ _
          · rw [if_neg]
            · exact Finmap.lookup_erase_ne (Ne.symm isId)
            · rintro ⟨⟨other, member, removes, named⟩, gone⟩
              rcases List.mem_cons.mp member with rfl | member
              · exact isId named
              · exact later ⟨⟨other, member, removes, named⟩, gone⟩
        · rw [if_neg now, if_neg]
          rintro ⟨⟨other, member, removes, named⟩, gone⟩
          rcases List.mem_cons.mp member with rfl | member
          · exact now (by rw [removes, named, gone]; rfl)
          · exact later ⟨⟨other, member, removes, named⟩, gone⟩

theorem refresh_run (stored : manager.books[symbol.toNat]? = some after) (added : OrderId) :
    ∃ refreshed, manager.refreshIndexAfterAdd symbol added = .ok refreshed ∧
    refreshed.books = manager.books ∧ refreshed.maxSymbol = manager.maxSymbol ∧
    ∀ id, refreshed.orderToSymbol.lookup id =
        if id = added ∧ after.contains added = true then some symbol
        else manager.orderToSymbol.lookup id := by
  rw [refreshIndexAfterAdd, readAt_of_getElem? stored, exec_ok_bind]
  by_cases held : after.contains added = true
  · rw [if_pos held]
    refine ⟨_, rfl, rfl, rfl, fun id => ?_⟩
    by_cases isAdded : id = added
    · rw [if_pos ⟨isAdded, held⟩, isAdded]
      exact Finmap.lookup_insert _
    · rw [if_neg fun both => isAdded both.1]
      exact Finmap.lookup_insert_of_ne _ isAdded
  · rw [if_neg held]
    exact ⟨manager, rfl, rfl, rfl, fun id => by rw [if_neg fun both => held both.2]⟩

/-- Dropping what the events removed and adding what rests settles the index. -/
theorem reindex_run (base : ArrivalMarket) (start : BookManager)
    (stored : start.books[symbol.toNat]? = some after)
    (reported : ArrivalBook.Reported (base.books symbol) events ref) (refines : after.Refines ref)
    (before : ∀ id, start.orderToSymbol.lookup id = base.symbolOf id) (added : OrderId) :
    ∃ later, (dropGone after start events).refreshIndexAfterAdd symbol added = .ok later ∧
      later.books = start.books ∧ later.maxSymbol = start.maxSymbol ∧
      ∀ id, later.orderToSymbol.lookup id = (base.settle symbol ref added).symbolOf id := by
  obtain ⟨sameBooks, sameMax⟩ := dropGone_same after start events
  obtain ⟨later, ran, books, maxSymbol, lookup⟩ := refresh_run (sameBooks.symm ▸ stored) added
  refine ⟨later, ran, books.trans sameBooks, maxSymbol.trans sameMax, fun id => ?_⟩
  rw [lookup, dropGone_lookup, ArrivalMarket.settle_symbolOf, before]
  by_cases isAdded : id = added ∧ after.contains added = true
  · rw [if_pos isAdded, if_pos ⟨isAdded.1, by rw [isAdded.1, ← refines.contains]; exact isAdded.2⟩]
  · have notAdded : ¬(id = added ∧ ref.holds id = true) := fun both =>
      isAdded ⟨both.1, by rw [refines.contains, ← both.1]; exact both.2⟩
    rw [if_neg isAdded, if_neg notAdded, refines.contains]
    by_cases gone : ref.holds id = false
    · by_cases held : (base.books symbol).holds id = true
      · rw [if_pos ⟨reported.left held gone, gone⟩, if_pos ⟨held, gone⟩]
      · rw [if_neg, if_neg fun both => held both.1]
        rintro ⟨⟨ev, member, removes, rfl⟩, -⟩
        exact held (reported.known ev member removes)
    · rw [if_neg fun both => gone both.2, if_neg fun both => gone both.2]

end Index

end

section Create

/-- The reference market a new manager starts as. -/
def blank (manager : BookManager) : ArrivalMarket where
  maxSymbol := manager.maxSymbol
  books symbol :=
    match manager.books[symbol.toNat]? with
    | some book => book.blank
    | none => { symbolId := symbol, minPrice := 1, maxPrice := 0 }
  symbolOf _ := none

theorem blank_orders (manager : BookManager) (symbol : SymbolId) :
    (manager.blank.books symbol).orders = [] := by
  rw [blank]
  dsimp only
  split <;> rfl

/-- A new manager has a new book for each symbol and an empty index. -/
theorem create_ok {maxSymbol : SymbolId} {ladder : PriceLadderConfig} {fresh : BookManager}
    (created : BookManager.create maxSymbol ladder = some (.ok fresh)) :
    fresh.maxSymbol = maxSymbol ∧ fresh.orderToSymbol = ∅ ∧ fresh.books.size = maxSymbol.toNat + 1 ∧
      ∀ symbol : SymbolId, symbol.toNat ≤ maxSymbol.toNat →
      ∃ book, fresh.books[symbol.toNat]? = some book ∧
        OrderBook.create symbol (symbolLadder ladder symbol) = .ok book := by
  rw [BookManager.create] at created
  split at created
  · cases created
  · cases built : (List.range (maxSymbol.toNat + 1)).mapM fun s =>
        OrderBook.create (UInt32.ofNat s) (symbolLadder ladder (UInt32.ofNat s)) with
    | error exception => rw [built] at created; cases created
    | ok books =>
        rw [built] at created
        obtain rfl : ({ maxSymbol, ladder, books := books.toArray } : BookManager) = fresh :=
          Except.ok.inj (Option.some.inj created)
        obtain ⟨length, each⟩ := mapM_ok built
        rw [List.length_range] at length
        refine ⟨rfl, rfl, List.size_toArray.trans length, fun symbol inside => ?_⟩
        obtain ⟨book, stored, made⟩ := each symbol.toNat symbol.toNat
          (List.getElem?_range (by omega))
        rw [UInt32.ofNat_toNat] at made
        exact ⟨book, by rw [List.getElem?_toArray]; exact stored, made⟩

/-- The constructor returns where every ladder has a book. -/
theorem create_returns {maxSymbol : SymbolId} {ladder : PriceLadderConfig}
    (ends : maxSymbol ≠ 0xFFFFFFFF)
    (each : ∀ symbol, ∃ book, OrderBook.create symbol (symbolLadder ladder symbol) = .ok book) :
    ∃ fresh, BookManager.create maxSymbol ladder = some (.ok fresh) := by
  have each : ∀ s ∈ List.range (maxSymbol.toNat + 1), _ := fun s _ => each (UInt32.ofNat s)
  obtain ⟨books, made⟩ := mapM_returns each
  rw [BookManager.create, if_neg ends, made]
  exact ⟨_, rfl⟩

theorem create_spec {maxSymbol : SymbolId} {ladder : PriceLadderConfig} {fresh : BookManager}
    (created : BookManager.create maxSymbol ladder = some (.ok fresh)) :
    fresh.Models fresh.blank ∧ fresh.Exact fresh.blank := by
  obtain ⟨sameMax, noIndex, size, each⟩ := create_ok created
  have inside : ∀ symbol : SymbolId, fresh.blank.validSymbol symbol = true →
      symbol.toNat ≤ maxSymbol.toNat := by
    intro symbol valid
    simp only [ArrivalMarket.validSymbol, Bool.not_eq_true', Bool.or_eq_false_iff,
      decide_eq_false_iff_not, gt_iff_lt, UInt32.lt_iff_toNat_lt, blank, sameMax] at valid
    exact Nat.le_of_not_lt valid.2
  have absent : ∀ id, fresh.orderToSymbol.lookup id = none :=
    fun id => by rw [noIndex, Finmap.lookup_empty]
  refine ⟨⟨rfl, by rw [size, sameMax], ?_, absent, ⟨?_, ?_⟩, fun id symbol found => by cases found⟩,
    ?_⟩
  · intro symbol valid
    obtain ⟨book, stored, made⟩ := each symbol (inside symbol valid)
    refine ⟨book, stored, ?_⟩
    simp only [blank, stored]
    exact (OrderBook.create_spec made).1
  · intro symbol valid
    obtain ⟨book, stored, made⟩ := each symbol (inside symbol valid)
    simp only [blank, stored]
    exact (OrderBook.create_tracks made).2
  · intro symbol valid
    obtain ⟨book, stored, made⟩ := each symbol (inside symbol valid)
    simp only [blank, stored]
    exact (OrderBook.create_ok made).2.1
  · intro symbol book valid stored
    obtain ⟨other, found, made⟩ := each symbol (inside symbol valid)
    obtain rfl := Option.some.inj (stored.symm.trans found)
    simp only [blank, found]
    exact (OrderBook.create_spec made).2

end Create

end BookManager

end Exsim.Core
