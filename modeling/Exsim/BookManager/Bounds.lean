import Exsim.BookManager.Refinement
import Exsim.OrderBook.Bounds

/-! # The feed path of the book manager

A feed event never faults.  An event that is refused leaves every book and the
index as they are, also where the index has gone stale.
-/

namespace Exsim.Core.BookManager

open Data

structure InBounds (manager : BookManager) : Prop where
  size : manager.books.size = manager.maxSymbol.toNat + 1
  books : ∀ book ∈ manager.books, book.InBounds
  index : ∀ id symbol, manager.orderToSymbol.lookup id = some symbol →
      symbol.toNat < manager.books.size

section

variable {manager after : BookManager} {symbol : SymbolId} {book : OrderBook} {id : OrderId}

namespace InBounds

theorem readBook (inBounds : manager.InBounds) (inside : symbol.toNat < manager.books.size) :
    ∃ book, readAt manager.books symbol.toNat = .ok book ∧
    manager.books[symbol.toNat]? = some book ∧ book.InBounds := by
  have stored := Array.getElem?_eq_getElem inside
  exact ⟨_, readAt_of_getElem? stored, stored, inBounds.books _ (Array.getElem_mem inside)⟩

theorem valid_inside (inBounds : manager.InBounds) (valid : manager.validSymbol symbol = true) :
    symbol.toNat < manager.books.size := by
  simp only [validSymbol, Bool.not_eq_true', Bool.or_eq_false_iff,
    decide_eq_false_iff_not, gt_iff_lt, UInt32.lt_iff_toNat_lt] at valid
  rw [inBounds.size]
  omega

/-- A stale entry of the index still names one of the books. -/
theorem indexed_inside (inBounds : manager.InBounds) (listed : manager.orderSymbol id ≠ 0) :
    (manager.orderSymbol id).toNat < manager.books.size := by
  rw [orderSymbol] at listed ⊢
  cases found : manager.orderToSymbol.lookup id with
  | none =>
      rw [found] at listed
      exact absurd rfl listed
  | some symbol => exact inBounds.index id symbol found

theorem withBook (inBounds : manager.InBounds) (inside : symbol.toNat < manager.books.size)
    (kept : book.InBounds) :
    ∃ after, manager.withBook symbol book = .ok after ∧ after.InBounds ∧
    after.books.size = manager.books.size ∧
    (manager.books[symbol.toNat]? = some book → after = manager) := by
  have size : (manager.books.setIfInBounds symbol.toNat book).size = manager.books.size :=
    Array.size_setIfInBounds
  refine ⟨_, withBook_run inside,
    ⟨size.trans inBounds.size, fun other member => ?_, fun id found listed => ?_⟩,
    size, fun same => ?_⟩
  · obtain member | isNew := Array.mem_or_eq_of_mem_setIfInBounds member
    · exact inBounds.books other member
    · rw [isNew]
      exact kept
  · rw [size]
    exact inBounds.index id found listed
  · have unchanged : manager.books.setIfInBounds symbol.toNat book = manager.books := by
      refine Array.ext_getElem? fun i => ?_
      rw [Array.getElem?_setIfInBounds]
      split
      · rename_i here
        rw [← here, same]
      · rfl
    rw [unchanged]

theorem removeIndex (inBounds : manager.InBounds) (id : OrderId) :
    (manager.removeIndex id).InBounds := by
  refine ⟨inBounds.size, inBounds.books, fun other found listed => ?_⟩
  by_cases same : other = id
  · rw [BookManager.removeIndex, same, Finmap.lookup_erase] at listed
    cases listed
  · rw [BookManager.removeIndex, Finmap.lookup_erase_ne same] at listed
    exact inBounds.index other found listed

theorem insertIndex (inBounds : manager.InBounds) (id : OrderId)
    (inside : symbol.toNat < manager.books.size) :
    ({ manager with orderToSymbol := manager.orderToSymbol.insert id symbol } :
      BookManager).InBounds := by
  refine ⟨inBounds.size, inBounds.books, fun other found listed => ?_⟩
  by_cases same : other = id
  · rw [same, Finmap.lookup_insert] at listed
    rw [← Option.some.inj listed]
    exact inside
  · rw [Finmap.lookup_insert_of_ne _ same] at listed
    exact inBounds.index other found listed

theorem cancelOrder (inBounds : manager.InBounds) (seq : SeqNo) (id : OrderId) :
    ∃ after ev, manager.cancelOrder seq id = .ok (after, ev) ∧ after.InBounds ∧
    (ev = none → after = manager) := by
  rw [BookManager.cancelOrder]
  dsimp only
  split
  · exact ⟨manager, none, rfl, inBounds, fun _ => rfl⟩
  · rename_i listed
    have inside := inBounds.indexed_inside listed
    obtain ⟨book, read, stored, kept⟩ := inBounds.readBook inside
    obtain ⟨changed, ev, cancelled, stays, still⟩ := kept.cancelOrder seq id
    obtain ⟨after, wrote, keeps, size, same⟩ := inBounds.withBook inside stays.inBounds
    rw [read, exec_ok_bind, cancelled, exec_ok_bind]
    dsimp only
    rw [wrote, exec_ok_bind]
    cases ev with
    | none =>
        have unchanged := same (by rw [still rfl]; exact stored)
        exact ⟨after, none, rfl, keeps, fun _ => unchanged⟩
    | some ev => exact ⟨_, some ev, rfl, keeps.removeIndex id, fun impossible => nomatch impossible⟩

theorem feedAdd (inBounds : manager.InBounds) (ev : MdEvent) :
    ∃ after ok, manager.feedAdd ev = .ok (after, ok) ∧ after.InBounds ∧
    (ok = false → after = manager) := by
  rw [BookManager.feedAdd]
  split
  · exact ⟨manager, false, rfl, inBounds, fun _ => rfl⟩
  · rename_i valid
    have valid : manager.validSymbol ev.symbolId = true := by simpa using valid
    have inside := inBounds.valid_inside valid
    obtain ⟨book, read, stored, kept⟩ := inBounds.readBook inside
    obtain ⟨changed, ok, added, stays, still⟩ :=
      kept.feedAdd ev.orderId ev.accountId ev.side ev.price ev.qty
    obtain ⟨after, wrote, keeps, size, same⟩ := inBounds.withBook inside stays.inBounds
    rw [read, exec_ok_bind, added, exec_ok_bind]
    dsimp only
    rw [wrote, exec_ok_bind]
    cases ok with
    | false =>
        have unchanged := same (by rw [still rfl]; exact stored)
        exact ⟨after, false, rfl, keeps, fun _ => unchanged⟩
    | true => exact ⟨_, true, rfl, keeps.insertIndex ev.orderId (by rw [size]; exact inside),
      fun impossible => nomatch impossible⟩

theorem feedExecute (inBounds : manager.InBounds) (ev : MdEvent) :
    ∃ after ok, manager.feedExecute ev = .ok (after, ok) ∧ after.InBounds ∧
    (ok = false → after = manager) := by
  rw [BookManager.feedExecute]
  dsimp only
  split
  · exact ⟨manager, false, rfl, inBounds, fun _ => rfl⟩
  · rename_i listed
    have inside := inBounds.indexed_inside listed
    obtain ⟨book, read, stored, kept⟩ := inBounds.readBook inside
    obtain ⟨changed, ok, executed, stays, still⟩ := kept.feedExecute ev.orderId ev.qty
    obtain ⟨after, wrote, keeps, size, same⟩ := inBounds.withBook inside stays.inBounds
    rw [read, exec_ok_bind, executed, exec_ok_bind]
    dsimp only
    rw [wrote, exec_ok_bind]
    split
    · rename_i gone
      rw [Bool.and_eq_true] at gone
      rw [gone.1]
      exact ⟨_, true, rfl, keeps.removeIndex ev.orderId, fun impossible => nomatch impossible⟩
    · refine ⟨after, ok, rfl, keeps, fun refused => same ?_⟩
      rw [still refused]
      exact stored

end InBounds

theorem create_inBounds {maxSymbol : SymbolId} {ladder : PriceLadderConfig} {fresh : BookManager}
    (created : BookManager.create maxSymbol ladder = some (.ok fresh)) : fresh.InBounds := by
  obtain ⟨sameMax, noIndex, size, each⟩ := create_ok created
  refine ⟨by rw [size, sameMax], fun book member => ?_, fun id symbol listed => ?_⟩
  · obtain ⟨i, stored⟩ := Array.mem_iff_getElem?.mp member
    have inside := (Array.getElem?_eq_some_iff.mp stored).1
    have bound := maxSymbol.toNat_lt
    have named : (UInt32.ofNat i).toNat = i := by
      rw [UInt32.toNat_ofNat', Nat.mod_eq_of_lt (by omega)]
    obtain ⟨made, found, created⟩ := each (UInt32.ofNat i) (by omega)
    rw [named, stored] at found
    rw [Option.some.inj found]
    exact OrderBook.create_inBounds created
  · rw [noIndex, Finmap.lookup_empty] at listed
    cases listed

end

end Exsim.Core.BookManager
