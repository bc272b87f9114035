import Exsim.BookManager.Index
import Exsim.OrderBook.Checksum

/-! # The checksum of the book manager -/

namespace Exsim.Core.BookManager

variable {manager : BookManager} {market : ArrivalMarket}

/-- The digests of the books, in symbol order. -/
def digest (manager : BookManager) : UInt64 :=
  hashWords 0x424f4f4b4d475231 (manager.activeBooks.map OrderBook.digest)

theorem foldlM_checksum {books : List OrderBook} (refines : ∀ book ∈ books, ∃ ref, book.Refines ref)
    (h : UInt64) :
    books.foldlM (fun h book => return hashCombine h (← book.checksum)) h =
      (.ok (hashWords h (books.map OrderBook.digest)) : Exec UInt64) := by
  induction books generalizing h with
  | nil => rfl
  | cons book books ih =>
      obtain ⟨ref, first⟩ := refines book List.mem_cons_self
      rw [List.foldlM_cons, first.checksum, exec_ok_bind, exec_pure, exec_ok_bind, List.map_cons,
        hashWords_cons]
      exact ih (fun other member => refines other (List.mem_cons_of_mem book member)) _

theorem Models.checksum (models : manager.Models market) :
    manager.checksum = .ok manager.digest := by
  refine foldlM_checksum (fun book member => ?_) _
  obtain ⟨symbol, valid, stored⟩ := models.mem_activeBooks.mp member
  obtain ⟨other, found, refines⟩ := models.books symbol valid
  obtain rfl := Option.some.inj (stored.symm.trans found)
  exact ⟨_, refines⟩

end Exsim.Core.BookManager
