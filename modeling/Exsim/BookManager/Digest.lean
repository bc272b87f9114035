import Exsim.BookManager.Checksum
import Exsim.BookManager.Totals
import Exsim.OrderBook.Digest

/-! # The checksum of the books read off their orders -/

namespace Exsim.Core

namespace ArrivalMarket

def digest (market : ArrivalMarket) : UInt64 :=
  hashWords 0x424f4f4b4d475231 ((List.range market.maxSymbol.toNat).map fun i =>
    hashWords 0x45584348424f4f4b (market.books (UInt32.ofNat (i + 1))).checksumWords)

/-- No price of a book has more on it than a total counts. -/
def Countable (market : ArrivalMarket) : Prop :=
  ∀ symbol, market.validSymbol symbol = true → (market.books symbol).orders.Countable

end ArrivalMarket

namespace BookManager

variable {manager : BookManager} {market : ArrivalMarket}

theorem Models.digest_eq (models : manager.Models market) (exact : manager.Exact market) :
    manager.digest = market.digest := by
  have each : ∀ symbol book, market.validSymbol symbol = true →
      manager.books[symbol.toNat]? = some book →
      book.digest = hashWords 0x45584348424f4f4b (market.books symbol).checksumWords := by
    intro symbol book valid stored
    obtain ⟨other, found, refines⟩ := models.books symbol valid
    obtain rfl := Option.some.inj (stored.symm.trans found)
    exact refines.digest_eq_words (exact symbol book valid stored)
  rw [digest, models.map_activeBooks each, ArrivalMarket.digest, models.maxSymbol]

theorem Models.fits_iff (models : manager.Models market) :
    manager.Fits market ↔ market.Countable := by
  constructor
  · intro fits symbol valid
    obtain ⟨book, stored, refines⟩ := models.books symbol valid
    exact refines.fits_iff.mp (fits symbol book valid stored)
  · intro countable symbol book valid stored
    obtain ⟨other, found, refines⟩ := models.books symbol valid
    obtain rfl := Option.some.inj (stored.symm.trans found)
    exact refines.fits_iff.mpr (countable symbol valid)

end BookManager

end Exsim.Core
