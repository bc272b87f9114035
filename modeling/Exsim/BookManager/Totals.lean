import Exsim.BookManager.Index
import Exsim.OrderBook.Totals
import Exsim.Reference.Commands

/-! # Level totals across the books -/

namespace Exsim.Core.BookManager

open Data

/-- Whether what is left of a command comes to rest on a level whose quantity it
takes past 32 bits. -/
def overfills (manager : BookManager) (cmd : ClientCommand) : Bool :=
  cmd.type = .new && (manager.findBook cmd.symbolId).any (fun book =>
      book.overfills book.resting cmd.orderId cmd.side cmd.price cmd.qty cmd.tif) ||
    cmd.type = .replace &&
    (manager.findBook (manager.orderSymbol cmd.cancelOrderId)).any fun book =>
      book.overfills (Keyed.erase RestingOrderView.orderId cmd.cancelOrderId book.resting)
        cmd.orderId cmd.side cmd.price cmd.qty cmd.tif

/-- The books of one manager are on the ladders of another's. -/
def SameLadders (manager later : BookManager) : Prop :=
  ∀ (symbol : SymbolId) (book : OrderBook), manager.books[symbol.toNat]? = some book →
    ∃ after, later.books[symbol.toNat]? = some after ∧ OrderBook.SameLadder book after

section

variable {manager later : BookManager} {market market' : ArrivalMarket} {symbol : SymbolId}
  {after : ArrivalBook} {cmd : ClientCommand}

theorem SameLadders.refl (manager : BookManager) : SameLadders manager manager :=
  fun _ book stored => ⟨book, stored, .refl book⟩

theorem SameLadders.trans {first second third : BookManager} (left : SameLadders first second)
    (right : SameLadders second third) : SameLadders first third := by
  intro symbol book stored
  obtain ⟨middle, there, here⟩ := left symbol book stored
  obtain ⟨last, found, further⟩ := right symbol middle there
  exact ⟨last, found, here.trans further⟩

/-- Managers on the ladders of a third are on one another's. -/
theorem SameLadders.beside {first second third : BookManager} (left : SameLadders first second)
    (right : SameLadders first third) (size : second.books.size = first.books.size) :
    SameLadders second third := by
  intro symbol book stored
  have inside := (Array.getElem?_eq_some_iff.mp stored).1
  rw [size] at inside
  obtain ⟨middle, there, here⟩ := left symbol _ (Array.getElem?_eq_getElem inside)
  obtain rfl := Option.some.inj (stored.symm.trans there)
  obtain ⟨last, found, further⟩ := right symbol _ (Array.getElem?_eq_getElem inside)
  exact ⟨last, found, here.symm.trans further⟩

theorem Exact.fits (exact : manager.Exact market) : manager.Fits market :=
  fun symbol book valid stored => (exact symbol book valid stored).fits

/-- Every level still fits once one book has changed. -/
theorem Fits.update (fits : manager.Fits market) (sameMax : market'.maxSymbol = market.maxSymbol)
    (books : market'.books = Function.update market.books symbol after)
    (own : ∀ book, manager.books[symbol.toNat]? = some book → book.Fits after) :
    manager.Fits market' := by
  intro other book valid stored
  rw [ArrivalMarket.validSymbol, sameMax] at valid
  rw [books]
  by_cases here : other = symbol
  · subst here
    rw [Function.update_self]
    exact own book stored
  · rw [Function.update_of_ne here]
    exact fits other book valid stored

/-- What fits the books fits the books on the same ladders. -/
theorem Fits.transfer (fits : manager.Fits market') (models : manager.Models market)
    (sameMax : market'.maxSymbol = market.maxSymbol)
    (ladders : SameLadders manager later) : later.Fits market' := by
  intro symbol after valid stored
  have validHere : market.validSymbol symbol = true := by
    rw [ArrivalMarket.validSymbol, sameMax] at valid
    exact valid
  obtain ⟨book, found, -⟩ := models.books symbol validHere
  obtain ⟨other, there, ladder⟩ := ladders symbol book found
  obtain rfl := Option.some.inj (stored.symm.trans there)
  rw [OrderBook.Fits, ladder.restingQty]
  exact fits symbol book valid found

/-- A command leaves every level within its counter unless it overfills one. -/
theorem Models.apply_fits (models : manager.Models market) (exact : manager.Exact market)
    (seq : SeqNo) (known : cmd.type = .new → market.validSymbol cmd.symbolId = true)
    (within : manager.overfills cmd = false) :
    manager.Fits (market.apply seq cmd).1 := by
  have fits := exact.fits
  rw [overfills, Bool.or_eq_false_iff] at within
  by_cases isNew : cmd.type = .new
  · obtain ⟨book, stored, refines⟩ := models.books _ (known isNew)
    have sound := models.sound.books _ (known isNew)
    have within := within.1
    rw [isNew, decide_eq_true rfl, Bool.true_and, models.findBook (known isNew) stored,
      Option.any_some, OrderBook.overfills_perm (refines.resting_perm sound)] at within
    rw [ArrivalMarket.apply_new isNew]
    refine fits.update rfl rfl fun other found => ?_
    obtain rfl := Option.some.inj (stored.symm.trans found)
    exact (OrderBook.fits_addOrder sound (funext refines.priceInBand)
      (fits _ _ (known isNew) stored) seq _ _ _ _ _ _).mpr within
  by_cases isCancel : cmd.type = .cancel
  · obtain absent | found := ArrivalMarket.apply_cancel seq models.listed isCancel
    · rw [absent.2]
      exact fits
    · obtain ⟨ev, cancelled, ran⟩ := found
      rw [ran]
      rw [ArrivalMarket.cancelOrder] at cancelled ⊢
      cases target : market.symbolOf cmd.cancelOrderId with
      | none =>
          rw [target] at cancelled
          cases cancelled
      | some symbol =>
          obtain ⟨valid, -⟩ := models.listed _ _ target
          refine fits.update rfl rfl fun book stored isBuy i => ?_
          have before := fits symbol book valid stored isBuy i
          rw [OrderBook.restingQty_eq_weigh] at before ⊢
          exact Nat.lt_of_le_of_lt ((models.sound.books _ valid).weigh_cancelOrder_le seq _) before
  by_cases isReplace : cmd.type = .replace
  · rw [ArrivalMarket.apply_replace isReplace, ArrivalMarket.replaceOrder]
    cases target : market.symbolOf cmd.cancelOrderId with
    | none => exact fits
    | some symbol =>
        obtain ⟨valid, -⟩ := models.listed _ _ target
        obtain ⟨book, stored, refines⟩ := models.books symbol valid
        have sound := models.sound.books _ valid
        have within := within.2
        rw [isReplace, decide_eq_true rfl, Bool.true_and, models.orderSymbol_eq target,
          models.findBook valid stored, Option.any_some, OrderBook.overfills_perm
            (Arrivals.erase_perm (refines.resting_perm sound) cmd.cancelOrderId)] at within
        refine fits.update rfl rfl fun other found => ?_
        obtain rfl := Option.some.inj (stored.symm.trans found)
        refine (OrderBook.fits_replaceOrder sound (funext refines.priceInBand)
          (fits _ _ valid stored) seq _ _ _ _ _ _ _).mpr ?_
        rw [within, Bool.and_false]
  · rw [ArrivalMarket.apply_other isNew isCancel isReplace]
    exact fits

end

end Exsim.Core.BookManager
