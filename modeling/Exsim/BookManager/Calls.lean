import Exsim.BookManager.Refinement
import Exsim.Reference.Index

/-! # The calls of the book manager follow the reference market -/

namespace Exsim.Core

open Data

namespace ArrivalBook

variable {book : ArrivalBook} {id other : OrderId} {accountId : AccountId} {side : Side}
  {price : Price} {qty : Qty}

theorem feedExecute_holds_of_ne (different : other ≠ id) :
    (book.feedExecute id qty).1.holds other = book.holds other := by
  rw [feedExecute]
  split
  · rw [ArrivalBook.holds, Arrivals.fill]
    split
    · rfl
    · split
      · rw [Keyed.holds_erase, decide_eq_true different, Bool.and_true, ArrivalBook.holds]
      · rw [Arrivals.holds_lessen, ArrivalBook.holds]
  · rfl

end ArrivalBook

namespace BookManager

variable {manager : BookManager} {market : ArrivalMarket} {symbol : SymbolId} {after : ArrivalBook}
  {id : OrderId}

/-- The index after a call that can only add or remove the order it names. -/
theorem settle_symbolOf_named
    (others : ∀ other, other ≠ id → after.holds other = (market.books symbol).holds other)
    (known : market.symbolOf id = some symbol → (market.books symbol).holds id = true)
    (named : after.holds id = true ∨ market.symbolOf id = some symbol) (other : OrderId) :
    (market.settle symbol after id).symbolOf other =
      if other = id then (if after.holds id = true then some symbol else none)
      else market.symbolOf other := by
  rw [ArrivalMarket.settle_symbolOf]
  by_cases isId : other = id
  · subst isId
    rw [if_pos rfl]
    by_cases held : after.holds other = true
    · rw [if_pos ⟨rfl, held⟩, if_pos held]
    · rw [if_neg fun both => held both.2, if_neg held,
        if_pos ⟨known (named.resolve_left held), Bool.eq_false_iff.mpr held⟩]
  · rw [if_neg fun both => isId both.1, if_neg isId, if_neg]
    rintro ⟨held, gone⟩
    rw [others other isId, held] at gone
    cases gone

theorem addOrder_spec (models : manager.Models market) (room : market.HasRoom) (seq : SeqNo)
    (cmd : ClientCommand) (valid : market.validSymbol cmd.symbolId = true) :
    ∃ later, manager.addOrder seq cmd = .ok (.ok (later, (market.addOrder seq cmd).2)) ∧
      Advances manager later market (market.addOrder seq cmd).1 := by
  obtain ⟨book, stored, refines⟩ := models.books cmd.symbolId valid
  have sound := models.sound.books cmd.symbolId valid
  obtain ⟨after, added, follows⟩ :=
    OrderBook.addOrder_spec refines (room cmd.symbolId valid) seq cmd.orderId
    cmd.accountId cmd.side cmd.price cmd.qty cmd.tif
  have placed : (manager.books.setIfInBounds cmd.symbolId.toNat after)[cmd.symbolId.toNat]? =
      some after := by
    rw [getElem?_withBook (models.inside valid), if_pos rfl]
  have reported :=
    sound.reported_addOrder seq cmd.orderId cmd.accountId cmd.side cmd.price cmd.qty cmd.tif
  obtain ⟨later, indexed, books, maxSymbol, index⟩ := reindex_run market
    { manager with books := manager.books.setIfInBounds cmd.symbolId.toNat after } placed reported
    follows.refines models.index cmd.orderId
  refine ⟨later, ?_, ?_⟩
  · rw [BookManager.addOrder, models.validSymbol, valid, Bool.not_true, if_neg Bool.false_ne_true,
      readAt_of_getElem? stored, exec_ok_bind, added, exec_ok_bind]
    dsimp only
    rw [withBook_run (models.inside valid), exec_ok_bind, indexed, exec_ok_bind]
    rfl
  · exact models.settle valid stored follows sound.addOrder maxSymbol books rfl rfl
      models.listed index

theorem addOrder_invalid (seq : SeqNo) (cmd : ClientCommand)
    (invalid : manager.validSymbol cmd.symbolId = false) :
    manager.addOrder seq cmd = .ok (.error (.outOfRange "bad symbol id")) := by
  rw [BookManager.addOrder, invalid]
  rfl

/-- Without a symbol for its order a call stops before any book. -/
theorem Models.orderSymbol_eq_zero (models : manager.Models market)
    (absent : market.symbolOf id = none) :
    manager.orderSymbol id = 0 := by
  rw [models.orderSymbol, absent]
  rfl

theorem Models.orderSymbol_eq (models : manager.Models market)
    (found : market.symbolOf id = some symbol) :
    manager.orderSymbol id = symbol := by
  rw [models.orderSymbol, found]
  rfl

theorem cancelOrder_spec (models : manager.Models market) (seq : SeqNo) (id : OrderId) :
    ∃ later, manager.cancelOrder seq id = .ok (later, (market.cancelOrder seq id).2) ∧
      Advances manager later market (market.cancelOrder seq id).1 := by
  rw [BookManager.cancelOrder, ArrivalMarket.cancelOrder]
  cases target : market.symbolOf id with
  | none => exact ⟨manager, by rw [models.orderSymbol_eq_zero target]; rfl, .refl models⟩
  | some symbol =>
      obtain ⟨valid, held⟩ := models.listed id symbol target
      obtain ⟨book, stored, refines⟩ := models.books symbol valid
      have sound := models.sound.books symbol valid
      obtain ⟨after, cancelled, shrinks⟩ := OrderBook.cancelOrder_spec refines seq id
      obtain ⟨order, found⟩ := Option.isSome_iff_exists.mp
        (show ((market.books symbol).find id).isSome = true from held)
      have answer : ((market.books symbol).cancelOrder seq id).2 =
          some ((market.books symbol).eventOf seq .cancel order order.qty) := by
        rw [ArrivalBook.cancelOrder, found]
      have gone : ((market.books symbol).cancelOrder seq id).1.holds id = false := by
        rw [ArrivalBook.cancelOrder_holds]
        simp
      have others : ∀ other, other ≠ id →
          ((market.books symbol).cancelOrder seq id).1.holds other =
            (market.books symbol).holds other := by
        intro other different
        rw [ArrivalBook.cancelOrder_holds, decide_eq_true different, Bool.and_true]
      rw [models.orderSymbol_eq target, if_neg (validSymbol_ne_zero valid),
        readAt_of_getElem? stored, exec_ok_bind, cancelled, exec_ok_bind]
      dsimp only
      rw [withBook_run (models.inside valid), exec_ok_bind, answer]
      refine ⟨_, rfl,
        models.settle valid stored shrinks.follows (sound.cancelOrder seq id) rfl rfl rfl rfl
        models.listed fun other => ?_⟩
      rw [settle_symbolOf_named others (fun _ => held) (.inr target), gone,
        if_neg Bool.false_ne_true, removeIndex]
      by_cases isId : other = id
      · rw [if_pos isId, isId]
        exact Finmap.lookup_erase _ _
      · rw [if_neg isId, ← models.index]
        exact Finmap.lookup_erase_ne isId

theorem replaceOrder_spec (models : manager.Models market) (room : market.HasRoom) (seq : SeqNo)
    (cmd : ClientCommand) :
    ∃ later, manager.replaceOrder seq cmd = .ok (later, (market.replaceOrder seq cmd).2) ∧
      Advances manager later market (market.replaceOrder seq cmd).1 := by
  rw [BookManager.replaceOrder, ArrivalMarket.replaceOrder]
  cases target : market.symbolOf cmd.cancelOrderId with
  | none => exact ⟨manager, by rw [models.orderSymbol_eq_zero target]; rfl, .refl models⟩
  | some symbol =>
      obtain ⟨valid, -⟩ := models.listed _ symbol target
      obtain ⟨book, stored, refines⟩ := models.books symbol valid
      have sound := models.sound.books symbol valid
      obtain ⟨after, replaced, follows⟩ :=
        OrderBook.replaceOrder_spec refines (room symbol valid) seq
        cmd.cancelOrderId cmd.orderId cmd.accountId cmd.side cmd.price cmd.qty cmd.tif
      have placed : (manager.books.setIfInBounds symbol.toNat after)[symbol.toNat]? =
          some after := by
        rw [getElem?_withBook (models.inside valid), if_pos rfl]
      have reported := sound.reported_replaceOrder seq cmd.cancelOrderId cmd.orderId cmd.accountId
        cmd.side cmd.price cmd.qty cmd.tif
      have forgotten : ∀ other,
          ({ manager with books := manager.books.setIfInBounds symbol.toNat after }.removeIndex
            cmd.cancelOrderId).orderToSymbol.lookup other =
          (market.forget cmd.cancelOrderId).symbolOf other := by
        intro other
        rw [ArrivalMarket.forget_symbolOf, removeIndex]
        by_cases isTarget : other = cmd.cancelOrderId
        · rw [isTarget, Function.update_self]
          exact Finmap.lookup_erase _ _
        · rw [Function.update_of_ne isTarget, ← models.index]
          exact Finmap.lookup_erase_ne isTarget
      obtain ⟨later, indexed, books, maxSymbol, index⟩ :=
        reindex_run (market.forget cmd.cancelOrderId)
        ({ manager with books := manager.books.setIfInBounds symbol.toNat after }.removeIndex
          cmd.cancelOrderId) placed reported follows.refines forgotten cmd.orderId
      refine ⟨later, ?_, ?_⟩
      · rw [models.orderSymbol_eq target, if_neg (validSymbol_ne_zero valid),
          readAt_of_getElem? stored, exec_ok_bind, replaced, exec_ok_bind]
        dsimp only
        rw [withBook_run (models.inside valid), exec_ok_bind, indexed, exec_ok_bind]
      · exact models.settle valid stored follows sound.replaceOrder maxSymbol books rfl rfl
          (models.listed.forget _) index

/-- Writing back a book that did not change. -/
theorem withBook_self {book : OrderBook} (stored : manager.books[symbol.toNat]? = some book) :
    manager.withBook symbol book = .ok manager := by
  have inside := (Array.getElem?_eq_some_iff.mp stored).1
  have same : manager.books.setIfInBounds symbol.toNat book = manager.books := by
    apply Array.ext_getElem?
    intro i
    rw [Array.getElem?_setIfInBounds]
    split
    · rename_i here
      rw [← here, stored]
    · rfl
  rw [withBook_run inside, same]

theorem feedAdd_spec (models : manager.Models market) (room : market.HasRoom) (ev : MdEvent) :
    ∃ later, manager.feedAdd ev = .ok (later, (market.feedAdd ev).2) ∧
      Advances manager later market (market.feedAdd ev).1 := by
  rw [BookManager.feedAdd, ArrivalMarket.feedAdd, models.validSymbol]
  by_cases valid : market.validSymbol ev.symbolId = true
  · obtain ⟨book, stored, refines⟩ := models.books ev.symbolId valid
    have sound := models.sound.books ev.symbolId valid
    rw [valid, Bool.not_true, if_neg Bool.false_ne_true, if_pos rfl, readAt_of_getElem? stored,
      exec_ok_bind]
    by_cases accepted : (market.books ev.symbolId).holds ev.orderId = false ∧ ev.qty ≠ 0 ∧
        (market.books ev.symbolId).priceInBand ev.price = true
    · obtain ⟨after, fed, follows⟩ :=
        OrderBook.feedAdd_spec refines (room ev.symbolId valid) ev.orderId ev.accountId
        ev.side ev.price ev.qty
      have kept : ((market.books ev.symbolId).feedAdd ev.orderId ev.accountId ev.side ev.price
          ev.qty).1.Sound :=
        sound.feedAdd
      rw [ArrivalBook.feedAdd_eq, if_pos accepted] at fed follows kept
      rw [ArrivalBook.feedAdd_eq, if_pos accepted, fed, exec_ok_bind]
      dsimp only at follows kept ⊢
      rw [withBook_run (models.inside valid), exec_ok_bind]
      refine ⟨_, rfl, models.settle valid stored follows kept rfl rfl rfl rfl models.listed
        fun other => ?_⟩
      let order : RestingOrderView :=
        { orderId := ev.orderId, accountId := ev.accountId, side := ev.side, price := ev.price,
          qty := ev.qty }
      have held : ((market.books ev.symbolId).rest order).holds ev.orderId = true := by
        rw [ArrivalBook.rest_holds, decide_eq_true rfl, Bool.or_true]
      have others : ∀ other, other ≠ ev.orderId →
          ((market.books ev.symbolId).rest order).holds other =
            (market.books ev.symbolId).holds other := by
        intro other different
        rw [ArrivalBook.rest_holds, decide_eq_false (Ne.symm different), Bool.or_false]
      rw [settle_symbolOf_named others (fun known => (models.listed _ _ known).2) (.inl held),
        if_pos held]
      by_cases isId : other = ev.orderId
      · rw [if_pos isId, isId]
        exact Finmap.lookup_insert _
      · rw [if_neg isId, ← models.index]
        exact Finmap.lookup_insert_of_ne _ isId
    · have refused : book.feedAdd ev.orderId ev.accountId ev.side ev.price ev.qty =
          .ok (book, false) := by
        rw [OrderBook.feedAdd, refines.contains, refines.priceInBand, if_pos]
        by_contra met
        simp only [Bool.or_eq_true, decide_eq_true_eq, Bool.not_eq_true', not_or] at met
        exact accepted ⟨Bool.eq_false_iff.mpr met.1.1, met.1.2, Bool.not_eq_false _ |>.mp met.2⟩
      rw [ArrivalBook.feedAdd_eq, if_neg accepted, refused, exec_ok_bind]
      dsimp only
      rw [withBook_self stored, exec_ok_bind]
      exact ⟨manager, rfl, .refl models⟩
  · rw [Bool.eq_false_iff.mpr valid, Bool.not_false, if_pos rfl, if_neg Bool.false_ne_true]
    exact ⟨manager, rfl, .refl models⟩

theorem feedExecute_spec (models : manager.Models market) (ev : MdEvent) :
    ∃ later, manager.feedExecute ev = .ok (later, (market.feedExecute ev).2) ∧
      Advances manager later market (market.feedExecute ev).1 := by
  rw [BookManager.feedExecute, ArrivalMarket.feedExecute]
  cases target : market.symbolOf ev.orderId with
  | none => exact ⟨manager, by rw [models.orderSymbol_eq_zero target]; rfl, .refl models⟩
  | some symbol =>
      obtain ⟨valid, held⟩ := models.listed _ symbol target
      obtain ⟨book, stored, refines⟩ := models.books symbol valid
      have sound := models.sound.books symbol valid
      obtain ⟨after, executed, shrinks⟩ := OrderBook.feedExecute_spec refines ev.orderId ev.qty
      have others : ∀ other, other ≠ ev.orderId →
          ((market.books symbol).feedExecute ev.orderId ev.qty).1.holds other =
          (market.books symbol).holds other :=
        fun other different => ArrivalBook.feedExecute_holds_of_ne different
      rw [models.orderSymbol_eq target, if_neg (validSymbol_ne_zero valid),
        readAt_of_getElem? stored, exec_ok_bind, executed, exec_ok_bind]
      dsimp only
      rw [withBook_run (models.inside valid), exec_ok_bind, shrinks.refines.contains]
      have index := settle_symbolOf_named others (fun _ => held) (.inr target)
      by_cases left : ((market.books symbol).feedExecute ev.orderId ev.qty).1.holds ev.orderId =
        true
      · rw [left, Bool.not_true, Bool.and_false, if_neg Bool.false_ne_true]
        refine ⟨_, rfl,
          models.settle valid stored shrinks.follows sound.feedExecute rfl rfl rfl rfl models.listed
          fun other => ?_⟩
        rw [index, left, if_pos rfl]
        split
        · rename_i isId
          rw [isId, ← target]
          exact models.index _
        · exact models.index other
      · have done : ((market.books symbol).feedExecute ev.orderId ev.qty).2 = true := by
          by_contra refused
          refine left ?_
          rw [ArrivalBook.feedExecute] at refused ⊢
          split
          · rename_i accepted
            exact absurd (by rw [if_pos accepted]) refused
          · exact held
        rw [Bool.eq_false_iff.mpr left, done, Bool.not_false, Bool.and_true, if_pos rfl]
        refine ⟨_, rfl,
          models.settle valid stored shrinks.follows sound.feedExecute rfl rfl rfl rfl models.listed
          fun other => ?_⟩
        rw [index, if_neg left]
        by_cases isId : other = ev.orderId
        · rw [if_pos isId, isId]
          exact Finmap.lookup_erase _ _
        · rw [if_neg isId, ← models.index]
          exact Finmap.lookup_erase_ne isId

end BookManager

end Exsim.Core
