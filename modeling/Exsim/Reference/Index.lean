import Exsim.Reference.ArrivalMarket

/-! # When the index of the reference market stays right -/

namespace Exsim.Core

open Data.Keyed

namespace ArrivalMarket

variable {market : ArrivalMarket} {symbol other : SymbolId} {after : ArrivalBook}
  {id added : OrderId} {seq : SeqNo} {cmd : ClientCommand} {ev : MdEvent}

/-- Forgetting an order that is gone, or that is added again, changes nothing. -/
theorem forget_settle (held : (market.books symbol).holds id = true)
    (gone : after.holds id = true → id = added) :
    (market.forget id).settle symbol after added = market.settle symbol after added := by
  have index : ((market.forget id).settle symbol after added).symbolOf =
      (market.settle symbol after added).symbolOf := by
    funext other
    rw [settle_symbolOf, settle_symbolOf, forget_symbolOf]
    by_cases isId : other = id
    · subst isId
      by_cases still : after.holds other = true
      · rw [if_pos ⟨gone still, still⟩, if_pos ⟨gone still, still⟩]
      · have left : (market.books symbol).holds other = true ∧ after.holds other = false :=
          ⟨held, Bool.eq_false_iff.mpr still⟩
        have notAdded : ¬(other = added ∧ after.holds other = true) := fun both => still both.2
        rw [if_neg notAdded, if_neg notAdded]
        exact (if_pos left).trans (if_pos left).symm
    · rw [Function.update_of_ne isId]
      rfl
  exact congrArg (mk market.maxSymbol (Function.update market.books symbol after)) index

/-- The orders of the book an add goes to. -/
theorem addOrder_only (sound : market.Sound) (valid : market.validSymbol cmd.symbolId = true)
    (id : OrderId) (held :
      ((market.books cmd.symbolId).addOrder seq cmd.orderId cmd.accountId cmd.side cmd.price cmd.qty
      cmd.tif).1.holds id = true) : (market.books cmd.symbolId).holds id = true ∨
    id = cmd.orderId :=
  ((sound.books cmd.symbolId valid).addOrder_holds seq cmd.orderId cmd.accountId cmd.side cmd.price
    cmd.qty cmd.tif id).1 held

/-- An add keeps the books apart unless its remainder rests while another book
holds its id. -/
theorem addOrder_apart (sound : market.Sound) (apart : market.Apart)
    (valid : market.validSymbol cmd.symbolId = true) :
    (market.addOrder seq cmd).1.Apart ↔
      ¬((market.books cmd.symbolId).priceInBand cmd.price = true ∧
        (market.books cmd.symbolId).orders.rests cmd.orderId cmd.side cmd.price cmd.qty cmd.tif =
          true ∧ market.Elsewhere cmd.symbolId cmd.orderId) := by
  have holds := ((sound.books cmd.symbolId valid).addOrder_holds seq cmd.orderId cmd.accountId
    cmd.side cmd.price cmd.qty cmd.tif cmd.orderId).2
  refine (apart.settle valid (addOrder_only sound valid)).trans (not_congr ?_)
  rw [holds]
  constructor
  · intro both
    obtain ⟨held | ⟨inBand, rests⟩, elsewhere⟩ := both
    · exact absurd elsewhere (apart _ _ valid held)
    · exact ⟨inBand, rests, elsewhere⟩
  · exact fun all => ⟨.inr ⟨all.1, all.2.1⟩, all.2.2⟩

theorem addOrder_indexed (sound : market.Sound) (indexed : market.Indexed)
    (valid : market.validSymbol cmd.symbolId = true) :
    (market.addOrder seq cmd).1.Indexed ↔ (market.addOrder seq cmd).1.Apart :=
  indexed.settle valid (addOrder_only sound valid)

theorem cancelOrder_apart (seq : SeqNo) (id : OrderId) (listed : market.Listed)
    (apart : market.Apart) :
    (market.cancelOrder seq id).1.Apart := by
  rw [cancelOrder]
  cases found : market.symbolOf id with
  | none => exact apart
  | some symbol =>
      have gone : ((market.books symbol).cancelOrder seq id).1.holds id = false := by
        simp [ArrivalBook.cancelOrder_holds]
      refine (apart.settle (listed id symbol found).1 fun other held => .inl ?_).mpr ?_
      · rw [ArrivalBook.cancelOrder_holds, Bool.and_eq_true] at held
        exact held.1
      · simp [gone]

theorem cancelOrder_indexed (indexed : market.Indexed) : (market.cancelOrder seq id).1.Indexed := by
  have apart := cancelOrder_apart seq id indexed.listed indexed.apart
  rw [cancelOrder] at apart ⊢
  cases found : market.symbolOf id with
  | none => exact indexed
  | some symbol =>
      rw [found] at apart
      refine (indexed.settle (indexed.listed id symbol found).1 fun other held => .inl ?_).mpr apart
      rw [ArrivalBook.cancelOrder_holds, Bool.and_eq_true] at held
      exact held.1

section Replace

/-- The orders of the book a replace within the band goes to. -/
theorem replaceOrder_holds (seq : SeqNo) {book : ArrivalBook} (sound : book.Sound)
    (inBand : book.priceInBand cmd.price = true)
    (held : book.holds cmd.cancelOrderId = true) (other : OrderId) :
    ((book.replaceOrder seq cmd.cancelOrderId cmd.orderId cmd.accountId cmd.side cmd.price cmd.qty
        cmd.tif).1.holds other = true → book.holds other = true ∧ other ≠ cmd.cancelOrderId ∨
      other = cmd.orderId) ∧
    ((book.replaceOrder seq cmd.cancelOrderId cmd.orderId cmd.accountId cmd.side cmd.price cmd.qty
        cmd.tif).1.holds cmd.orderId = true ↔ book.holds cmd.orderId = true ∧
      cmd.orderId ≠ cmd.cancelOrderId ∨
          Arrivals.rests cmd.orderId cmd.side cmd.price cmd.qty cmd.tif
            (erase RestingOrderView.orderId cmd.cancelOrderId book.orders) = true) := by
  obtain ⟨old, found⟩ :=
    Option.isSome_iff_exists.mp (show (book.find cmd.cancelOrderId).isSome = true from held)
  have cancelled : (book.cancelOrder seq cmd.cancelOrderId).1 =
      { book with orders := erase RestingOrderView.orderId cmd.cancelOrderId book.orders } := by
    rw [ArrivalBook.cancelOrder, found]
  have kept := (sound.cancelOrder seq cmd.cancelOrderId).addOrder_holds seq cmd.orderId
    cmd.accountId cmd.side cmd.price cmd.qty cmd.tif other
  rw [ArrivalBook.replaceOrder_inBand inBand found]
  simp only [cancelled, ArrivalBook.erase_holds, Bool.and_eq_true, decide_eq_true_iff] at kept ⊢
  refine ⟨kept.1, kept.2.trans (or_congr_right ?_)⟩
  exact and_iff_right inBand

/-- A replace keeps the books apart unless, within the band, its remainder rests
while another book holds its id. -/
theorem replaceOrder_apart (sound : market.Sound) (listed : market.Listed) (apart : market.Apart) :
    (market.replaceOrder seq cmd).1.Apart ↔
    ∀ symbol, market.symbolOf cmd.cancelOrderId = some symbol →
      ¬((market.books symbol).priceInBand cmd.price = true ∧
        Arrivals.rests cmd.orderId cmd.side cmd.price cmd.qty cmd.tif
          (erase RestingOrderView.orderId cmd.cancelOrderId (market.books symbol).orders) = true ∧
        market.Elsewhere symbol cmd.orderId) := by
  rw [replaceOrder]
  cases target : market.symbolOf cmd.cancelOrderId with
  | none => exact ⟨fun _ _ found => (nomatch found), fun _ => apart⟩
  | some symbol =>
      obtain ⟨valid, held⟩ := listed _ _ target
      simp only [Option.some.injEq, forall_eq']
      have forgotten : (market.forget cmd.cancelOrderId).Apart := apart
      by_cases inBand : (market.books symbol).priceInBand cmd.price = true
      · have holds :=
          fun other => replaceOrder_holds seq (sound.books symbol valid) inBand held other
        refine (forgotten.settle valid fun other still => ?_).trans (not_congr ?_)
        · exact ((holds other).1 still).imp_left And.left
        · rw [(holds cmd.orderId).2]
          constructor
          · intro both
            obtain ⟨before | rests, elsewhere⟩ := both
            · exact absurd elsewhere (apart _ _ valid before.1)
            · exact ⟨inBand, rests, elsewhere⟩
          · exact fun all => ⟨.inr all.2.1, all.2.2⟩
      · rw [ArrivalBook.replaceOrder_outOfBand (Bool.eq_false_iff.mpr inBand)]
        refine (forgotten.settle valid fun other still => .inl still).trans (not_congr ?_)
        constructor
        · exact fun both => absurd both.2 (apart _ _ valid both.1)
        · exact fun all => absurd all.1 inBand

/-- A replace keeps the index right if it keeps the books apart, unless it is out
of the band and takes another id. -/
theorem replaceOrder_indexed (sound : market.Sound) (indexed : market.Indexed) :
    (market.replaceOrder seq cmd).1.Indexed ↔ (market.replaceOrder seq cmd).1.Apart ∧
      ∀ symbol, market.symbolOf cmd.cancelOrderId = some symbol →
        (market.books symbol).priceInBand cmd.price = false → cmd.orderId = cmd.cancelOrderId := by
  rw [replaceOrder]
  cases target : market.symbolOf cmd.cancelOrderId with
  | none => exact ⟨fun _ => ⟨indexed.apart, fun _ found => (nomatch found)⟩, fun _ => indexed⟩
  | some symbol =>
      obtain ⟨valid, held⟩ := indexed.listed _ _ target
      simp only [Option.some.injEq, forall_eq']
      by_cases inBand : (market.books symbol).priceInBand cmd.price = true
      · have holds :=
          fun other => replaceOrder_holds seq (sound.books symbol valid) inBand held other
        rw [forget_settle held fun still => ((holds _).1 still).resolve_left fun both => both.2 rfl,
          indexed.settle valid fun other still => ((holds other).1 still).imp_left And.left]
        exact ⟨fun apart =>
          ⟨apart, fun outOfBand => absurd (inBand.symm.trans outOfBand) (by decide)⟩, And.left⟩
      · have outOfBand := Bool.eq_false_iff.mpr inBand
        rw [ArrivalBook.replaceOrder_outOfBand outOfBand]
        constructor
        · refine fun settled => ⟨settled.apart, fun _ => ?_⟩
          by_contra different
          have here :=
            (settled cmd.cancelOrderId symbol).mpr ⟨valid, by rw [settle_books_self]; exact held⟩
          rw [settle_symbolOf, if_neg fun both => different both.1.symm,
            if_neg fun both => by
              rw [held] at both; simp at both, forget_symbolOf, Function.update_self] at here
          cases here
        · intro both
          have same := both.2 outOfBand
          rw [forget_settle held fun _ => same.symm, same, settle_self (.inl target)]
          exact indexed

end Replace

theorem feedAdd_indexed (indexed : market.Indexed) :
    (market.feedAdd ev).1.Indexed ↔
      ¬(market.validSymbol ev.symbolId = true ∧
        (market.books ev.symbolId).holds ev.orderId = false ∧ ev.qty ≠ 0 ∧
        (market.books ev.symbolId).priceInBand ev.price = true ∧
        market.Elsewhere ev.symbolId ev.orderId) := by
  rw [feedAdd]
  split
  · rename_i valid
    rw [ArrivalBook.feedAdd_eq]
    by_cases accepted : (market.books ev.symbolId).holds ev.orderId = false ∧ ev.qty ≠ 0 ∧
        (market.books ev.symbolId).priceInBand ev.price = true
    · rw [if_pos accepted]
      let order : RestingOrderView :=
        { orderId := ev.orderId, accountId := ev.accountId, side := ev.side, price := ev.price,
          qty := ev.qty }
      have only : ∀ id, ((market.books ev.symbolId).rest order).holds id = true →
          (market.books ev.symbolId).holds id = true ∨ id = ev.orderId := by
        intro id held
        rw [ArrivalBook.rest_holds, Bool.or_eq_true, decide_eq_true_iff] at held
        exact held.imp_right Eq.symm
      have held : ((market.books ev.symbolId).rest order).holds ev.orderId = true := by
        rw [ArrivalBook.rest_holds, decide_eq_true rfl, Bool.or_true]
      refine (indexed.settle valid only).trans
        ((indexed.apart.settle valid only).trans (not_congr ?_))
      exact ⟨fun both => ⟨valid, accepted.1, accepted.2.1, accepted.2.2, both.2⟩,
        fun all => ⟨held, all.2.2.2.2⟩⟩
    · rw [if_neg accepted]
      exact ⟨fun _ all => accepted ⟨all.2.1, all.2.2.1, all.2.2.2.1⟩, fun _ => indexed⟩
  · rename_i invalid
    exact ⟨fun _ all => invalid all.1, fun _ => indexed⟩

theorem feedExecute_indexed (indexed : market.Indexed) : (market.feedExecute ev).1.Indexed := by
  rw [feedExecute]
  cases found : market.symbolOf ev.orderId with
  | none => exact indexed
  | some symbol =>
      obtain ⟨valid, held⟩ := indexed.listed _ _ found
      have only : ∀ id, ((market.books symbol).feedExecute ev.orderId ev.qty).1.holds id = true →
          (market.books symbol).holds id = true ∨ id = ev.orderId := fun id still =>
        .inl (ArrivalBook.feedExecute_holds still)
      refine (indexed.settle valid only).mpr ((indexed.apart.settle valid only).mpr fun both => ?_)
      exact indexed.apart _ _ valid held both.2

end ArrivalMarket

end Exsim.Core
