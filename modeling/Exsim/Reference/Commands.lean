import Exsim.Reference.Index

/-! # Commands on the reference market -/

namespace Exsim.Core

open Data.Keyed

namespace ArrivalBook

variable {book : ArrivalBook} {seq : SeqNo} {id oldId : OrderId} {accountId : AccountId}
  {side : Side} {price : Price} {qty : Qty} {tif : TimeInForce}

theorem swept_reject : (book.swept seq id side price qty).2.reject = .none :=
  sweep_induction (motive := fun _ out => out.reject = .none) seq id side price
    (fun _ _ _ before _ _ _ => before) book.orders.length rfl

theorem addOrder_reject : (book.addOrder seq id accountId side price qty tif).2.reject =
    book.addReject id price qty := by
  by_cases accepted : book.addReject id price qty = .none
  · rw [addOrder_accepted accepted, accepted]
    split
    · exact swept_reject
    · exact swept_reject
  · rw [addOrder_rejected accepted]

theorem addOrder_refused
    (refused : (book.addOrder seq id accountId side price qty tif).2.reject ≠ .none) :
    (book.addOrder seq id accountId side price qty tif).1 = book := by
  rw [addOrder_reject] at refused
  rw [addOrder_rejected refused]

end ArrivalBook

namespace ArrivalMarket

/-- What becomes of a command the risk check lets through. -/
def apply (market : ArrivalMarket) (seq : SeqNo) (cmd : ClientCommand) :
    ArrivalMarket × MatchOutput :=
  if cmd.type = .new then market.addOrder seq cmd
  else if cmd.type = .cancel then
    let (market, ev) := market.cancelOrder seq cmd.cancelOrderId
    match ev with
    | none => (market, { reject := .unknownOrder })
    | some ev => (market, { mdEvents := [ev] })
  else if cmd.type = .replace then market.replaceOrder seq cmd
  else (market, {})

/-- The symbol whose book a command goes to. -/
def target (market : ArrivalMarket) (cmd : ClientCommand) : Option SymbolId :=
  if cmd.type = .new then some cmd.symbolId
  else if cmd.type = .cancel || cmd.type = .replace then market.symbolOf cmd.cancelOrderId
  else none

/-- One book changed, as the events tell, or none did. -/
def Moved (market : ArrivalMarket) (events : List MdEvent) (later : ArrivalMarket) : Prop :=
  (later.books = market.books ∧ events = []) ∨
    ∃ symbol after, market.validSymbol symbol = true ∧
    later.books = Function.update market.books symbol after ∧
      ArrivalBook.Reported (market.books symbol) events after

/-- A command whose refusal would change nothing: an add does not put another
symbol on an order, and a replace is refused for its price and keeps its id. -/
structure Atomic (market : ArrivalMarket) (cmd : ClientCommand) : Prop where
  new : cmd.type = .new → (market.books cmd.symbolId).holds cmd.orderId = true →
    market.symbolOf cmd.orderId = some cmd.symbolId
  replace : cmd.type = .replace → ∀ symbol, market.symbolOf cmd.cancelOrderId = some symbol →
    (market.books symbol).priceInBand cmd.price = false ∧ cmd.orderId = cmd.cancelOrderId

/-- A replace that is refused after its target has been cancelled. -/
def Halts (market : ArrivalMarket) (cmd : ClientCommand) : Prop :=
  cmd.type = .replace ∧ ∃ symbol, market.symbolOf cmd.cancelOrderId = some symbol ∧
    (market.books symbol).priceInBand cmd.price = true ∧
    (cmd.qty = 0 ∨ (market.books symbol).holds cmd.orderId = true ∧ cmd.orderId ≠ cmd.cancelOrderId)

/-- A command whose remainder rests in one book while another holds its id. -/
def Crowds (market : ArrivalMarket) (cmd : ClientCommand) : Prop :=
  (cmd.type = .new ∧ (market.books cmd.symbolId).priceInBand cmd.price = true ∧
    (market.books cmd.symbolId).orders.rests cmd.orderId cmd.side cmd.price cmd.qty cmd.tif = true ∧
    market.Elsewhere cmd.symbolId cmd.orderId) ∨
  (cmd.type = .replace ∧ ∃ symbol, market.symbolOf cmd.cancelOrderId = some symbol ∧
    (market.books symbol).priceInBand cmd.price = true ∧
    Arrivals.rests cmd.orderId cmd.side cmd.price cmd.qty cmd.tif
      (erase RestingOrderView.orderId cmd.cancelOrderId (market.books symbol).orders) = true ∧
    market.Elsewhere symbol cmd.orderId)

/-- A replace that is refused for its price and takes another id. -/
def Strands (market : ArrivalMarket) (cmd : ClientCommand) : Prop :=
  cmd.type = .replace ∧ ∃ symbol, market.symbolOf cmd.cancelOrderId = some symbol ∧
    (market.books symbol).priceInBand cmd.price = false ∧ cmd.orderId ≠ cmd.cancelOrderId

section

variable {market : ArrivalMarket} {symbol : SymbolId} {added : OrderId} {seq : SeqNo}
  {cmd : ClientCommand}

theorem cancel_ne_new : CommandType.cancel ≠ .new := by decide
theorem replace_ne_new : CommandType.replace ≠ .new := by decide
theorem replace_ne_cancel : CommandType.replace ≠ .cancel := by decide

theorem apply_new (isNew : cmd.type = .new) : market.apply seq cmd = market.addOrder seq cmd :=
  if_pos isNew

theorem apply_replace (isReplace : cmd.type = .replace) :
    market.apply seq cmd = market.replaceOrder seq cmd := by
  rw [apply, isReplace, if_neg replace_ne_new, if_neg replace_ne_cancel, if_pos rfl]

theorem apply_other (notNew : cmd.type ≠ .new) (notCancel : cmd.type ≠ .cancel)
    (notReplace : cmd.type ≠ .replace) :
    market.apply seq cmd = (market, {}) := by
  rw [apply, if_neg notNew, if_neg notCancel, if_neg notReplace]

/-- A cancel finds its target exactly if it has a symbol. -/
theorem apply_cancel (seq : SeqNo) (listed : market.Listed) (isCancel : cmd.type = .cancel) :
    (market.symbolOf cmd.cancelOrderId = none ∧
      market.apply seq cmd = (market, { reject := .unknownOrder })) ∨
      ∃ ev, (market.cancelOrder seq cmd.cancelOrderId).2 = some ev ∧
        market.apply seq cmd =
          ((market.cancelOrder seq cmd.cancelOrderId).1, { mdEvents := [ev] }) := by
  rw [apply, isCancel, if_neg cancel_ne_new, if_pos rfl]
  cases target : market.symbolOf cmd.cancelOrderId with
  | none =>
      rw [cancelOrder, target]
      exact .inl ⟨rfl, rfl⟩
  | some symbol =>
      obtain ⟨old, found⟩ := Option.isSome_iff_exists.mp
        (show ((market.books symbol).find cmd.cancelOrderId).isSome =
          true from (listed _ _ target).2)
      refine .inr ⟨(market.books symbol).eventOf seq .cancel old old.qty, ?_, ?_⟩ <;>
        simp only [cancelOrder, target, ArrivalBook.cancelOrder, found]

section Reported

/-- All a cancel publishes is a cancel. -/
theorem apply_cancels (isCancel : cmd.type = .cancel) :
    ∀ ev ∈ (market.apply seq cmd).2.mdEvents, ev.type = .cancel := by
  intro ev among
  rw [apply, isCancel, if_neg cancel_ne_new, if_pos rfl, cancelOrder] at among
  cases target : market.symbolOf cmd.cancelOrderId with
  | none =>
      rw [target] at among
      exact absurd among List.not_mem_nil
  | some symbol =>
      rw [target] at among
      cases found : (market.books symbol).find cmd.cancelOrderId with
      | none =>
          simp only [ArrivalBook.cancelOrder, found] at among
          exact absurd among List.not_mem_nil
      | some old =>
          simp only [ArrivalBook.cancelOrder, found] at among
          rw [List.mem_singleton.mp among]
          rfl

/-- A command without a target changes nothing. -/
theorem apply_untargeted (seq : SeqNo) (untargeted : market.target cmd = none) :
    (market.apply seq cmd).1 = market ∧ (market.apply seq cmd).2.mdEvents = [] := by
  rw [target] at untargeted
  split at untargeted
  · cases untargeted
  · rename_i notNew
    split at untargeted
    · rename_i routed
      rw [Bool.or_eq_true, decide_eq_true_iff, decide_eq_true_iff] at routed
      obtain isCancel | isReplace := routed
      · rw [apply, isCancel, if_neg cancel_ne_new, if_pos rfl, cancelOrder, untargeted]
        exact ⟨rfl, rfl⟩
      · rw [apply_replace isReplace, replaceOrder, untargeted]
        exact ⟨rfl, rfl⟩
    · rename_i unrouted
      rw [Bool.or_eq_true, decide_eq_true_iff, decide_eq_true_iff, not_or] at unrouted
      rw [apply_other notNew unrouted.1 unrouted.2]
      exact ⟨rfl, rfl⟩

/-- A command changes the book of its target, and reports how. -/
theorem apply_targeted (seq : SeqNo) (sound : market.Sound) (listed : market.Listed)
    (known : cmd.type = .new → market.validSymbol cmd.symbolId = true)
    (targeted : market.target cmd = some symbol) :
    market.validSymbol symbol = true ∧ ∃ after, (market.apply seq cmd).1.books =
      Function.update market.books symbol after ∧
      ArrivalBook.Reported (market.books symbol) (market.apply seq cmd).2.mdEvents after := by
  rw [target] at targeted
  split at targeted
  · rename_i isNew
    obtain rfl := Option.some.inj targeted
    rw [apply_new isNew]
    exact ⟨known isNew, _, rfl,
      (sound.books _ (known isNew)).reported_addOrder seq cmd.orderId cmd.accountId cmd.side
      cmd.price cmd.qty cmd.tif⟩
  · split at targeted
    · rename_i routed
      rw [Bool.or_eq_true, decide_eq_true_iff, decide_eq_true_iff] at routed
      obtain ⟨valid, -⟩ := listed _ _ targeted
      refine ⟨valid, ?_⟩
      obtain isCancel | isReplace := routed
      · obtain ⟨absent, -⟩ | ⟨ev, cancelled, ran⟩ := apply_cancel seq listed isCancel
        · rw [targeted] at absent
          cases absent
        · rw [ran]
          rw [cancelOrder, targeted] at cancelled ⊢
          have reported :=
            ArrivalBook.reported_cancelOrder (market.books symbol) seq cmd.cancelOrderId
          rw [show ((market.books symbol).cancelOrder seq cmd.cancelOrderId).2 =
            some ev from cancelled] at reported
          exact ⟨_, rfl, reported⟩
      · rw [apply_replace isReplace, replaceOrder, targeted]
        exact ⟨_, rfl, (sound.books symbol valid).reported_replaceOrder seq cmd.cancelOrderId
          cmd.orderId cmd.accountId cmd.side cmd.price cmd.qty cmd.tif⟩
    · cases targeted

/-- Every command changes one book at most, and reports how. -/
theorem apply_moved (sound : market.Sound) (listed : market.Listed)
    (known : cmd.type = .new → market.validSymbol cmd.symbolId = true) :
    Moved market (market.apply seq cmd).2.mdEvents (market.apply seq cmd).1 := by
  cases targeted : market.target cmd with
  | none =>
      obtain ⟨same, silent⟩ := apply_untargeted seq targeted
      exact .inl ⟨by rw [same], silent⟩
  | some symbol =>
      obtain ⟨valid, after, books, reported⟩ := apply_targeted seq sound listed known targeted
      exact .inr ⟨symbol, after, valid, books, reported⟩

end Reported

section Refused

theorem settle_symbolOf_self : (market.settle symbol (market.books symbol) added).symbolOf =
    market.symbolOf ↔
    ((market.books symbol).holds added = true → market.symbolOf added = some symbol) := by
  constructor
  · intro same held
    rw [← same, settle_symbolOf, if_pos ⟨rfl, held⟩]
  · intro kept
    have unchanged : market.settle symbol (market.books symbol) added = market := by
      apply settle_self
      by_cases held : (market.books symbol).holds added = true
      · exact .inl (kept held)
      · exact .inr (Bool.eq_false_iff.mpr held)
    rw [unchanged]

/-- A refused add leaves its book. -/
theorem addOrder_refused (refused : (market.addOrder seq cmd).2.reject ≠ .none) :
    (market.addOrder seq cmd).1 =
      market.settle cmd.symbolId (market.books cmd.symbolId) cmd.orderId := by
  rw [addOrder] at refused ⊢
  dsimp only at refused ⊢
  rw [ArrivalBook.addOrder_refused refused]

/-- A refused replace of a listed order is out of the band, or has lost its target. -/
theorem replaceOrder_refused (listed : market.Listed)
    (refused : (market.replaceOrder seq cmd).2.reject ≠ .none)
    (target : market.symbolOf cmd.cancelOrderId = some symbol) :
    ((market.books symbol).priceInBand cmd.price = false ∧ (market.replaceOrder seq cmd).1 =
        (market.forget cmd.cancelOrderId).settle symbol (market.books symbol) cmd.orderId) ∨
      ((market.books symbol).priceInBand cmd.price = true ∧
        (cmd.qty = 0 ∨ (market.books symbol).holds cmd.orderId = true ∧
          cmd.orderId ≠ cmd.cancelOrderId) ∧
        (market.replaceOrder seq cmd).1.symbolOf cmd.cancelOrderId = none) := by
  obtain ⟨valid, held⟩ := listed _ _ target
  obtain ⟨old, found⟩ := Option.isSome_iff_exists.mp
    (show ((market.books symbol).find cmd.cancelOrderId).isSome = true from held)
  rw [replaceOrder, target] at refused ⊢
  dsimp only at refused ⊢
  by_cases inBand : (market.books symbol).priceInBand cmd.price = true
  · rw [ArrivalBook.replaceOrder_inBand inBand found] at refused ⊢
    dsimp only at refused ⊢
    rw [ArrivalBook.addOrder_refused refused, settle_symbolOf]
    rw [ArrivalBook.addOrder_reject] at refused
    have gone : ((market.books symbol).cancelOrder seq cmd.cancelOrderId).1.holds
        cmd.cancelOrderId = false := by
      simp [ArrivalBook.cancelOrder_holds]
    refine .inr ⟨inBand, ?_, ?_⟩
    · by_contra! proper
      refine refused (ArrivalBook.addReject_eq_none.mpr ⟨proper.1, ?_, ?_⟩)
      · rw [ArrivalBook.cancelOrder, found]
        exact inBand
      · rw [ArrivalBook.cancelOrder_holds, Bool.and_eq_false_iff, decide_eq_false_iff_not, not_not]
        by_cases holdsNew : (market.books symbol).holds cmd.orderId = true
        · exact .inr (proper.2 holdsNew)
        · exact .inl (Bool.eq_false_iff.mpr holdsNew)
    · rw [if_neg fun both => by rw [gone] at both; exact absurd both.2 (by decide)]
      exact if_pos ⟨held, gone⟩
  · have outOfBand := Bool.eq_false_iff.mpr inBand
    rw [ArrivalBook.replaceOrder_outOfBand outOfBand]
    exact .inl ⟨outOfBand, rfl⟩

theorem apply_refused_type (refused : (market.apply seq cmd).2.reject ≠ .none) :
    cmd.type = .new ∨ cmd.type = .cancel ∨ cmd.type = .replace := by
  by_contra! other
  rw [apply_other other.1 other.2.1 other.2.2] at refused
  exact refused rfl

/-- A refused command changes the index exactly if it is not atomic, and if it
is atomic it changes nothing. -/
theorem apply_refused (listed : market.Listed) (refused : (market.apply seq cmd).2.reject ≠ .none) :
    ((market.apply seq cmd).1.symbolOf = market.symbolOf ↔ market.Atomic cmd) ∧
      (market.Atomic cmd → (market.apply seq cmd).1 = market) := by
  obtain isNew | isCancel | isReplace := apply_refused_type refused
  · rw [apply_new isNew] at refused ⊢
    have atomic : market.Atomic cmd ↔
        ((market.books cmd.symbolId).holds cmd.orderId = true →
          market.symbolOf cmd.orderId = some cmd.symbolId) :=
      ⟨fun atomic => atomic.new isNew, fun kept =>
        ⟨fun _ => kept, fun isReplace => absurd (isReplace.symm.trans isNew) replace_ne_new⟩⟩
    rw [addOrder_refused refused, atomic, settle_symbolOf_self]
    refine ⟨Iff.rfl, fun kept => settle_self ?_⟩
    by_cases held : (market.books cmd.symbolId).holds cmd.orderId = true
    · exact .inl (kept held)
    · exact .inr (Bool.eq_false_iff.mpr held)
  · have atomic : market.Atomic cmd :=
      ⟨fun isNew => absurd (isCancel.symm.trans isNew) cancel_ne_new,
        fun isReplace => absurd (isReplace.symm.trans isCancel) replace_ne_cancel⟩
    cases apply_cancel seq listed isCancel with
    | inl absent =>
        rw [absent.2]
        exact ⟨⟨fun _ => atomic, fun _ => rfl⟩, fun _ => rfl⟩
    | inr found =>
        obtain ⟨ev, -, ran⟩ := found
        rw [ran] at refused
        exact absurd rfl refused
  · rw [apply_replace isReplace] at refused ⊢
    have atomic : market.Atomic cmd ↔ ∀ symbol, market.symbolOf cmd.cancelOrderId = some symbol →
        (market.books symbol).priceInBand cmd.price = false ∧ cmd.orderId = cmd.cancelOrderId :=
      ⟨fun atomic => atomic.replace isReplace, fun kept =>
        ⟨fun isNew => absurd (isReplace.symm.trans isNew) replace_ne_new, fun _ => kept⟩⟩
    rw [atomic]
    cases target : market.symbolOf cmd.cancelOrderId with
    | none =>
        rw [replaceOrder, target]
        simp
    | some symbol =>
        obtain ⟨valid, held⟩ := listed _ _ target
        simp only [Option.some.injEq, forall_eq']
        cases replaceOrder_refused listed refused target with
        | inl outOfBand =>
            obtain ⟨outOfBand, ran⟩ := outOfBand
            rw [ran]
            by_cases same : cmd.orderId = cmd.cancelOrderId
            · rw [forget_settle held fun _ => same.symm, same, settle_self (.inl target)]
              exact ⟨⟨fun _ => ⟨outOfBand, rfl⟩, fun _ => rfl⟩, fun _ => rfl⟩
            · refine ⟨⟨fun kept => ?_, fun both => absurd both.2 same⟩,
                fun both => absurd both.2 same⟩
              have lost := congrFun kept cmd.cancelOrderId
              rw [target, settle_symbolOf, if_neg fun both => same both.1.symm,
                if_neg fun both => absurd (held.symm.trans both.2) (by decide), forget_symbolOf,
                Function.update_self] at lost
              cases lost
        | inr halted =>
            obtain ⟨inBand, -, lost⟩ := halted
            have never : ¬((market.books symbol).priceInBand cmd.price = false ∧
                cmd.orderId = cmd.cancelOrderId) :=
              fun both => absurd (inBand.symm.trans both.1) (by decide)
            refine ⟨⟨fun kept => ?_, fun both => absurd both never⟩, fun both => absurd both never⟩
            rw [kept, target] at lost
            cases lost

/-- A refused command leaves the books unless it halts after a cancel. -/
theorem apply_refused_books (listed : market.Listed)
    (refused : (market.apply seq cmd).2.reject ≠ .none)
    (proper : ¬market.Halts cmd) : (market.apply seq cmd).1.books = market.books := by
  obtain isNew | isCancel | isReplace := apply_refused_type refused
  · rw [apply_new isNew] at refused ⊢
    rw [addOrder_refused refused]
    exact Function.update_eq_self _ _
  · cases apply_cancel seq listed isCancel with
    | inl absent => rw [absent.2]
    | inr found =>
        obtain ⟨ev, -, ran⟩ := found
        rw [ran] at refused
        exact absurd rfl refused
  · rw [apply_replace isReplace] at refused ⊢
    cases target : market.symbolOf cmd.cancelOrderId with
    | none => rw [replaceOrder, target]
    | some symbol =>
        cases replaceOrder_refused listed refused target with
        | inl outOfBand =>
            rw [outOfBand.2]
            exact Function.update_eq_self _ _
        | inr halted => exact absurd ⟨isReplace, symbol, target, halted.1, halted.2.1⟩ proper

end Refused

section Invariants

variable (known : cmd.type = .new → market.validSymbol cmd.symbolId = true)

include known

theorem apply_apart (seq : SeqNo) (sound : market.Sound) (listed : market.Listed)
    (apart : market.Apart) (alone : ¬market.Crowds cmd) : (market.apply seq cmd).1.Apart := by
  by_cases isNew : cmd.type = .new
  · rw [apply_new isNew]
    exact (addOrder_apart sound apart (known isNew)).mpr fun crowds => alone (.inl ⟨isNew, crowds⟩)
  by_cases isCancel : cmd.type = .cancel
  · cases apply_cancel seq listed isCancel with
    | inl absent =>
        rw [absent.2]
        exact apart
    | inr found =>
        obtain ⟨ev, -, ran⟩ := found
        rw [ran]
        exact cancelOrder_apart seq _ listed apart
  by_cases isReplace : cmd.type = .replace
  · rw [apply_replace isReplace]
    exact (replaceOrder_apart sound listed apart).mpr fun symbol target crowds =>
      alone (.inr ⟨isReplace, symbol, target, crowds⟩)
  · rw [apply_other isNew isCancel isReplace]
    exact apart

theorem apply_indexed (seq : SeqNo) (sound : market.Sound) (indexed : market.Indexed)
    (alone : ¬market.Crowds cmd) (kept : ¬market.Strands cmd) :
    (market.apply seq cmd).1.Indexed := by
  have apart := apply_apart known seq sound indexed.listed indexed.apart alone
  by_cases isNew : cmd.type = .new
  · rw [apply_new isNew] at apart ⊢
    exact (addOrder_indexed sound indexed (known isNew)).mpr apart
  by_cases isCancel : cmd.type = .cancel
  · cases apply_cancel seq indexed.listed isCancel with
    | inl absent =>
        rw [absent.2]
        exact indexed
    | inr found =>
        obtain ⟨ev, -, ran⟩ := found
        rw [ran]
        exact cancelOrder_indexed indexed
  by_cases isReplace : cmd.type = .replace
  · rw [apply_replace isReplace] at apart ⊢
    refine (replaceOrder_indexed sound indexed).mpr ⟨apart, fun symbol target outOfBand => ?_⟩
    by_contra different
    exact kept ⟨isReplace, symbol, target, outOfBand, different⟩
  · rw [apply_other isNew isCancel isReplace]
    exact indexed

/-- What the three operations keep of a book, every command keeps of every book. -/
theorem apply_invariant (kept : SymbolId → ArrivalBook → Prop) (seq : SeqNo)
    (listed : market.Listed)
    (start : ∀ symbol, market.validSymbol symbol = true → kept symbol (market.books symbol))
    (add : ∀ symbol book, kept symbol book →
      kept symbol
      (book.addOrder seq cmd.orderId cmd.accountId cmd.side cmd.price cmd.qty cmd.tif).1)
    (cancel : ∀ symbol book, kept symbol book →
      kept symbol (book.cancelOrder seq cmd.cancelOrderId).1)
    (replace : ∀ symbol book, kept symbol book →
      kept symbol (book.replaceOrder seq cmd.cancelOrderId cmd.orderId
      cmd.accountId cmd.side cmd.price cmd.qty cmd.tif).1) :
    ∀ symbol, market.validSymbol symbol = true →
    kept symbol ((market.apply seq cmd).1.books symbol) := by
  have settled : ∀ target after, kept target after → ∀ symbol, market.validSymbol symbol = true →
      kept symbol (Function.update market.books target after symbol) := by
    intro target after held symbol valid
    by_cases here : symbol = target
    · rw [here, Function.update_self]
      exact held
    · rw [Function.update_of_ne here]
      exact start symbol valid
  by_cases isNew : cmd.type = .new
  · rw [apply_new isNew]
    exact settled _ _ (add _ _ (start _ (known isNew)))
  by_cases isCancel : cmd.type = .cancel
  · obtain absent | ⟨ev, -, ran⟩ := apply_cancel seq listed isCancel
    · rw [absent.2]
      exact start
    · rw [ran, cancelOrder]
      split
      · exact start
      · rename_i target
        exact settled _ _ (cancel _ _ (start _ (listed _ _ target).1))
  by_cases isReplace : cmd.type = .replace
  · rw [apply_replace isReplace, replaceOrder]
    split
    · exact start
    · rename_i target
      exact settled _ _ (replace _ _ (start _ (listed _ _ target).1))
  · rw [apply_other isNew isCancel isReplace]
    exact start

end Invariants

end

end ArrivalMarket

end Exsim.Core
