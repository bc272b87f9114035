import Exsim.BookManager.Index
import Exsim.Core.Exchange
import Exsim.Reference.Commands

/-! # What one call of the exchange does -/

namespace Exsim.Core

open Data Journal

namespace BookManager

/-- Whether a command rests an order whose id another book holds. -/
def crowds (manager : BookManager) (cmd : ClientCommand) : Bool :=
  cmd.type = .new && manager.addCrowds cmd || cmd.type = .replace && manager.replaceCrowds cmd

/-- Whether a command is refused after its target has been cancelled. -/
def halts (manager : BookManager) (cmd : ClientCommand) : Bool :=
  cmd.type = .replace && (manager.findBook (manager.orderSymbol cmd.cancelOrderId)).any fun book =>
    book.priceInBand cmd.price &&
      (cmd.qty = 0 || book.contains cmd.orderId && cmd.orderId ≠ cmd.cancelOrderId)

/-- Whether a command, if it is refused, changes nothing. -/
def atomic (manager : BookManager) (cmd : ClientCommand) : Bool :=
  if cmd.type = .new then
    (manager.findBook cmd.symbolId).all fun book =>
      !book.contains cmd.orderId || manager.orderSymbol cmd.orderId = cmd.symbolId
  else if cmd.type = .replace then
    (manager.findBook (manager.orderSymbol cmd.cancelOrderId)).all fun book =>
      !book.priceInBand cmd.price && cmd.orderId = cmd.cancelOrderId
  else true

section

variable {manager : BookManager} {market : ArrivalMarket} {cmd : ClientCommand}

theorem Models.crowds (models : manager.Models market)
    (known : cmd.type = .new → market.validSymbol cmd.symbolId = true) :
    manager.crowds cmd = true ↔ market.Crowds cmd := by
  rw [BookManager.crowds, Bool.or_eq_true, Bool.and_eq_true, Bool.and_eq_true, decide_eq_true_iff,
    decide_eq_true_iff]
  refine or_congr ?_ (and_congr_right fun _ => models.replaceCrowds)
  exact and_congr_right fun isNew => models.addCrowds (known isNew)

theorem Models.halts (models : manager.Models market) :
    manager.halts cmd = true ↔ market.Halts cmd := by
  rw [BookManager.halts, Bool.and_eq_true, decide_eq_true_iff, models.any_target]
  refine and_congr_right fun _ => exists_congr fun symbol => ?_
  simp only [Bool.and_eq_true, Bool.or_eq_true, decide_eq_true_eq]
  constructor
  · intro met
    obtain ⟨book, target, valid, stored, met⟩ := met
    obtain ⟨book', found, refines⟩ := models.books symbol valid
    obtain rfl := Option.some.inj (stored.symm.trans found)
    rw [refines.priceInBand, refines.contains] at met
    exact ⟨target, met⟩
  · intro met
    obtain ⟨target, met⟩ := met
    obtain ⟨valid, -⟩ := models.listed _ _ target
    obtain ⟨book, stored, refines⟩ := models.books symbol valid
    refine ⟨book, target, valid, stored, ?_⟩
    rw [refines.priceInBand, refines.contains]
    exact met

/-- A condition on the book of a replace's target, where there is one. -/
theorem Models.all_target (models : manager.Models market) {id : OrderId}
    (condition : OrderBook → Bool) :
    (manager.findBook (manager.orderSymbol id)).all condition = true ↔
      ∀ symbol book, market.symbolOf id = some symbol → manager.books[symbol.toNat]? = some book →
        condition book = true := by
  cases target : market.symbolOf id with
  | none =>
      rw [models.orderSymbol_eq_zero target, models.findBook_none rfl]
      simp
  | some symbol =>
      obtain ⟨valid, -⟩ := models.listed _ _ target
      obtain ⟨book, stored, -⟩ := models.books symbol valid
      rw [models.orderSymbol_eq target, models.findBook valid stored, Option.all_some]
      constructor
      · intro met other book' same found
        obtain rfl := Option.some.inj same
        rw [stored] at found
        rw [← Option.some.inj found]
        exact met
      · exact fun every => every symbol book rfl stored

theorem Models.atomic (models : manager.Models market)
    (known : cmd.type = .new → market.validSymbol cmd.symbolId = true) :
    manager.atomic cmd = true ↔ market.Atomic cmd := by
  rw [BookManager.atomic]
  split
  · rename_i isNew
    have valid := known isNew
    obtain ⟨book, stored, refines⟩ := models.books cmd.symbolId valid
    rw [models.findBook valid stored, Option.all_some, Bool.or_eq_true, Bool.not_eq_true',
      decide_eq_true_iff, refines.contains]
    have named : manager.orderSymbol cmd.orderId = cmd.symbolId ↔
        market.symbolOf cmd.orderId = some cmd.symbolId := by
      rw [models.orderSymbol]
      cases market.symbolOf cmd.orderId with
      | none => simp [(validSymbol_ne_zero valid).symm]
      | some other => simp
    rw [named]
    constructor
    · intro kept
      refine ⟨fun _ held => kept.resolve_left fun gone => ?_, fun isReplace => ?_⟩
      · rw [held] at gone
        cases gone
      · exact absurd (isReplace.symm.trans isNew) ArrivalMarket.replace_ne_new
    · intro atomic
      by_cases held : (market.books cmd.symbolId).holds cmd.orderId = true
      · exact .inr (atomic.new isNew held)
      · exact .inl (Bool.eq_false_iff.mpr held)
  · rename_i notNew
    split
    · rename_i isReplace
      rw [models.all_target]
      constructor
      · intro every
        refine ⟨fun isNew => absurd isNew notNew, fun _ symbol target => ?_⟩
        obtain ⟨valid, -⟩ := models.listed _ _ target
        obtain ⟨book, stored, refines⟩ := models.books symbol valid
        have met := every symbol book target stored
        rw [Bool.and_eq_true, Bool.not_eq_true', decide_eq_true_iff, refines.priceInBand] at met
        exact met
      · intro atomic symbol book target stored
        obtain ⟨valid, -⟩ := models.listed _ _ target
        obtain ⟨book', found, refines⟩ := models.books symbol valid
        obtain rfl := Option.some.inj (stored.symm.trans found)
        rw [Bool.and_eq_true, Bool.not_eq_true', decide_eq_true_iff, refines.priceInBand]
        exact atomic.replace isReplace symbol target
    · rename_i notReplace
      exact ⟨fun _ => ⟨fun isNew => absurd isNew notNew,
        fun isReplace => absurd isReplace notReplace⟩, fun _ => rfl⟩

end

/-- The book manager's part of the command switch. -/
def execute (manager : BookManager) (sc : SequencedCommand) :
    Exec (Except Thrown (BookManager × MatchOutput)) :=
  if sc.cmd.type = .new then manager.addOrder sc.seq sc.cmd
  else if sc.cmd.type = .cancel then do
    let (manager, ev) ← manager.cancelOrder sc.seq sc.cmd.cancelOrderId
    match ev with
    | none => .ok (.ok (manager, { reject := .unknownOrder }))
    | some ev => .ok (.ok (manager, { mdEvents := [ev] }))
  else if sc.cmd.type = .replace then do
    let answer ← manager.replaceOrder sc.seq sc.cmd
    .ok (.ok answer)
  else .ok (.ok (manager, {}))

/-- A command to a symbol that exists goes through as the market has it. -/
theorem execute_spec {manager : BookManager} {market : ArrivalMarket} {sc : SequencedCommand}
    (models : manager.Models market) (room : market.HasRoom)
    (known : sc.cmd.type = .new → market.validSymbol sc.cmd.symbolId = true) :
    ∃ later, manager.execute sc = .ok (.ok (later, (market.apply sc.seq sc.cmd).2)) ∧
      Advances manager later market (market.apply sc.seq sc.cmd).1 := by
  rw [execute]
  by_cases isNew : sc.cmd.type = .new
  · obtain ⟨books, ran, advances⟩ := addOrder_spec models room sc.seq sc.cmd (known isNew)
    rw [if_pos isNew, ArrivalMarket.apply_new isNew]
    exact ⟨books, ran, advances⟩
  by_cases isCancel : sc.cmd.type = .cancel
  · obtain ⟨books, ran, advances⟩ := cancelOrder_spec models sc.seq sc.cmd.cancelOrderId
    rw [if_neg isNew, if_pos isCancel, ran]
    cases ArrivalMarket.apply_cancel sc.seq models.listed isCancel with
    | inl absent =>
        obtain ⟨target, applied⟩ := absent
        rw [ArrivalMarket.cancelOrder, target] at advances ⊢
        rw [applied]
        exact ⟨books, rfl, advances⟩
    | inr found =>
        obtain ⟨ev, cancelled, applied⟩ := found
        rw [cancelled, applied]
        exact ⟨books, rfl, advances⟩
  by_cases isReplace : sc.cmd.type = .replace
  · obtain ⟨books, ran, advances⟩ := replaceOrder_spec models room sc.seq sc.cmd
    rw [if_neg isNew, if_neg isCancel, if_pos isReplace, ArrivalMarket.apply_replace isReplace, ran]
    exact ⟨books, rfl, advances⟩
  · rw [if_neg isNew, if_neg isCancel, if_neg isReplace,
      ArrivalMarket.apply_other isNew isCancel isReplace]
    exact ⟨manager, rfl, .refl models⟩

end BookManager

namespace Exchange

/-- The exchange once a command is sequenced, journaled and checked. -/
def checked (exchange : Exchange) (sc : SequencedCommand) (writeJournal : Bool) : Exchange :=
  { exchange with
    nextSeq :=
      if sc.seq ≠ exchange.nextSeq - 1 && sc.seq ≥ exchange.nextSeq then sc.seq + 1
      else exchange.nextSeq
    journal := if writeJournal then exchange.journal.map (·.append sc) else exchange.journal
    risk := (exchange.risk.check sc.cmd exchange.books sc.recvTsNs).1 }

/-- A result that is returned. -/
def returning (result : Exchange × ProcessResult) : Exchange × Outcome :=
  (result.1, .returned result.2)

section

variable {exchange : Exchange} {sc : SequencedCommand} {market : ArrivalMarket}
  {writeJournal : Bool}

theorem applySequenced_eq (exchange : Exchange) (sc : SequencedCommand) (writeJournal : Bool) :
    exchange.applySequenced sc writeJournal =
    if (exchange.risk.check sc.cmd exchange.books sc.recvTsNs).2 ≠ .none then
      .ok (returning ((exchange.checked sc writeJournal).reject sc.seq sc.cmd
        (exchange.risk.check sc.cmd exchange.books sc.recvTsNs).2))
    else (exchange.checked sc writeJournal).dispatch sc := by
  rw [applySequenced, checked]
  by_cases ahead : (sc.seq ≠ exchange.nextSeq - 1 && sc.seq ≥ exchange.nextSeq) = true
  · rw [if_pos ahead, if_pos ahead]
    cases writeJournal <;> rfl
  · rw [if_neg ahead, if_neg ahead]
    cases writeJournal <;> rfl

theorem applySequenced_refused (exchange : Exchange) (sc : SequencedCommand) (writeJournal : Bool)
    (refused : (exchange.risk.check sc.cmd exchange.books sc.recvTsNs).2 ≠ .none) :
    exchange.applySequenced sc writeJournal =
      .ok (returning ((exchange.checked sc writeJournal).reject sc.seq sc.cmd
      (exchange.risk.check sc.cmd exchange.books sc.recvTsNs).2)) := by
  rw [applySequenced_eq, if_pos refused]

theorem applySequenced_admitted (exchange : Exchange) (sc : SequencedCommand) (writeJournal : Bool)
    (admitted : (exchange.risk.check sc.cmd exchange.books sc.recvTsNs).2 = .none) :
    exchange.applySequenced sc writeJournal = (exchange.checked sc writeJournal).dispatch sc := by
  rw [applySequenced_eq, admitted, if_neg (not_not.mpr rfl)]

theorem publish_refused {out : MatchOutput} (refused : out.reject ≠ .none) :
    exchange.publish sc out = exchange.reject sc.seq sc.cmd out.reject := if_pos refused

/-- The acknowledgement of an accepted command. -/
def acceptance (sc : SequencedCommand) : Ack :=
  { seq := sc.seq, clientOrderId := sc.cmd.clientOrderId, orderId := sc.cmd.orderId,
    accepted := true, reason := .none }

theorem publish_accepted {out : MatchOutput} (accepted : out.reject = .none) :
    exchange.publish sc out =
      ({ exchange with
        nextMdSeq := exchange.nextMdSeq + UInt64.ofNat out.mdEvents.length }.accountForMd
          (stamp exchange.nextMdSeq out.mdEvents),
        { ack := acceptance sc, mdEvents := stamp exchange.nextMdSeq out.mdEvents,
          trades := out.trades }) := by
  rw [publish, accepted, if_neg (not_not.mpr rfl)]
  rfl

/-- An add to a symbol the exchange does not have leaves by an exception. -/
theorem dispatch_throws (isNew : sc.cmd.type = .new)
    (unknown : exchange.books.validSymbol sc.cmd.symbolId = false) :
    exchange.dispatch sc = .ok (exchange, .threw (.outOfRange "bad symbol id")) := by
  rw [dispatch, if_pos isNew, BookManager.addOrder_invalid _ _ unknown]
  rfl

/-- The rest of the command switch, once the book manager has answered. -/
def concluded (exchange : Exchange) (sc : SequencedCommand) :
    Except Thrown (BookManager × MatchOutput) → Exchange × Outcome
  | .error exception => (exchange, .threw exception)
  | .ok (books, out) => returning ({ exchange with books }.publish sc out)

theorem dispatch_eq (exchange : Exchange) (sc : SequencedCommand) :
    exchange.dispatch sc = (exchange.books.execute sc).map (exchange.concluded sc) := by
  rw [dispatch, BookManager.execute]
  split
  · cases exchange.books.addOrder sc.seq sc.cmd with
    | error fault => rfl
    | ok answer => cases answer <;> rfl
  · split
    · cases exchange.books.cancelOrder sc.seq sc.cmd.cancelOrderId with
      | error fault => rfl
      | ok answer =>
          obtain ⟨books, ev⟩ := answer
          cases ev <;> rfl
    · split
      · cases exchange.books.replaceOrder sc.seq sc.cmd with
        | error fault => rfl
        | ok answer => rfl
      · rfl

/-- Any other command is applied and published. -/
theorem dispatch_spec (exchange : Exchange) (sc : SequencedCommand)
    (models : exchange.books.Models market) (room : market.HasRoom)
    (known : sc.cmd.type = .new → market.validSymbol sc.cmd.symbolId = true) :
    ∃ books, exchange.dispatch sc =
        .ok (returning ({ exchange with books }.publish sc (market.apply sc.seq sc.cmd).2)) ∧
      BookManager.Advances exchange.books books market (market.apply sc.seq sc.cmd).1 := by
  obtain ⟨books, ran, advances⟩ := BookManager.execute_spec models room known
  refine ⟨books, ?_, advances⟩
  rw [dispatch_eq, ran]
  rfl

end

end Exchange

end Exsim.Core
