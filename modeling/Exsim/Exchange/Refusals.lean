import Exsim.Exchange.Calls
import Exsim.Risk.Counters

/-! # How a call of the exchange ends, and what a refusal changes -/

namespace Exsim

/-- Accepted without a reason, or refused for one. -/
def Ack.Proper (ack : Ack) : Prop := if ack.accepted then ack.reason = .none else ack.reason ≠ .none

instance (ack : Ack) : Decidable ack.Proper :=
  inferInstanceAs
    (Decidable (if ack.accepted = true then ack.reason = .none else ack.reason ≠ .none))

namespace Core

open Data Journal Protocol

namespace Exchange

/-- Whether a frame carries an admitted add to a symbol the exchange does not have. -/
def throwsOn (exchange : Exchange) (frame : Bytes) (nowNs : TimestampNs) : Bool :=
  (decodeClientCommand frame).command.any fun cmd =>
    cmd.type = .new && cmd.symbolId > exchange.books.maxSymbol && exchange.admits cmd nowNs

/-- Whether a call that is refused changes nothing. -/
def atomicOn (exchange : Exchange) (call : ExchangeCall) : Bool :=
  call.command?.all fun cmd => !exchange.admits cmd call.nowNs || exchange.books.atomic cmd

/-- The same queues, the same index, the same orders and notional of every account. -/
structure Unchanged (before after : Exchange) : Prop where
  queues : ∀ symbol, (after.books.findBook symbol).map OrderBook.fifo =
      (before.books.findBook symbol).map OrderBook.fifo
  index : ∀ id, after.books.orderToSymbol.lookup id = before.books.orderToSymbol.lookup id
  accounts : ∀ id, (after.risk.account id).openOrders = (before.risk.account id).openOrders ∧
    (after.risk.account id).openNotional = (before.risk.account id).openNotional

section

variable {cfg : ExchangeConfig} {fresh exchange after : Exchange} {calls : List ExchangeCall}
  {outcomes : List Outcome} {market later : ArrivalMarket} {call : ExchangeCall} {outcome : Outcome}

theorem publish_proper (exchange : Exchange) (sc : SequencedCommand) (out : MatchOutput) :
    (exchange.publish sc out).2.ack.Proper := by
  by_cases accepted : out.reject = .none
  · rw [publish_accepted accepted]
    rfl
  · rw [publish_refused accepted]
    exact accepted

theorem publish_accepted_iff (exchange : Exchange) (sc : SequencedCommand) (out : MatchOutput) :
    (exchange.publish sc out).2.ack.accepted = true ↔ out.reject = .none := by
  by_cases accepted : out.reject = .none
  · rw [publish_accepted accepted]
    exact ⟨fun _ => accepted, fun _ => rfl⟩
  · rw [publish_refused accepted]
    exact ⟨fun impossible => (nomatch impossible), fun isNone => absurd isNone accepted⟩

/-- In every state reached while no book runs out of slots, a frame is answered
properly exactly if it carries no admitted add to an unknown symbol. -/
theorem processFrame_answers {frame : Bytes} {nowNs : TimestampNs}
    (created : Exchange.create cfg = some (.ok fresh))
    (room : Along Exchange.call (fun exchange _ => exchange.books.HasRoom) fresh
      (calls ++ [.frame frame nowNs]))
    (ran : run Exchange.call fresh calls = .ok (exchange, outcomes)) :
    (∃ after result, exchange.processFrame frame nowNs = .ok (after, .returned result) ∧
      result.ack.Proper) ↔ exchange.throwsOn frame nowNs = false := by
  obtain ⟨before, last⟩ := (along_append ran).mp room
  obtain ⟨market, models⟩ := run_models created before ran
  obtain ⟨after, outcome, later, answered, called⟩ :=
    call_spec models (models.hasRoom last.1) (.frame frame nowNs)
  have unknown : ∀ cmd, (decodeClientCommand frame).command = some cmd →
      (exchange.books.validSymbol cmd.symbolId = false ↔
        cmd.symbolId > exchange.books.maxSymbol) := by
    intro cmd decoded
    cases decodeClientCommand_cases frame with
    | inr failed =>
        obtain ⟨error, failed, -⟩ := failed
        rw [failed] at decoded
        cases decoded
    | inl valid =>
        obtain ⟨cmd', found, valid⟩ := valid
        rw [found] at decoded
        obtain rfl := Option.some.inj decoded
        have nonzero := validateClientCommand_symbol valid
        simp only [BookManager.validSymbol, nonzero, decide_false, Bool.false_or,
          Bool.not_eq_false', decide_eq_true_eq]
  have answered : exchange.processFrame frame nowNs = .ok (after, outcome) := answered
  rw [answered]
  cases called with
  | undecoded carried bad =>
      have undecoded : (decodeClientCommand frame).command = none := carried
      rw [throwsOn, undecoded]
      exact ⟨fun _ => rfl, fun _ => ⟨_, _, rfl, bad⟩⟩
  | @refused cmd reason carried refused bad =>
      have decoded : (decodeClientCommand frame).command = some cmd := carried
      have refused : exchange.admits cmd nowNs = false := refused
      rw [throwsOn, decoded, Option.any_some, refused, Bool.and_false]
      exact ⟨fun _ => rfl, fun _ => ⟨_, _, rfl, bad⟩⟩
  | @threw cmd exception carried admitted isNew invalid =>
      have decoded : (decodeClientCommand frame).command = some cmd := carried
      have admitted : exchange.admits cmd nowNs = true := admitted
      rw [throwsOn, decoded, Option.any_some, admitted, isNew,
        decide_eq_true ((unknown cmd decoded).mp invalid)]
      simp
  | @applied cmd books carried admitted known advances =>
      have decoded : (decodeClientCommand frame).command = some cmd := carried
      rw [throwsOn, decoded, Option.any_some]
      refine ⟨fun _ => ?_, fun _ => ⟨_, _, rfl, publish_proper _ _ _⟩⟩
      by_cases isNew : cmd.type = .new
      · have valid := known isNew
        rw [← models.validSymbol] at valid
        have inside : ¬cmd.symbolId > exchange.books.maxSymbol := fun beyond =>
          absurd ((unknown cmd decoded).mpr beyond) (by rw [valid]; decide)
        simp [inside]
      · simp [isNew]

/-- A frame for a symbol beyond the last. -/
def unknownSymbolFrame : Bytes := encodeClientCommand { BookManager.restingBid with symbolId := 2 }

theorem processFrame_answers_oneSymbol :
    (∃ after result, oneSymbol.processFrame unknownSymbolFrame 0 = .ok (after, .returned result) ∧
      result.ack.Proper) ↔ oneSymbol.throwsOn unknownSymbolFrame 0 = false := by
  have room : Along Exchange.call (fun exchange _ => exchange.books.HasRoom) oneSymbol
      ([] ++ [.frame unknownSymbolFrame 0]) := by
    decide +kernel
  exact processFrame_answers oneSymbol_created room rfl

/-- An exception leaves `process_frame` on a well-formed frame. -/
theorem unknownSymbolFrame_escapes : Exchange.create oneSymbolConfig = some (.ok oneSymbol) ∧
    ¬∃ after result, oneSymbol.processFrame unknownSymbolFrame 0 =
      .ok (after, .returned result) := by
  refine ⟨oneSymbol_created, fun answered => ?_⟩
  obtain ⟨after, result, answered⟩ := answered
  have escapes : (match oneSymbol.processFrame unknownSymbolFrame 0 with
      | .ok (_, .threw _) => true
      | _ => false) = true := by
    decide +kernel
  rw [answered] at escapes
  cases escapes

section Atomic

/-- Books that model the same market have the same queues and the same index. -/
theorem unchanged_books (models : exchange.books.Models market)
    (advances : BookManager.Advances exchange.books after.books market market) :
    (∀ symbol, (after.books.findBook symbol).map OrderBook.fifo =
      (exchange.books.findBook symbol).map OrderBook.fifo) ∧
      ∀ id, after.books.orderToSymbol.lookup id = exchange.books.orderToSymbol.lookup id := by
  refine ⟨fun symbol => ?_, fun id => by rw [models.index, advances.models.index]⟩
  by_cases valid : market.validSymbol symbol = true
  · obtain ⟨book, stored, refines⟩ := models.books symbol valid
    obtain ⟨book', stored', ladder⟩ := advances.ladders symbol book stored
    obtain ⟨other, found, refines'⟩ := advances.models.books symbol valid
    obtain rfl := Option.some.inj (stored'.symm.trans found)
    rw [models.findBook valid stored, advances.models.findBook valid stored', Option.map_some,
      Option.map_some, refines.fifo_eq refines' ladder]
  · have invalid := Bool.eq_false_iff.mpr valid
    rw [models.findBook_none invalid, advances.models.findBook_none invalid]

/-- In every state reached while no book runs out of slots, a call that is
refused leaves the books, the index and the accounts exactly if it is of the
atomic kinds. -/
theorem refused_unchanged {result : ProcessResult}
    (created : Exchange.create cfg = some (.ok fresh))
    (room : Along Exchange.call (fun exchange _ => exchange.books.HasRoom) fresh (calls ++ [call]))
    (ran : run Exchange.call fresh calls = .ok (exchange, outcomes))
    (answered : exchange.call call = .ok (after, .returned result))
    (refused : result.ack.accepted = false) :
    Unchanged exchange after ↔ exchange.atomicOn call = true := by
  obtain ⟨before, last⟩ := (along_append ran).mp room
  obtain ⟨market, models⟩ := run_models created before ran
  obtain ⟨after', outcome, later, answered', called⟩ :=
    call_spec models (models.hasRoom last.1) call
  rw [answered, Except.ok.injEq, Prod.mk.injEq] at answered'
  obtain ⟨rfl, rfl⟩ := answered'
  have advances := called.advances models
  generalize isOutcome : Outcome.returned result = outcome at called
  cases called with
  | undecoded carried bad =>
      obtain ⟨queues, index⟩ := unchanged_books models advances
      rw [atomicOn, carried]
      exact ⟨fun _ => rfl, fun _ => ⟨queues, index, fun _ => ⟨rfl, rfl⟩⟩⟩
  | @refused cmd reason carried refused bad =>
      obtain ⟨queues, index⟩ := unchanged_books models advances
      rw [atomicOn, carried, Option.all_some, refused]
      exact ⟨fun _ => rfl,
        fun _ => ⟨queues, index, exchange.risk.check_counters cmd exchange.books call.nowNs⟩⟩
  | threw => cases isOutcome
  | @applied cmd books carried admitted known advanced =>
      obtain rfl := Outcome.returned.inj isOutcome
      have rejected : (market.apply exchange.nextSeq cmd).2.reject ≠ .none := by
        intro accepted
        rw [(publish_accepted_iff _ _ _).mpr accepted] at refused
        cases refused
      obtain ⟨indexKept, allKept⟩ := market.apply_refused models.listed rejected
      rw [atomicOn, carried, Option.all_some, admitted, Bool.not_true, Bool.false_or,
        models.atomic known]
      constructor
      · intro unchanged
        refine indexKept.mp (funext fun id => ?_)
        rw [← models.index, ← unchanged.index, advances.models.index]
      · intro atomic
        rw [allKept atomic] at advances
        obtain ⟨queues, index⟩ := unchanged_books models advances
        refine ⟨queues, index, fun id => ?_⟩
        rw [publish_refused rejected]
        exact exchange.risk.check_counters cmd exchange.books call.nowNs id

/-- The exchange after two bids. -/
def twoBidsResting : Exchange :=
  match run Exchange.call oneSymbol twoBids with
  | .ok (exchange, _) => exchange
  | .error _ => oneSymbol

theorem twoBids_run : ∃ outcomes, run Exchange.call oneSymbol twoBids =
    .ok (twoBidsResting, outcomes) := by
  have returns : (run Exchange.call oneSymbol twoBids).toOption.isSome = true := by decide +kernel
  obtain ⟨result, returned⟩ := Option.isSome_iff_exists.mp returns
  rw [twoBidsResting, ok_of_toOption returned]
  exact ⟨result.2, rfl⟩

/-- The replace by a duplicate is refused. -/
theorem duplicateReplace_refused : ∃ after result,
    twoBidsResting.call (.command duplicateReplace 0) = .ok (after, .returned result) ∧
      result.ack.accepted = false ∧ (after.books.findBook 1).map (fun book => book.fifo true 0) ≠
        (twoBidsResting.books.findBook 1).map fun book => book.fifo true 0 := by
  have refuses : (match twoBidsResting.call (.command duplicateReplace 0) with
      | .ok (after, .returned result) => !result.ack.accepted &&
          decide ((after.books.findBook 1).map (fun book => book.fifo true 0) ≠
            (twoBidsResting.books.findBook 1).map fun book => book.fifo true 0)
      | _ => false) = true := by
    decide +kernel
  cases ran : twoBidsResting.call (.command duplicateReplace 0) with
  | error fault =>
      rw [ran] at refuses
      cases refuses
  | ok answer =>
      obtain ⟨after, outcome⟩ := answer
      rw [ran] at refuses
      cases outcome with
      | threw exception => cases refuses
      | returned result =>
          rw [Bool.and_eq_true, Bool.not_eq_true', decide_eq_true_iff] at refuses
          exact ⟨after, result, rfl, refuses⟩

theorem refused_unchanged_twoBids : ∃ after, (∃ result,
      twoBidsResting.call (.command duplicateReplace 0) = .ok (after, .returned result)) ∧
    (Unchanged twoBidsResting after ↔ twoBidsResting.atomicOn (.command duplicateReplace 0) =
      true) := by
  obtain ⟨outcomes, ran⟩ := twoBids_run
  obtain ⟨after, result, answered, refused, -⟩ := duplicateReplace_refused
  have room : Along Exchange.call (fun exchange _ => exchange.books.HasRoom) oneSymbol
      (twoBids ++ [.command duplicateReplace 0]) := by
    decide +kernel
  exact ⟨after, ⟨result, answered⟩, refused_unchanged oneSymbol_created room ran answered refused⟩

/-- A replace that is refused as a duplicate leaves its target cancelled. -/
theorem duplicateReplace_loses_order : Exchange.create oneSymbolConfig = some (.ok oneSymbol) ∧
    ∃ outcomes after result, run Exchange.call oneSymbol twoBids = .ok (twoBidsResting, outcomes) ∧
      twoBidsResting.call (.command duplicateReplace 0) = .ok (after, .returned result) ∧
      result.ack.accepted = false ∧ ¬Unchanged twoBidsResting after := by
  obtain ⟨outcomes, ran⟩ := twoBids_run
  obtain ⟨after, result, answered, refused, different⟩ := duplicateReplace_refused
  refine ⟨oneSymbol_created, outcomes, after, result, ran, answered, refused,
    fun unchanged => different ?_⟩
  have queues := congrArg (Option.map fun fifo : Bool → Nat → List RestingOrderView => fifo true 0)
    (unchanged.queues 1)
  rw [Option.map_map, Option.map_map] at queues
  exact queues

end Atomic

end

end Exchange

end Core

end Exsim
