import Exsim.Exchange.Dispatch

/-! # Runs of the exchange -/

namespace Exsim.Core

open Data Journal Protocol

inductive ExchangeCall where
  | frame (bytes : Bytes) (nowNs : TimestampNs)
  | command (cmd : ClientCommand) (nowNs : TimestampNs)
deriving DecidableEq, Repr

namespace ExchangeCall

/-- The command a call carries, unless it is a frame that does not decode. -/
def command? : ExchangeCall → Option ClientCommand
  | .frame bytes _ => (decodeClientCommand bytes).command
  | .command cmd _ => some cmd

def nowNs : ExchangeCall → TimestampNs
  | .frame _ nowNs => nowNs
  | .command _ nowNs => nowNs

end ExchangeCall

/-- What `on_market_data`, event by event, makes of the accounts. -/
def RiskEngine.tally (risk : RiskEngine) (live : OrderId → Bool) (events : List MdEvent) :
    RiskEngine :=
  events.foldl (fun risk ev => risk.onMarketData ev (live ev.orderId)) risk

/-- The accounts do not depend on the sequence numbers of the feed. -/
theorem RiskEngine.tally_stamp (risk : RiskEngine) (live : OrderId → Bool) (events : List MdEvent)
    (next : SeqNo) :
    risk.tally live (Exchange.stamp next events) = risk.tally live events := by
  induction events generalizing risk next with
  | nil => rfl
  | cons ev events ih => exact ih _ _

namespace Exchange

def call (exchange : Exchange) : ExchangeCall → Exec (Exchange × Outcome)
  | .frame bytes nowNs => exchange.processFrame bytes nowNs
  | .command cmd nowNs => exchange.processCommand cmd nowNs

/-- Whether the risk check lets a command through. -/
def admits (exchange : Exchange) (cmd : ClientCommand) (nowNs : TimestampNs) : Bool :=
  (exchange.risk.check cmd exchange.books nowNs).2 = .none

/-- The record a command is sequenced under. -/
def sequence (exchange : Exchange) (cmd : ClientCommand) (nowNs : TimestampNs) : SequencedCommand :=
  { seq := exchange.nextSeq, recvTsNs := nowNs, cmd }

/-- The exchange once its next sequence number is taken. -/
def numbered (exchange : Exchange) : Exchange := { exchange with nextSeq := exchange.nextSeq + 1 }

/-- The exchange once a command of its own is sequenced, journaled and checked. -/
def received (exchange : Exchange) (cmd : ClientCommand) (nowNs : TimestampNs) : Exchange :=
  exchange.numbered.checked (exchange.sequence cmd nowNs) true

/-- Everything a call can do, and what it makes of the market. -/
inductive Called (exchange : Exchange) (market : ArrivalMarket) (call : ExchangeCall) :
    Exchange → Outcome → ArrivalMarket → Prop
  | undecoded {reason : RejectReason} (carried : call.command? = none) (bad : reason ≠ .none) :
      Called exchange market call (exchange.numbered.reject exchange.nextSeq dummyCommand reason).1
        (.returned (exchange.numbered.reject exchange.nextSeq dummyCommand reason).2) market
  | refused {cmd : ClientCommand} {reason : RejectReason} (carried : call.command? = some cmd)
      (refused : exchange.admits cmd call.nowNs = false) (bad : reason ≠ .none) :
      Called exchange market call
        ((exchange.received cmd call.nowNs).reject exchange.nextSeq cmd reason).1
        (.returned ((exchange.received cmd call.nowNs).reject exchange.nextSeq cmd reason).2) market
  | threw {cmd : ClientCommand} {exception : Thrown} (carried : call.command? = some cmd)
      (admitted : exchange.admits cmd call.nowNs = true) (isNew : cmd.type = .new)
      (unknown : exchange.books.validSymbol cmd.symbolId = false) :
      Called exchange market call (exchange.received cmd call.nowNs) (.threw exception) market
  | applied {cmd : ClientCommand} {books : BookManager} (carried : call.command? = some cmd)
      (admitted : exchange.admits cmd call.nowNs = true)
      (known : cmd.type = .new → market.validSymbol cmd.symbolId = true)
      (advances : BookManager.Advances exchange.books books market
        (market.apply exchange.nextSeq cmd).1) :
      Called exchange market call
        ({ exchange.received cmd call.nowNs with books }.publish (exchange.sequence cmd call.nowNs)
          (market.apply exchange.nextSeq cmd).2).1
        (.returned ({ exchange.received cmd call.nowNs with books }.publish
          (exchange.sequence cmd call.nowNs) (market.apply exchange.nextSeq cmd).2).2)
        (market.apply exchange.nextSeq cmd).1

section

variable {exchange after : Exchange} {market later : ArrivalMarket} {call : ExchangeCall}
  {outcome : Outcome} {cmd : ClientCommand} {nowNs : TimestampNs}

theorem call_undecoded (exchange : Exchange) (carried : call.command? = none) :
    ∃ reason, reason ≠ RejectReason.none ∧
      exchange.call call =
        .ok (returning (exchange.numbered.reject exchange.nextSeq dummyCommand reason)) := by
  cases call with
  | command cmd nowNs => cases carried
  | frame bytes nowNs =>
      have undecoded : (decodeClientCommand bytes).command = none := carried
      cases decodeClientCommand_cases bytes with
      | inl decoded =>
          obtain ⟨cmd, decoded, -⟩ := decoded
          rw [decoded] at undecoded
          cases undecoded
      | inr failed =>
          obtain ⟨error, failed, bad⟩ := failed
          exact ⟨error.reason, bad, by rw [Exchange.call, processFrame, failed]; rfl⟩

theorem call_carried (exchange : Exchange) (carried : call.command? = some cmd) :
    exchange.call call = exchange.numbered.applySequenced
      (exchange.sequence cmd call.nowNs) true := by
  cases call with
  | command cmd' nowNs =>
      obtain rfl := Option.some.inj carried
      rfl
  | frame bytes nowNs =>
      have decoded : (decodeClientCommand bytes).command = some cmd := carried
      rw [Exchange.call, processFrame]
      dsimp only
      rw [decoded]
      rfl

/-- What becomes of a call with a command, whatever state the books are in. -/
theorem call_decided (exchange : Exchange) (carried : call.command? = some cmd) :
    exchange.call call = if (exchange.risk.check cmd exchange.books call.nowNs).2 ≠ .none then
      .ok (returning ((exchange.received cmd call.nowNs).reject exchange.nextSeq cmd
        (exchange.risk.check cmd exchange.books call.nowNs).2))
    else (exchange.books.execute (exchange.sequence cmd call.nowNs)).map
      ((exchange.received cmd call.nowNs).concluded (exchange.sequence cmd call.nowNs)) := by
  rw [call_carried exchange carried, applySequenced_eq, dispatch_eq]
  rfl

theorem admits_iff : exchange.admits cmd nowNs = true ↔
    (exchange.risk.check cmd exchange.books nowNs).2 = .none :=
  decide_eq_true_iff

/-- A call does what the market says, as long as every book has a slot left. -/
theorem call_spec (models : exchange.books.Models market) (room : market.HasRoom)
    (call : ExchangeCall) :
    ∃ after outcome later, exchange.call call = .ok (after, outcome) ∧
      Called exchange market call after outcome later := by
  cases carried : call.command? with
  | none =>
      obtain ⟨reason, bad, ran⟩ := call_undecoded exchange carried
      exact ⟨_, _, _, ran, .undecoded carried bad⟩
  | some cmd =>
      have ran := call_carried exchange carried
      by_cases admitted : exchange.admits cmd call.nowNs = true
      · have dispatched : exchange.call call =
            (exchange.received cmd call.nowNs).dispatch (exchange.sequence cmd call.nowNs) :=
          ran.trans
            (applySequenced_admitted exchange.numbered (exchange.sequence cmd call.nowNs) true
            (admits_iff.mp admitted))
        by_cases unknown : cmd.type = .new ∧ market.validSymbol cmd.symbolId = false
        · have unknown' : exchange.books.validSymbol cmd.symbolId = false := by
            rw [models.validSymbol]
            exact unknown.2
          have thrown := dispatched.trans (dispatch_throws unknown.1 unknown')
          exact ⟨_, _, _, thrown, .threw carried admitted unknown.1 unknown'⟩
        · have known : cmd.type = .new → market.validSymbol cmd.symbolId = true := by
            intro isNew
            by_contra invalid
            exact unknown ⟨isNew, Bool.eq_false_iff.mpr invalid⟩
          obtain ⟨books, applied, advances⟩ := dispatch_spec (exchange.received cmd call.nowNs)
            (exchange.sequence cmd call.nowNs) models room known
          exact ⟨_, _, _, dispatched.trans applied, .applied carried admitted known advances⟩
      · have refused :
            (exchange.risk.check cmd exchange.books call.nowNs).2 ≠ .none := fun passed =>
          admitted (admits_iff.mpr passed)
        have rejected := ran.trans
          (applySequenced_refused exchange.numbered (exchange.sequence cmd call.nowNs) true refused)
        exact ⟨_, _, _, rejected, .refused carried (Bool.eq_false_iff.mpr admitted) refused⟩

/-- Accounting folds the events into the feed checksum and into the risk state. -/
theorem accountForMd_eq (exchange : Exchange) (events : List MdEvent) :
    exchange.accountForMd events =
    { exchange with
      mdChecksum := events.foldl (fun h ev => hashWords h (mdWords ev)) exchange.mdChecksum
      risk := exchange.risk.tally exchange.books.containsOrder events } := by
  induction events generalizing exchange with
  | nil => rfl
  | cons ev events ih =>
      rw [accountForMd, List.foldl_cons]
      exact ih _

theorem accountForMd_books (exchange : Exchange) (events : List MdEvent) :
    (exchange.accountForMd events).books = exchange.books := by
  rw [accountForMd_eq]

theorem publish_books (exchange : Exchange) (sc : SequencedCommand) (out : MatchOutput) :
    (exchange.publish sc out).1.books = exchange.books := by
  by_cases accepted : out.reject = .none
  · rw [publish_accepted accepted]
    exact accountForMd_books _ _
  · rw [publish_refused accepted]
    rfl

theorem Called.advances (called : Called exchange market call after outcome later)
    (models : exchange.books.Models market) :
    BookManager.Advances exchange.books after.books market later := by
  cases called with
  | undecoded => exact .refl models
  | refused => exact .refl models
  | threw => exact .refl models
  | applied _ _ _ advances =>
      rw [publish_books]
      exact advances

end

/-- A new exchange has a new book manager and no accounts. -/
theorem create_ok {cfg : ExchangeConfig} {fresh : Exchange}
    (created : Exchange.create cfg = some (.ok fresh)) :
    BookManager.create cfg.maxSymbol cfg.ladder = some (.ok fresh.books) ∧
      fresh = { ladder := cfg.ladder, books := fresh.books, risk := { limits := cfg.riskLimits }
                journal := cfg.journalPath.map fun _ => .create } := by
  rw [Exchange.create, Option.map_eq_some_iff] at created
  obtain ⟨made, built, created⟩ := created
  cases made with
  | error exception => cases created
  | ok books =>
      obtain rfl := Except.ok.inj created
      exact ⟨built, rfl⟩

/-- What every guarded call keeps of the exchange and of the market its books
model, every guarded run keeps, while no book runs out of slots. -/
theorem run_kept {kept : Exchange → ArrivalMarket → Prop} {guard : Exchange → ExchangeCall → Prop}
    {cfg : ExchangeConfig} {fresh : Exchange} {calls : List ExchangeCall}
    (created : Exchange.create cfg = some (.ok fresh))
    (keep : ∀ {exchange market input after outcome later},
      Called exchange market input after outcome later →
      exchange.books.Models market → kept exchange market → guard exchange input → kept after later)
    (start : kept fresh fresh.books.blank)
    (guarded : Along call (fun exchange input => exchange.books.HasRoom ∧ guard exchange input)
      fresh calls) :
    ∃ after outcomes market, run call fresh calls = .ok (after, outcomes) ∧
    after.books.Models market ∧ kept after market := by
  have preserve : ∀ (exchange : Exchange) (input : ExchangeCall),
      (∃ market, exchange.books.Models market ∧ kept exchange market) → exchange.books.HasRoom ∧
      guard exchange input → ∃ after outcome, exchange.call input = .ok (after, outcome) ∧
      ∃ market, after.books.Models market ∧ kept after market := by
    intro exchange input held guarded
    obtain ⟨market, models, held⟩ := held
    obtain ⟨after, outcome, later, ran, called⟩ := call_spec models (models.hasRoom guarded.1) input
    exact ⟨after, outcome, ran, later, (called.advances models).models,
      keep called models held guarded.2⟩
  have models := (BookManager.create_spec (create_ok created).1).1
  obtain ⟨after, outcomes, ran, market, models, held⟩ :=
    run_invariant preserve ⟨_, models, start⟩ guarded
  exact ⟨after, outcomes, market, ran, models, held⟩

/-- Whatever the calls, while no book runs out of slots the books model a market. -/
theorem run_models {cfg : ExchangeConfig} {fresh exchange : Exchange} {calls : List ExchangeCall}
    {outcomes : List Outcome} (created : Exchange.create cfg = some (.ok fresh))
    (room : Along call (fun exchange _ => exchange.books.HasRoom) fresh calls)
    (ran : run call fresh calls = .ok (exchange, outcomes)) :
    ∃ market, exchange.books.Models market := by
  have guarded : Along call (fun exchange _ => exchange.books.HasRoom ∧ True) fresh calls :=
    room.imp fun _ _ room => ⟨room, trivial⟩
  obtain ⟨final, outputs, market, ran', models, -⟩ :=
    run_kept created (fun _ _ _ _ => trivial)
      (show (fun _ _ => True) fresh fresh.books.blank from trivial) guarded
  rw [ran, Except.ok.injEq, Prod.mk.injEq] at ran'
  rw [ran'.1]
  exact ⟨market, models⟩

section OneSymbol

def oneSymbolConfig : ExchangeConfig :=
  { maxSymbol := 1, ladder := { minPrice := 1, maxPrice := 2 }, journalPath := some "commands" }

/-- A new exchange of one symbol with two price levels. -/
def oneSymbol : Exchange :=
  { ladder := oneSymbolConfig.ladder, books := .oneSymbol, risk := { limits := {} },
    journal := some .create }

theorem oneSymbol_created : Exchange.create oneSymbolConfig = some (.ok oneSymbol) := by
  decide +kernel

/-- A bid behind the first one. -/
def secondBid : ClientCommand := { BookManager.restingBid with orderId := 8 }

/-- A replace of the first bid by the id of the second. -/
def duplicateReplace : ClientCommand :=
  { type := .replace, orderId := 8, cancelOrderId := 7, accountId := 1, symbolId := 1,
    price := 2, qty := 5 }

/-- Two resting bids. -/
def twoBids : List ExchangeCall := [.command BookManager.restingBid 0, .command secondBid 0]

end OneSymbol

end Exchange

end Exsim.Core
