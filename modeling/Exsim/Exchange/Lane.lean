import Exsim.Exchange.Locality

/-! # One lane of the exchange

A command of a lane does the same to two exchanges that agree on what the lane
holds, but for the numbers, and a command beside the lane leaves it alone.
-/

namespace Exsim.Core

open Data Journal

/-- A result without its sequence numbers. -/
def ProcessResult.unnumbered (result : ProcessResult) : ProcessResult :=
  { ack := { result.ack with seq := 0 }
    mdEvents := result.mdEvents.map fun ev => { ev with seq := 0 }
    trades := result.trades.map fun trade => { trade with seq := 0 } }

def Outcome.unnumbered : Outcome → Outcome
  | .returned result => .returned result.unnumbered
  | .threw exception => .threw exception

namespace Exchange

/-- A command with the time it arrives at. -/
abbrev TimedCommand := ClientCommand × TimestampNs

def command (exchange : Exchange) (input : TimedCommand) : Exec (Exchange × Outcome) :=
  exchange.processCommand input.1 input.2

/-- Two exchanges that agree on all a lane holds. -/
structure SameLane (lane : Lane) (both alone : Exchange) : Prop where
  books : BookManager.SameLane lane both.books alone.books
  risk : RiskEngine.SameLane lane both.risk alone.risk

section

variable {lane : Lane} {both alone : Exchange} {sc again : SequencedCommand} {out : MatchOutput}
  {market : ArrivalMarket} {input : TimedCommand}

theorem stamp_renumber (next seq : SeqNo) (events : List MdEvent) :
    stamp next (events.map fun ev => { ev with seq }) = stamp next events := by
  induction events generalizing next with
  | nil => rfl
  | cons ev events ih => exact congrArg (_ :: ·) (ih _)

theorem stamp_unnumbered (next : SeqNo) (events : List MdEvent) :
    ((stamp next events).map fun ev => { ev with seq := 0 }) = events.map fun ev =>
      { ev with seq := 0 } := by
  induction events generalizing next with
  | nil => rfl
  | cons ev events ih => exact congrArg (_ :: ·) (ih _)

theorem reject_unnumbered (reason : RejectReason) (sameCmd : again.cmd = sc.cmd) :
    (alone.reject again.seq again.cmd reason).2.unnumbered =
      (both.reject sc.seq sc.cmd reason).2.unnumbered := by
  rw [sameCmd]
  rfl

theorem SameLane.reject (same : SameLane lane both alone) (reason : RejectReason) :
    SameLane lane (both.reject sc.seq sc.cmd reason).1
      (alone.reject again.seq again.cmd reason).1 :=
  ⟨same.books, same.risk⟩

/-- What both exchanges publish of a command of the lane. -/
theorem SameLane.publish (same : SameLane lane both alone) (sameCmd : again.cmd = sc.cmd)
    (told : ∀ ev ∈ out.mdEvents, lane.Owns true (eventOrder ev)) :
    (alone.publish again (out.renumber again.seq)).2.unnumbered =
      (both.publish sc out).2.unnumbered ∧
      SameLane lane (both.publish sc out).1 (alone.publish again (out.renumber again.seq)).1 := by
  by_cases accepted : out.reject = .none
  · have acceptedAgain : (out.renumber again.seq).reject = .none := accepted
    rw [publish_accepted accepted, publish_accepted acceptedAgain, accountForMd_eq, accountForMd_eq]
    refine ⟨?_, same.books, ?_⟩
    · simp only [ProcessResult.unnumbered, acceptance, sameCmd, stamp_unnumbered,
        MatchOutput.renumber, List.map_map]
      rfl
    · have alike : ∀ ev ∈ out.mdEvents, alone.books.containsOrder ev.orderId =
          both.books.containsOrder ev.orderId :=
        fun ev among => same.books.containsOrder (told ev among).id
      rw [MatchOutput.renumber, stamp_renumber, RiskEngine.tally_stamp, RiskEngine.tally_stamp]
      exact same.risk.tally (fun ev among => (told ev among).account) alike
  · have refusedAgain : (out.renumber again.seq).reject ≠ .none := accepted
    rw [publish_refused accepted, publish_refused refusedAgain]
    exact ⟨reject_unnumbered _ sameCmd, same.reject _⟩

/-- What the exchange publishes of a command off the lane. -/
theorem SameLane.publish_aside (same : SameLane lane both alone)
    (told : ∀ ev ∈ out.mdEvents, lane.Owns false (eventOrder ev)) :
    SameLane lane (both.publish sc out).1 alone := by
  by_cases accepted : out.reject = .none
  · rw [publish_accepted accepted, accountForMd_eq, RiskEngine.tally_stamp]
    exact ⟨same.books, same.risk.tally_aside (fun ev among => (told ev among).account) _⟩
  · rw [publish_refused accepted]
    exact ⟨same.books, same.risk⟩

theorem command_eq (exchange : Exchange) (input : TimedCommand) : exchange.command input =
    if (exchange.risk.check input.1 exchange.books input.2).2 ≠ .none then
      .ok (returning ((exchange.received input.1 input.2).reject exchange.nextSeq input.1
        (exchange.risk.check input.1 exchange.books input.2).2))
    else (exchange.books.execute (exchange.sequence input.1 input.2)).map
      ((exchange.received input.1 input.2).concluded (exchange.sequence input.1 input.2)) :=
  call_decided exchange
    (show (ExchangeCall.command input.1 input.2).command? = some input.1 from rfl)

/-- A command of the lane does the same to both exchanges. -/
theorem SameLane.command (same : SameLane lane both alone) (models : both.books.Models market)
    (room : market.HasRoom)
    (known : input.1.type = .new → market.validSymbol input.1.symbolId = true)
    (keeps : lane.Keeps market) (carries : lane.Carries true input.1) :
    ∃ after outcome aloneAfter aloneOutcome, both.command input = .ok (after, outcome) ∧
      alone.command input = .ok (aloneAfter, aloneOutcome) ∧
      aloneOutcome.unnumbered = outcome.unnumbered ∧ SameLane lane after aloneAfter := by
  have sequenced : (alone.sequence input.1 input.2).cmd = (both.sequence input.1 input.2).cmd := rfl
  obtain ⟨verdict, checked⟩ := same.risk.check input.2 carries.account fun routed =>
    same.books.containsOrder (carries.ids _ (ClientCommand.cancelOrderId_mem routed))
  have received : SameLane lane (both.received input.1 input.2) (alone.received input.1 input.2) :=
    ⟨same.books, checked⟩
  rw [command_eq, command_eq, verdict]
  split
  · exact ⟨_, _, _, _, rfl, rfl, rfl, received.books, received.risk⟩
  · obtain ⟨later, aloneLater, ran, aloneRan, kept⟩ :=
      same.books.execute models room known keeps carries sequenced
    obtain ⟨-, told⟩ :=
      ArrivalMarket.apply_keeps (both.sequence input.1 input.2).seq models.sound models.listed known
      keeps carries
    have settled : SameLane lane { both.received input.1 input.2 with books := later }
        { alone.received input.1 input.2 with books := aloneLater } := ⟨kept, checked⟩
    obtain ⟨answered, published⟩ := settled.publish sequenced told
    rw [ran, aloneRan]
    exact ⟨_, _, _, _, rfl, rfl, congrArg Outcome.returned answered, published⟩

/-- A command off the lane does nothing the other exchange can tell. -/
theorem SameLane.command_aside (same : SameLane lane both alone) (models : both.books.Models market)
    (room : market.HasRoom)
    (known : input.1.type = .new → market.validSymbol input.1.symbolId = true)
    (keeps : lane.Keeps market) (carries : lane.Carries false input.1) :
    ∃ after outcome, both.command input = .ok (after, outcome) ∧ SameLane lane after alone := by
  have received : SameLane lane (both.received input.1 input.2) alone :=
    ⟨same.books, same.risk.check_aside input.2 carries.account⟩
  rw [command_eq]
  split
  · exact ⟨_, _, rfl, received.books, received.risk⟩
  · obtain ⟨later, ran, kept⟩ :=
      same.books.execute_aside (both.sequence input.1 input.2) models room known keeps carries
    obtain ⟨-, told⟩ :=
      ArrivalMarket.apply_keeps (both.sequence input.1 input.2).seq models.sound models.listed known
      keeps carries
    have settled : SameLane lane { both.received input.1 input.2 with books := later } alone :=
      ⟨kept, received.risk⟩
    rw [ran]
    exact ⟨_, _, rfl, settled.publish_aside told⟩

end

/-- Two exchanges that agree on a lane to which the orders of the first keep. -/
structure InStep (lane : Lane) (fresh both alone : Exchange) : Prop where
  same : SameLane lane both alone
  kept : ∃ market, both.books.Models market ∧ lane.Keeps market ∧
      market.maxSymbol = fresh.books.maxSymbol

section

variable {lane : Lane} {fresh both alone after : Exchange} {market : ArrivalMarket}
  {input : TimedCommand} {outcome : Outcome} {within : Bool}

/-- A command that keeps to one side leaves every order on the side of its symbol. -/
theorem command_keeps (models : both.books.Models market) (room : market.HasRoom)
    (keeps : lane.Keeps market) (carries : lane.Carries within input.1)
    (ran : both.command input = .ok (after, outcome)) :
    ∃ later, after.books.Models later ∧ lane.Keeps later ∧ later.maxSymbol = market.maxSymbol := by
  obtain ⟨after', outcome', later, ran', called⟩ := call_spec models room (.command input.1 input.2)
  obtain ⟨rfl, rfl⟩ := Prod.mk.inj (Except.ok.inj (ran.symm.trans ran'))
  refine ⟨later, (called.advances models).models, ?_⟩
  cases called with
  | undecoded => exact ⟨keeps, rfl⟩
  | refused => exact ⟨keeps, rfl⟩
  | threw => exact ⟨keeps, rfl⟩
  | applied carried _ known =>
      obtain rfl := Option.some.inj carried
      exact ⟨(ArrivalMarket.apply_keeps _ models.sound models.listed known keeps carries).1,
        ArrivalMarket.apply_maxSymbol⟩

theorem valid_of_fresh (sameMax : market.maxSymbol = fresh.books.maxSymbol)
    (known : ∀ symbol ∈ input.1.newSymbols, fresh.books.validSymbol symbol = true)
    (isNew : input.1.type = .new) :
    market.validSymbol input.1.symbolId = true := by
  have valid := known _ (ClientCommand.symbolId_mem isNew)
  rwa [BookManager.validSymbol, ← sameMax] at valid

theorem InStep.follow (inStep : InStep lane fresh both alone) (room : both.books.HasRoom)
    (known : ∀ symbol ∈ input.1.newSymbols, fresh.books.validSymbol symbol = true)
    (carries : lane.Carries true input.1) :
    ∃ after outcome aloneAfter aloneOutcome, both.command input = .ok (after, outcome) ∧
      alone.command input = .ok (aloneAfter, aloneOutcome) ∧
      aloneOutcome.unnumbered = outcome.unnumbered ∧ InStep lane fresh after aloneAfter := by
  obtain ⟨same, market, models, keeps, sameMax⟩ := inStep
  have room := models.hasRoom room
  obtain ⟨after, outcome, aloneAfter, aloneOutcome, ran, aloneRan, alike, still⟩ :=
    same.command models room (valid_of_fresh sameMax known) keeps carries
  obtain ⟨later, modelsLater, keepsLater, maxLater⟩ := command_keeps models room keeps carries ran
  exact ⟨after, outcome, aloneAfter, aloneOutcome, ran, aloneRan, alike, still, later,
    modelsLater, keepsLater, maxLater.trans sameMax⟩

theorem InStep.frame (inStep : InStep lane fresh both alone) (room : both.books.HasRoom)
    (known : ∀ symbol ∈ input.1.newSymbols, fresh.books.validSymbol symbol = true)
    (carries : lane.Carries false input.1) :
    ∃ after outcome, both.command input = .ok (after, outcome) ∧ InStep lane fresh after alone := by
  obtain ⟨same, market, models, keeps, sameMax⟩ := inStep
  have room := models.hasRoom room
  obtain ⟨after, outcome, ran, still⟩ :=
    same.command_aside models room (valid_of_fresh sameMax known) keeps carries
  obtain ⟨later, modelsLater, keepsLater, maxLater⟩ := command_keeps models room keeps carries ran
  exact ⟨after, outcome, ran, still, later, modelsLater, keepsLater, maxLater.trans sameMax⟩

theorem create_inStep {cfg : ExchangeConfig} (created : Exchange.create cfg = some (.ok fresh))
    (lane : Lane) :
    InStep lane fresh fresh fresh := by
  refine ⟨⟨.refl _ _, .refl _ _⟩, _, (BookManager.create_spec (create_ok created).1).1,
    fun symbol _ order member => ?_, rfl⟩
  rw [BookManager.blank_orders] at member
  exact absurd member List.not_mem_nil

end

end Exchange

end Exsim.Core
