import Exsim.BookManager.Totals
import Exsim.Exchange.Numbering
import Exsim.Journal.Cut

/-! # The exchange as it is specified

A total function of the calls received: the market by searching its orders, the
numbers by counting calls and events, the journal as the list of its records and
the feed checksum as a fold over everything published.  Only the accounts are kept
by the code's own risk engine.  The exchange answers every run as it does.
-/

namespace Exsim.Core

open Data Journal Protocol

namespace ExchangeCall

/-- Why a frame does not decode. -/
def reason : ExchangeCall → RejectReason
  | .frame bytes _ => ((decodeClientCommand bytes).error.map DecodeError.reason).getD .malformed
  | .command _ _ => .none

end ExchangeCall

namespace RiskEngine

/-- The risk check of the code, told which orders are live. -/
def checkAgainst (risk : RiskEngine) (live : OrderId → Bool) (cmd : ClientCommand)
    (nowNs : TimestampNs) :
    RiskEngine × RejectReason :=
  let state := risk.account cmd.accountId
  let recentMsgs := state.recentMsgs.dropWhile (expired risk.limits nowNs)
  if recentMsgs.length ≥ risk.limits.maxMsgsPerWindow.toNat then
    (risk.withAccount cmd.accountId { state with recentMsgs }, .riskRateLimit)
  else
    (risk.withAccount cmd.accountId { state with recentMsgs := recentMsgs ++ [nowNs] },
      if cmd.type = .cancel then if live cmd.cancelOrderId then .none else .unknownOrder
      else if cmd.type = .replace && !live cmd.cancelOrderId then .unknownOrder
      else if cmd.qty > risk.limits.maxOrderQty then .riskMaxQty
      else if notional cmd.price cmd.qty > risk.limits.maxOrderNotional then .riskMaxNotional
      else if state.openOrders ≥ risk.limits.maxOpenOrdersPerAccount && cmd.type = .new then
        .riskOpenOrders
      else .none)

theorem check_eq (risk : RiskEngine) (cmd : ClientCommand) (books : BookManager)
    (nowNs : TimestampNs) :
    risk.check cmd books nowNs = risk.checkAgainst books.containsOrder cmd nowNs := by
  have target :
      (if !books.containsOrder cmd.cancelOrderId then RejectReason.unknownOrder else .none) =
      if books.containsOrder cmd.cancelOrderId then RejectReason.none else .unknownOrder := by
    cases books.containsOrder cmd.cancelOrderId <;> rfl
  dsimp only [check, checkAgainst, checkCommand]
  rw [target]

end RiskEngine

/-- The words of an event in the feed checksum: a reject leaves out most of them. -/
def feedWords (ev : MdEvent) : List UInt64 :=
  if ev.type = .reject then [ev.seq, ev.type.byte.toUInt64, ev.orderId, ev.reason.byte.toUInt64]
  else Exchange.mdWords ev

def feedChecksum (feed : List MdEvent) : UInt64 :=
  feed.foldl (fun h ev => hashWords h (feedWords ev)) 0x4d4443484b53554d

namespace ArrivalMarket

/-- A market without orders, on the ladders of a configuration. -/
def create (maxSymbol : SymbolId) (ladder : PriceLadderConfig) : ArrivalMarket where
  maxSymbol
  books symbol :=
    { symbolId := symbol, minPrice := (BookManager.symbolLadder ladder symbol).minPrice
      maxPrice := (BookManager.symbolLadder ladder symbol).maxPrice }
  symbolOf _ := none

def live (market : ArrivalMarket) (id : OrderId) : Bool := (market.symbolOf id).isSome

end ArrivalMarket

/-- New books start on the ladders of their symbols. -/
theorem BookManager.create_blank {maxSymbol : SymbolId} {ladder : PriceLadderConfig}
    {fresh : BookManager} (created : BookManager.create maxSymbol ladder = some (.ok fresh))
    {symbol : SymbolId}
    (valid : (ArrivalMarket.create maxSymbol ladder).validSymbol symbol = true) :
    fresh.blank.validSymbol symbol = true ∧
    fresh.blank.books symbol = (ArrivalMarket.create maxSymbol ladder).books symbol := by
  obtain ⟨sameMax, -, -, each⟩ := create_ok created
  have inside : symbol.toNat ≤ maxSymbol.toNat := by
    simp only [ArrivalMarket.validSymbol, Bool.not_eq_true', Bool.or_eq_false_iff,
      decide_eq_false_iff_not, gt_iff_lt, UInt32.lt_iff_toNat_lt, ArrivalMarket.create] at valid
    exact Nat.le_of_not_lt valid.2
  obtain ⟨book, stored, made⟩ := each symbol inside
  refine ⟨?_, ?_⟩
  · rw [ArrivalMarket.validSymbol, blank, sameMax]
    exact valid
  · rw [blank]
    dsimp only
    rw [stored]
    exact OrderBook.create_blank made

theorem BookManager.create_models {maxSymbol : SymbolId} {ladder : PriceLadderConfig}
    {fresh : BookManager} (created : BookManager.create maxSymbol ladder = some (.ok fresh)) :
    fresh.Models (.create maxSymbol ladder) ∧ fresh.Exact (.create maxSymbol ladder) := by
  obtain ⟨sameMax, -⟩ := create_ok created
  obtain ⟨models, exact⟩ := create_spec created
  refine ⟨⟨sameMax.symm, models.size, fun symbol valid => ?_, models.index,
    ⟨fun symbol valid => ?_, fun symbol valid => rfl⟩,
    fun id symbol found => by cases found⟩, fun symbol book valid stored => ?_⟩
  · obtain ⟨ok, same⟩ := create_blank created valid
    rw [← same]
    exact models.books symbol ok
  · obtain ⟨ok, same⟩ := create_blank created valid
    rw [← same]
    exact models.sound.books symbol ok
  · obtain ⟨ok, same⟩ := create_blank created valid
    rw [← same]
    exact exact symbol book ok stored

/-- The state of the specification.  The accounts are shared with the code: their
counters and rate windows are those of its risk engine, whose check and whose tally
of events are only told by the market which orders are live. -/
structure ReferenceExchange where
  received : Nat := 0
  feed : List MdEvent := []
  records : List SequencedCommand := []
  market : ArrivalMarket
  risk : RiskEngine

namespace ReferenceExchange

def create (cfg : ExchangeConfig) : ReferenceExchange where
  market := .create cfg.maxSymbol cfg.ladder
  risk := { limits := cfg.riskLimits }

/-- The number of the next call. -/
def nextSeq (ref : ReferenceExchange) : SeqNo := UInt64.ofNat (ref.received + 1)

/-- The number of the next event. -/
def nextMdSeq (ref : ReferenceExchange) : SeqNo := UInt64.ofNat (ref.feed.length + 1)

def refuse (ref : ReferenceExchange) (seq : SeqNo) (cmd : ClientCommand) (reason : RejectReason) :
    ReferenceExchange × Outcome :=
  let ev : MdEvent := {
    seq := ref.nextMdSeq, type := .reject, symbolId := cmd.symbolId, orderId := cmd.orderId
    accountId := cmd.accountId, side := cmd.side, price := cmd.price, qty := cmd.qty, reason }
  ({ ref with feed := ref.feed ++ [ev] },
    .returned {
      ack :=
        { seq, clientOrderId := cmd.clientOrderId, orderId := cmd.orderId,
          accepted := false, reason }
      mdEvents := [ev] })

def publish (ref : ReferenceExchange) (seq : SeqNo) (cmd : ClientCommand) (out : MatchOutput) :
    ReferenceExchange × Outcome :=
  if out.reject ≠ .none then ref.refuse seq cmd out.reject
  else
    let mdEvents := Exchange.stamp ref.nextMdSeq out.mdEvents
    ({ ref with feed := ref.feed ++ mdEvents, risk := ref.risk.tally ref.market.live mdEvents },
      .returned {
        ack :=
          { seq, clientOrderId := cmd.clientOrderId, orderId := cmd.orderId, accepted := true
            reason := .none }
        mdEvents, trades := out.trades })

/-- What becomes of a command that passed the risk check. -/
def execute (ref : ReferenceExchange) (seq : SeqNo) (cmd : ClientCommand) :
    ReferenceExchange × Outcome :=
  if cmd.type = .new && !ref.market.validSymbol cmd.symbolId then
    (ref, .threw (.outOfRange "bad symbol id"))
  else
    let (market, out) := ref.market.apply seq cmd
    { ref with market }.publish seq cmd out

/-- The next number is taken. -/
def numbered (ref : ReferenceExchange) : ReferenceExchange :=
  { ref with received := ref.received + 1 }

/-- A command is numbered, journaled and checked. -/
def receive (ref : ReferenceExchange) (cmd : ClientCommand) (nowNs : TimestampNs) :
    ReferenceExchange :=
  { ref.numbered with
    records := ref.records ++ [{ seq := ref.nextSeq, recvTsNs := nowNs, cmd }]
    risk := (ref.risk.checkAgainst ref.market.live cmd nowNs).1 }

def call (ref : ReferenceExchange) (input : ExchangeCall) : ReferenceExchange × Outcome :=
  match input.command? with
  | none => ref.numbered.refuse ref.nextSeq Exchange.dummyCommand input.reason
  | some cmd =>
      let reason := (ref.risk.checkAgainst ref.market.live cmd input.nowNs).2
      if reason ≠ .none then (ref.receive cmd input.nowNs).refuse ref.nextSeq cmd reason
      else (ref.receive cmd input.nowNs).execute ref.nextSeq cmd

end ReferenceExchange

namespace Exchange

/-- The exchange stands where its specification does. -/
structure Specified (exchange : Exchange) (ref : ReferenceExchange) : Prop where
  nextSeq : exchange.nextSeq = ref.nextSeq
  nextMdSeq : exchange.nextMdSeq = ref.nextMdSeq
  models : exchange.books.Models ref.market
  risk : exchange.risk = ref.risk
  journal : ∀ writer, exchange.journal = some writer → writer.out = fileOf ref.records
  mdChecksum : exchange.mdChecksum = feedChecksum ref.feed

/-- A step of both.  The books stay on their ladders and, while they fit, the
level totals exact. -/
structure Steps (exchange after : Exchange) (ref later : ReferenceExchange) : Prop where
  specified : after.Specified later
  ladders : BookManager.SameLadders exchange.books after.books
  exact : after.books.Fits later.market → exchange.books.Exact ref.market →
      after.books.Exact later.market

section

variable {exchange after : Exchange} {ref later : ReferenceExchange} {cmd : ClientCommand}
  {seq : SeqNo} {events : List MdEvent} {out : MatchOutput}

theorem feedChecksum_append (feed more : List MdEvent) :
    feedChecksum (feed ++ more) =
      more.foldl (fun h ev => hashWords h (feedWords ev)) (feedChecksum feed) :=
  List.foldl_append

theorem foldl_feedWords (types : ∀ ev ∈ events, ev.type ≠ .reject) (next : SeqNo) (h : UInt64) :
    (stamp next events).foldl (fun h ev => hashWords h (feedWords ev)) h =
      (stamp next events).foldl (fun h ev => hashWords h (mdWords ev)) h := by
  induction events generalizing next h with
  | nil => rfl
  | cons ev events ih =>
      have first : feedWords { ev with seq := next } = mdWords { ev with seq := next } :=
        if_neg (types ev List.mem_cons_self)
      rw [stamp, List.foldl_cons, List.foldl_cons, first,
        ih fun other member => types other (List.mem_cons_of_mem ev member)]

theorem ofNat_length_succ (count : Nat) :
    UInt64.ofNat (count + 1) + 1 = UInt64.ofNat (count + 1 + 1) := by
  rw [UInt64.ofNat_add (count + 1) 1]
  rfl

theorem Specified.reject (specified : exchange.Specified ref) (seq : SeqNo) (cmd : ClientCommand)
    (reason : RejectReason) :
    (ref.refuse seq cmd reason).2 = .returned (exchange.reject seq cmd reason).2 ∧
      (exchange.reject seq cmd reason).1.Specified (ref.refuse seq cmd reason).1 := by
  rw [ReferenceExchange.refuse, Exchange.reject, specified.nextMdSeq]
  refine ⟨rfl, specified.nextSeq, ?_, specified.models, specified.risk, specified.journal, ?_⟩
  · rw [ReferenceExchange.nextMdSeq, ReferenceExchange.nextMdSeq, List.length_append]
    exact ofNat_length_succ _
  · rw [feedChecksum_append, List.foldl_cons, List.foldl_nil, specified.mdChecksum]
    rfl

/-- The events of an accepted command fold into the feed checksum. -/
theorem Specified.publish (specified : exchange.Specified ref) (sc : SequencedCommand)
    (types : out.reject = .none → ∀ ev ∈ out.mdEvents, ev.type ≠ .reject) :
    (ref.publish sc.seq sc.cmd out).2 = .returned (exchange.publish sc out).2 ∧
      (exchange.publish sc out).1.Specified (ref.publish sc.seq sc.cmd out).1 := by
  by_cases accepted : out.reject = .none
  · have live : exchange.books.containsOrder = ref.market.live :=
      funext specified.models.containsOrder
    rw [publish_accepted accepted, accountForMd_eq, ReferenceExchange.publish, accepted,
      if_neg (not_not.mpr rfl), specified.nextMdSeq]
    refine ⟨rfl, specified.nextSeq, ?_, specified.models, ?_, specified.journal, ?_⟩
    · rw [ReferenceExchange.nextMdSeq, ReferenceExchange.nextMdSeq, List.length_append,
        stamp_length, Nat.add_right_comm, UInt64.ofNat_add (_ + 1)]
    · dsimp only
      rw [live, specified.risk]
    · dsimp only
      rw [feedChecksum_append, specified.mdChecksum, foldl_feedWords (types accepted)]
  · rw [publish_refused accepted, ReferenceExchange.publish, if_pos accepted]
    exact specified.reject sc.seq sc.cmd out.reject

/-- What a command does to the market is never told as a reject. -/
theorem apply_types {market : ArrivalMarket} (sound : market.Sound) (listed : market.Listed)
    (known : cmd.type = .new → market.validSymbol cmd.symbolId = true) :
    ∀ ev ∈ (market.apply seq cmd).2.mdEvents, ev.type ≠ .reject := by
  intro ev member
  have moved :
      ArrivalMarket.Moved market (market.apply seq cmd).2.mdEvents (market.apply seq cmd).1 :=
    ArrivalMarket.apply_moved sound listed known
  obtain ⟨-, silent⟩ | ⟨symbol, after, -, -, reported⟩ := moved
  · rw [silent] at member
    cases member
  · exact (reported.tells after.holds fun ev _ _ => rfl).types ev member

/-- A frame that does not decode is refused for the decoder's reason. -/
theorem call_refusal (exchange : Exchange) {input : ExchangeCall}
    (carried : input.command? = none) :
    exchange.call input =
      .ok (returning (exchange.numbered.reject exchange.nextSeq dummyCommand input.reason)) := by
  cases input with
  | command cmd nowNs => cases carried
  | frame bytes nowNs =>
      have undecoded : (decodeClientCommand bytes).command = none := carried
      rw [Exchange.call, processFrame, ExchangeCall.reason]
      dsimp only
      rw [undecoded]
      cases (decodeClientCommand bytes).error <;> rfl

/-- A step that leaves the books alone. -/
theorem Specified.steps (specified : after.Specified later) (books : after.books = exchange.books)
    (market : later.market = ref.market) : exchange.Steps after ref later := by
  refine ⟨specified, ?_, fun _ exact => ?_⟩
  · rw [books]
    exact .refl _
  · rw [books, market]
    exact exact

theorem publish_market : (ref.publish seq cmd out).1.market = ref.market := by
  rw [ReferenceExchange.publish]
  split <;> rfl

theorem Specified.execute (specified : exchange.Specified ref) (room : ref.market.HasRoom)
    (sc : SequencedCommand) :
    ∃ after, (exchange.books.execute sc).map (exchange.concluded sc) =
      .ok (after, (ref.execute sc.seq sc.cmd).2) ∧
      exchange.Steps after ref (ref.execute sc.seq sc.cmd).1 := by
  have models := specified.models
  rw [ReferenceExchange.execute]
  by_cases unknown : (decide (sc.cmd.type = .new) && !ref.market.validSymbol sc.cmd.symbolId) = true
  · rw [if_pos unknown]
    rw [Bool.and_eq_true, decide_eq_true_iff, Bool.not_eq_true'] at unknown
    have missing : exchange.books.validSymbol sc.cmd.symbolId = false := by
      rw [models.validSymbol]
      exact unknown.2
    refine ⟨exchange, ?_, specified.steps rfl rfl⟩
    rw [BookManager.execute, if_pos unknown.1, BookManager.addOrder_invalid _ _ missing]
    rfl
  · rw [if_neg unknown]
    have known : sc.cmd.type = .new → ref.market.validSymbol sc.cmd.symbolId = true := by
      intro isNew
      rw [decide_eq_true isNew, Bool.true_and, Bool.not_eq_true'] at unknown
      exact Bool.not_eq_false _ ▸ unknown
    obtain ⟨books, executed, advances⟩ := BookManager.execute_spec models room known
    have moved : Specified { exchange with books }
        { ref with market := (ref.market.apply sc.seq sc.cmd).1 } :=
      ⟨specified.nextSeq, specified.nextMdSeq, advances.models, specified.risk, specified.journal,
        specified.mdChecksum⟩
    obtain ⟨outcome, published⟩ :=
      moved.publish sc fun _ => apply_types models.sound models.listed known
    refine ⟨_, ?_, published, ?_, ?_⟩
    · dsimp only
      rw [executed, outcome]
      rfl
    · rw [publish_books]
      exact advances.ladders
    · dsimp only
      rw [publish_books, publish_market]
      exact advances.exact

theorem Specified.numbered (specified : exchange.Specified ref) :
    exchange.numbered.Specified ref.numbered := by
  refine ⟨?_, specified.nextMdSeq, specified.models, specified.risk, specified.journal,
    specified.mdChecksum⟩
  rw [Exchange.numbered, specified.nextSeq]
  exact ofNat_length_succ _

/-- The exchange checks a command as the specification does. -/
theorem Specified.check (specified : exchange.Specified ref) (cmd : ClientCommand)
    (nowNs : TimestampNs) :
    exchange.risk.check cmd exchange.books nowNs =
      ref.risk.checkAgainst ref.market.live cmd nowNs := by
  have live : exchange.books.containsOrder = ref.market.live :=
    funext specified.models.containsOrder
  rw [RiskEngine.check_eq, live, specified.risk]

/-- A command of its own does not move the next number of the exchange. -/
theorem received_nextSeq (exchange : Exchange) (cmd : ClientCommand) (nowNs : TimestampNs) :
    (exchange.received cmd nowNs).nextSeq = exchange.numbered.nextSeq := by
  have taken : (exchange.sequence cmd nowNs).seq = exchange.numbered.nextSeq - 1 :=
    (UInt64.add_sub_cancel exchange.nextSeq 1).symm
  rw [received, checked, taken]
  simp

theorem Specified.received (specified : exchange.Specified ref) (cmd : ClientCommand)
    (nowNs : TimestampNs) :
    (exchange.received cmd nowNs).Specified (ref.receive cmd nowNs) := by
  have numbered := specified.numbered
  refine ⟨(received_nextSeq exchange cmd nowNs).trans numbered.nextSeq, numbered.nextMdSeq,
    numbered.models, ?_, ?_, numbered.mdChecksum⟩
  · exact congrArg Prod.fst (specified.check cmd nowNs)
  · intro writer after
    have appended : exchange.journal.map (·.append (exchange.sequence cmd nowNs)) = some writer :=
      after
    obtain ⟨before, opened, rfl⟩ := Option.map_eq_some_iff.mp appended
    rw [JournalWriter.append, specified.journal before opened, sequence, specified.nextSeq,
      ReferenceExchange.receive, fileOf_append, List.flatMap_singleton]

/-- A call does what the specification says. -/
theorem Specified.call (specified : exchange.Specified ref) (room : ref.market.HasRoom)
    (input : ExchangeCall) :
    ∃ after, exchange.call input = .ok (after, (ref.call input).2) ∧
    exchange.Steps after ref (ref.call input).1 := by
  cases carried : input.command? with
  | none =>
      obtain ⟨outcome, refused⟩ :=
        specified.numbered.reject exchange.nextSeq dummyCommand input.reason
      rw [ReferenceExchange.call, carried, ← specified.nextSeq]
      exact ⟨_, by rw [call_refusal exchange carried, outcome]; rfl, refused.steps rfl rfl⟩
  | some cmd =>
      have received := specified.received cmd input.nowNs
      rw [ReferenceExchange.call, carried, call_decided exchange carried,
        specified.check, ← specified.nextSeq]
      dsimp only
      split
      · obtain ⟨outcome, refused⟩ := received.reject exchange.nextSeq cmd
          (ref.risk.checkAgainst ref.market.live cmd input.nowNs).2
        exact ⟨_, by rw [outcome]; rfl, refused.steps rfl rfl⟩
      · obtain ⟨after, ran, steps⟩ := received.execute room (exchange.sequence cmd input.nowNs)
        exact ⟨after, ran, steps.specified, steps.ladders, steps.exact⟩

theorem create_specified {cfg : ExchangeConfig} {fresh : Exchange}
    (created : Exchange.create cfg = some (.ok fresh)) :
    fresh.Specified (.create cfg) := by
  obtain ⟨built, opened⟩ := create_ok created
  refine ⟨by rw [opened]; rfl, by rw [opened]; rfl, (BookManager.create_models built).1, by
    rw [opened]; rfl, ?_, by rw [opened]; rfl⟩
  intro writer journal
  rw [opened] at journal
  obtain ⟨path, -, rfl⟩ := Option.map_eq_some_iff.mp journal
  exact (List.append_nil _).symm

/-- While no book runs out of slots, a run answers as the specification does and
ends where it ends: with its books, accounts and numbers, the records it lists in
the journal, and the fold of everything it published in the feed checksum. -/
theorem run_specified {cfg : ExchangeConfig} {fresh : Exchange} {calls : List ExchangeCall}
    (created : Exchange.create cfg = some (.ok fresh))
    (room : Along Exchange.call (fun exchange _ => exchange.books.HasRoom) fresh calls) :
    ∃ after, run Exchange.call fresh calls =
      .ok (after, (trace ReferenceExchange.call (.create cfg) calls).2) ∧
      after.Specified (trace ReferenceExchange.call (.create cfg) calls).1 := by
  refine run_simulation (fun exchange ref input specified room => ?_)
    (create_specified created) room
  obtain ⟨after, ran, steps⟩ := specified.call (specified.models.hasRoom room) input
  exact ⟨after, ran, steps.specified⟩

/-- A bid, a frame that is too short, an add to an unknown symbol and an ask that meets the bid. -/
def fourCalls : List ExchangeCall :=
  [.command { orderId := 7, accountId := 1, symbolId := 1, price := 1, qty := 5 } 10, .frame [] 20,
    .command { orderId := 8, accountId := 1, symbolId := 3, price := 1, qty := 5 } 30,
    .command
      { orderId := 9, accountId := 2, symbolId := 1, side := .sell, price := 1, qty := 6 } 40]

theorem run_specified_fourCalls : ∃ after,
    run Exchange.call oneSymbol fourCalls =
      .ok (after, (trace ReferenceExchange.call (.create oneSymbolConfig) fourCalls).2) ∧
    after.Specified (trace ReferenceExchange.call (.create oneSymbolConfig) fourCalls).1 :=
  run_specified oneSymbol_created (by decide +kernel)

end

end Exchange

end Exsim.Core
