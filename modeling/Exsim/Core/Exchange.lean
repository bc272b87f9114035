import Exsim.Core.Risk
import Exsim.Journal.Journal

namespace Exsim.Core

open Journal

structure ProcessResult where
  ack : Ack
  mdEvents : List MdEvent := []
  trades : List Trade := []
deriving DecidableEq, Repr

structure ExchangeConfig where
  maxSymbol : SymbolId := 1000
  ladder : PriceLadderConfig := {}
  riskLimits : RiskLimits := {}
  journalPath : Option String := none
deriving DecidableEq, Repr

/-- How a call ends: it returns, or an exception leaves it. -/
inductive Outcome where
  | returned (result : ProcessResult)
  | threw (exception : Thrown)
deriving DecidableEq, Repr

structure Exchange where
  nextSeq : SeqNo := 1
  nextMdSeq : SeqNo := 1
  ladder : PriceLadderConfig
  books : BookManager
  risk : RiskEngine
  journal : Option JournalWriter := none
  mdChecksum : UInt64 := 0x4d4443484b53554d
deriving DecidableEq

namespace Exchange

/-- The constructor; `none` where the book manager's does not return. -/
def create (cfg : ExchangeConfig) : Option (Except Thrown Exchange) :=
  (BookManager.create cfg.maxSymbol cfg.ladder).map fun created => do
    let books ← created
    .ok {
      ladder := cfg.ladder, books, risk := { limits := cfg.riskLimits }
      journal := cfg.journalPath.map fun _ => .create }

def reject (exchange : Exchange) (seq : SeqNo) (cmd : ClientCommand) (reason : RejectReason) :
    Exchange × ProcessResult :=
  let ev : MdEvent := {
    seq := exchange.nextMdSeq, type := .reject, symbolId := cmd.symbolId, orderId := cmd.orderId
    accountId := cmd.accountId, side := cmd.side, price := cmd.price, qty := cmd.qty, reason }
  ({ exchange with
      nextMdSeq := exchange.nextMdSeq + 1
      mdChecksum := hashWords exchange.mdChecksum
        [ev.seq, ev.type.byte.toUInt64, ev.orderId, reason.byte.toUInt64] },
    { ack :=
        { seq, clientOrderId := cmd.clientOrderId, orderId := cmd.orderId, accepted := false
          reason }
      mdEvents := [ev] })

/-- The words of one event that `account_for_md` folds into the feed checksum. -/
def mdWords (ev : MdEvent) : List UInt64 :=
  [ev.seq, ev.type.byte.toUInt64, ev.symbolId.toUInt64, ev.orderId, ev.newOrderId,
    ev.accountId.toUInt64, ev.side.byte.toUInt64, ev.price.toUInt64, ev.qty.toUInt64,
    ev.reason.byte.toUInt64]

def accountForMd (exchange : Exchange) (mdEvents : List MdEvent) : Exchange :=
  mdEvents.foldl (fun exchange ev =>
    { exchange with
      mdChecksum := hashWords exchange.mdChecksum (mdWords ev)
      risk := exchange.risk.onMarketData ev (exchange.books.containsOrder ev.orderId) }) exchange

/-- `for (auto& ev : md_events) ev.seq = next_md_seq_++`. -/
def stamp (next : SeqNo) : List MdEvent → List MdEvent
  | [] => []
  | ev :: events => { ev with seq := next } :: stamp (next + 1) events

/-- The tail of `apply_sequenced`, from the matching engine's output on. -/
def publish (exchange : Exchange) (sc : SequencedCommand) (out : MatchOutput) :
    Exchange × ProcessResult :=
  if out.reject ≠ .none then exchange.reject sc.seq sc.cmd out.reject
  else
    let mdEvents := stamp exchange.nextMdSeq out.mdEvents
    let exchange :=
      { exchange with nextMdSeq := exchange.nextMdSeq + UInt64.ofNat out.mdEvents.length }
    (exchange.accountForMd mdEvents,
      { ack := { seq := sc.seq, clientOrderId := sc.cmd.clientOrderId, orderId := sc.cmd.orderId
                 accepted := true, reason := .none }
        mdEvents, trades := out.trades })

/-- The command switch of `apply_sequenced`.  A type byte outside the
enumeration falls through every case with an empty output. -/
def dispatch (exchange : Exchange) (sc : SequencedCommand) : Exec (Exchange × Outcome) :=
  if sc.cmd.type = .new then do
    match ← exchange.books.addOrder sc.seq sc.cmd with
    | .error exception => .ok (exchange, .threw exception)
    | .ok (books, out) =>
        let (exchange, result) := { exchange with books }.publish sc out
        .ok (exchange, .returned result)
  else if sc.cmd.type = .cancel then do
    let (books, ev) ← exchange.books.cancelOrder sc.seq sc.cmd.cancelOrderId
    let exchange := { exchange with books }
    match ev with
    | none =>
        let (exchange, result) := exchange.reject sc.seq sc.cmd .unknownOrder
        .ok (exchange, .returned result)
    | some ev =>
        let (exchange, result) := exchange.publish sc { mdEvents := [ev] }
        .ok (exchange, .returned result)
  else if sc.cmd.type = .replace then do
    let (books, out) ← exchange.books.replaceOrder sc.seq sc.cmd
    let (exchange, result) := { exchange with books }.publish sc out
    .ok (exchange, .returned result)
  else
    let (exchange, result) := exchange.publish sc {}
    .ok (exchange, .returned result)

def applySequenced (exchange : Exchange) (sc : SequencedCommand) (writeJournal : Bool) :
    Exec (Exchange × Outcome) :=
  let exchange :=
    if sc.seq ≠ exchange.nextSeq - 1 && sc.seq ≥ exchange.nextSeq then
      { exchange with nextSeq := sc.seq + 1 }
    else exchange
  let exchange :=
    if writeJournal then { exchange with journal := exchange.journal.map (·.append sc) }
    else exchange
  let (risk, riskResult) := exchange.risk.check sc.cmd exchange.books sc.recvTsNs
  let exchange := { exchange with risk }
  if riskResult ≠ .none then
    let (exchange, result) := exchange.reject sc.seq sc.cmd riskResult
    .ok (exchange, .returned result)
  else exchange.dispatch sc

def processCommand (exchange : Exchange) (cmd : ClientCommand) (nowNs : TimestampNs) :
    Exec (Exchange × Outcome) :=
  let seq := exchange.nextSeq
  { exchange with nextSeq := exchange.nextSeq + 1 }.applySequenced
    { seq, recvTsNs := nowNs, cmd } true

/-- The command an undecodable frame is rejected under. -/
def dummyCommand : ClientCommand := { clientOrderId := 0, orderId := 0, symbolId := 1 }

def processFrame (exchange : Exchange) (frame : Bytes) (nowNs : TimestampNs) :
    Exec (Exchange × Outcome) :=
  let decoded := Protocol.decodeClientCommand frame
  match decoded.command with
  | none =>
      let seq := exchange.nextSeq
      let reason := match decoded.error with
        | some error => error.reason
        | none => .malformed
      let (exchange, result) :=
        { exchange with nextSeq := exchange.nextSeq + 1 }.reject seq dummyCommand reason
      .ok (exchange, .returned result)
  | some cmd => exchange.processCommand cmd nowNs

def liveOrders (exchange : Exchange) : Nat := exchange.books.liveOrders

end Exchange

structure ReplayResult where
  bookChecksum : UInt64 := 0
  mdChecksum : UInt64 := 0
  records : Nat := 0
  error : Option String := none
deriving DecidableEq, Repr

/-- `while (auto sc = rd.next())`.  Every record takes at least one byte, so the
length of the file bounds the iterations. -/
def replayLoop : Nat → Exchange → JournalReader → Nat →
    Exec (Except Thrown (Exchange × JournalReader × Nat))
  | fuel, exchange, reader, records =>
      match reader.next with
      | (none, reader) => .ok (.ok (exchange, reader, records))
      | (some sc, reader) =>
          match fuel with
          | 0 => .error .divergence
          | fuel + 1 => do
              match ← exchange.applySequenced sc false with
              | (_, .threw exception) => .ok (.error exception)
              | (exchange, .returned _) => replayLoop fuel exchange reader (records + 1)

/-- `replay_journal` on the bytes of the journal file; `none` where the
constructor of the exchange does not return. -/
def replayJournal (file : Bytes) (cfg : ExchangeConfig) :
    Option (Exec (Except Thrown ReplayResult)) :=
  (Exchange.create { cfg with journalPath := none }).map fun created =>
    match created with
    | .error exception => .ok (.error exception)
    | .ok exchange => do
        let reader := JournalReader.create file
        match reader.error with
        | some message => .ok (.ok { error := some message })
        | none =>
            match ← replayLoop file.length exchange reader 0 with
            | .error exception => .ok (.error exception)
            | .ok (exchange, reader, records) =>
                match reader.error with
                | some message => .ok (.ok { records, error := some message })
                | none => do
                    let bookChecksum ← exchange.books.checksum
                    .ok (.ok { bookChecksum, mdChecksum := exchange.mdChecksum, records })

end Exsim.Core
