import Exsim.Core.Exchange
import Exsim.Core.Subscriber

/-! # The replay benchmark

Orders and cancels are drawn at random and sent to an exchange as frames, a
subscriber follows the feed, and at the end the two and a replay of the journal
are compared.  What the generator yields is a parameter; the clocks and what is
printed are left out.
-/

open Exsim.Core Exsim.Journal Exsim.Md Exsim.Protocol

namespace Exsim.Bench

/-- The arguments of the program other than the number of events and the path. -/
structure Arguments where
  symbols : SymbolId := 1000
  halfSpread : Int32 := 5
  jitterWidth : Int32 := 50
  cancelPct : Int32 := 30
deriving DecidableEq, Repr

/-- What the generator and its distributions yield for one event. -/
structure Draw where
  cancelRoll : UInt64 := 0
  pick : UInt64 := 0
  symbolRoll : UInt64 := 0
  side : Int32 := 0
  jitter : Int32 := 0
  account : Int32 := 1
  qty : Int32 := 1
deriving DecidableEq, Repr

structure State where
  exchange : Exchange
  subscriber : SubscriberBook
  liveIds : Array OrderId := #[]
  livePos : UnorderedMap OrderId Nat := ∅
  mdFrames : UInt64 := 0
  accepted : UInt64 := 0
  rejected : UInt64 := 0
  nextId : OrderId := 1
  i : Nat := 0
deriving DecidableEq

/-- How the program ends. -/
inductive Exit where
  | code (n : Nat)
  | threw (exception : Thrown)
deriving DecidableEq, Repr

def ladder : PriceLadderConfig :=
  { minPrice := 99900, maxPrice := 100100, symbolPriceStride := 10, symbolPriceModulo := 100 }

def riskLimits : RiskLimits :=
  { maxOrderQty := 1000000, maxOrderNotional := 100000000000, maxOpenOrdersPerAccount := 5000000
    maxMsgsPerWindow := 5000000 }

def config (arguments : Arguments) (journalPath : String) : ExchangeConfig :=
  { maxSymbol := arguments.symbols, ladder, riskLimits, journalPath := some journalPath }

def makeNew (id : OrderId) (acct : AccountId) (sym : SymbolId) (side : Side)
    (px : Price) (qty : Qty) (ts : TimestampNs) : ClientCommand :=
  { type := .new, clientOrderId := id + 1000000, orderId := id, accountId := acct
    symbolId := sym, side, price := px, qty, tif := .gtc, clientTsNs := ts }

namespace State

def trackAdd (state : State) (id : OrderId) : State :=
  if (state.livePos.lookup id).isSome then state
  else { state with
    livePos := state.livePos.insert id state.liveIds.size
    liveIds := state.liveIds.push id }

def trackRemove (state : State) (id : OrderId) : Exec State :=
  match state.livePos.lookup id with
  | none => .ok state
  | some pos =>
      match state.liveIds.back? with
      | none => .error .outOfBounds
      | some last => do
          let liveIds ← writeAt state.liveIds pos last
          .ok { state with
            liveIds := liveIds.pop, livePos := (state.livePos.insert last pos).erase id }

def track (state : State) (ev : MdEvent) : Exec State :=
  if ev.type = .add then .ok (state.trackAdd ev.orderId)
  else if ev.type = .cancel then state.trackRemove ev.orderId
  else if ev.type = .execute && !state.exchange.books.containsOrder ev.orderId then
    state.trackRemove ev.orderId
  else .ok state

/-- The command of one event.  `rng() % symbols` is undefined for no symbols. -/
def command (arguments : Arguments) (state : State) (draw : Draw) : Exec (State × ClientCommand) :=
  let ts := UInt64.ofNat (state.i + 1)
  let doCancel := !state.liveIds.isEmpty && draw.cancelRoll % 100 <
    arguments.cancelPct.toUInt32.toUInt64
  if doCancel then do
    let target ← readAt state.liveIds (draw.pick.toNat % state.liveIds.size)
    .ok (state,
      { type := .cancel, clientOrderId := state.nextId + 1000000, orderId := 0
        cancelOrderId := target, accountId := draw.account.toUInt32, symbolId := 1, side := .buy
        price := ladder.minPrice, qty := 0, tif := .gtc, clientTsNs := ts })
  else
    let sym := (draw.symbolRoll % arguments.symbols.toUInt64 + 1).toUInt32
    let side := if draw.side = 0 then .buy else .sell
    let mid : Price := 100000 + ((sym % 100) * 10).toUInt64.toInt64
    let px := if side = .buy then mid - arguments.halfSpread.toInt64 + draw.jitter.toInt64
      else mid + arguments.halfSpread.toInt64 + draw.jitter.toInt64
    .ok ({ state with nextId := state.nextId + 1 },
      makeNew state.nextId draw.account.toUInt32 sym side px draw.qty.toUInt32 ts)

/-- The events of one result, each encoded and given to the subscriber. -/
def feed (state : State) : List MdEvent → Exec (State × Option String)
  | [] => .ok (state, none)
  | ev :: events => do
      let mdFrame ← encodeMdEventFrame ev
      let (subscriber, err) ← state.subscriber.applyFrame mdFrame
      match err with
      | some message => .ok ({ state with subscriber }, some message)
      | none => feed { state with subscriber, mdFrames := state.mdFrames + 1 } events

/-- The end of a turn of the main loop. -/
def counted (state : State) (ack : Ack) : State :=
  if ack.accepted then { state with accepted := state.accepted + 1, i := state.i + 1 }
  else { state with rejected := state.rejected + 1, i := state.i + 1 }

/-- One turn of the main loop, and the exit it takes if it does. -/
def event (arguments : Arguments) (state : State) (draw : Draw) : Exec (State × Option Exit) := do
  let (state, cmd) ← state.command arguments draw
  let frame ← encodeClientCommandFrame cmd
  let (exchange, outcome) ← state.exchange.processFrame frame cmd.clientTsNs
  match outcome with
  | .threw exception => .ok ({ state with exchange }, some (.threw exception))
  | .returned result => do
      let (state, err) ← { state with exchange }.feed result.mdEvents
      match err with
      | some _ => .ok (state, some (.code 2))
      | none => do
          let state ← result.mdEvents.foldlM track state
          .ok (state.counted result.ack, none)

def loop (arguments : Arguments) : State → List Draw → Exec (State × Option Exit)
  | state, [] => .ok (state, none)
  | state, draw :: draws => do
      let (state, exit) ← state.event arguments draw
      match exit with
      | some exit => .ok (state, some exit)
      | none => loop arguments state draws

/-- The comparison at the end. -/
def verify (state : State) (replay : ReplayResult) : Exec Exit :=
  if replay.error.isSome then .ok (.code 3)
  else do
    let bookChecksum ← state.exchange.books.checksum
    let subscriberChecksum ← state.subscriber.checksum
    let ok := bookChecksum = subscriberChecksum && replay.bookChecksum = bookChecksum &&
      replay.mdChecksum = state.exchange.mdChecksum
    .ok (.code (if ok then 0 else 1))

end State

/-- The program, with one draw for each event.  A constructor that never
returns is a divergence. -/
def main (arguments : Arguments) (journalPath : String) (draws : List Draw) : Exec Exit := do
  let cfg := config arguments journalPath
  match Exchange.create cfg, SubscriberBook.create arguments.symbols cfg.ladder with
  | some (.ok exchange), some (.ok subscriber) => do
      let (state, exit) ← State.loop arguments { exchange, subscriber } draws
      match exit with
      | some exit => .ok exit
      | none =>
          let file := state.exchange.journal.elim [] JournalWriter.out
          match replayJournal file
            { maxSymbol := arguments.symbols, ladder := cfg.ladder,
              riskLimits := cfg.riskLimits } with
          | none => .error .divergence
          | some replayed => do
              match ← replayed with
              | .error exception => .ok (.threw exception)
              | .ok replay => state.verify replay
  | some (.error exception), _ => .ok (.threw exception)
  | some _, some (.error exception) => .ok (.threw exception)
  | _, _ => .error .divergence

end Exsim.Bench
