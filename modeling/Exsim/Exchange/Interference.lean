import Exsim.Exchange.Lane
import Exsim.OrderBook.Wrapping
import Exsim.Risk.Counters

/-! # How independent flows interfere once slots run out

A stream of bids fills the slots of one book; the bid after the last slot and the
one after that are stored over others.  Two cancels later the feed names account
zero, which has only ever traded another symbol, and that account loses its order.
-/

namespace Exsim.Core

open Data Journal

namespace RiskEngine

/-- An account far from any default limit. -/
structure Small (risk : RiskEngine) (id : AccountId) : Prop where
  openOrders : (risk.account id).openOrders.toNat ≤ 1
  recentMsgs : (risk.account id).recentMsgs.length ≤ 1

section

variable {risk : RiskEngine} {cmd : ClientCommand} {books : BookManager} {nowNs : TimestampNs}
  {id : AccountId}

theorem Small.admits (small : risk.Small cmd.accountId) (limits : risk.limits = {})
    (verdict : ∀ state : AccountState, state.openOrders.toNat ≤ 1 →
      checkCommand {} state cmd books = .none) :
    (risk.check cmd books nowNs).2 = .none := by
  have few :
      ((risk.account cmd.accountId).recentMsgs.dropWhile (expired risk.limits nowNs)).length ≤ 1 :=
    Nat.le_trans (List.dropWhile_sublist _).length_le small.recentMsgs
  have limit : risk.limits.maxMsgsPerWindow.toNat = 100000 := by
    rw [limits]
    rfl
  rw [check]
  dsimp only
  rw [if_neg (by omega), limits]
  exact verdict _ small.openOrders

end

end RiskEngine

namespace Exchange

section

variable {exchange : Exchange} {symbol : SymbolId} {book after : OrderBook} {out : MatchOutput}
  {seq : SeqNo}

/-- What becomes of a command that is let through and accepted by its book. -/
theorem command_performed (input : TimedCommand)
    (admitted : (exchange.risk.check input.1 exchange.books input.2).2 = .none)
    (known : input.1.type = .new → exchange.books.validSymbol input.1.symbolId = true)
    (targeted : exchange.books.target input.1 = some symbol)
    (stored : exchange.books.books[symbol.toNat]? = some book)
    (performed : book.perform seq input.1 = .ok (after, out)) (accepted : out.reject = .none) :
    ∃ later outcome, exchange.command input = .ok (later, outcome) ∧
      later.books = exchange.books.settled symbol input.1 after out.mdEvents ∧
      later.risk = (exchange.risk.check input.1 exchange.books input.2).1.tally
        later.books.containsOrder out.mdEvents := by
  let sc := exchange.sequence input.1 input.2
  have performedAgain : book.perform sc.seq sc.cmd = .ok (after, out.renumber sc.seq) :=
    OrderBook.perform_again performed sc.seq
  have run : exchange.books.execute sc =
      .ok
        (.ok (exchange.books.settled symbol input.1 after out.mdEvents, out.renumber sc.seq)) := by
    rw [BookManager.execute_targeted known targeted stored,
      performedAgain, ← BookManager.settled_renumber sc.seq]
    rfl
  have acceptedAgain : (out.renumber sc.seq).reject = .none := accepted
  rw [command_eq, if_neg (not_not.mpr admitted), run]
  refine ⟨_, _, rfl, ?_, ?_⟩
  · rw [publish_accepted acceptedAgain, accountForMd_eq]
  · rw [publish_accepted acceptedAgain, accountForMd_eq, MatchOutput.renumber, stamp_renumber,
      RiskEngine.tally_stamp]
    rfl

end

/-- An exchange with the default limits and the book of symbol one, of two. -/
structure Ready (exchange : Exchange) (book : OrderBook) : Prop where
  maxSymbol : exchange.books.maxSymbol = 2
  stored : exchange.books.books[1]? = some book
  limits : exchange.risk.limits = {}

/-- A one-lot bid for symbol one. -/
def bidInput (id : OrderId) (account : AccountId) : TimedCommand :=
  ({ orderId := id, accountId := account, symbolId := 1, price := 1, qty := 1 }, 0)

def cancelInput (id : OrderId) (account : AccountId) : TimedCommand :=
  ({ type := .cancel, cancelOrderId := id, accountId := account }, 0)

section

variable {exchange : Exchange} {book after : OrderBook} {id : OrderId} {account : AccountId}
  {out : MatchOutput} {ev : MdEvent}

theorem Ready.performed (ready : Ready exchange book) (input : TimedCommand)
    (admitted : (exchange.risk.check input.1 exchange.books input.2).2 = .none)
    (targeted : exchange.books.target input.1 = some 1)
    (performed : book.perform 0 input.1 = .ok (after, out))
    (accepted : out.reject = .none) (told : out.mdEvents = [ev]) :
    ∃ later outcome live, exchange.command input = .ok (later, outcome) ∧ Ready later after ∧
      later.books = exchange.books.settled 1 input.1 after [ev] ∧
      later.risk = (exchange.risk.check input.1 exchange.books input.2).1.onMarketData ev live := by
  have known : input.1.type = .new → exchange.books.validSymbol input.1.symbolId = true := by
    intro isNew
    rw [BookManager.target, if_pos isNew, Option.some.injEq] at targeted
    rw [BookManager.validSymbol, ready.maxSymbol, targeted]
    rfl
  obtain ⟨later, outcome, ran, books, risk⟩ :=
    command_performed input admitted known targeted ready.stored performed accepted
  rw [told] at books risk
  refine ⟨later, outcome, later.books.containsOrder ev.orderId, ran, ⟨?_, ?_, ?_⟩, books, risk⟩
  · rw [books, BookManager.settled_maxSymbol]
    exact ready.maxSymbol
  · rw [books]
    exact (BookManager.settled_books ready.stored 1).trans (if_pos rfl)
  · rw [risk]
    exact RiskEngine.onMarketData_limits.trans ((RiskEngine.check_limits ..).trans ready.limits)

theorem Ready.bid (ready : Ready exchange book) (small : exchange.risk.Small account)
    (added : book.addOrder 0 id account .buy 1 1 .gtc = .ok (after, out))
    (accepted : out.reject = .none) (told : out.mdEvents = [ev]) (type : ev.type = .add)
    (owner : ev.accountId = account) (held : after.contains id = true) :
    ∃ later outcome, exchange.command (bidInput id account) = .ok (later, outcome) ∧
    Ready later after ∧
    (∀ other, other ≠ account → later.risk.account other = exchange.risk.account other) ∧
      (exchange.risk.account account = {} → later.risk.Small account) ∧
      ∀ other, later.books.orderToSymbol.lookup other =
        if other = id then some 1 else exchange.books.orderToSymbol.lookup other := by
  have verdict : ∀ state : AccountState, state.openOrders.toNat ≤ 1 →
      RiskEngine.checkCommand {} state (bidInput id account).1 exchange.books = .none := by
    intro state few
    have below : ¬state.openOrders ≥ 100000 := by
      rw [ge_iff_le, UInt32.le_iff_toNat_le]
      exact Nat.not_le.mpr (Nat.lt_of_le_of_lt few (by decide))
    have limited : RiskEngine.checkCommand {} state (bidInput id account).1 exchange.books =
        if state.openOrders ≥ 100000 && true then .riskOpenOrders else .none := rfl
    rw [limited, decide_eq_false below]
    rfl
  obtain ⟨later, outcome, live, ran, still, books, risk⟩ :=
    ready.performed (bidInput id account)
      (small.admits ready.limits verdict) rfl added accepted told
  let checked := (exchange.risk.check (bidInput id account).1 exchange.books 0).1
  have risk : later.risk = checked.onMarketData ev live := risk
  have counted : (checked.onMarketData ev live).account account =
      { checked.account account with
        openOrders := (checked.account account).openOrders + 1
        openNotional := (checked.account account).openNotional +
          RiskEngine.notional ev.price ev.qty } := by
    rw [← owner]
    exact RiskEngine.onMarketData_add type
  refine ⟨later, outcome, ran, still, fun other different => ?_, fun fresh => ?_, fun other => ?_⟩
  · rw [risk]
    exact (RiskEngine.onMarketData_other (by rw [owner]; exact different)).trans
      (RiskEngine.check_other different)
  · have opened : (checked.account account).openOrders = 0 := by
      rw [(RiskEngine.check_counters ..).1, fresh]
    have messages : (checked.account account).recentMsgs.length ≤
        (exchange.risk.account account).recentMsgs.length + 1 :=
      RiskEngine.check_recentMsgs
    rw [fresh] at messages
    constructor
    · rw [risk, counted, opened]
      exact Nat.le_refl 1
    · rw [risk, counted]
      exact messages
  · have notCancel : ¬CommandType.new = .cancel := by decide
    have noDrop : BookManager.drops (bidInput id account).1 after [ev] other = false := by
      have stays : ev.removes = false := by
        rw [MdEvent.removes, type]
        rfl
      simp [BookManager.drops, bidInput, stays, notCancel]
    have entered : BookManager.enters (bidInput id account).1 after other =
      (decide (other = id) && after.contains id) := rfl
    rw [books, BookManager.settled_lookup, noDrop, entered, held, Bool.and_true,
      if_neg Bool.false_ne_true]
    simp only [decide_eq_true_eq]

theorem Ready.cancel (ready : Ready exchange book) (small : exchange.risk.Small account)
    (listed : exchange.books.orderToSymbol.lookup id = some 1)
    (cancelled : book.cancelOrder 0 id = .ok (after, some ev)) (type : ev.type = .cancel) :
    ∃ later outcome, exchange.command (cancelInput id account) = .ok (later, outcome) ∧
    Ready later after ∧ (∀ other, other ≠ account → other ≠ ev.accountId →
      later.risk.account other = exchange.risk.account other) ∧
      (later.risk.account ev.accountId).openOrders.toNat =
        (exchange.risk.account ev.accountId).openOrders.toNat - 1 ∧
      ∀ other, other ≠ id → later.books.orderToSymbol.lookup other =
        exchange.books.orderToSymbol.lookup other := by
  have symbol : exchange.books.orderSymbol id = 1 := by
    rw [BookManager.orderSymbol, listed]
    rfl
  have verdict : ∀ state : AccountState, state.openOrders.toNat ≤ 1 →
      RiskEngine.checkCommand {} state (cancelInput id account).1 exchange.books = .none := by
    intro state few
    have live : exchange.books.containsOrder id = true := by
      rw [BookManager.containsOrder, listed]
      rfl
    have known : RiskEngine.checkCommand {} state (cancelInput id account).1 exchange.books =
        if !exchange.books.containsOrder id then .unknownOrder else .none := rfl
    rw [known, live]
    rfl
  have targeted : exchange.books.target (cancelInput id account).1 = some 1 := by
    have notNew : ¬CommandType.cancel = .new := by decide
    simp [BookManager.target, cancelInput, symbol, notNew]
  have performed : book.perform 0 (cancelInput id account).1 =
      .ok (after, { mdEvents := [ev] }) := by
    change (book.cancelOrder 0 id >>= _) = _
    rw [cancelled]
    rfl
  obtain ⟨later, outcome, live, ran, still, books, risk⟩ :=
    ready.performed (cancelInput id account)
      (small.admits ready.limits verdict) targeted performed rfl rfl
  refine ⟨later, outcome, ran, still, fun other different apart => ?_, ?_,
    fun other different => ?_⟩
  · rw [risk, RiskEngine.onMarketData_other apart]
    exact RiskEngine.check_other different
  · rw [risk, (RiskEngine.onMarketData_cancel type).1, (RiskEngine.check_counters ..).1]
  · have noDrop : BookManager.drops (cancelInput id account).1 after [ev] other = false := by
      simp [BookManager.drops, cancelInput, different]
    have noEntry : BookManager.enters (cancelInput id account).1 after other = false := rfl
    rw [books, BookManager.settled_lookup, noDrop, noEntry]
    rfl

end

/-- Who a bid is for: nobody bids twice before the slots run out. -/
def bidder (k : Nat) : AccountId := UInt32.ofNat (k % kNull.toNat + 1)

/-- An exchange after `count` of the bids. -/
structure Filling (exchange : Exchange) (count : Nat) : Prop where
  book : ∃ book, Ready exchange book ∧ book.Refines (OrderBook.bidBook bidder count)
  watched : (exchange.risk.account 0).openOrders = 1
  fresh : ∀ account : AccountId, count < account.toNat → exchange.risk.account account = {}
  small : ∀ account, exchange.risk.Small account
  listed : ∀ k < count, exchange.books.orderToSymbol.lookup (UInt64.ofNat k) = some 1

section

variable {exchange : Exchange} {count : Nat}

theorem bidder_toNat (k : Nat) : (bidder k).toNat = k % kNull.toNat + 1 := by
  have below : k % kNull.toNat < kNull.toNat := Nat.mod_lt _ (by decide)
  have limit : kNull.toNat < 2 ^ 32 := by decide
  rw [bidder, UInt32.toNat_ofNat', Nat.mod_eq_of_lt (by omega)]

theorem bidder_ne_zero (k : Nat) : (0 : AccountId) ≠ bidder k := by
  intro zero
  have values := congrArg UInt32.toNat zero
  rw [bidder_toNat] at values
  cases values

theorem Filling.bid (filling : Filling exchange count) (below : count < kNull.toNat) :
    ∃ later outcome, exchange.command (bidInput (UInt64.ofNat count) (bidder count)) =
      .ok (later, outcome) ∧ Filling later (count + 1) := by
  obtain ⟨⟨book, ready, refines⟩, watched, fresh, small, listed⟩ := filling
  have limit : kNull.toNat < 2 ^ 64 := by decide
  have bound : count < 2 ^ 64 := by omega
  have number : (bidder count).toNat = count + 1 := by rw [bidder_toNat, Nat.mod_eq_of_lt below]
  obtain ⟨after, added, follows⟩ :=
    OrderBook.addOrder_spec refines (by rw [OrderBook.bidBook_length]; exact below) 0
    (UInt64.ofNat count) (bidder count) .buy 1 1 .gtc
  rw [OrderBook.bidBook_add bound] at added follows
  have held : after.contains (UInt64.ofNat count) = true := by
    rw [follows.refines.contains, ArrivalBook.holds, OrderBook.bidBook_succ, Keyed.holds_push,
      Bool.or_eq_true]
    exact .inr (decide_eq_true rfl)
  obtain ⟨later, outcome, ran, still, others, own, entries⟩ :=
    ready.bid (small _) added rfl rfl rfl rfl held
  refine ⟨later, outcome, ran, ⟨after, still, follows.refines⟩, ?_, ?_, ?_, ?_⟩
  · rw [others 0 (bidder_ne_zero count)]
    exact watched
  · intro account beyond
    have different : account ≠ bidder count := by
      rintro rfl
      omega
    rw [others account different]
    exact fresh account (Nat.lt_of_succ_lt beyond)
  · intro account
    by_cases isBidder : account = bidder count
    · subst isBidder
      exact own (fresh _ (by omega))
    · have same := others account isBidder
      exact ⟨by rw [same]; exact (small account).openOrders, by
        rw [same]; exact (small account).recentMsgs⟩
  · intro k earlier
    rw [entries]
    by_cases last : k = count
    · rw [last, if_pos rfl]
    · split
      · rfl
      · exact listed k (by omega)

/-- The bids up to the last slot. -/
theorem Filling.fill (start : Filling exchange 0) (bound : count ≤ kNull.toNat) :
    ∃ full outcomes,
      run command exchange ((List.range count).map fun k => bidInput (UInt64.ofNat k) (bidder k)) =
      .ok (full, outcomes) ∧ Filling full count := by
  induction count with
  | zero => exact ⟨exchange, [], rfl, start⟩
  | succ count ih =>
      obtain ⟨middle, outcomes, ran, filling⟩ := ih (by omega)
      obtain ⟨later, outcome, stepped, filled⟩ := filling.bid (by omega)
      refine ⟨later, outcomes ++ [outcome], ?_, filled⟩
      rw [List.range_succ, List.map_append]
      exact run_append ran (run_cons stepped run_nil)

/-- Two bids too many and two cancels take an order off the count of account zero. -/
theorem Filling.interferes (filling : Filling exchange count) (full : count = kNull.toNat) :
    ∃ k < count, ∃ later outcomes,
      run command exchange [bidInput (UInt64.ofNat count) (bidder count),
        bidInput (UInt64.ofNat (count + 1)) (bidder (count + 1)),
        cancelInput (UInt64.ofNat (count + 1)) 3, cancelInput (UInt64.ofNat k) 4] =
      .ok (later, outcomes) ∧ (later.risk.account 0).openOrders = 0 := by
  obtain ⟨⟨book, ready, queues, mirrors⟩, watched, -, small, listed⟩ := filling
  have bound : count + 1 < 2 ^ 64 := by
    rw [full]
    decide
  have first : bidder count = 1 := by
    rw [full]
    decide
  have second : bidder (count + 1) = 2 := by
    rw [full]
    decide
  -- The first bid too many gets the null slot.
  obtain ⟨spilled, out, bidden, told, accepted, overflowed⟩ := OrderBook.bid_overflows mirrors full
  have spilledHeld : spilled.contains (UInt64.ofNat count) = true := by
    rw [OrderBook.contains, overflowed.index, Finmap.lookup_insert]
    rfl
  obtain ⟨exchange₁, outcome₁, ran₁, ready₁, others₁, -, entries₁⟩ :=
    ready.bid (small _) (OrderBook.addOrder_of_matchCall bidden) accepted told rfl rfl spilledHeld
  -- The second gets slot zero, to which the id of an earlier bid also leads.
  obtain ⟨k, earlier, stale⟩ := OrderBook.bid_at_zero mirrors full
  obtain ⟨wrapped, wrappedOut, n, wraps, ⟨ev, wrappedTold, type, -, owner⟩, wrappedAccepted,
      wrapping⟩ :=
    overflowed.wraps mirrors full (bidder (count + 1))
  have wrappedHeld : wrapped.contains (UInt64.ofNat (count + 1)) = true := by
    rw [OrderBook.contains, wrapping.index, Finmap.lookup_insert]
    rfl
  have same₁ : ∀ account : AccountId, account ≠ 1 →
      exchange₁.risk.account account = exchange.risk.account account := by
    rw [first] at others₁
    exact others₁
  have small₁ : ∀ account : AccountId, account ≠ 1 →
      exchange₁.risk.Small account := fun account other =>
    ⟨by rw [same₁ account other]; exact (small account).openOrders,
      by rw [same₁ account other]; exact (small account).recentMsgs⟩
  obtain ⟨exchange₂, outcome₂, ran₂, ready₂, others₂, -, entries₂⟩ :=
    ready₁.bid (small₁ _ (by rw [second]; decide)) wraps wrappedAccepted wrappedTold type
      owner wrappedHeld
  have same₂ : ∀ account : AccountId, account ≠ 1 → account ≠ 2 →
      exchange₂.risk.account account = exchange.risk.account account := by
    rw [second] at others₂
    exact fun account one two => (others₂ account two).trans (same₁ account one)
  have small₂ : ∀ account : AccountId, account ≠ 1 → account ≠ 2 →
      exchange₂.risk.Small account := fun account one two =>
    ⟨by rw [same₂ account one two]; exact (small account).openOrders,
      by rw [same₂ account one two]; exact (small account).recentMsgs⟩
  -- Cancelling it empties the slot and leaves the earlier id in the index.
  have indexed : wrapped.index.lookup (UInt64.ofNat (count + 1)) = some 0 := by
    rw [wrapping.index, Finmap.lookup_insert]
  have listed₂ : exchange₂.books.orderToSymbol.lookup (UInt64.ofNat (count + 1)) = some 1 :=
    (entries₂ _).trans (if_pos rfl)
  obtain ⟨emptied, cancelled, vacated⟩ := wrapping.lone.cancel (UInt32.le_refl _) indexed 0
  obtain ⟨exchange₃, outcome₃, ran₃, ready₃, others₃, -, entries₃⟩ :=
    ready₂.cancel (small₂ 3 (by decide) (by decide)) listed₂ cancelled rfl
  have same₃ : ∀ account : AccountId, account ≠ 1 → account ≠ 2 → account ≠ 3 →
      exchange₃.risk.account account = exchange.risk.account account := by
    have owned : (wrapped.removalEvent 0 n n.qty .cancel).accountId = 2 :=
      wrapping.holder.trans second
    rw [owned] at others₃
    exact fun account one two three => (others₃ account three two).trans (same₂ account one two)
  -- Cancelling by the earlier id reports the empty slot.
  have staleIndexed : emptied.index.lookup (UInt64.ofNat k) = some 0 := by
    rw [vacated.stale wrapping overflowed bound earlier]
    exact stale
  have staleListed : exchange₃.books.orderToSymbol.lookup (UInt64.ofNat k) = some 1 := by
    rw [entries₃ _ (ofNat_ne (by omega) bound), entries₂,
      if_neg (ofNat_ne (by omega) bound), entries₁, if_neg (ofNat_ne earlier (by omega))]
    exact listed k earlier
  have four : exchange₃.risk.account 4 = exchange.risk.account 4 :=
    same₃ 4 (by decide) (by decide) (by decide)
  have small₃ : exchange₃.risk.Small 4 :=
    ⟨by rw [four]; exact (small 4).openOrders, by rw [four]; exact (small 4).recentMsgs⟩
  obtain ⟨last, cancelledAgain, -⟩ := vacated.lone.cancel (by decide) staleIndexed 0
  obtain ⟨exchange₄, outcome₄, ran₄, -, -, counted, -⟩ :=
    ready₃.cancel small₃ staleListed cancelledAgain rfl
  refine ⟨k, earlier, exchange₄, [outcome₁, outcome₂, outcome₃, outcome₄],
    run_cons ran₁ (run_cons ran₂ (run_cons ran₃ (run_cons ran₄ run_nil))), ?_⟩
  have counted : (exchange₄.risk.account 0).openOrders.toNat =
      (exchange₃.risk.account 0).openOrders.toNat - 1 := counted
  rw [same₃ 0 (by decide) (by decide) (by decide), watched] at counted
  exact UInt32.toNat_inj.mp counted

end

end Exchange

end Exsim.Core
