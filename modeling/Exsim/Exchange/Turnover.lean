import Exsim.Exchange.Specification
import Exsim.Reference.Turnover

/-! # The turnover of the exchange

Over a run the trades and the orders that still rest are no more than the adds and
replaces that were accepted.  So matching and the feed are linear in the calls.
-/

namespace Exsim.Core

open Data

namespace ExchangeCall

/-- Whether a call asks for an order to be added. -/
def adds (call : ExchangeCall) : Bool := call.command?.any fun cmd => cmd.type = .new ||
  cmd.type = .replace

end ExchangeCall

namespace Outcome

def accepted : Outcome → Bool
  | .returned result => result.ack.accepted
  | .threw _ => false

def trades : Outcome → List Trade
  | .returned result => result.trades
  | .threw _ => []

end Outcome

/-- Whether an order was asked for and the answer accepts it. -/
def Outcome.added (answered : ExchangeCall × Outcome) : Bool :=
  answered.1.adds && answered.2.accepted

namespace ReferenceExchange

variable {ref : ReferenceExchange}

theorem publish_turnover {seq : SeqNo} {cmd : ClientCommand} {out : MatchOutput} {before : Nat}
    (turnover : out.trades.length + ref.market.liveOrders ≤ before +
      if (cmd.type = .new ∨ cmd.type = .replace) ∧ out.reject = .none then 1 else 0)
    (told : out.mdEvents.length ≤ out.trades.length + 2) :
    (ref.publish seq cmd out).2.trades.length + (ref.publish seq cmd out).1.market.liveOrders ≤
      before + (if (cmd.type = .new ∨ cmd.type = .replace) ∧
        (ref.publish seq cmd out).2.accepted = true then 1 else 0) ∧
      (ref.publish seq cmd out).2.events.length ≤
        (ref.publish seq cmd out).2.trades.length + 2 := by
  rw [Exchange.publish_market]
  by_cases accepted : out.reject = .none
  · have trades : (ref.publish seq cmd out).2.trades = out.trades := by
      rw [publish, if_neg (not_not.mpr accepted)]
      rfl
    have events : (ref.publish seq cmd out).2.events =
        Exchange.stamp ref.nextMdSeq out.mdEvents := by
      rw [publish, if_neg (not_not.mpr accepted)]
      rfl
    have taken : (ref.publish seq cmd out).2.accepted = true := by
      rw [publish, if_neg (not_not.mpr accepted)]
      rfl
    rw [trades, events, taken, Exchange.stamp_length]
    simp only [accepted, and_true] at turnover ⊢
    exact ⟨turnover, told⟩
  · have refused : (ref.publish seq cmd out).2 = (ref.refuse seq cmd out.reject).2 := by
      rw [publish, if_pos accepted]
    have nothing : (ref.refuse seq cmd out.reject).2.trades.length = 0 := rfl
    have one : (ref.refuse seq cmd out.reject).2.events.length = 1 := rfl
    rw [if_neg fun both => accepted both.2] at turnover
    rw [refused, nothing, one]
    omega

theorem execute_turnover (sound : ref.market.Sound) (listed : ref.market.Listed) (seq : SeqNo)
    (cmd : ClientCommand) :
    (ref.execute seq cmd).2.trades.length + (ref.execute seq cmd).1.market.liveOrders ≤
      ref.market.liveOrders + (if (cmd.type = .new ∨ cmd.type = .replace) ∧
        (ref.execute seq cmd).2.accepted = true then 1 else 0) ∧
      (ref.execute seq cmd).2.events.length ≤ (ref.execute seq cmd).2.trades.length + 2 := by
  rw [execute]
  by_cases unknown : (decide (cmd.type = .new) && !ref.market.validSymbol cmd.symbolId) = true
  · rw [if_pos unknown]
    exact ⟨by simp [Outcome.trades], by simp [Outcome.events]⟩
  · have known : cmd.type = .new → ref.market.validSymbol cmd.symbolId = true := fun isNew => by
      simpa [isNew] using unknown
    obtain ⟨turnover, told⟩ := ArrivalMarket.apply_turnover seq sound listed known
    rw [if_neg unknown]
    exact publish_turnover turnover told

/-- The trades of a call and the orders after it are at most the orders before it
and the one it adds. -/
theorem call_turnover (sound : ref.market.Sound) (listed : ref.market.Listed)
    (input : ExchangeCall) :
    (ref.call input).2.trades.length + (ref.call input).1.market.liveOrders ≤
      ref.market.liveOrders + (if input.adds && (ref.call input).2.accepted then 1 else 0) ∧
      (ref.call input).2.events.length ≤ (ref.call input).2.trades.length + 2 := by
  rw [call, ExchangeCall.adds]
  cases carried : input.command? with
  | none => exact ⟨by simp [refuse, Outcome.trades, numbered], by simp [refuse, Outcome.events]⟩
  | some cmd =>
      dsimp only
      split
      · exact ⟨by simp [refuse, Outcome.trades, receive, numbered], by simp [refuse,
          Outcome.events]⟩
      · have received : (ref.receive cmd input.nowNs).market = ref.market := rfl
        rw [← received] at sound listed
        have turnover := execute_turnover sound listed ref.nextSeq cmd
        rw [received] at turnover
        simpa using turnover

end ReferenceExchange

namespace BookManager

theorem Models.liveOrders {manager : BookManager} {market : ArrivalMarket}
    (models : manager.Models market) :
    manager.liveOrders = market.liveOrders := by
  have each : ∀ symbol book, market.validSymbol symbol = true →
      manager.books[symbol.toNat]? = some book →
      book.stats.liveOrders = (market.books symbol).weigh fun _ => 1 := by
    intro symbol book valid stored
    obtain ⟨other, found, refines⟩ := models.books symbol valid
    obtain rfl := Option.some.inj (stored.symm.trans found)
    rw [refines.liveOrders, ArrivalBook.weigh]
    simp
  rw [BookManager.liveOrders, models.map_activeBooks each, ArrivalMarket.liveOrders,
    ArrivalMarket.weigh, models.maxSymbol]
  rfl

end BookManager

namespace Exchange

theorem Specified.run_counts {exchange : Exchange} {ref : ReferenceExchange}
    {calls : List ExchangeCall} (specified : exchange.Specified ref)
    (room : Along Exchange.call (fun exchange _ => exchange.books.HasRoom) exchange calls) :
    ∃ after outcomes, run Exchange.call exchange calls = .ok (after, outcomes) ∧
      (outcomes.flatMap Outcome.trades).length + after.liveOrders ≤ exchange.liveOrders +
        (calls.zip outcomes).countP Outcome.added ∧
      (outcomes.flatMap Outcome.events).length ≤
        (outcomes.flatMap Outcome.trades).length + 2 * calls.length := by
  induction calls generalizing exchange ref with
  | nil => exact ⟨exchange, [], rfl, by simp, by simp⟩
  | cons input calls ih =>
      have models := specified.models
      obtain ⟨middle, stepped, steps⟩ := specified.call (models.hasRoom room.1) input
      obtain ⟨after, outcomes, ran, turnover, told⟩ := ih steps.specified (room.2 middle _ stepped)
      obtain ⟨first, saying⟩ := ReferenceExchange.call_turnover models.sound models.listed input
      have before : exchange.liveOrders = ref.market.liveOrders := models.liveOrders
      have between : middle.liveOrders = (ref.call input).1.market.liveOrders :=
        steps.specified.models.liveOrders
      refine ⟨after, _, run_cons stepped ran, ?_, ?_⟩
      · rw [List.flatMap_cons, List.length_append, List.zip_cons_cons, List.countP_cons]
        have counted : Outcome.added (input, (ref.call input).2) =
            (input.adds && (ref.call input).2.accepted) := rfl
        rw [counted]
        omega
      · rw [List.flatMap_cons, List.flatMap_cons, List.length_append, List.length_append,
          List.length_cons]
        omega

/-- While no book runs out of slots, the trades of a run and the orders that rest at
its end are together at most the adds and replaces it accepted, and the events it
published at most three for each call. -/
theorem run_turnover {cfg : ExchangeConfig} {fresh : Exchange} {calls : List ExchangeCall}
    (created : Exchange.create cfg = some (.ok fresh))
    (room : Along Exchange.call (fun exchange _ => exchange.books.HasRoom) fresh calls) :
    ∃ after outcomes, run Exchange.call fresh calls = .ok (after, outcomes) ∧
      (outcomes.flatMap Outcome.trades).length + after.liveOrders ≤
        (calls.zip outcomes).countP Outcome.added ∧
      (outcomes.flatMap Outcome.events).length ≤ 3 * calls.length := by
  have specified := create_specified created
  have empty : fresh.liveOrders = 0 := by
    have live : fresh.liveOrders = (ReferenceExchange.create cfg).market.liveOrders :=
      specified.models.liveOrders
    rw [live, ArrivalMarket.liveOrders, ArrivalMarket.weigh]
    exact Finset.sum_eq_zero fun _ _ => rfl
  obtain ⟨after, outcomes, ran, turnover, told⟩ := specified.run_counts room
  have few : (calls.zip outcomes).countP Outcome.added ≤ calls.length :=
    Nat.le_trans List.countP_le_length (by rw [List.length_zip]; exact Nat.min_le_left _ _)
  exact ⟨after, outcomes, ran, by omega, by omega⟩

theorem run_turnover_fourCalls : ∃ after outcomes, run Exchange.call oneSymbol fourCalls =
    .ok (after, outcomes) ∧ (outcomes.flatMap Outcome.trades).length + after.liveOrders ≤
      (fourCalls.zip outcomes).countP Outcome.added ∧
    (outcomes.flatMap Outcome.events).length ≤ 3 * fourCalls.length :=
  run_turnover oneSymbol_created (by decide +kernel)

end Exchange

end Exsim.Core
