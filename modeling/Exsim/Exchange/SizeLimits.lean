import Exsim.Exchange.Limits

/-! # The size limits of an order -/

namespace Exsim.Core.Exchange

open Data Protocol

section

variable {cfg : ExchangeConfig} {fresh exchange after : Exchange} {call : ExchangeCall}
  {calls : List ExchangeCall} {outcome : Outcome} {outcomes : List Outcome} {cmd : ClientCommand}
  {result : ProcessResult}

/-- No call changes the limits. -/
theorem call_limits (ran : exchange.call call = .ok (after, outcome)) :
    after.risk.limits = exchange.risk.limits := by
  cases carried : call.command? with
  | none =>
      obtain ⟨reason, -, rejected⟩ := call_undecoded exchange carried
      rw [rejected] at ran
      cases ran
      rfl
  | some cmd =>
      have checked : (exchange.received cmd call.nowNs).risk.limits = exchange.risk.limits :=
        RiskEngine.check_limits _ _ _ _
      rw [call_decided exchange carried] at ran
      split at ran
      · cases ran
        exact checked
      · cases executed : exchange.books.execute (exchange.sequence cmd call.nowNs) with
        | error fault =>
            rw [executed] at ran
            cases ran
        | ok answer =>
            rw [executed] at ran
            cases answer with
            | error exception =>
                cases ran
                exact checked
            | ok answer =>
                cases ran
                change ((_ : Exchange).publish _ _).1.risk.limits = _
                rw [publish_risk]
                split
                · rw [tally_limits]
                  exact checked
                · exact checked

theorem run_limits (ran : run Exchange.call exchange calls = .ok (after, outcomes)) :
    after.risk.limits = exchange.risk.limits := by
  induction calls generalizing exchange outcomes with
  | nil =>
      cases ran
      rfl
  | cons input inputs ih =>
      obtain ⟨middle, outcome, rest, first, tail, -⟩ := run_cons_ok ran
      rw [ih tail, call_limits first]

/-- The risk check let an accepted command through. -/
theorem accepted_admitted (carried : call.command? = some cmd)
    (ran : exchange.call call = .ok (after, .returned result))
    (accepted : result.ack.accepted = true) : exchange.admits cmd call.nowNs = true := by
  by_contra refused
  rw [admits_iff] at refused
  rw [call_decided exchange carried, if_pos refused] at ran
  cases ran
  cases accepted

/-- In every state that calls reach, an add or a replace that is accepted keeps to
the size limits exactly if its value is below `2 ^ 64`. -/
theorem accepted_within_limits {frame : Bytes} {nowNs : TimestampNs}
    (created : Exchange.create cfg = some (.ok fresh))
    (ran : run Exchange.call fresh calls = .ok (exchange, outcomes))
    (decoded : (decodeClientCommand frame).command = some cmd)
    (isOrder : cmd.type = .new ∨ cmd.type = .replace)
    (answered : exchange.processFrame frame nowNs = .ok (after, .returned result))
    (accepted : result.ack.accepted = true) :
    (cmd.qty ≤ cfg.riskLimits.maxOrderQty ∧
        cmd.price.toInt * cmd.qty.toNat ≤ cfg.riskLimits.maxOrderNotional.toNat) ↔
      cmd.price.toInt * cmd.qty.toNat < 2 ^ 64 := by
  have limits : exchange.risk.limits = cfg.riskLimits := by
    rw [run_limits ran, (create_ok created).2]
  have notCancel : cmd.type ≠ .cancel := by
    obtain isNew | isReplace := isOrder
    · rw [isNew]
      decide
    · rw [isReplace]
      decide
  have positive := validateClientCommand_price (encode_of_decodeClientCommand decoded).1 isOrder
  have value : cmd.price.toInt * cmd.qty.toNat = (cmd.price.toInt.toNat * cmd.qty.toNat : Nat) := by
    rw [Nat.cast_mul, Int.toNat_of_nonneg (Int.le_of_lt positive)]
  have carried : (ExchangeCall.frame frame nowNs).command? = some cmd := decoded
  have admitted := accepted_admitted carried answered accepted
  obtain ⟨qty, notional, -⟩ := RiskEngine.check_bounds (admits_iff.mp admitted) notCancel
  rw [limits] at qty notional
  rw [value]
  constructor
  · intro within
    have most := cfg.riskLimits.maxOrderNotional.toNat_lt
    omega
  · intro fits
    rw [UInt64.le_iff_toNat_le, RiskEngine.notional_toNat positive (by omega)] at notional
    exact ⟨qty, by omega⟩

end

section Wide

/-- An exchange whose one price level is at `2 ^ 62`. -/
def highPriceConfig : ExchangeConfig :=
  { maxSymbol := 1, ladder := { minPrice := 0x4000000000000000, maxPrice := 0x4000000000000000 } }

def highPrice : Exchange :=
  { ladder := highPriceConfig.ladder
    books := {
      maxSymbol := 1
      ladder := highPriceConfig.ladder
      books := #[0, 1].map fun symbolId =>
        { symbolId, minPrice := highPriceConfig.ladder.minPrice,
          maxPrice := highPriceConfig.ladder.maxPrice
          levelCount := 1, bids := .empty 1, asks := .empty 1 } }
    risk := { limits := {} } }

theorem highPrice_created : Exchange.create highPriceConfig = some (.ok highPrice) := by
  decide +kernel

/-- A bid of value `2 ^ 64`. -/
def wrappingBid : ClientCommand :=
  { orderId := 7, accountId := 1, symbolId := 1, price := 0x4000000000000000, qty := 4 }

def bidFrame : Bytes := encodeClientCommand BookManager.restingBid

/-- An acceptance that can be computed. -/
theorem accepts_frame {exchange : Exchange} {frame : Bytes}
    (accepts : (match exchange.processFrame frame 0 with
      | .ok (_, .returned result) => result.ack.accepted
      | _ => false) = true) :
    ∃ after result, exchange.processFrame frame 0 = .ok (after, .returned result) ∧
      result.ack.accepted = true := by
  split at accepts
  · rename_i after result answered
    exact ⟨after, result, answered, accepts⟩
  · cases accepts

theorem accepted_within_limits_bid :
    (BookManager.restingBid.qty ≤ oneSymbolConfig.riskLimits.maxOrderQty ∧
        BookManager.restingBid.price.toInt * BookManager.restingBid.qty.toNat ≤
          oneSymbolConfig.riskLimits.maxOrderNotional.toNat) ↔
      BookManager.restingBid.price.toInt * BookManager.restingBid.qty.toNat < 2 ^ 64 := by
  have answers : ∃ after result, oneSymbol.processFrame bidFrame 0 = .ok (after, .returned result) ∧
      result.ack.accepted = true := accepts_frame (by decide +kernel)
  obtain ⟨after, result, answered, accepted⟩ := answers
  exact accepted_within_limits oneSymbol_created run_nil (by decide +kernel)
    (.inl rfl) answered accepted

/-- An order of value `2 ^ 64` is accepted where the limit is ten thousand million. -/
theorem value_wraps : Exchange.create highPriceConfig = some (.ok highPrice) ∧
    (decodeClientCommand (encodeClientCommand wrappingBid)).command = some wrappingBid ∧
    (∃ after result, highPrice.processFrame (encodeClientCommand wrappingBid) 0 =
      .ok (after, .returned result) ∧ result.ack.accepted = true) ∧
    ¬(wrappingBid.qty ≤ highPriceConfig.riskLimits.maxOrderQty ∧
      wrappingBid.price.toInt * wrappingBid.qty.toNat ≤
        highPriceConfig.riskLimits.maxOrderNotional.toNat) :=
  ⟨highPrice_created, by decide +kernel, accepts_frame (by decide +kernel), by decide +kernel⟩

end Wide

end Exsim.Core.Exchange
