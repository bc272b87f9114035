import Exsim.BookManager.Digest
import Exsim.Exchange.Limits
import Exsim.Exchange.Specification
import Exsim.Reference.Bands

/-! # Limits that did not bind

A run in which nothing was refused for its price or for a risk limit goes the
same way on wider ladders and under laxer limits with the same rate window, to the
same checksums.
-/

namespace Exsim

/-- Whether a ladder or a risk limit refused. -/
def RejectReason.limits : RejectReason → Bool
  | .invalidPrice | .riskMaxQty | .riskMaxNotional | .riskOpenOrders | .riskRateLimit => true
  | _ => false

namespace Core

open Data Protocol

/-- Limits no stricter than others, over the same rate window. -/
structure RiskLimits.Within (strict lax : RiskLimits) : Prop where
  maxOrderQty : strict.maxOrderQty ≤ lax.maxOrderQty
  maxOrderNotional : strict.maxOrderNotional ≤ lax.maxOrderNotional
  maxOpenOrdersPerAccount : strict.maxOpenOrdersPerAccount ≤ lax.maxOpenOrdersPerAccount
  maxMsgsPerWindow : strict.maxMsgsPerWindow ≤ lax.maxMsgsPerWindow
  rateWindowNs : lax.rateWindowNs = strict.rateWindowNs

/-- Ladders whose books are on bands within those of others. -/
def PriceLadderConfig.Within (strict lax : PriceLadderConfig) (maxSymbol : SymbolId) : Prop :=
  ∀ symbol, 0 < symbol → symbol ≤ maxSymbol →
    (BookManager.symbolLadder lax symbol).minPrice ≤
      (BookManager.symbolLadder strict symbol).minPrice ∧
      (BookManager.symbolLadder strict symbol).maxPrice ≤
        (BookManager.symbolLadder lax symbol).maxPrice

theorem BookManager.symbolLadder_flat {ladder : PriceLadderConfig}
    (flat : ladder.symbolPriceStride = 0) (symbol : SymbolId) :
    symbolLadder ladder symbol = ladder := by
  rw [symbolLadder, flat]
  rfl

/-- Whether an answer refuses for a price or a risk limit. -/
def Outcome.limited : Outcome → Bool
  | .returned result => result.ack.reason.limits
  | .threw _ => false

namespace RiskEngine

def relax (risk : RiskEngine) (limits : RiskLimits) : RiskEngine := { risk with limits }

variable {risk : RiskEngine} {limits : RiskLimits} {live : OrderId → Bool} {cmd : ClientCommand}
  {nowNs : TimestampNs}

/-- What no limit refuses, laxer limits do not refuse. -/
theorem checkAgainst_relax (within : risk.limits.Within limits)
    (taken : (risk.checkAgainst live cmd nowNs).2.limits = false) :
    (risk.relax limits).checkAgainst live cmd nowNs =
      ((risk.checkAgainst live cmd nowNs).1.relax limits,
        (risk.checkAgainst live cmd nowNs).2) := by
  have account : (risk.relax limits).account cmd.accountId = risk.account cmd.accountId := rfl
  have relaxed : (risk.relax limits).limits = limits := rfl
  have old : expired limits nowNs = expired risk.limits nowNs := by
    funext front
    rw [expired, expired, within.rateWindowNs]
  have messages := UInt32.le_iff_toNat_le.mp within.maxMsgsPerWindow
  rw [checkAgainst] at taken
  rw [checkAgainst, checkAgainst, account, relaxed, old]
  by_cases flooded :
      ((risk.account cmd.accountId).recentMsgs.dropWhile (expired risk.limits nowNs)).length ≥
      risk.limits.maxMsgsPerWindow.toNat
  · rw [if_pos flooded] at taken
    cases taken
  rw [if_neg flooded] at taken
  rw [if_neg flooded, if_neg (by omega)]
  refine Prod.ext rfl ?_
  dsimp only at taken ⊢
  by_cases isCancel : cmd.type = .cancel
  · rw [if_pos isCancel, if_pos isCancel]
  rw [if_neg isCancel] at taken
  rw [if_neg isCancel, if_neg isCancel]
  by_cases dead : (decide (cmd.type = .replace) && !live cmd.cancelOrderId) = true
  · rw [if_pos dead, if_pos dead]
  rw [if_neg dead] at taken
  rw [if_neg dead, if_neg dead]
  by_cases large : cmd.qty > risk.limits.maxOrderQty
  · rw [if_pos large] at taken
    cases taken
  rw [if_neg large] at taken
  rw [if_neg large, if_neg fun larger => large (UInt32.lt_of_le_of_lt within.maxOrderQty larger)]
  by_cases costly : notional cmd.price cmd.qty > risk.limits.maxOrderNotional
  · rw [if_pos costly] at taken
    cases taken
  rw [if_neg costly] at taken
  rw [if_neg costly, if_neg fun costlier =>
    costly (UInt64.lt_of_le_of_lt within.maxOrderNotional costlier)]
  by_cases full :
      (decide ((risk.account cmd.accountId).openOrders ≥ risk.limits.maxOpenOrdersPerAccount) &&
      decide (cmd.type = .new)) = true
  · rw [if_pos full] at taken
    cases taken
  rw [if_neg full, if_neg]
  rw [Bool.and_eq_true, decide_eq_true_iff, decide_eq_true_iff] at full ⊢
  exact fun fuller => full ⟨UInt32.le_trans within.maxOpenOrdersPerAccount fuller.1, fuller.2⟩

theorem tally_relax (events : List MdEvent) :
    (risk.relax limits).tally live events = (risk.tally live events).relax limits := by
  induction events generalizing risk with
  | nil => rfl
  | cons ev events ih =>
      have counted : (risk.relax limits).onMarketData ev (live ev.orderId) =
          (risk.onMarketData ev (live ev.orderId)).relax limits := by
        have account : (risk.relax limits).account ev.accountId = risk.account ev.accountId := rfl
        rw [onMarketData, onMarketData, account]
        split
        · rfl
        · split
          · rfl
          · split <;> rfl
      rw [tally, tally, List.foldl_cons, List.foldl_cons, counted]
      exact ih

end RiskEngine

namespace ReferenceExchange

def relax (ref : ReferenceExchange) (bands : SymbolId → Band) (limits : RiskLimits) :
    ReferenceExchange :=
  { ref with market := ref.market.reband bands, risk := ref.risk.relax limits }

section

variable {ref : ReferenceExchange} {bands : SymbolId → Band} {limits : RiskLimits} {seq : SeqNo}
  {cmd : ClientCommand} {out : MatchOutput} {input : ExchangeCall}

theorem publish_relax (ref : ReferenceExchange) : (ref.relax bands limits).publish seq cmd out =
    ((ref.publish seq cmd out).1.relax bands limits, (ref.publish seq cmd out).2) := by
  have risk : (ref.relax bands limits).risk = ref.risk.relax limits := rfl
  have live : (ref.relax bands limits).market.live = ref.market.live := rfl
  rw [publish, publish]
  split
  · rfl
  · dsimp only
    rw [risk, live, RiskEngine.tally_relax]
    rfl

theorem publish_taken (taken : (ref.publish seq cmd out).2.limited = false) :
    out.reject ≠ .invalidPrice := by
  intro refused
  rw [publish, refused, if_pos (by decide)] at taken
  cases taken

theorem execute_relax (inside : ref.market.Inside bands) (listed : ref.market.Listed)
    (taken : (ref.execute seq cmd).2.limited = false) : (ref.relax bands limits).execute seq cmd =
      ((ref.execute seq cmd).1.relax bands limits, (ref.execute seq cmd).2) := by
  have market : (ref.relax bands limits).market = ref.market.reband bands := rfl
  have valid : (ref.market.reband bands).validSymbol cmd.symbolId =
      ref.market.validSymbol cmd.symbolId := rfl
  rw [execute] at taken
  rw [execute, execute, market, valid]
  by_cases unknown : (decide (cmd.type = .new) && !ref.market.validSymbol cmd.symbolId) = true
  · rw [if_pos unknown, if_pos unknown]
  · rw [if_neg unknown] at taken
    rw [if_neg unknown, if_neg unknown]
    have known : cmd.type = .new → ref.market.validSymbol cmd.symbolId = true := fun isNew => by
      simpa [isNew] using unknown
    dsimp only at taken ⊢
    rw [ArrivalMarket.apply_reband inside listed known (publish_taken taken)]
    exact publish_relax { ref with market := (ref.market.apply seq cmd).1 }

theorem call_relax (inside : ref.market.Inside bands) (listed : ref.market.Listed)
    (within : ref.risk.limits.Within limits) (taken : (ref.call input).2.limited = false) :
    (ref.relax bands limits).call input =
      ((ref.call input).1.relax bands limits, (ref.call input).2) := by
  have risk : (ref.relax bands limits).risk = ref.risk.relax limits := rfl
  have live : (ref.relax bands limits).market.live = ref.market.live := rfl
  rw [call] at taken
  rw [call, call]
  cases carried : input.command? with
  | none => rfl
  | some cmd =>
      rw [carried] at taken
      dsimp only at taken ⊢
      have unlimited : (ref.risk.checkAgainst ref.market.live cmd input.nowNs).2.limits =
          false := by
        by_cases passed : (ref.risk.checkAgainst ref.market.live cmd input.nowNs).2 = .none
        · rw [passed]
          rfl
        · rw [if_pos passed] at taken
          exact taken
      have checked := RiskEngine.checkAgainst_relax within unlimited
      have received : (ref.relax bands limits).receive cmd input.nowNs =
          (ref.receive cmd input.nowNs).relax bands limits := by
        rw [receive, risk, live, checked]
        rfl
      rw [risk, live, checked, received]
      dsimp only
      by_cases passed : (ref.risk.checkAgainst ref.market.live cmd input.nowNs).2 ≠ .none
      · rw [if_pos passed, if_pos passed]
        rfl
      · rw [if_neg passed] at taken
        rw [if_neg passed, if_neg passed]
        exact execute_relax inside listed taken

/-- What a call does to the market. -/
theorem call_market (ref : ReferenceExchange) (input : ExchangeCall) :
    (ref.call input).1.market = ref.market ∨ ∃ cmd, input.command? = some cmd ∧
    (ref.risk.checkAgainst ref.market.live cmd input.nowNs).2 = .none ∧
      (cmd.type = .new → ref.market.validSymbol cmd.symbolId = true) ∧
      (ref.call input).1.market = (ref.market.apply ref.nextSeq cmd).1 := by
  rw [call]
  cases carried : input.command? with
  | none => exact .inl rfl
  | some cmd =>
      dsimp only
      by_cases passed : (ref.risk.checkAgainst ref.market.live cmd input.nowNs).2 ≠ .none
      · rw [if_pos passed]
        exact .inl rfl
      · rw [if_neg passed, execute]
        have market : (ref.receive cmd input.nowNs).market = ref.market := rfl
        rw [market]
        split
        · exact .inl rfl
        · rename_i known
          refine .inr ⟨cmd, rfl, not_not.mp passed, fun isNew => by simpa [isNew] using known, ?_⟩
          dsimp only
          rw [Exchange.publish_market]

theorem call_limits (ref : ReferenceExchange) (input : ExchangeCall) :
    (ref.call input).1.risk.limits = ref.risk.limits := by
  have received : ∀ cmd, (ref.receive cmd input.nowNs).risk.limits = ref.risk.limits :=
    fun cmd => by
      rw [receive, RiskEngine.checkAgainst]
      dsimp only
      split <;> rfl
  rw [call]
  cases input.command? with
  | none => rfl
  | some cmd =>
      dsimp only
      split
      · exact received cmd
      · rw [execute]
        split
        · exact received cmd
        · dsimp only
          rw [publish]
          split
          · exact received cmd
          · exact (Exchange.tally_limits _ _ _).trans (received cmd)

end

end ReferenceExchange

namespace Exchange

/-- Whether what a call lets through takes a level past its counter. -/
def overfills (exchange : Exchange) (input : ExchangeCall) : Bool :=
  match input.command? with
  | none => false
  | some cmd => exchange.admits cmd input.nowNs && exchange.books.overfills cmd

/-- An exchange and one under laxer limits that have taken the same calls. -/
structure Beside (strict lax : Exchange) (ref : ReferenceExchange) (bands : SymbolId → Band)
    (limits : RiskLimits) :
    Prop where
  here : strict.Specified ref
  there : lax.Specified (ref.relax bands limits)
  exact : strict.books.Exact ref.market
  laxExact : lax.books.Exact (ref.relax bands limits).market
  inside : ref.market.Inside bands
  limits : ref.risk.limits.Within limits

section

variable {strict lax after : Exchange} {ref : ReferenceExchange} {bands : SymbolId → Band}
  {limits : RiskLimits} {input : ExchangeCall} {outcome : Outcome} {calls : List ExchangeCall}
  {outcomes : List Outcome}

theorem Specified.call_fits (specified : strict.Specified ref)
    (exact : strict.books.Exact ref.market) (fine : strict.overfills input = false) :
    strict.books.Fits (ref.call input).1.market := by
  obtain same | ⟨cmd, carried, passed, known, moved⟩ := ref.call_market input
  · rw [same]
    exact exact.fits
  · have admitted : strict.admits cmd input.nowNs = true := by
      rw [admits_iff, specified.check]
      exact passed
    rw [overfills, carried] at fine
    dsimp only at fine
    rw [admitted, Bool.true_and] at fine
    rw [moved]
    exact specified.models.apply_fits exact ref.nextSeq known fine

theorem Beside.call (beside : Beside strict lax ref bands limits) (room : strict.books.HasRoom)
    (fine : strict.overfills input = false) (ran : strict.call input = .ok (after, outcome))
    (taken : outcome.limited = false) :
    ∃ later, lax.call input = .ok (later, outcome) ∧
    Beside after later (ref.call input).1 bands limits := by
  have room := beside.here.models.hasRoom room
  have listed := beside.here.models.listed
  obtain ⟨other, stepped, steps⟩ := beside.here.call room input
  obtain ⟨rfl, rfl⟩ := Prod.mk.inj (Except.ok.inj (stepped.symm.trans ran))
  have relaxed := ReferenceExchange.call_relax beside.inside listed beside.limits taken
  obtain ⟨later, laxRan, laxSteps⟩ := beside.there.call room input
  rw [relaxed] at laxRan laxSteps
  have sameMax : (ref.call input).1.market.maxSymbol = ref.market.maxSymbol := by
    obtain same | ⟨cmd, -, -, -, moved⟩ := ref.call_market input
    · rw [same]
    · rw [moved, ArrivalMarket.apply_maxSymbol]
  have fits :=
    (beside.here.call_fits beside.exact fine).transfer beside.here.models sameMax steps.ladders
  -- What a price counts does not depend on the band.
  have countable : ((ref.call input).1.relax bands limits).market.Countable :=
    steps.specified.models.fits_iff.mp fits
  refine ⟨later, laxRan, steps.specified, laxSteps.specified, steps.exact fits beside.exact,
    laxSteps.exact (laxSteps.specified.models.fits_iff.mpr countable) beside.laxExact, ?_, ?_⟩
  · obtain same | ⟨cmd, -, -, known, moved⟩ := ref.call_market input
    · rw [same]
      exact beside.inside
    · rw [moved]
      exact beside.inside.apply listed known ref.nextSeq
  · rw [ReferenceExchange.call_limits]
    exact beside.limits

theorem Beside.run (beside : Beside strict lax ref bands limits)
    (guarded : Along Exchange.call
      (fun exchange input => exchange.books.HasRoom ∧ exchange.overfills input = false) strict
      calls)
    (ran : Data.run Exchange.call strict calls = .ok (after, outcomes))
    (taken : ∀ outcome ∈ outcomes, outcome.limited = false) :
    ∃ later last, Data.run Exchange.call lax calls = .ok (later, outcomes) ∧
    Beside after later last bands limits := by
  induction calls generalizing strict lax ref outcomes with
  | nil =>
      obtain ⟨rfl, rfl⟩ := Prod.mk.inj (Except.ok.inj ran)
      exact ⟨lax, ref, rfl, beside⟩
  | cons input calls ih =>
      obtain ⟨middle, outcome, rest, stepped, further, rfl⟩ := run_cons_ok ran
      obtain ⟨⟨room, fine⟩, along⟩ := guarded
      obtain ⟨laxMiddle, laxStepped, kept⟩ :=
        beside.call room fine stepped (taken outcome List.mem_cons_self)
      obtain ⟨later, last, laxRan, kept⟩ :=
        ih kept (along middle outcome stepped) further fun other member =>
          taken other (List.mem_cons_of_mem outcome member)
      exact ⟨later, last, run_cons laxStepped laxRan, kept⟩

theorem create_beside {cfg laxCfg : ExchangeConfig}
    (created : Exchange.create cfg = some (.ok strict))
    (laxCreated : Exchange.create laxCfg = some (.ok lax))
    (sameMax : laxCfg.maxSymbol = cfg.maxSymbol)
    (ladders : cfg.ladder.Within laxCfg.ladder cfg.maxSymbol)
    (within : cfg.riskLimits.Within laxCfg.riskLimits) :
    Beside strict lax (.create cfg)
      (fun symbol => (BookManager.symbolLadder laxCfg.ladder symbol).band)
      laxCfg.riskLimits := by
  have relaxed : (ReferenceExchange.create cfg).relax
      (fun symbol => (BookManager.symbolLadder laxCfg.ladder symbol).band)
      laxCfg.riskLimits = .create laxCfg := by
    rw [ReferenceExchange.create, ReferenceExchange.create, sameMax]
    rfl
  have there := create_specified laxCreated
  have laxExact : lax.books.Exact (ReferenceExchange.create laxCfg).market :=
    (BookManager.create_models (create_ok laxCreated).1).2
  rw [← relaxed] at there laxExact
  refine ⟨create_specified created, there, (BookManager.create_models (create_ok created).1).2,
    laxExact, ?_, within⟩
  intro symbol valid
  simp only [ArrivalMarket.validSymbol, ReferenceExchange.create, ArrivalMarket.create,
    Bool.not_eq_true', Bool.or_eq_false_iff, decide_eq_false_iff_not, UInt32.not_lt,
    gt_iff_lt] at valid
  exact ladders symbol (UInt32.pos_iff_ne_zero.mpr valid.1) valid.2

/-- The books of both hash to one checksum. -/
theorem Beside.checksum (beside : Beside strict lax ref bands limits) :
    lax.books.checksum = strict.books.checksum := by
  have words : (ref.relax bands limits).market.digest = ref.market.digest := rfl
  rw [beside.here.models.checksum, beside.there.models.checksum,
    beside.here.models.digest_eq beside.exact, beside.there.models.digest_eq beside.laxExact, words]

theorem Beside.waiting (beside : Beside strict lax ref bands limits) {symbol : SymbolId}
    {book : OrderBook} (found : strict.books.findBook symbol = some book) :
    ∃ copy, lax.books.findBook symbol = some copy ∧
    ∀ isBuy, copy.waiting isBuy = book.waiting isBuy := by
  obtain ⟨valid, -, refines⟩ := beside.here.models.of_findBook found
  have there := beside.there.models
  obtain ⟨copy, stored, follows⟩ := there.books symbol valid
  refine ⟨copy, there.findBook valid stored, fun isBuy => ?_⟩
  rw [follows.waiting, refines.waiting]
  rfl

/-- While no book runs out of slots and no level total leaves its counter, a run
in which no price and no risk limit was refused is answered the same by an
exchange of the same symbols on wider ladders and under laxer limits with the same
rate window, and ends with the same queues, accounts, numbers and checksums. -/
theorem run_relaxed {cfg laxCfg : ExchangeConfig}
    (created : Exchange.create cfg = some (.ok strict))
    (laxCreated : Exchange.create laxCfg = some (.ok lax))
    (sameMax : laxCfg.maxSymbol = cfg.maxSymbol)
    (ladders : cfg.ladder.Within laxCfg.ladder cfg.maxSymbol)
    (within : cfg.riskLimits.Within laxCfg.riskLimits)
    (guarded : Along Exchange.call
      (fun exchange input => exchange.books.HasRoom ∧ exchange.overfills input = false) strict
      calls)
    (ran : Data.run Exchange.call strict calls = .ok (after, outcomes))
    (taken : ∀ outcome ∈ outcomes, outcome.limited = false) :
    ∃ later, Data.run Exchange.call lax calls = .ok (later, outcomes) ∧
    later.nextSeq = after.nextSeq ∧ later.nextMdSeq = after.nextMdSeq ∧
    later.mdChecksum = after.mdChecksum ∧ later.risk.accounts = after.risk.accounts ∧
    later.books.checksum = after.books.checksum ∧
      ∀ symbol book, after.books.findBook symbol = some book →
        ∃ copy, later.books.findBook symbol = some copy ∧
        ∀ isBuy, copy.waiting isBuy = book.waiting isBuy := by
  obtain ⟨later, last, laxRan, kept⟩ :=
    (create_beside created laxCreated sameMax ladders within).run guarded ran taken
  refine ⟨later, laxRan, ?_, ?_, ?_, ?_, kept.checksum, fun symbol book found => kept.waiting found⟩
  · rw [kept.here.nextSeq, kept.there.nextSeq]
    rfl
  · rw [kept.here.nextMdSeq, kept.there.nextMdSeq]
    rfl
  · rw [kept.here.mdChecksum, kept.there.mdChecksum]
    rfl
  · rw [kept.here.risk, kept.there.risk]
    rfl

/-- The ladder of one symbol with a third price. -/
def threePriceConfig : ExchangeConfig :=
  { maxSymbol := 1, ladder := { minPrice := 1, maxPrice := 3 } }

/-- A bid and an ask that meets it. -/
def bidAndAsk : List ExchangeCall := [framed BookManager.restingBid,
  .command { orderId := 9, accountId := 2, symbolId := 1, side := .sell, price := 1, qty := 3 } 20]

theorem run_relaxed_bidAndAsk : ∃ lax after outcomes later,
    Exchange.create threePriceConfig = some (.ok lax) ∧
    Data.run Exchange.call oneSymbol bidAndAsk = .ok (after, outcomes) ∧
    Data.run Exchange.call lax bidAndAsk = .ok (later, outcomes) ∧
    later.nextSeq = after.nextSeq ∧ later.nextMdSeq = after.nextMdSeq ∧
    later.mdChecksum = after.mdChecksum ∧ later.risk.accounts = after.risk.accounts ∧
    later.books.checksum = after.books.checksum ∧
    ∀ symbol book, after.books.findBook symbol = some book →
      ∃ copy, later.books.findBook symbol = some copy ∧
      ∀ isBuy, copy.waiting isBuy = book.waiting isBuy := by
  obtain ⟨lax, laxCreated⟩ : ∃ lax, Exchange.create threePriceConfig = some (.ok lax) := ⟨_, rfl⟩
  have unlimited : ((Data.run Exchange.call oneSymbol bidAndAsk).toOption.map fun result =>
      result.2.all fun outcome => !outcome.limited) = some true := by decide +kernel
  obtain ⟨⟨after, outcomes⟩, ran, taken⟩ := ok_of_map unlimited
  have ladders :
      oneSymbolConfig.ladder.Within threePriceConfig.ladder oneSymbolConfig.maxSymbol := by
    intro symbol _ _
    rw [BookManager.symbolLadder_flat rfl, BookManager.symbolLadder_flat rfl]
    decide
  have taken : ∀ outcome ∈ outcomes, outcome.limited = false := fun outcome member => by
    simpa using List.all_eq_true.mp taken outcome member
  obtain ⟨later, further, same⟩ := run_relaxed oneSymbol_created laxCreated rfl ladders
    ⟨by decide, by decide, by decide, by decide, rfl⟩ (by decide +kernel) ran taken
  exact ⟨lax, after, outcomes, later, laxCreated, ran, further, same⟩

end

end Exchange

end Core

end Exsim
