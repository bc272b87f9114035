import Exsim.Exchange.Recovery
import Exsim.Md.MarketData
import Mathlib.Data.List.TakeWhile

/-! # The numbers of the feed and of the acknowledgements

Whatever a call does, it takes one command number and stamps its events with the
next numbers of the feed.
-/

namespace Exsim.Core

open Data Journal Md Protocol

/-- The acknowledgement of a call that returns. -/
def Outcome.ack? : Outcome → Option Ack
  | .returned result => some result.ack
  | .threw _ => none

namespace Exchange

theorem stamp_append (next : SeqNo) (events more : List MdEvent) :
    stamp next (events ++ more) = stamp next events ++
      stamp (next + UInt64.ofNat events.length) more := by
  induction events generalizing next with
  | nil => simp [stamp]
  | cons ev events ih =>
      have step : next + 1 + UInt64.ofNat events.length =
          next + UInt64.ofNat (events.length + 1) := by
        rw [UInt64.ofNat_add, UInt64.add_assoc, UInt64.add_comm 1]
        rfl
      rw [List.cons_append, stamp, stamp, ih, step]
      rfl

theorem stamp_stamp (next : SeqNo) (events : List MdEvent) :
    stamp next (stamp next events) = stamp next events := by
  induction events generalizing next with
  | nil => rfl
  | cons ev events ih => simp only [stamp, ih]

/-- Stamped events carry consecutive numbers. -/
theorem stamp_seq {next : SeqNo} {events : List MdEvent}
    (fits : next.toNat + events.length ≤ 2 ^ 64) :
    (stamp next events).map (fun ev => ev.seq.toNat) = List.range' next.toNat events.length := by
  induction events generalizing next with
  | nil => rfl
  | cons ev events ih =>
      rw [stamp, List.map_cons, List.length_cons, List.range'_succ]
      refine congrArg (next.toNat :: ·) ?_
      cases events with
      | nil => rfl
      | cons other events =>
          have advanced : (next + 1).toNat = next.toNat + 1 := by
            rw [List.length_cons, List.length_cons] at fits
            rw [UInt64.toNat_add]
            exact Nat.mod_eq_of_lt (by simp; omega)
          rw [List.length_cons] at fits
          rw [ih (by omega), advanced]

/-- A decoder takes the event whose number it expects. -/
theorem decode_encoded {decoder : FeedDecoder} {ev : MdEvent}
    (expected : ev.seq = decoder.expected) :
    decoder.decode (encodeMdEvent ev) =
      ({ expected := decoder.expected + 1 }, { event := some ev, error := none }) := by
  have decoded : decodeMdEvent (encodeMdEvent ev) (some decoder.expected) =
      { event := some ev, error := none } := by
    rw [decodeMdEvent_encoded]
    exact if_pos expected
  simp only [FeedDecoder.decode, decoded, Option.isSome_some, ↓reduceIte]

/-- A decoder that expects the number of the first event decodes all of them. -/
theorem decode_stamp (next : SeqNo) (events : List MdEvent) :
    (trace FeedDecoder.decode { expected := next } ((stamp next events).map encodeMdEvent)).2 =
      (stamp next events).map fun ev => { event := some ev, error := none } := by
  induction events generalizing next with
  | nil => rfl
  | cons ev events ih =>
      have expected : ({ ev with seq := next } : MdEvent).seq =
          ({ expected := next } : FeedDecoder).expected := rfl
      rw [stamp, List.map_cons, List.map_cons, trace_cons, decode_encoded expected, ih]

/-- What `made` publishes on top of `exchange`, under the command number `seq`. -/
structure Publishes (exchange : Exchange) (seq : SeqNo) (made : Exchange × Outcome) : Prop where
  nextSeq : made.1.nextSeq = exchange.nextSeq
  events : stamp exchange.nextMdSeq made.2.events = made.2.events
  nextMdSeq : made.1.nextMdSeq = exchange.nextMdSeq + UInt64.ofNat made.2.events.length
  ack : ∀ ack ∈ made.2.ack?, ack.seq = seq

section

variable {cfg : ExchangeConfig} {fresh exchange final : Exchange} {calls : List ExchangeCall}
  {call : ExchangeCall} {outcomes : List Outcome} {made : Exchange × Outcome}
  {sc : SequencedCommand}

theorem reject_publishes (exchange : Exchange) (seq : SeqNo) (cmd : ClientCommand)
    (reason : RejectReason) :
    Publishes exchange seq (returning (exchange.reject seq cmd reason)) where
  nextSeq := rfl
  events := rfl
  nextMdSeq := rfl
  ack ack acked := by rw [← Option.some.inj acked]; rfl

theorem publish_publishes (exchange : Exchange) (sc : SequencedCommand) (out : MatchOutput) :
    Publishes exchange sc.seq (returning (exchange.publish sc out)) := by
  by_cases accepted : out.reject = .none
  · rw [publish_accepted accepted, accountForMd_eq]
    refine ⟨rfl, stamp_stamp _ _, ?_, fun ack acked => ?_⟩
    · rw [show (returning _).2.events = stamp exchange.nextMdSeq out.mdEvents from rfl,
        stamp_length]
      rfl
    · rw [← Option.some.inj acked]
      rfl
  · rw [publish_refused accepted]
    exact reject_publishes _ _ _ _

theorem dispatch_publishes (ran : exchange.dispatch sc = .ok made) :
    Publishes exchange sc.seq made := by
  rw [dispatch_eq] at ran
  cases executed : exchange.books.execute sc with
  | error fault =>
      rw [executed] at ran
      cases ran
  | ok answer =>
      rw [executed] at ran
      obtain rfl := Except.ok.inj ran
      cases answer with
      | error exception =>
          have nothing : exchange.nextMdSeq = exchange.nextMdSeq + UInt64.ofNat 0 := by simp
          exact ⟨rfl, rfl, nothing, fun ack acked => by cases acked⟩
      | ok result =>
          obtain ⟨nextSeq, events, nextMdSeq, ack⟩ :=
            publish_publishes { exchange with books := result.1 } sc result.2
          exact ⟨nextSeq, events, nextMdSeq, ack⟩

/-- A call takes the next command number and the next numbers of the feed. -/
theorem call_publishes (ran : exchange.call call = .ok made) :
    Publishes exchange.numbered exchange.nextSeq made := by
  cases carried : call.command? with
  | none =>
      obtain ⟨reason, -, rejected⟩ := call_undecoded exchange carried
      obtain rfl := Except.ok.inj (ran.symm.trans rejected)
      exact reject_publishes _ _ _ _
  | some cmd =>
      rw [call_carried exchange carried, applySequenced_eq] at ran
      -- the number was just taken, so the replay adjustment of the counter does not apply
      have kept : (exchange.numbered.checked (exchange.sequence cmd call.nowNs) true).nextSeq =
          exchange.nextSeq + 1 := by
        have taken : (exchange.sequence cmd call.nowNs).seq = exchange.numbered.nextSeq - 1 :=
          (UInt64.add_sub_cancel exchange.nextSeq 1).symm
        rw [checked, taken]
        simp [numbered]
      have since :
          ∀ {made}, Publishes (exchange.numbered.checked (exchange.sequence cmd call.nowNs) true)
          exchange.nextSeq made →
          Publishes exchange.numbered exchange.nextSeq made := fun published =>
        ⟨published.nextSeq.trans kept, published.events, published.nextMdSeq, published.ack⟩
      split at ran
      · obtain rfl := Except.ok.inj ran
        exact since (reject_publishes _ _ _ _)
      · exact since (dispatch_publishes ran)

/-- Along any run the events are numbered on from the next number of the feed. -/
theorem run_stamped (ran : run Exchange.call exchange calls = .ok (final, outcomes)) :
    stamp exchange.nextMdSeq (outcomes.flatMap Outcome.events) =
      outcomes.flatMap Outcome.events := by
  induction calls generalizing exchange outcomes with
  | nil =>
      rw [run_nil, Except.ok.injEq, Prod.mk.injEq] at ran
      rw [← ran.2]
      rfl
  | cons call calls ih =>
      obtain ⟨after, outcome, rest, stepped, later, rfl⟩ := run_cons_ok ran
      have published := call_publishes stepped
      have following := ih later
      rw [published.nextMdSeq] at following
      rw [List.flatMap_cons, stamp_append]
      exact congrArg₂ (· ++ ·) published.events following

/-- Along a run that does not wrap the command counter, the acknowledgements
carry increasing numbers, from the next one on. -/
theorem run_acks (ran : run Exchange.call exchange calls = .ok (final, outcomes))
    (fits : exchange.nextSeq.toNat + calls.length ≤ 2 ^ 64) :
    (outcomes.filterMap Outcome.ack?).Pairwise (fun earlier later => earlier.seq < later.seq) ∧
      ∀ ack ∈ outcomes.filterMap Outcome.ack?, exchange.nextSeq ≤ ack.seq := by
  induction calls generalizing exchange outcomes with
  | nil =>
      rw [run_nil, Except.ok.injEq, Prod.mk.injEq] at ran
      rw [← ran.2]
      simp
  | cons call calls ih =>
      obtain ⟨after, outcome, rest, stepped, later, rfl⟩ := run_cons_ok ran
      have published := call_publishes stepped
      have first : ∀ ack ∈ outcome.ack?, ack.seq = exchange.nextSeq := published.ack
      rw [List.length_cons] at fits
      have tail :
          (rest.filterMap Outcome.ack?).Pairwise (fun earlier later => earlier.seq < later.seq) ∧
          ∀ ack ∈ rest.filterMap Outcome.ack?, exchange.nextSeq < ack.seq := by
        cases calls with
        | nil =>
            rw [run_nil, Except.ok.injEq, Prod.mk.injEq] at later
            rw [← later.2]
            simp
        | cons next calls =>
            rw [List.length_cons] at fits
            have advanced : after.nextSeq.toNat = exchange.nextSeq.toNat + 1 := by
              rw [published.nextSeq, numbered, UInt64.toNat_add]
              exact Nat.mod_eq_of_lt (by simp; omega)
            obtain ⟨ordered, beyond⟩ := ih later (by rw [List.length_cons]; omega)
            refine ⟨ordered, fun ack member => ?_⟩
            have least := UInt64.le_iff_toNat_le.mp (beyond ack member)
            exact UInt64.lt_iff_toNat_lt.mpr (by omega)
      cases acked : outcome.ack? with
      | none =>
          rw [List.filterMap_cons_none acked]
          exact ⟨tail.1, fun ack member => UInt64.le_of_lt (tail.2 ack member)⟩
      | some ack =>
          have taken := first ack acked
          rw [List.filterMap_cons_some acked, List.pairwise_cons]
          refine ⟨⟨fun other member => taken ▸ tail.2 other member, tail.1⟩, fun other member => ?_⟩
          cases List.mem_cons.mp member with
          | inl isFirst => rw [isFirst, taken]; exact UInt64.le_refl _
          | inr among => exact UInt64.le_of_lt (tail.2 other among)

/-- The feed is gapless and decodes to what was published; the acknowledgements
are numbered upwards unless the command counter wraps. -/
theorem run_gapless (created : Exchange.create cfg = some (.ok fresh))
    (ran : run Exchange.call fresh calls = .ok (exchange, outcomes))
    (few : (outcomes.flatMap Outcome.events).length < 2 ^ 64) :
    (outcomes.flatMap Outcome.events).map (fun ev => ev.seq.toNat) =
      List.range' 1 (outcomes.flatMap Outcome.events).length ∧
    (calls.length < 2 ^ 64 →
      (outcomes.filterMap Outcome.ack?).Pairwise fun earlier later => earlier.seq < later.seq) ∧
    (trace FeedDecoder.decode {} ((outcomes.flatMap Outcome.events).map encodeMdEvent)).2 =
      (outcomes.flatMap Outcome.events).map fun ev => { event := some ev, error := none } := by
  obtain ⟨-, isFresh⟩ := create_ok created
  have stamped : stamp 1 (outcomes.flatMap Outcome.events) = outcomes.flatMap Outcome.events := by
    have stamped := run_stamped ran
    rw [isFresh] at stamped
    exact stamped
  refine ⟨?_, fun fewCalls => ?_, ?_⟩
  · have fits : (1 : SeqNo).toNat + (outcomes.flatMap Outcome.events).length ≤ 2 ^ 64 := by
      rw [UInt64.toNat_one]
      omega
    have numbers := stamp_seq fits
    rw [stamped] at numbers
    exact numbers
  · refine (run_acks ran ?_).1
    rw [isFresh]
    simp only [UInt64.toNat_one]
    omega
  · have decoded := decode_stamp 1 (outcomes.flatMap Outcome.events)
    rw [stamped] at decoded
    exact decoded

end

theorem run_gapless_oneSymbol : ∃ exchange outcomes, run Exchange.call oneSymbol mixedCalls =
    .ok (exchange, outcomes) ∧ (outcomes.flatMap Outcome.events).map (fun ev => ev.seq.toNat) =
      List.range' 1 (outcomes.flatMap Outcome.events).length ∧
    (mixedCalls.length < 2 ^ 64 →
      (outcomes.filterMap Outcome.ack?).Pairwise fun earlier later => earlier.seq < later.seq) ∧
    (trace FeedDecoder.decode {} ((outcomes.flatMap Outcome.events).map encodeMdEvent)).2 =
      (outcomes.flatMap Outcome.events).map fun ev => { event := some ev, error := none } := by
  have few : ((run Exchange.call oneSymbol mixedCalls).toOption.map fun result =>
      (result.2.flatMap Outcome.events).length) = some 4 := by
    decide +kernel
  obtain ⟨result, ran, count⟩ := ok_of_map few
  exact ⟨result.1, result.2, ran, run_gapless oneSymbol_created ran (by rw [count]; decide)⟩

section Wrapping

/-- One symbol, and one message an account at any time but the present. -/
def oneMessageConfig : ExchangeConfig :=
  { oneSymbolConfig with
    riskLimits := { maxMsgsPerWindow := 1, rateWindowNs := 0 }, journalPath := none }

def oneMessage : Exchange :=
  { ladder := oneMessageConfig.ladder, books := .oneSymbol,
    risk := { limits := oneMessageConfig.riskLimits } }

theorem oneMessage_created : Exchange.create oneMessageConfig = some (.ok oneMessage) := by
  decide +kernel

/-- A bid for a symbol beyond the last, one nanosecond after another. -/
def throwingCall (i : Nat) : ExchangeCall :=
  .command { BookManager.restingBid with symbolId := 2 } (UInt64.ofNat i)

/-- No order yet, and no message at or after time `i`. -/
structure Idle (exchange : Exchange) (i : Nat) : Prop where
  books : exchange.books = .oneSymbol
  limits : exchange.risk.limits = oneMessageConfig.riskLimits
  account : ∃ msgs, exchange.risk.account 1 = { recentMsgs := msgs } ∧ ∀ msg ∈ msgs, msg.toNat < i

variable {exchange : Exchange} {i n : Nat}

theorem Idle.check (idle : Idle exchange i) (small : i < 2 ^ 64) (books : BookManager) :
    exchange.risk.check { BookManager.restingBid with symbolId := 2 } books (UInt64.ofNat i) =
      (exchange.risk.withAccount 1 { recentMsgs := [UInt64.ofNat i] }, .none) := by
  obtain ⟨msgs, account, earlier⟩ := idle.account
  have now : (UInt64.ofNat i).toNat = i := UInt64.toNat_ofNat_of_lt' small
  have gone : msgs.dropWhile (RiskEngine.expired oneMessageConfig.riskLimits (UInt64.ofNat i)) =
      [] := by
    rw [List.dropWhile_eq_nil_iff]
    intro msg member
    have before := earlier msg member
    have past : msg ≤ UInt64.ofNat i := UInt64.le_iff_toNat_le.mpr (by omega)
    have positive : (0 : UInt64) < UInt64.ofNat i - msg := by
      rw [UInt64.lt_iff_toNat_lt, UInt64.toNat_sub_of_le _ _ past, now]
      exact Nat.sub_pos_of_lt before
    simpa [RiskEngine.expired, oneMessageConfig] using And.intro past positive
  simp only [RiskEngine.check, BookManager.restingBid, account, idle.limits, gone]
  rfl

/-- The call throws and leaves nothing behind but its number. -/
theorem Idle.call (idle : Idle exchange i) (small : i < 2 ^ 64) :
    ∃ after exception, exchange.call (throwingCall i) = .ok (after, .threw exception) ∧
    Idle after (i + 1) := by
  have checked := idle.check small exchange.books
  have admitted : (exchange.numbered.risk.check
      { BookManager.restingBid with symbolId := 2 } exchange.numbered.books
      (UInt64.ofNat i)).2 = .none := congrArg Prod.snd checked
  have carried : (throwingCall i).command? = some { BookManager.restingBid with symbolId := 2 } :=
    rfl
  have ran := (call_carried exchange carried).trans
    (applySequenced_admitted exchange.numbered _ true admitted)
  have unknown : exchange.books.validSymbol 2 = false := by
    rw [idle.books]
    decide
  have thrown := ran.trans (dispatch_throws rfl unknown)
  have risk :
      (exchange.numbered.checked (exchange.sequence { BookManager.restingBid with symbolId := 2 }
      (UInt64.ofNat i)) true).risk =
      exchange.risk.withAccount 1 { recentMsgs := [UInt64.ofNat i] } :=
    congrArg Prod.fst checked
  refine ⟨_, _, thrown, idle.books, ?_, [UInt64.ofNat i], ?_, fun msg member => ?_⟩
  · rw [show (ExchangeCall.nowNs (throwingCall i)) = UInt64.ofNat i from rfl, risk]
    exact idle.limits
  · rw [show (ExchangeCall.nowNs (throwingCall i)) = UInt64.ofNat i from rfl, risk,
      RiskEngine.account_withAccount, if_pos rfl]
  · rw [List.mem_singleton.mp member, UInt64.toNat_ofNat_of_lt' small]
    exact Nat.lt_succ_self i

/-- Calls that throw use up numbers and answer nothing. -/
theorem Idle.run (idle : Idle exchange 0) (small : n ≤ 2 ^ 64) :
    ∃ after outcomes, Data.run Exchange.call exchange ((List.range n).map throwingCall) =
      .ok (after, outcomes) ∧ Idle after n ∧ after.nextSeq = exchange.nextSeq + UInt64.ofNat n ∧
      outcomes.flatMap Outcome.events = [] ∧ outcomes.filterMap Outcome.ack? = [] := by
  induction n with
  | zero => exact ⟨exchange, [], rfl, idle, by simp, rfl, rfl⟩
  | succ n ih =>
      obtain ⟨middle, outcomes, ran, idle, counted, silent, unanswered⟩ := ih (by omega)
      obtain ⟨after, exception, threw, idle⟩ := idle.call (by omega)
      have numbered := (call_publishes threw).nextSeq
      refine ⟨after, outcomes ++ [.threw exception], ?_, idle, ?_, ?_, ?_⟩
      · rw [List.range_succ, List.map_append]
        exact run_append ran (run_cons threw run_nil)
      · rw [numbered, Exchange.numbered, counted, UInt64.ofNat_add, UInt64.add_assoc]
        rfl
      · rw [List.flatMap_append, silent]
        rfl
      · rw [List.filterMap_append, unanswered]
        rfl

/-- Between two frames that do not decode, enough calls that throw bring the
command counter round to the number it started with. -/
theorem acks_repeat_after_wrap :
    ¬ ∀ (cfg : ExchangeConfig) (fresh exchange : Exchange) (calls : List ExchangeCall)
    (outcomes : List Outcome), Exchange.create cfg = some (.ok fresh) →
    Data.run Exchange.call fresh calls = .ok (exchange, outcomes) →
    (outcomes.flatMap Outcome.events).length < 2 ^ 64 →
    (outcomes.filterMap Outcome.ack?).Pairwise fun earlier later => earlier.seq < later.seq := by
  intro increasing
  have undecoded : (ExchangeCall.frame [] 0).command? = none := by decide
  obtain ⟨reason, -, first⟩ := call_undecoded oneMessage undecoded
  have idle :
      Idle (returning (oneMessage.numbered.reject oneMessage.nextSeq dummyCommand reason)).1 0 :=
    ⟨rfl, rfl, [], rfl, by simp⟩
  obtain ⟨middle, outcomes, threw, -, counted, silent, unanswered⟩ :=
    idle.run (n := 2 ^ 64 - 1) (by omega)
  obtain ⟨reason', -, last⟩ := call_undecoded middle undecoded
  have ran := run_cons first (run_append threw (run_cons last run_nil))
  have wrapped : middle.nextSeq = 1 := by
    rw [counted]
    exact (by decide : (2 : UInt64) + UInt64.ofNat (2 ^ 64 - 1) = 1)
  have few : (((returning (oneMessage.numbered.reject oneMessage.nextSeq dummyCommand reason)).2 ::
      (outcomes ++
        [(returning (middle.numbered.reject middle.nextSeq dummyCommand reason')).2])).flatMap
        Outcome.events).length < 2 ^ 64 := by
    rw [List.flatMap_cons, List.flatMap_append, silent]
    exact (by decide : 2 < 2 ^ 64)
  have ordered := increasing _ _ _ _ _ oneMessage_created ran few
  rw [List.filterMap_cons, List.filterMap_append, unanswered] at ordered
  have less : oneMessage.nextSeq < middle.nextSeq :=
    (List.pairwise_cons.mp ordered).1 _ List.mem_cons_self
  rw [wrapped] at less
  exact absurd less (by decide)

end Wrapping

end Exchange

end Exsim.Core
