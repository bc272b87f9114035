import Exsim.Exchange.Delivery
import Exsim.Exchange.Lane
import Exsim.Exchange.Restart
import Exsim.Exchange.Specification

/-! # The feed after a restart

A frame that does not decode takes a number of the feed and leaves no record.  An
exchange recovered from the journal decides as the live one would, but numbers its
feed lower by one for each such frame, so a subscriber that has followed the live
feed passes over that many events.
-/

namespace Exsim.Core

open Data Journal Md Protocol

namespace BookManager

variable {manager : BookManager} {sc again : SequencedCommand} {symbol : SymbolId}
  {answer : Except Thrown (BookManager × MatchOutput)}

/-- A command for a symbol without a book faults. -/
theorem execute_stored (known : sc.cmd.type = .new → manager.validSymbol sc.cmd.symbolId = true)
    (target : manager.target sc.cmd = some symbol) (ran : manager.execute sc = .ok answer) :
    ∃ book, manager.books[symbol.toNat]? = some book := by
  by_contra missing
  have faults : readAt manager.books symbol.toNat = .error .outOfBounds := by
    rw [readAt]
    cases stored : manager.books[symbol.toNat]? with
    | none => rfl
    | some book => exact absurd ⟨book, stored⟩ missing
  have nonzero := target_ne_zero known target
  rw [BookManager.target] at target
  rw [execute] at ran
  split at target
  · rename_i isNew
    obtain rfl := Option.some.inj target
    rw [if_pos isNew, addOrder, known isNew, faults] at ran
    cases ran
  · rename_i notNew
    rw [if_neg notNew] at ran
    split at target
    · rename_i routed
      rw [Bool.or_eq_true, decide_eq_true_iff, decide_eq_true_iff] at routed
      split at target
      · cases target
      · obtain rfl := Option.some.inj target
        rw [cancelOrder, replaceOrder, if_neg nonzero, if_neg nonzero, faults] at ran
        obtain isCancel | isReplace := routed
        · rw [if_pos isCancel] at ran
          cases ran
        · rw [isReplace] at ran
          cases ran
    · cases target

/-- A command under another number does the same. -/
theorem execute_again (sameCmd : again.cmd = sc.cmd) (ran : manager.execute sc = .ok answer) :
    manager.execute again = .ok (answer.map fun done => (done.1, done.2.renumber again.seq)) := by
  by_cases known : sc.cmd.type = .new → manager.validSymbol sc.cmd.symbolId = true
  · have knownAgain : again.cmd.type = .new → manager.validSymbol again.cmd.symbolId = true := by
      rw [sameCmd]
      exact known
    cases targeted : manager.target sc.cmd with
    | none =>
        rw [execute_untargeted targeted] at ran
        obtain rfl := Except.ok.inj ran
        rw [← sameCmd] at targeted
        rw [execute_untargeted targeted, sameCmd, unplaced]
        split <;> rfl
    | some symbol =>
        obtain ⟨book, stored⟩ := execute_stored known targeted ran
        rw [execute_targeted known targeted stored] at ran
        cases performed : book.perform sc.seq sc.cmd with
        | error fault =>
            rw [performed] at ran
            cases ran
        | ok done =>
            rw [performed] at ran
            obtain rfl := Except.ok.inj ran
            have performedAgain := OrderBook.perform_again performed again.seq
            rw [← sameCmd] at targeted performedAgain
            rw [execute_targeted knownAgain targeted stored, performedAgain, sameCmd]
            exact congrArg (fun later => Except.ok (Except.ok (later, done.2.renumber again.seq)))
              (settled_renumber again.seq done.2)
  · obtain ⟨isNew, unknown⟩ := Classical.not_imp.mp known
    have throws (sc : SequencedCommand) (isNew : sc.cmd.type = .new)
        (unknown : ¬manager.validSymbol sc.cmd.symbolId = true) :
        manager.execute sc = .ok (.error (.outOfRange "bad symbol id")) := by
      rw [execute, if_pos isNew, addOrder_invalid _ _ (Bool.eq_false_iff.mpr unknown)]
    rw [throws sc isNew unknown] at ran
    obtain rfl := Except.ok.inj ran
    rw [← sameCmd] at isNew unknown
    exact throws again isNew unknown

end BookManager

namespace SubscriberBook

variable {subscriber : SubscriberBook} {frames : List Bytes} {next : SeqNo} {lost : Nat}

theorem run_inBounds {maxSymbol : SymbolId} {ladder : PriceLadderConfig} {listener : SubscriberBook}
    {answers : List (Option String)} (created : create maxSymbol ladder = some (.ok listener))
    (ran : run applyFrame listener frames = .ok (subscriber, answers)) :
    subscriber.books.InBounds := by
  rw [create, Option.map_eq_some_iff] at created
  obtain ⟨made, built, created⟩ := created
  cases made with
  | error exception => cases created
  | ok books =>
      obtain rfl := Except.ok.inj created
      have inBounds : ({ books } : SubscriberBook).books.InBounds :=
        BookManager.create_inBounds built
      obtain ⟨final, _, _, all, -, within⟩ := run_inSequence inBounds frames
      obtain ⟨rfl, -⟩ := Prod.mk.inj (Except.ok.inj (ran.symm.trans all))
      exact within

/-- Frames that do not carry the expected number are refused one by one. -/
theorem run_refused (inBounds : subscriber.books.InBounds)
    (others : ∀ frame ∈ frames, isExpected subscriber.expectedSeq frame = false) :
    ∃ answers, run applyFrame subscriber frames = .ok (subscriber, answers) ∧
    ∀ answer ∈ answers, answer ≠ none := by
  induction frames with
  | nil => exact ⟨[], rfl, fun _ member => by cases member⟩
  | cons frame frames ih =>
      obtain ⟨after, answer, ran, -, handled⟩ := applyFrame_spec inBounds frame
      obtain ⟨failed, rfl⟩ := handled.ignored (others frame List.mem_cons_self)
      obtain ⟨answers, further, all⟩ :=
        ih fun other member => others other (List.mem_cons_of_mem frame member)
      refine ⟨answer :: answers, run_cons ran further, fun given member => ?_⟩
      obtain rfl | member := List.mem_cons.mp member
      · exact failed
      · exact all given member

/-- A subscriber ahead of a feed by `lost` numbers refuses that many frames of it
and then goes on. -/
theorem run_ahead (inBounds : subscriber.books.InBounds) (expected : subscriber.expectedSeq = next)
    (numbered : Numbered (next - UInt64.ofNat lost) frames) (few : lost < 2 ^ 64) :
    ∃ final refused rest, run applyFrame subscriber frames = .ok (final, refused ++ rest) ∧
      refused.length = min lost frames.length ∧ (∀ answer ∈ refused, answer ≠ none) ∧
      run applyFrame subscriber (frames.drop lost) = .ok (final, rest) ∧
      final.expectedSeq = next + UInt64.ofNat (frames.length - lost) := by
  have behind : ∀ frame ∈ frames.take lost, isExpected subscriber.expectedSeq frame = false := by
    intro frame member
    obtain ⟨place, found⟩ := List.mem_iff_getElem?.mp member
    rw [List.getElem?_take] at found
    split at found
    · rename_i early
      obtain ⟨ev, isCarried, seq⟩ := numbered place frame found
      rw [isExpected, isCarried, Option.any_some, decide_eq_false_iff_not, seq, expected]
      intro same
      have value := congrArg UInt64.toNat same
      have limit := next.toNat_lt
      rw [UInt64.toNat_add, UInt64.toNat_sub, UInt64.toNat_ofNat_of_lt' few,
        UInt64.toNat_ofNat_of_lt' (Nat.lt_trans early few)] at value
      omega
    · cases found
  have onward : Numbered next (frames.drop lost) := by
    intro place frame found
    rw [List.getElem?_drop] at found
    obtain ⟨ev, isCarried, seq⟩ := numbered _ frame found
    refine ⟨ev, isCarried, ?_⟩
    rw [seq, UInt64.ofNat_add, ← UInt64.add_assoc, UInt64.sub_add_cancel]
  obtain ⟨refused, first, failed⟩ := run_refused inBounds behind
  obtain ⟨final, rest, -, all, -⟩ := run_inSequence inBounds (frames.drop lost)
  obtain ⟨-, reached⟩ := run_expected onward inBounds expected all
  refine ⟨final, refused, rest, ?_, ?_, failed, all, ?_⟩
  · have both := run_append first all
    rwa [List.take_append_drop] at both
  · rw [run_length first, List.length_take]
  · rw [reached, List.length_drop]

end SubscriberBook

namespace Exchange

section

variable {cfg : ExchangeConfig} {exchange live replica fresh later : Exchange} {cmd : ClientCommand}
  {made : Exchange × Outcome} {input : ExchangeCall} {calls more : List ExchangeCall}
  {outcomes answered : List Outcome}

/-- Exchanges that decide alike publish the same but for the numbers. -/
theorem Alike.publish_again (alike : Alike live replica) (sc again : SequencedCommand)
    (sameCmd : again.cmd = sc.cmd) (out : MatchOutput) :
    (replica.publish again (out.renumber again.seq)).2.unnumbered =
      (live.publish sc out).2.unnumbered ∧
      Alike (live.publish sc out).1 (replica.publish again (out.renumber again.seq)).1 := by
  by_cases accepted : out.reject = .none
  · have acceptedAgain : (out.renumber again.seq).reject = .none := accepted
    rw [publish_accepted accepted, publish_accepted acceptedAgain, accountForMd_eq, accountForMd_eq]
    refine ⟨?_, alike.books, ?_⟩
    · simp only [ProcessResult.unnumbered, acceptance, sameCmd, stamp_unnumbered,
        MatchOutput.renumber, List.map_map]
      rfl
    · rw [MatchOutput.renumber, stamp_renumber, RiskEngine.tally_stamp, RiskEngine.tally_stamp,
        alike.books, alike.risk]
  · have refusedAgain : (out.renumber again.seq).reject ≠ .none := accepted
    rw [publish_refused accepted, publish_refused refusedAgain]
    exact ⟨reject_unnumbered _ sameCmd, alike.books, alike.risk⟩

theorem Alike.call (alike : Alike live replica) (ran : live.call input = .ok made) :
    ∃ remade, replica.call input = .ok remade ∧ remade.2.unnumbered = made.2.unnumbered ∧
    Alike made.1 remade.1 := by
  cases carried : input.command? with
  | none =>
      rw [call_refusal live carried] at ran
      obtain rfl := Except.ok.inj ran
      exact ⟨_, call_refusal replica carried, rfl, alike.books, alike.risk⟩
  | some cmd =>
      rw [call_decided live carried] at ran
      rw [call_decided replica carried, alike.books, alike.risk]
      have received : Alike (live.received cmd input.nowNs) (replica.received cmd input.nowNs) := by
        have numbered : Alike live.numbered replica.numbered := ⟨alike.books, alike.risk⟩
        exact ⟨alike.books, by rw [Exchange.received, Exchange.received, checked, checked,
          numbered.books, numbered.risk]; rfl⟩
      split at ran
      · rename_i refused
        obtain rfl := Except.ok.inj ran
        rw [if_pos refused]
        exact ⟨_, rfl, rfl, received.books, received.risk⟩
      · rename_i admitted
        rw [if_neg admitted]
        cases executed : live.books.execute (live.sequence cmd input.nowNs) with
        | error fault =>
            rw [executed] at ran
            cases ran
        | ok answer =>
            have executedAgain := BookManager.execute_again
              (show (replica.sequence cmd input.nowNs).cmd =
                (live.sequence cmd input.nowNs).cmd from rfl) executed
            rw [executed] at ran
            obtain rfl := Except.ok.inj ran
            rw [executedAgain]
            cases answer with
            | error exception => exact ⟨_, rfl, rfl, received⟩
            | ok done =>
                have settled : Alike { live.received cmd input.nowNs with books := done.1 }
                    { replica.received cmd input.nowNs with books := done.1 } :=
                      ⟨rfl, received.risk⟩
                obtain ⟨answered, kept⟩ := settled.publish_again (live.sequence cmd input.nowNs)
                  (replica.sequence cmd input.nowNs) rfl done.2
                exact ⟨_, rfl, congrArg Outcome.returned answered, kept⟩

theorem Alike.run (alike : Alike live replica)
    (ran : Data.run Exchange.call live calls = .ok (later, outcomes)) :
    ∃ after resumed, Data.run Exchange.call replica calls = .ok (after, resumed) ∧
      resumed.map Outcome.unnumbered = outcomes.map Outcome.unnumbered ∧ Alike later after := by
  induction calls generalizing live replica outcomes with
  | nil =>
      rw [run_nil, Except.ok.injEq, Prod.mk.injEq] at ran
      obtain ⟨rfl, rfl⟩ := ran
      exact ⟨replica, [], rfl, rfl, alike⟩
  | cons input calls ih =>
      obtain ⟨middle, outcome, rest, stepped, further, rfl⟩ := run_cons_ok ran
      obtain ⟨remade, again, same, still⟩ := alike.call stepped
      obtain ⟨after, resumed, ran', sameRest, ends⟩ := ih still further
      exact ⟨after, _, run_cons again ran', congrArg₂ List.cons same sameRest, ends⟩

/-- A step that numbers its events on, as calls and records both do. -/
theorem run_nextMdSeq {Input : Type} {step : Exchange → Input → Exec (Exchange × Outcome)}
    (numbers : ∀ exchange input made, step exchange input = .ok made →
      made.1.nextMdSeq = exchange.nextMdSeq + UInt64.ofNat made.2.events.length)
    {inputs : List Input} (ran : Data.run step exchange inputs = .ok (later, outcomes)) :
    later.nextMdSeq = exchange.nextMdSeq +
      UInt64.ofNat (outcomes.flatMap Outcome.events).length := by
  induction inputs generalizing exchange outcomes with
  | nil =>
      rw [run_nil, Except.ok.injEq, Prod.mk.injEq] at ran
      rw [← ran.1, ← ran.2]
      exact (UInt64.add_zero _).symm
  | cons input inputs ih =>
      obtain ⟨middle, outcome, rest, stepped, further, rfl⟩ := run_cons_ok ran
      rw [ih further, numbers _ _ _ stepped, List.flatMap_cons, List.length_append,
        UInt64.ofNat_add, UInt64.add_assoc]

theorem replay_nextMdSeq (exchange : Exchange) (sc : SequencedCommand) (made : Exchange × Outcome)
    (ran : exchange.replay sc = .ok made) :
    made.1.nextMdSeq = exchange.nextMdSeq + UInt64.ofNat made.2.events.length := by
  rw [replay, applySequenced_eq] at ran
  split at ran
  · obtain rfl := Except.ok.inj ran
    rfl
  · exact (dispatch_publishes ran).nextMdSeq

/-- The next number of a recovered feed is lower by one for each frame that did not decode. -/
theorem Recovers.nextMdSeq {recovered : Exchange} {records : List SequencedCommand}
    {replayed : List Outcome}
    (recovers : Recovers live replica later recovered calls outcomes records replayed)
    (same : SameFeed live replica)
    (ran : Data.run Exchange.call live calls = .ok (later, outcomes)) :
    recovered.nextMdSeq = later.nextMdSeq -
      UInt64.ofNat (calls.countP fun call => call.command?.isNone) := by
  have there := run_nextMdSeq (fun exchange input made ran => (call_publishes ran).nextMdSeq) ran
  rw [run_nextMdSeq replay_nextMdSeq recovers.ran, there, recovers.events, UInt64.ofNat_add,
    same.nextMdSeq, ← UInt64.add_assoc, UInt64.add_sub_cancel]

theorem unnumbered_events (outcomes : List Outcome) :
    ((outcomes.flatMap Outcome.events).map fun ev => { ev with seq := 0 }) =
    (outcomes.map Outcome.unnumbered).flatMap Outcome.events := by
  rw [List.map_flatMap, List.flatMap_map]
  refine List.flatMap_congr fun outcome _ => ?_
  cases outcome <;> rfl

/-- An exchange recovered from the journal of a run decides every further call as
the live exchange would, and publishes the same events, but numbers them lower by
one for each frame of the run that did not decode.  A subscriber that was up to
date refuses just that many events, the first after the restart, and goes on behind
them. -/
theorem run_restarts {maxSymbol : SymbolId} {ladder : PriceLadderConfig}
    {listener subscriber : SubscriberBook} {seen : List Bytes} {told : List (Option String)}
    (created : Exchange.create cfg = some (.ok fresh)) (journaled : cfg.journalPath.isSome = true)
    (ran : run Exchange.call fresh calls = .ok (live, outcomes))
    (continued : run Exchange.call live more = .ok (later, answered))
    (few : calls.countP (fun call => call.command?.isNone) < 2 ^ 64)
    (listening : SubscriberBook.create maxSymbol ladder = some (.ok listener))
    (followed : run SubscriberBook.applyFrame listener seen = .ok (subscriber, told))
    (upToDate : subscriber.expectedSeq = live.nextMdSeq) :
    ∃ writer records ended replica recovered replayed after resumed, live.journal = some writer ∧
      Reads (JournalReader.create writer.out) records ended ∧ ended.error = none ∧
      Exchange.create { cfg with journalPath := none } = some (.ok replica) ∧
      run replay replica records = .ok (recovered, replayed) ∧
      run Exchange.call recovered more = .ok (after, resumed) ∧
      resumed.map Outcome.unnumbered = answered.map Outcome.unnumbered ∧ after.books = later.books ∧
      after.risk = later.risk ∧
      let lost := calls.countP fun call => call.command?.isNone
      let events := resumed.flatMap Outcome.events
      events = stamp (live.nextMdSeq - UInt64.ofNat lost) (answered.flatMap Outcome.events) ∧
      ∃ final refused rest,
        run SubscriberBook.applyFrame subscriber (events.map encodeMdEvent) =
          .ok (final, refused ++ rest) ∧ refused.length = min lost events.length ∧
          (∀ answer ∈ refused, answer ≠ none) ∧ run SubscriberBook.applyFrame subscriber
          ((events.drop lost).map encodeMdEvent) = .ok (final, rest) ∧
        final.expectedSeq = live.nextMdSeq + UInt64.ofNat (events.length - lost) := by
  have copied := create_copy created none
  obtain ⟨alike, sameFeed⟩ := create_alike created copied
  obtain ⟨path, named⟩ := Option.isSome_iff_exists.mp journaled
  have started : fresh.journal = some .create := by
    rw [(create_ok created).2, named]
    rfl
  obtain ⟨records, recovered, replayed, file, recovers⟩ := run_recovers alike started ran
  obtain ⟨after, resumed, further, same, ends⟩ := recovers.alike.run continued
  have next := recovers.nextMdSeq sameFeed ran
  have events : resumed.flatMap Outcome.events =
      stamp recovered.nextMdSeq (answered.flatMap Outcome.events) := by
    have bare : (resumed.flatMap Outcome.events).map (fun ev => { ev with seq := 0 }) =
        (answered.flatMap Outcome.events).map fun ev => { ev with seq := 0 } := by
      rw [unnumbered_events, unnumbered_events, same]
    rw [← run_stamped further, ← stamp_renumber _ 0, bare, stamp_renumber]
  rw [next] at events
  have inBounds := SubscriberBook.run_inBounds listening followed
  have numbered :=
    stamp_numbered (live.nextMdSeq - UInt64.ofNat (calls.countP fun call => call.command?.isNone))
    (answered.flatMap Outcome.events)
  rw [← events] at numbered
  obtain ⟨final, refused, rest, all, length, failed, kept, reached⟩ :=
    SubscriberBook.run_ahead inBounds upToDate numbered few
  rw [List.length_map] at length reached
  rw [← List.map_drop] at kept
  exact ⟨_, records, _, _, recovered, replayed, after, resumed, file, reads_file records, rfl,
    copied, recovers.ran, further, same, ends.books, ends.risk, events, final, refused, rest, all,
    length, failed, kept, reached⟩

/-- A bid that comes after the restart. -/
def laterBid : List ExchangeCall :=
  [.command { orderId := 11, accountId := 3, symbolId := 1, price := 1, qty := 2 } 0]

theorem run_restarts_laterBid : ∃ live outcomes later answered subscriber told,
    run Exchange.call oneSymbol mixedCalls = .ok (live, outcomes) ∧
    run Exchange.call live laterBid = .ok (later, answered) ∧
    run SubscriberBook.applyFrame .oneSymbol ((outcomes.flatMap Outcome.events).map encodeMdEvent) =
      .ok (subscriber, told) ∧ subscriber.expectedSeq = live.nextMdSeq ∧
    ∃ writer records ended replica recovered replayed after resumed, live.journal = some writer ∧
      Reads (JournalReader.create writer.out) records ended ∧ ended.error = none ∧
      Exchange.create { oneSymbolConfig with journalPath := none } = some (.ok replica) ∧
      run replay replica records = .ok (recovered, replayed) ∧
      run Exchange.call recovered laterBid = .ok (after, resumed) ∧
      resumed.map Outcome.unnumbered = answered.map Outcome.unnumbered ∧ after.books = later.books ∧
      after.risk = later.risk ∧
      let lost := mixedCalls.countP fun call => call.command?.isNone
      let events := resumed.flatMap Outcome.events
      events = stamp (live.nextMdSeq - UInt64.ofNat lost) (answered.flatMap Outcome.events) ∧
      ∃ final refused rest,
        run SubscriberBook.applyFrame subscriber (events.map encodeMdEvent) =
          .ok (final, refused ++ rest) ∧ refused.length = min lost events.length ∧
          (∀ answer ∈ refused, answer ≠ none) ∧ run SubscriberBook.applyFrame subscriber
          ((events.drop lost).map encodeMdEvent) = .ok (final, rest) ∧
        final.expectedSeq = live.nextMdSeq + UInt64.ofNat (events.length - lost) := by
  have facts : ((run Exchange.call oneSymbol mixedCalls).toOption.any fun done =>
      (run Exchange.call done.1 laterBid).toOption.isSome &&
        (run SubscriberBook.applyFrame .oneSymbol
          ((done.2.flatMap Outcome.events).map encodeMdEvent)).toOption.any fun heard =>
            heard.1.expectedSeq = done.1.nextMdSeq) = true := by
    decide +kernel
  obtain ⟨⟨live, outcomes⟩, ran, facts⟩ := (Option.any_eq_true _ _).mp facts
  obtain ⟨continues, facts⟩ := (Bool.and_eq_true _ _).mp facts
  obtain ⟨⟨later, answered⟩, continued⟩ := Option.isSome_iff_exists.mp continues
  obtain ⟨⟨subscriber, told⟩, followed, upToDate⟩ := (Option.any_eq_true _ _).mp facts
  have ran := ok_of_toOption ran
  have continued := ok_of_toOption continued
  have followed := ok_of_toOption followed
  have upToDate := of_decide_eq_true upToDate
  exact ⟨live, outcomes, later, answered, subscriber, told, ran, continued, followed, upToDate,
    run_restarts oneSymbol_created rfl ran continued
      (by decide +kernel) SubscriberBook.oneSymbol_created followed upToDate⟩

end

end Exchange

end Exsim.Core
