import Exsim.Exchange.Calls
import Exsim.Journal.Records

/-! # Recovery from the journal

What becomes of a command depends on the books, the accounts and its record, so
the records alone bring a new exchange to where the live one stands.
-/

namespace Exsim

open Data Protocol

namespace Core

open Journal

namespace Outcome

/-- What the sender of a command learns. -/
def answer : Outcome → Except Thrown (Ack × List Trade)
  | .returned result => .ok (result.ack, result.trades)
  | .threw exception => .error exception

/-- The market data a call publishes. -/
def events : Outcome → List MdEvent
  | .returned result => result.mdEvents
  | .threw _ => []

end Outcome

namespace Exchange

/-- Two exchanges that decide alike. -/
structure Alike (live replica : Exchange) : Prop where
  books : replica.books = live.books
  risk : replica.risk = live.risk

/-- Two exchanges that have published the same feed. -/
structure SameFeed (live replica : Exchange) : Prop where
  nextMdSeq : replica.nextMdSeq = live.nextMdSeq
  mdChecksum : replica.mdChecksum = live.mdChecksum

/-- What a replica makes of a record the live exchange made. -/
structure Echoes (live replica : Exchange) (made remade : Exchange × Outcome) : Prop where
  alike : Alike made.1 remade.1
  answer : remade.2.answer = made.2.answer
  events : remade.2.events.length = made.2.events.length
  feed : SameFeed live replica → SameFeed made.1 remade.1 ∧ remade.2 = made.2

section

variable {live replica : Exchange} {sc : SequencedCommand} {made : Exchange × Outcome}

theorem Echoes.since {live' replica' : Exchange} {remade : Exchange × Outcome}
    (echoes : Echoes live' replica' made remade)
    (same : SameFeed live replica → SameFeed live' replica') :
    Echoes live replica made remade :=
  ⟨echoes.alike, echoes.answer, echoes.events, fun before => echoes.feed (same before)⟩

theorem stamp_length (next : SeqNo) (events : List MdEvent) :
    (stamp next events).length = events.length := by
  induction events generalizing next with
  | nil => rfl
  | cons ev events ih => exact congrArg (· + 1) (ih _)

theorem Alike.reject (alike : Alike live replica) (seq : SeqNo) (cmd : ClientCommand)
    (reason : RejectReason) :
    Echoes live replica (returning (live.reject seq cmd reason))
      (returning (replica.reject seq cmd reason)) := by
  refine ⟨⟨alike.books, alike.risk⟩, rfl, rfl, fun same => ?_⟩
  rw [returning, returning, Exchange.reject, Exchange.reject, same.nextMdSeq, same.mdChecksum]
  exact ⟨⟨rfl, rfl⟩, rfl⟩

theorem Alike.publish (alike : Alike live replica) (sc : SequencedCommand) (out : MatchOutput) :
    Echoes live replica (returning (live.publish sc out)) (returning (replica.publish sc out)) := by
  by_cases accepted : out.reject = .none
  · rw [publish_accepted accepted, publish_accepted accepted, accountForMd_eq, accountForMd_eq,
      RiskEngine.tally_stamp, RiskEngine.tally_stamp, alike.books, alike.risk]
    refine ⟨⟨rfl, rfl⟩, rfl, ?_, fun same => ?_⟩
    · exact (stamp_length _ _).trans (stamp_length _ _).symm
    · rw [same.nextMdSeq, same.mdChecksum]
      exact ⟨⟨rfl, rfl⟩, rfl⟩
  · rw [publish_refused accepted, publish_refused accepted]
    exact alike.reject _ _ _

/-- A record applied to a replica is answered as it was, whatever the two have
sequenced, journaled or published before. -/
theorem Alike.applySequenced (alike : Alike live replica) {writeJournal : Bool}
    (writeReplica : Bool) (ran : live.applySequenced sc writeJournal = .ok made) :
    ∃ remade, replica.applySequenced sc writeReplica = .ok remade ∧
    Echoes live replica made remade := by
  have checked : Alike (live.checked sc writeJournal) (replica.checked sc writeReplica) :=
    ⟨alike.books, by rw [Exchange.checked, Exchange.checked, alike.books, alike.risk]⟩
  have sameFeed : SameFeed live replica →
      SameFeed (live.checked sc writeJournal) (replica.checked sc writeReplica) :=
    fun same => ⟨same.nextMdSeq, same.mdChecksum⟩
  rw [applySequenced_eq] at ran ⊢
  rw [alike.books, alike.risk]
  split at ran
  · rename_i refused
    rw [if_pos refused]
    obtain rfl := Except.ok.inj ran
    exact ⟨_, rfl, (checked.reject _ _ _).since sameFeed⟩
  · rename_i admitted
    rw [if_neg admitted]
    rw [dispatch_eq] at ran ⊢
    rw [show (replica.checked sc writeReplica).books =
      (live.checked sc writeJournal).books from alike.books]
    cases executed : (live.checked sc writeJournal).books.execute sc with
    | error fault =>
        rw [executed] at ran
        cases ran
    | ok answer =>
        rw [executed] at ran
        obtain rfl := Except.ok.inj ran
        refine ⟨_, rfl, ?_⟩
        cases answer with
        | error exception => exact ⟨checked, rfl, rfl, fun same => ⟨sameFeed same, rfl⟩⟩
        | ok result =>
            have settled : Alike { live.checked sc writeJournal with books := result.1 }
                { replica.checked sc writeReplica with books := result.1 } := ⟨rfl, checked.risk⟩
            refine (settled.publish sc result.2).since fun same => ?_
            exact ⟨same.nextMdSeq, same.mdChecksum⟩

theorem publish_journal (exchange : Exchange) (sc : SequencedCommand) (out : MatchOutput) :
    (exchange.publish sc out).1.journal = exchange.journal := by
  by_cases accepted : out.reject = .none
  · rw [publish_accepted accepted, accountForMd_eq]
  · rw [publish_refused accepted]
    rfl

/-- A record that is applied is journaled first, whatever becomes of it. -/
theorem applySequenced_journal {writeJournal : Bool}
    (ran : live.applySequenced sc writeJournal = .ok made) :
    made.1.journal = if writeJournal then live.journal.map (·.append sc) else live.journal := by
  rw [applySequenced_eq] at ran
  split at ran
  · obtain rfl := Except.ok.inj ran
    rfl
  · rw [dispatch_eq] at ran
    cases executed : (live.checked sc writeJournal).books.execute sc with
    | error fault =>
        rw [executed] at ran
        cases ran
    | ok answer =>
        rw [executed] at ran
        obtain rfl := Except.ok.inj ran
        cases answer with
        | error exception => rfl
        | ok result => exact publish_journal _ _ _

end

/-- Recovery applies a record without journaling it again. -/
def replay (exchange : Exchange) (sc : SequencedCommand) : Exec (Exchange × Outcome) :=
  exchange.applySequenced sc false

/-- The outcomes of the calls that carried a command. -/
def sequenced (calls : List ExchangeCall) (outcomes : List Outcome) : List Outcome :=
  ((calls.zip outcomes).filter fun pair => pair.1.command?.isSome).map Prod.snd

/-- How `records` bring `replica` to where `calls` brought `live`. -/
structure Recovers (live replica final recovered : Exchange) (calls : List ExchangeCall)
    (outcomes : List Outcome) (records : List SequencedCommand)
    (replayed : List Outcome) : Prop where
  ran : run replay replica records = .ok (recovered, replayed)
  alike : Alike final recovered
  answers : replayed.map Outcome.answer = (sequenced calls outcomes).map Outcome.answer
  count : records.length = calls.countP fun call => call.command?.isSome
  /-- An undecodable frame leaves one event in the feed and no record. -/
  events : (outcomes.flatMap Outcome.events).length =
    (replayed.flatMap Outcome.events).length + calls.countP fun call => call.command?.isNone
  feed : SameFeed live replica → (∀ call ∈ calls, call.command?.isSome = true) →
    SameFeed final recovered ∧ replayed = outcomes

section Recovery

variable {cfg : ExchangeConfig} {fresh replica live final : Exchange} {calls : List ExchangeCall}
  {outcomes : List Outcome} {writer : JournalWriter}

/-- Along any run the journal grows by the records that recover it. -/
theorem run_recovers (alike : Alike live replica) (journaled : live.journal = some writer)
    (ran : run Exchange.call live calls = .ok (final, outcomes)) :
    ∃ records recovered replayed, final.journal =
      some { out := writer.out ++ records.flatMap encodeRecord } ∧
      Recovers live replica final recovered calls outcomes records replayed := by
  induction calls generalizing live replica outcomes writer with
  | nil =>
      rw [run_nil, Except.ok.injEq, Prod.mk.injEq] at ran
      obtain ⟨rfl, rfl⟩ := ran
      refine ⟨[], replica, [], ?_, rfl, alike, rfl, rfl, rfl, fun same _ => ⟨same, rfl⟩⟩
      rw [List.flatMap_nil, List.append_nil]
      exact journaled
  | cons call calls ih =>
      obtain ⟨after, outcome, rest, stepped, later, rfl⟩ := run_cons_ok ran
      cases carried : call.command? with
      | none =>
          obtain ⟨reason, -, rejected⟩ := call_undecoded live carried
          rw [stepped] at rejected
          obtain ⟨rfl, rfl⟩ := Prod.mk.inj (Except.ok.inj rejected)
          have still :
              Alike (returning (live.numbered.reject live.nextSeq dummyCommand reason)).1 replica :=
            ⟨alike.books, alike.risk⟩
          obtain ⟨records, recovered, replayed, file, recovers⟩ := ih still journaled later
          refine ⟨records, recovered, replayed, file, recovers.ran, recovers.alike, ?_, ?_, ?_, ?_⟩
          · rw [recovers.answers]
            simp [sequenced, carried]
          · rw [recovers.count]
            simp [carried]
          · have shown : (Outcome.returned
                (live.numbered.reject live.nextSeq dummyCommand reason).2).events.length = 1 :=
              rfl
            rw [List.flatMap_cons, List.length_append, shown, recovers.events]
            simp only [carried, Option.isNone_none, List.countP_cons_of_pos]
            omega
          · intro _ every
            have decodes := every call List.mem_cons_self
            rw [carried] at decodes
            cases decodes
      | some cmd =>
          have applied := (call_carried live carried).symm.trans stepped
          have numbered : Alike live.numbered replica := ⟨alike.books, alike.risk⟩
          obtain ⟨remade, remadeRan, echoes⟩ := numbered.applySequenced false applied
          have appended := applySequenced_journal applied
          rw [if_pos rfl, show live.numbered.journal = some writer from journaled,
            Option.map_some] at appended
          obtain ⟨records, recovered, replayed, file, recovers⟩ := ih echoes.alike appended later
          refine ⟨live.sequence cmd call.nowNs :: records, recovered, remade.2 :: replayed, ?_, ?_,
            recovers.alike, ?_, ?_, ?_, ?_⟩
          · rw [file, JournalWriter.append, List.flatMap_cons, List.append_assoc]
          · exact run_cons remadeRan recovers.ran
          · rw [List.map_cons, echoes.answer, recovers.answers]
            simp [sequenced, carried]
          · rw [List.length_cons, recovers.count]
            simp [carried]
          · rw [List.flatMap_cons, List.flatMap_cons, List.length_append, List.length_append,
              echoes.events, recovers.events]
            simp only [carried, Option.isNone_some, Bool.false_eq_true, not_false_eq_true,
              List.countP_cons_of_neg]
            omega
          · intro same every
            obtain ⟨sameAfter, sameOutcome⟩ := echoes.feed ⟨same.nextMdSeq, same.mdChecksum⟩
            obtain ⟨sameFinal, sameRest⟩ := recovers.feed sameAfter fun other member =>
              every other (List.mem_cons_of_mem call member)
            exact ⟨sameFinal, by rw [sameOutcome, sameRest]⟩

/-- Exchanges created from one configuration start alike, journal or not. -/
theorem create_alike {journalPath : Option String}
    (created : Exchange.create cfg = some (.ok fresh))
    (copied : Exchange.create { cfg with journalPath } = some (.ok replica)) :
    Alike fresh replica ∧ SameFeed fresh replica := by
  obtain ⟨built, isFresh⟩ := create_ok created
  obtain ⟨built', isReplica⟩ := create_ok copied
  have books : replica.books = fresh.books :=
    Except.ok.inj (Option.some.inj (built'.symm.trans built))
  rw [isFresh, isReplica, books]
  exact ⟨⟨rfl, rfl⟩, rfl, rfl⟩

/-- Whatever the calls, the journal of a run holds one record for each command,
and the records bring a new exchange to the same books, index and accounts, with
the same answers on the way. -/
theorem journal_recovers {journalPath : Option String}
    (created : Exchange.create cfg = some (.ok fresh)) (journaled : cfg.journalPath.isSome = true)
    (copied : Exchange.create { cfg with journalPath } = some (.ok replica))
    (ran : run Exchange.call fresh calls = .ok (live, outcomes)) :
    ∃ writer records ended recovered replayed, live.journal = some writer ∧
      Reads (JournalReader.create writer.out) records ended ∧ ended.error = none ∧
      run replay replica records = .ok (recovered, replayed) ∧
      recovered.books = live.books ∧ recovered.risk = live.risk ∧
      replayed.map Outcome.answer = (sequenced calls outcomes).map Outcome.answer ∧
      records.length = calls.countP fun call => call.command?.isSome := by
  obtain ⟨path, named⟩ := Option.isSome_iff_exists.mp journaled
  have started : fresh.journal = some .create := by
    rw [(create_ok created).2, named]
    rfl
  obtain ⟨records, recovered, replayed, file, recovers⟩ :=
    run_recovers (create_alike created copied).1 started ran
  exact ⟨_, records, _, recovered, replayed, file, reads_file records, rfl, recovers.ran,
    recovers.alike.books, recovers.alike.risk, recovers.answers, recovers.count⟩

/-- Two bids, a frame that does not decode and a replace that is refused. -/
def mixedCalls : List ExchangeCall := twoBids ++ [.frame [] 0, .command duplicateReplace 0]

theorem journal_recovers_oneSymbol :
    ∃ live outcomes, run Exchange.call oneSymbol mixedCalls = .ok (live, outcomes) ∧
    ∃ writer records ended recovered replayed, live.journal = some writer ∧
      Reads (JournalReader.create writer.out) records ended ∧ ended.error = none ∧
      run replay oneSymbol records = .ok (recovered, replayed) ∧
      recovered.books = live.books ∧ recovered.risk = live.risk ∧
      replayed.map Outcome.answer = (sequenced mixedCalls outcomes).map Outcome.answer ∧
      records.length = mixedCalls.countP fun call => call.command?.isSome := by
  have returns : (run Exchange.call oneSymbol mixedCalls).toOption.isSome = true := by
    decide +kernel
  obtain ⟨result, returned⟩ := Option.isSome_iff_exists.mp returns
  have ran := ok_of_toOption returned
  exact ⟨result.1, result.2, ran, journal_recovers oneSymbol_created rfl oneSymbol_created ran⟩

end Recovery

end Exchange

end Core

end Exsim
