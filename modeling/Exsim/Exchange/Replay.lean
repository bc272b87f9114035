import Exsim.BookManager.Checksum
import Exsim.Exchange.Recovery

/-! # Replaying a journal against the market-data feed -/

namespace Exsim.Core

open Data Journal Protocol

namespace Exchange

/-- A call of `process_frame`. -/
def frameCall (frame : Bytes × TimestampNs) : ExchangeCall := .frame frame.1 frame.2

/-- What a replay shares with the live run: it ends without an error, with the
feed checksum of the live exchange, and its calls publish the same events under
the same numbers. -/
structure Reproduces (live : Exchange) (outcomes replayed : List Outcome)
    (report : ReplayResult) : Prop where
  noError : report.error = none
  mdChecksum : report.mdChecksum = live.mdChecksum
  feed : replayed.flatMap Outcome.events = outcomes.flatMap Outcome.events

section

variable {cfg : ExchangeConfig} {fresh exchange recovered live : Exchange}
  {reader ended : JournalReader} {records : List SequencedCommand}
  {outcomes replayed : List Outcome} {frames : List (Bytes × TimestampNs)}

/-- The replay loop applies every record, if none of them throws. -/
theorem replayLoop_reads {fuel : Nat} (reads : Reads reader records ended)
    (enough : records.length ≤ fuel) (ran : run replay exchange records = .ok (recovered, replayed))
    (returned : ∀ outcome ∈ replayed, ∃ result, outcome = .returned result) (counted : Nat) :
    replayLoop fuel exchange reader counted =
      .ok (.ok (recovered, ended, counted + records.length)) := by
  induction reads generalizing fuel exchange replayed counted with
  | done finished =>
      rw [run_nil, Except.ok.injEq, Prod.mk.injEq] at ran
      rw [replayLoop, finished, ← ran.1]
      rfl
  | @more _ _ _ _ sc read later ih =>
      obtain ⟨after, outcome, rest, applied, tail, rfl⟩ := run_cons_ok ran
      obtain ⟨result, rfl⟩ := returned outcome List.mem_cons_self
      cases fuel with
      | zero => cases enough
      | succ fuel =>
          have applied : exchange.applySequenced sc false = .ok (after, .returned result) := applied
          rw [replayLoop, read]
          dsimp only
          rw [applied, exec_ok_bind]
          dsimp only
          rw [ih (Nat.le_of_succ_le_succ enough) tail
            (fun other member => returned other (List.mem_cons_of_mem _ member)),
            List.length_cons, Nat.add_right_comm, Nat.add_assoc]

theorem length_le_fileOf (records : List SequencedCommand) :
    records.length ≤ (fileOf records).length := by
  rw [fileOf, List.length_append]
  have each : records.length ≤ (records.flatMap encodeRecord).length := by
    induction records with
    | nil => exact Nat.le_refl _
    | cons sc records ih =>
        have positive : 0 < (encodeRecord sc).length := by
          simp [encodeRecord, Writer.pod, Pod.size]
        rw [List.length_cons, List.flatMap_cons, List.length_append]
        omega
  omega

/-- A new exchange of the same configuration with another journal. -/
theorem create_copy (created : Exchange.create cfg = some (.ok fresh))
    (journalPath : Option String) :
    Exchange.create { cfg with journalPath } =
      some (.ok { fresh with journal := journalPath.map fun _ => .create }) := by
  obtain ⟨built, isFresh⟩ := create_ok created
  have made : Exchange.create { cfg with journalPath } = some (.ok {
      ladder := cfg.ladder, books := fresh.books, risk := { limits := cfg.riskLimits }
      journal := journalPath.map fun _ => .create }) := by
    rw [Exchange.create, built]
    rfl
  rw [made, isFresh]

theorem returned_iff {outcome : Outcome} : (∃ result, outcome = .returned result) ↔
    ∃ given, outcome.answer = .ok given := by
  cases outcome with
  | returned result => exact ⟨fun _ => ⟨_, rfl⟩, fun _ => ⟨result, rfl⟩⟩
  | threw exception => exact ⟨fun found => (nomatch found), fun found => (nomatch found)⟩

/-- While no book runs out of slots, the journal of a run of frames in which no
call throws replays to the live feed exactly if every frame decodes. -/
theorem replay_reproduces (created : Exchange.create cfg = some (.ok fresh))
    (journaled : cfg.journalPath.isSome = true)
    (room : Along Exchange.call (fun exchange _ => exchange.books.HasRoom) fresh
      (frames.map frameCall))
    (ran : run Exchange.call fresh (frames.map frameCall) = .ok (live, outcomes))
    (returned : ∀ outcome ∈ outcomes, ∃ result, outcome = .returned result) :
    ∃ writer records ended replica recovered replayed report, live.journal = some writer ∧
      Reads (JournalReader.create writer.out) records ended ∧
      Exchange.create { cfg with journalPath := none } = some (.ok replica) ∧
      run replay replica records = .ok (recovered, replayed) ∧
      replayJournal writer.out cfg = some (.ok (.ok report)) ∧
      (Reproduces live outcomes replayed report ↔
        ∀ frame ∈ frames, (decodeClientCommand frame.1).command.isSome = true) := by
  have copied := create_copy created none
  obtain ⟨alike, sameFeed⟩ := create_alike created copied
  obtain ⟨path, named⟩ := Option.isSome_iff_exists.mp journaled
  have started : fresh.journal = some .create := by
    rw [(create_ok created).2, named]
    rfl
  obtain ⟨records, recovered, replayed, file, recovers⟩ := run_recovers alike started ran
  have replayReturned : ∀ outcome ∈ replayed, ∃ result, outcome = .returned result := by
    intro outcome member
    have answered := List.mem_map_of_mem (f := Outcome.answer) member
    rw [recovers.answers, List.mem_map] at answered
    obtain ⟨original, kept, same⟩ := answered
    obtain ⟨pair, listed, rfl⟩ := List.mem_map.mp kept
    have listed := (List.of_mem_zip (List.mem_of_mem_filter listed)).2
    rw [returned_iff, ← same]
    exact returned_iff.mp (returned _ listed)
  obtain ⟨market, models⟩ := run_models created room ran
  have books : recovered.books = live.books := recovers.alike.books
  have looped :=
    replayLoop_reads (reads_file records) (length_le_fileOf records) recovers.ran replayReturned 0
  have report : replayJournal (fileOf records) cfg = some (.ok (.ok {
      bookChecksum := live.books.digest, mdChecksum := recovered.mdChecksum
      records := 0 + records.length })) := by
    have opened : JournalReader.create (fileOf records) =
        { input := records.flatMap encodeRecord } :=
      JournalReader.create_append _
    rw [opened] at looped
    rw [replayJournal, copied, Option.map_some]
    dsimp only
    rw [opened]
    dsimp only
    rw [looped, exec_ok_bind]
    dsimp only
    rw [books, models.checksum]
    rfl
  refine ⟨_, records, _, _, recovered, replayed, _, file, reads_file records, copied,
    recovers.ran, report, ?_⟩
  constructor
  · intro reproduces frame member
    have events := recovers.events
    rw [reproduces.feed] at events
    have none : (frames.map frameCall).countP (fun call => call.command?.isNone) = 0 := by omega
    have decodes := List.countP_eq_zero.mp none _ (List.mem_map_of_mem member)
    rwa [Bool.not_eq_true, Option.isNone_eq_false_iff] at decodes
  · intro every
    have carried : ∀ call ∈ frames.map frameCall, call.command?.isSome = true := by
      intro call member
      obtain ⟨frame, listed, rfl⟩ := List.mem_map.mp member
      exact every frame listed
    obtain ⟨same, sameOutcomes⟩ := recovers.feed sameFeed carried
    exact ⟨rfl, same.mdChecksum, by rw [sameOutcomes]⟩

/-- A bid, and a frame too short for its header. -/
def bidThenShortFrame : List (Bytes × TimestampNs) :=
  [(encodeClientCommand BookManager.restingBid, 0), ([], 0)]

/-- The run of the two frames and the replay of its journal. -/
theorem bidThenShortFrame_run : ∃ live outcomes writer report,
    run Exchange.call oneSymbol (bidThenShortFrame.map frameCall) = .ok (live, outcomes) ∧
      (∀ outcome ∈ outcomes, ∃ result, outcome = .returned result) ∧ live.journal = some writer ∧
      replayJournal writer.out oneSymbolConfig = some (.ok (.ok report)) ∧
      report.mdChecksum ≠ live.mdChecksum := by
  have differs :
      ((run Exchange.call oneSymbol (bidThenShortFrame.map frameCall)).toOption.any fun done =>
        (done.2.all fun outcome => outcome.answer.toOption.isSome) &&
          done.1.journal.any fun writer =>
            (replayJournal writer.out oneSymbolConfig).any fun replayed =>
              replayed.toOption.any fun replayed => replayed.toOption.any fun report =>
                report.mdChecksum ≠ done.1.mdChecksum) = true := by
    decide +kernel
  obtain ⟨⟨live, outcomes⟩, ran, both⟩ := (Option.any_eq_true _ _).mp differs
  obtain ⟨answered, journaled⟩ := (Bool.and_eq_true _ _).mp both
  obtain ⟨writer, journaled, replays⟩ := (Option.any_eq_true _ _).mp journaled
  obtain ⟨ended, replayed, returns⟩ := (Option.any_eq_true _ _).mp replays
  obtain ⟨inner, isOk, returns⟩ := (Option.any_eq_true _ _).mp returns
  obtain ⟨report, isReport, differ⟩ := (Option.any_eq_true _ _).mp returns
  rw [ok_of_toOption isOk, ok_of_toOption isReport] at replayed
  refine ⟨live, outcomes, writer, report, ok_of_toOption ran, fun outcome member => ?_,
    journaled, replayed, of_decide_eq_true differ⟩
  have given := List.all_eq_true.mp answered outcome member
  cases outcome with
  | returned result => exact ⟨result, rfl⟩
  | threw exception => cases given

theorem replay_reproduces_oneSymbol :
    ∃ live outcomes writer records ended replica recovered replayed report,
    live.journal = some writer ∧ Reads (JournalReader.create writer.out) records ended ∧
      Exchange.create { oneSymbolConfig with journalPath := none } = some (.ok replica) ∧
      run replay replica records = .ok (recovered, replayed) ∧
      replayJournal writer.out oneSymbolConfig = some (.ok (.ok report)) ∧
      (Reproduces live outcomes replayed report ↔
        ∀ frame ∈ bidThenShortFrame, (decodeClientCommand frame.1).command.isSome = true) := by
  obtain ⟨live, outcomes, -, -, ran, returned, -⟩ := bidThenShortFrame_run
  exact ⟨live, outcomes, replay_reproduces oneSymbol_created rfl (by decide +kernel) ran returned⟩

/-- The short frame is in the live feed and not in the replayed one. -/
theorem shortFrame_not_replayed : Exchange.create oneSymbolConfig = some (.ok oneSymbol) ∧
    ∃ live outcomes writer report,
      run Exchange.call oneSymbol (bidThenShortFrame.map frameCall) = .ok (live, outcomes) ∧
        (∀ outcome ∈ outcomes, ∃ result, outcome = .returned result) ∧ live.journal = some writer ∧
        replayJournal writer.out oneSymbolConfig = some (.ok (.ok report)) ∧
        report.mdChecksum ≠ live.mdChecksum :=
  ⟨oneSymbol_created, bidThenShortFrame_run⟩

end

end Exchange

end Exsim.Core
