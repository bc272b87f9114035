import Exsim.Exchange.Replay
import Exsim.Journal.Cut

/-! # Restarting from what reached the disk

A crash leaves some front of the journal.  The commands whose records lie in it
as a whole are replayed, and no others, so a restart finds the exchange as it was
after a front of its run.
-/

namespace Exsim.Core

open Data Journal Protocol

/-- Counting along a list passes every number up to the last. -/
theorem exists_take_countP {Entry : Type} (test : Entry → Bool) (entries : List Entry) {count : Nat}
    (few : count ≤ entries.countP test) : ∃ k, k ≤ entries.length ∧
    (entries.take k).countP test = count := by
  induction entries generalizing count with
  | nil => exact ⟨0, Nat.le_refl _, (Nat.le_zero.mp few).symm⟩
  | cons entry entries ih =>
      cases count with
      | zero => exact ⟨0, Nat.zero_le _, rfl⟩
      | succ count =>
          by_cases met : test entry = true
          · rw [List.countP_cons_of_pos met] at few
            obtain ⟨k, inside, counted⟩ := ih (Nat.le_of_succ_le_succ few)
            exact ⟨k + 1, Nat.succ_le_succ
              inside, by rw [List.take_succ_cons, List.countP_cons_of_pos met, counted]⟩
          · rw [List.countP_cons_of_neg met] at few
            obtain ⟨k, inside, counted⟩ := ih few
            exact ⟨k + 1, Nat.succ_le_succ
              inside, by rw [List.take_succ_cons, List.countP_cons_of_neg met, counted]⟩

namespace Exchange

/-- How many of the calls are journaled. -/
def recorded (calls : List ExchangeCall) : Nat := calls.countP fun call => call.command?.isSome

section

variable {cfg : ExchangeConfig} {fresh replica live : Exchange} {calls : List ExchangeCall}
  {outcomes : List Outcome}

/-- Every front of a run is recovered by the records it has journaled, which are
the first of the file. -/
theorem run_recovers_fronts (alike : Alike fresh replica) (journaled : fresh.journal = some .create)
    (ran : run Exchange.call fresh calls = .ok (live, outcomes)) :
    ∃ records, live.journal = some { out := fileOf records } ∧
    records.length = recorded calls ∧ ∀ k, ∃ earlier recovered replayed,
      run Exchange.call fresh (calls.take k) = .ok (earlier, outcomes.take k) ∧
        earlier.journal = some { out := fileOf (records.take (recorded (calls.take k))) } ∧
        Recovers fresh replica earlier recovered (calls.take k) (outcomes.take k)
          (records.take (recorded (calls.take k))) replayed := by
  obtain ⟨records, _, _, file, recovers⟩ := run_recovers alike journaled ran
  refine ⟨records, file, recovers.count, fun k => ?_⟩
  obtain ⟨earlier, front, back⟩ := run_take ran k
  obtain ⟨first, recovered, replayed, written, recoversFront⟩ := run_recovers alike journaled front
  obtain ⟨more, _, _, grown, _⟩ :=
    run_recovers (Alike.mk rfl rfl : Alike earlier earlier) written back
  have split : records = first ++ more := by
    refine fileOf_injective ?_
    rw [file, Option.some.injEq, JournalWriter.mk.injEq] at grown
    rw [fileOf_append]
    exact grown
  have taken : records.take (recorded (calls.take k)) = first := by
    rw [split, recorded, ← recoversFront.count, List.take_left]
  rw [taken]
  exact ⟨earlier, recovered, replayed, front, written, recoversFront⟩

theorem fileOf_take_isPrefix (records : List SequencedCommand) (k : Nat) :
    fileOf (records.take k) <+: fileOf records := by
  have split := fileOf_append (records.take k) (records.drop k)
  rw [List.take_append_drop] at split
  rw [split]
  exact List.prefix_append _ _

/-- A replay that returns from every record ends with the error of the reader, or
with the checksums. -/
theorem replayJournal_returned {file : Bytes} {recovered : Exchange}
    {records : List SequencedCommand} {replayed : List Outcome} {ended : JournalReader}
    (copied : Exchange.create { cfg with journalPath := none } = some (.ok replica))
    (reads : Reads (JournalReader.create file) records ended)
    (enough : records.length ≤ file.length)
    (ran : run replay replica records = .ok (recovered, replayed))
    (returned : ∀ outcome ∈ replayed, ∃ result, outcome = .returned result) :
    replayJournal file cfg = some (match ended.error with
      | some message => .ok (.ok { records := records.length, error := some message })
      | none => recovered.books.checksum.map fun bookChecksum =>
          .ok { bookChecksum, mdChecksum := recovered.mdChecksum, records := records.length }) := by
  rw [replayJournal, copied, Option.map_some]
  dsimp only
  cases opened : (JournalReader.create file).error with
  | some message =>
      have broken : Reads (JournalReader.create file) [] (JournalReader.create file) :=
        reads_broken (by rw [opened]; rfl)
      obtain ⟨rfl, rfl⟩ := reads.unique broken
      rw [opened]
      rfl
  | none =>
      have looped := replayLoop_reads reads enough ran returned 0
      dsimp only
      rw [looped, exec_ok_bind]
      dsimp only
      rw [Nat.zero_add]
      cases ended.error with
      | some message => rfl
      | none =>
          dsimp only
          cases recovered.books.checksum <;> rfl

/-- Replaying a file reports how many records it applied, and the error of the
reader if there was one. -/
theorem replayJournal_reads {file : Bytes} {recovered : Exchange} {records : List SequencedCommand}
    {replayed : List Outcome} {ended : JournalReader} {h : UInt64}
    (copied : Exchange.create { cfg with journalPath := none } = some (.ok replica))
    (reads : Reads (JournalReader.create file) records ended)
    (enough : records.length ≤ file.length)
    (ran : run replay replica records = .ok (recovered, replayed))
    (returned : ∀ outcome ∈ replayed, ∃ result, outcome = .returned result)
    (hashed : recovered.books.checksum = .ok h) :
    ∃ report, replayJournal file cfg = some (.ok (.ok report)) ∧ report.records = records.length ∧
      report.error = ended.error ∧
      (report.error = none → report.bookChecksum = h ∧
        report.mdChecksum = recovered.mdChecksum) := by
  rw [replayJournal_returned copied reads enough ran returned, hashed]
  cases ended.error with
  | some message => exact ⟨_, rfl, rfl, rfl, fun clean => by cases clean⟩
  | none => exact ⟨_, rfl, rfl, rfl, fun _ => ⟨rfl, rfl⟩⟩

/-- A replay returns from every record if the run returned from every command. -/
theorem Recovers.returned {earlier recovered : Exchange} {records : List SequencedCommand}
    {replayed : List Outcome}
    (recovers : Recovers fresh replica earlier recovered calls outcomes records replayed)
    (returned : ∀ outcome ∈ outcomes, ∃ result, outcome = .returned result) :
    ∀ outcome ∈ replayed, ∃ result, outcome = .returned result := by
  intro outcome member
  have answered := List.mem_map_of_mem (f := Outcome.answer) member
  rw [recovers.answers, List.mem_map] at answered
  obtain ⟨original, kept, same⟩ := answered
  obtain ⟨pair, listed, rfl⟩ := List.mem_map.mp kept
  have listed := (List.of_mem_zip (List.mem_of_mem_filter listed)).2
  rw [returned_iff, ← same]
  exact returned_iff.mp (returned _ listed)

/-- Wherever the file of a run is cut, a restart finds the exchange as it was
after a front of the calls, with every command whose record is in the file as a
whole.  It reports an error just if the cut lies in a record, behind its length. -/
theorem crash_recovers (created : Exchange.create cfg = some (.ok fresh))
    (journaled : cfg.journalPath.isSome = true)
    (room : Along Exchange.call (fun exchange _ => exchange.books.HasRoom) fresh calls)
    (ran : run Exchange.call fresh calls = .ok (live, outcomes))
    (returned : ∀ outcome ∈ outcomes, ∃ result, outcome = .returned result) (size : Nat) :
    ∃ writer replica records ended recovered replayed report, live.journal = some writer ∧
      Exchange.create { cfg with journalPath := none } = some (.ok replica) ∧
      Reads (JournalReader.create (writer.out.take size)) records ended ∧
      replayJournal (writer.out.take size) cfg = some (.ok (.ok report)) ∧
      report.records = records.length ∧ (∃ k earlier written,
        run Exchange.call fresh (calls.take k) = .ok (earlier, outcomes.take k) ∧
        earlier.journal = some written ∧
        Recovers fresh replica earlier recovered (calls.take k) (outcomes.take k) records replayed ∧
        (report.error = none ↔ 6 ≤ size ∧ (written = writer ∨ size < written.out.length + 4)) ∧
        (report.error = none → earlier.books.checksum = .ok report.bookChecksum)) ∧
      ∀ k earlier written, run Exchange.call fresh (calls.take k) = .ok (earlier, outcomes.take k) →
        earlier.journal = some written → written.out.length ≤ size →
        recorded (calls.take k) ≤ records.length := by
  have copied := create_copy created none
  obtain ⟨path, named⟩ := Option.isSome_iff_exists.mp journaled
  have started : fresh.journal = some .create := by
    rw [(create_ok created).2, named]
    rfl
  obtain ⟨records, file, count, fronts⟩ :=
    run_recovers_fronts (create_alike created copied).1 started ran
  obtain ⟨kept, ended, reads, within, most, least, clean⟩ := reads_cut_file records size
  -- the front of the calls that made the records that are left
  obtain ⟨k, inside, counted⟩ :=
    exists_take_countP (fun call => call.command?.isSome) calls (count ▸ within)
  obtain ⟨earlier, recovered, replayed, front, written, recovers⟩ := fronts k
  rw [show recorded (calls.take k) = kept from counted] at written recovers
  have roomThen := ((along_append front).mp ((List.take_append_drop k calls).symm ▸ room)).1
  obtain ⟨market, models⟩ := run_models created roomThen front
  have enough : (records.take kept).length ≤ ((fileOf records).take size).length := by
    have shorter := (fileOf_take_isPrefix records kept).length_le
    have fits := length_le_fileOf (records.take kept)
    rw [List.length_take (i := size)]
    rw [List.length_take] at fits ⊢
    omega
  obtain ⟨report, replays, reported, error, checksum⟩ :=
    replayJournal_reads copied reads enough recovers.ran
    (recovers.returned fun outcome member => returned outcome (List.mem_of_mem_take member))
    (recovers.alike.books ▸ models.checksum)
  refine ⟨_, _, records.take kept, ended, recovered, replayed, report, file, copied, reads,
    replays, reported, ⟨k, earlier, _, front, written, recovers, ?_, fun clean => ?_⟩,
    fun other earlier' written' front' made fits => ?_⟩
  · rw [error, clean, JournalWriter.mk.injEq]
    refine and_congr_right fun _ => or_congr_left ⟨fun all => ?_, fun same => ?_⟩
    · rw [all, List.take_length]
    · have whole := congrArg List.length (fileOf_injective same)
      rwa [List.length_take, Nat.min_eq_left within] at whole
  · rw [(checksum clean).1]
    exact recovers.alike.books ▸ models.checksum
  · obtain ⟨_, _, _, ran', made', -⟩ := fronts other
    obtain ⟨rfl, -⟩ := Prod.mk.inj (Except.ok.inj (front'.symm.trans ran'))
    obtain rfl := Option.some.inj (made.symm.trans made')
    have fewer : recorded (calls.take other) ≤ records.length :=
      count ▸ (List.take_sublist other calls).countP_le
    rw [List.length_take, Nat.min_eq_left within]
    exact most _ fewer fits

/-- A bid and a short frame, and the file cut within the record of the bid. -/
theorem crash_recovers_bid : ∃ live outcomes,
    run Exchange.call oneSymbol (bidThenShortFrame.map frameCall) = .ok (live, outcomes) ∧
    ∃ writer replica records ended recovered replayed report, live.journal = some writer ∧
      Exchange.create { oneSymbolConfig with journalPath := none } = some (.ok replica) ∧
      Reads (JournalReader.create (writer.out.take 30)) records ended ∧
      replayJournal (writer.out.take 30) oneSymbolConfig = some (.ok (.ok report)) ∧
      report.records = records.length ∧ (∃ k earlier written,
        run Exchange.call oneSymbol ((bidThenShortFrame.map frameCall).take k) =
          .ok (earlier, outcomes.take k) ∧ earlier.journal = some written ∧
        Recovers oneSymbol replica earlier recovered ((bidThenShortFrame.map frameCall).take k)
          (outcomes.take k) records replayed ∧
        (report.error = none ↔ 6 ≤ 30 ∧ (written = writer ∨ 30 < written.out.length + 4)) ∧
        (report.error = none → earlier.books.checksum = .ok report.bookChecksum)) ∧
      ∀ k earlier written,
        run Exchange.call oneSymbol ((bidThenShortFrame.map frameCall).take k) =
          .ok (earlier, outcomes.take k) → earlier.journal = some written →
          written.out.length ≤ 30 → recorded ((bidThenShortFrame.map frameCall).take k) ≤
            records.length := by
  obtain ⟨live, outcomes, -, -, ran, returned, -⟩ := bidThenShortFrame_run
  exact ⟨live, outcomes, ran,
    crash_recovers oneSymbol_created rfl (by decide +kernel) ran returned 30⟩

/-! ### Taking over -/

/-- An exchange that keeps no journal. -/
def unjournaled (exchange : Exchange) : Exchange := { exchange with journal := none }

section

variable {exchange : Exchange} {sc : SequencedCommand} {call : ExchangeCall} {cmd : ClientCommand}

theorem publish_unjournaled (exchange : Exchange) (sc : SequencedCommand) (out : MatchOutput) :
    exchange.unjournaled.publish sc out =
      ((exchange.publish sc out).1.unjournaled, (exchange.publish sc out).2) := by
  by_cases accepted : out.reject = .none
  · rw [publish_accepted accepted, publish_accepted accepted, accountForMd_eq, accountForMd_eq]
    rfl
  · rw [publish_refused accepted, publish_refused accepted]
    rfl

theorem concluded_unjournaled (exchange : Exchange) (sc : SequencedCommand)
    (answer : Except Thrown (BookManager × MatchOutput)) :
    exchange.unjournaled.concluded sc answer =
      ((exchange.concluded sc answer).1.unjournaled, (exchange.concluded sc answer).2) := by
  cases answer with
  | error exception => rfl
  | ok result =>
      exact congrArg returning (publish_unjournaled { exchange with books := result.1 } sc result.2)

/-- The journal has no part in what a record does. -/
theorem applySequenced_unjournaled (exchange : Exchange) (sc : SequencedCommand)
    (writeJournal writeReplica : Bool) :
    exchange.unjournaled.applySequenced sc writeReplica =
      (exchange.applySequenced sc writeJournal).map fun made => (made.1.unjournaled, made.2) := by
  have checked : exchange.unjournaled.checked sc writeReplica =
      (exchange.checked sc writeJournal).unjournaled := by
    cases writeReplica <;> rfl
  rw [applySequenced_eq, applySequenced_eq, checked,
    show exchange.unjournaled.risk = exchange.risk from rfl,
    show exchange.unjournaled.books = exchange.books from rfl]
  split
  · rfl
  · rw [dispatch_eq, dispatch_eq, show (exchange.checked sc writeJournal).unjournaled.books =
      (exchange.checked sc writeJournal).books from rfl]
    cases (exchange.checked sc writeJournal).books.execute sc with
    | error fault => rfl
    | ok answer => exact congrArg Except.ok (concluded_unjournaled _ sc answer)

/-- A record with the number that is due takes it. -/
theorem applySequenced_due (exchange : Exchange) (cmd : ClientCommand) (nowNs : TimestampNs)
    (writeJournal : Bool) :
    exchange.applySequenced (exchange.sequence cmd nowNs) writeJournal =
      exchange.numbered.applySequenced (exchange.sequence cmd nowNs) writeJournal := by
  have checked : exchange.checked (exchange.sequence cmd nowNs) writeJournal =
      exchange.numbered.checked (exchange.sequence cmd nowNs) writeJournal := by
    have ahead : (exchange.nextSeq ≠ exchange.nextSeq - 1 && exchange.nextSeq ≥ exchange.nextSeq) =
        true := by
      rw [Bool.and_eq_true, decide_eq_true_iff, decide_eq_true_iff]
      exact ⟨fun same => by grind, UInt64.le_refl _⟩
    have behind : (exchange.nextSeq ≠ exchange.nextSeq + 1 - 1 &&
        exchange.nextSeq ≥ exchange.nextSeq + 1) = false := by
      rw [UInt64.add_sub_cancel]
      simp
    have next : (exchange.checked (exchange.sequence cmd nowNs) writeJournal).nextSeq =
        (exchange.numbered.checked (exchange.sequence cmd nowNs) writeJournal).nextSeq :=
      (if_pos ahead).trans (if_neg (Bool.eq_false_iff.mp behind)).symm
    rw [checked, checked, Exchange.mk.injEq]
    exact ⟨next, rfl, rfl, rfl, rfl, rfl, rfl⟩
  rw [applySequenced_eq, applySequenced_eq, checked]
  rfl

theorem call_unjournaled (exchange : Exchange) (call : ExchangeCall) :
    exchange.unjournaled.call call = (exchange.call call).map fun made =>
      (made.1.unjournaled, made.2) := by
  cases carried : call.command? with
  | none =>
      cases call with
      | command cmd nowNs => cases carried
      | frame bytes nowNs =>
          have undecoded : (decodeClientCommand bytes).command = none := carried
          rw [Exchange.call, Exchange.call, processFrame, processFrame, undecoded]
          rfl
  | some cmd =>
      rw [call_carried _ carried, call_carried _ carried]
      exact applySequenced_unjournaled exchange.numbered _ true true

/-- The record of a call brings an exchange that keeps no journal to the same
state, with the same outcome. -/
theorem replay_sequence {live after : Exchange} {outcome : Outcome}
    (carried : call.command? = some cmd) (ran : live.call call = .ok (after, outcome)) :
    live.unjournaled.replay (live.sequence cmd call.nowNs) = .ok (after.unjournaled, outcome) := by
  rw [replay, applySequenced_unjournaled live _ true,
    applySequenced_due, ← call_carried live carried, ran]
  rfl

/-- If every call carries a command, the records of a run make the whole exchange,
its numbers and feed included. -/
theorem run_records {writer : JournalWriter} {live final : Exchange} {calls : List ExchangeCall}
    {outcomes : List Outcome} (carry : ∀ call ∈ calls, call.command?.isSome = true)
    (journaled : live.journal = some writer)
    (ran : run Exchange.call live calls = .ok (final, outcomes)) :
    ∃ records, final.journal = some { out := writer.out ++ records.flatMap encodeRecord } ∧
      run replay live.unjournaled records = .ok (final.unjournaled, outcomes) := by
  induction calls generalizing live outcomes writer with
  | nil =>
      rw [run_nil, Except.ok.injEq, Prod.mk.injEq] at ran
      obtain ⟨rfl, rfl⟩ := ran
      exact ⟨[], by rw [List.flatMap_nil, List.append_nil]; exact journaled, rfl⟩
  | cons call calls ih =>
      obtain ⟨after, outcome, rest, stepped, later, rfl⟩ := run_cons_ok ran
      obtain ⟨cmd, carried⟩ := Option.isSome_iff_exists.mp (carry call List.mem_cons_self)
      have applied := (call_carried live carried).symm.trans stepped
      have appended := applySequenced_journal applied
      rw [if_pos rfl, show live.numbered.journal = some writer from journaled,
        Option.map_some] at appended
      obtain ⟨records, file, replayed⟩ :=
        ih (fun other member => carry other (List.mem_cons_of_mem call member)) appended later
      refine ⟨live.sequence cmd call.nowNs :: records, ?_,
        run_cons (replay_sequence carried stepped) replayed⟩
      rw [file, JournalWriter.append, List.flatMap_cons, List.append_assoc]

/-- An exchange recovered from the journal of a run of commands takes over: it is
the live one but for the journal, and answers every further call as that would. -/
theorem run_resumes {cfg : ExchangeConfig} {fresh live : Exchange} {calls : List ExchangeCall}
    {outcomes : List Outcome} (created : Exchange.create cfg = some (.ok fresh))
    (journaled : cfg.journalPath.isSome = true)
    (carry : ∀ call ∈ calls, call.command?.isSome = true)
    (ran : run Exchange.call fresh calls = .ok (live, outcomes)) :
    ∃ writer records ended replica recovered, live.journal = some writer ∧
      Reads (JournalReader.create writer.out) records ended ∧ ended.error = none ∧
      Exchange.create { cfg with journalPath := none } = some (.ok replica) ∧
      run replay replica records = .ok (recovered, outcomes) ∧
      recovered = { live with journal := none } ∧ ∀ more, run Exchange.call recovered more =
        (run Exchange.call live more).map fun made =>
          ({ made.1 with journal := none }, made.2) := by
  obtain ⟨path, named⟩ := Option.isSome_iff_exists.mp journaled
  have started : fresh.journal = some .create := by
    rw [(create_ok created).2, named]
    rfl
  obtain ⟨records, file, replayed⟩ := run_records carry started ran
  exact ⟨_, records, _, _, live.unjournaled, file, reads_file records, rfl,
    create_copy created none, replayed, rfl, run_map call_unjournaled live⟩

theorem run_resumes_twoBids : ∃ live outcomes, run Exchange.call oneSymbol twoBids =
    .ok (live, outcomes) ∧ ∃ writer records ended replica recovered, live.journal = some writer ∧
      Reads (JournalReader.create writer.out) records ended ∧ ended.error = none ∧
      Exchange.create { oneSymbolConfig with journalPath := none } = some (.ok replica) ∧
      run replay replica records = .ok (recovered, outcomes) ∧
      recovered = { live with journal := none } ∧ ∀ more, run Exchange.call recovered more =
        (run Exchange.call live more).map fun made =>
          ({ made.1 with journal := none }, made.2) := by
  have returns : (run Exchange.call oneSymbol twoBids).toOption.isSome = true := by decide +kernel
  obtain ⟨result, returned⟩ := Option.isSome_iff_exists.mp returns
  have ran := ok_of_toOption returned
  exact ⟨result.1, result.2, ran, run_resumes oneSymbol_created rfl (by decide) ran⟩

end

end

end Exchange

end Exsim.Core
