import Exsim.Exchange.Restart
import Exsim.Exchange.Specification

/-! # Journals that do not replay

A command is journaled before it is looked at.  One that throws is in the journal
like any other, and throws again in every replay that comes to it.
-/

namespace Exsim.Core

open Data Journal

namespace Exchange

/-- Some outcome is an exception. -/
def Throws (outcomes : List Outcome) : Prop := ∃ exception, .threw exception ∈ outcomes

section

variable {cfg : ExchangeConfig} {fresh replica exchange live recovered : Exchange}
  {reader ended : JournalReader} {calls : List ExchangeCall} {records : List SequencedCommand}
  {outcomes replayed : List Outcome} {file : Bytes}

theorem not_throws : ¬Throws outcomes ↔ ∀ outcome ∈ outcomes, ∃ result, outcome =
    .returned result := by
  constructor
  · intro never outcome member
    cases outcome with
    | returned result => exact ⟨result, rfl⟩
    | threw exception => exact absurd ⟨exception, member⟩ never
  · intro returned threw
    obtain ⟨exception, member⟩ := threw
    obtain ⟨result, same⟩ := returned _ member
    cases same

/-- Exceptions are among the answers. -/
theorem throws_iff : Throws outcomes ↔ ∃ exception,
    .error exception ∈ outcomes.map Outcome.answer := by
  constructor
  · rintro ⟨exception, member⟩
    exact ⟨exception, List.mem_map.mpr ⟨_, member, rfl⟩⟩
  · rintro ⟨exception, member⟩
    obtain ⟨outcome, listed, same⟩ := List.mem_map.mp member
    cases outcome with
    | returned result => cases same
    | threw other => exact ⟨other, listed⟩

/-- The replay loop ends with the first record that throws. -/
theorem replayLoop_throws {fuel : Nat} (reads : Reads reader records ended)
    (enough : records.length ≤ fuel) (ran : run replay exchange records = .ok (recovered, replayed))
    (throws : Throws replayed) (counted : Nat) :
    ∃ exception, replayLoop fuel exchange reader counted = .ok (.error exception) := by
  induction reads generalizing fuel exchange replayed counted with
  | done finished =>
      rw [run_nil, Except.ok.injEq, Prod.mk.injEq] at ran
      obtain ⟨exception, member⟩ := throws
      rw [← ran.2] at member
      cases member
  | @more _ _ _ _ sc read later ih =>
      obtain ⟨after, outcome, rest, applied, tail, rfl⟩ := run_cons_ok ran
      cases fuel with
      | zero => cases enough
      | succ fuel =>
          have applied : exchange.applySequenced sc false = .ok (after, outcome) := applied
          rw [replayLoop, read]
          dsimp only
          rw [applied, exec_ok_bind]
          cases outcome with
          | threw exception => exact ⟨exception, rfl⟩
          | returned result =>
              obtain ⟨exception, member⟩ := throws
              obtain same | member := List.mem_cons.mp member
              · cases same
              · exact ih (Nat.le_of_succ_le_succ enough) tail ⟨exception, member⟩ _

/-- Replaying a file throws exactly if one of its records does. -/
theorem replayJournal_throws
    (copied : Exchange.create { cfg with journalPath := none } = some (.ok replica))
    (reads : Reads (JournalReader.create file) records ended)
    (enough : records.length ≤ file.length)
    (ran : run replay replica records = .ok (recovered, replayed)) :
    (∃ exception, replayJournal file cfg = some (.ok (.error exception))) ↔ Throws replayed := by
  constructor
  · rintro ⟨exception, failed⟩
    by_contra never
    -- a replay that returns ends with a report, or does not get past the checksum
    rw [replayJournal_returned copied reads enough ran (not_throws.mp never)] at failed
    have failed := Option.some.inj failed
    split at failed
    · cases failed
    · cases hashed : recovered.books.checksum with
      | error fault =>
          rw [hashed] at failed
          cases failed
      | ok h =>
          rw [hashed] at failed
          cases failed
  · intro throws
    have opened : (JournalReader.create file).error = none := by
      by_contra unopened
      obtain ⟨rfl, -⟩ := reads.unique (reads_broken (Option.isSome_iff_ne_none.mpr unopened))
      rw [run_nil, Except.ok.injEq, Prod.mk.injEq] at ran
      obtain ⟨exception, member⟩ := throws
      rw [← ran.2] at member
      cases member
    obtain ⟨exception, looped⟩ := replayLoop_throws reads enough ran throws 0
    refine ⟨exception, ?_⟩
    rw [replayJournal, copied, Option.map_some]
    dsimp only
    rw [opened]
    dsimp only
    rw [looped, exec_ok_bind]

/-- Only a call that carried a command throws. -/
theorem run_throws (ran : run Exchange.call exchange calls = .ok (live, outcomes)) :
    Throws (sequenced calls outcomes) ↔ Throws outcomes := by
  induction calls generalizing exchange outcomes with
  | nil =>
      rw [run_nil, Except.ok.injEq, Prod.mk.injEq] at ran
      rw [← ran.2]
      rfl
  | cons call calls ih =>
      obtain ⟨after, outcome, rest, stepped, later, rfl⟩ := run_cons_ok ran
      have behind := ih later
      cases carried : call.command? with
      | some cmd =>
          have kept : sequenced (call :: calls) (outcome :: rest) =
              outcome :: sequenced calls rest := by
            simp [sequenced, carried]
          rw [kept, Throws, Throws]
          simp only [List.mem_cons, exists_or]
          exact or_congr_right behind
      | none =>
          obtain ⟨reason, -, rejected⟩ := call_undecoded exchange carried
          obtain ⟨-, rfl⟩ := Prod.mk.inj (Except.ok.inj (stepped.symm.trans rejected))
          have kept (outcome : Outcome) :
              sequenced (call :: calls) (outcome :: rest) = sequenced calls rest := by
            simp [sequenced, carried]
          rw [kept, behind, Throws, Throws]
          simp

/-- A replay throws exactly if the run did. -/
theorem Recovers.throws {earlier : Exchange}
    (recovers : Recovers exchange replica earlier recovered calls outcomes records replayed)
    (ran : run Exchange.call exchange calls = .ok (live, outcomes)) :
    Throws replayed ↔ Throws outcomes := by
  rw [← run_throws ran, throws_iff, throws_iff, recovers.answers]

/-- Wherever the file of a run is cut, the replay throws exactly if the cut leaves
the record of a call that threw.  So once a command has thrown, every restart from
a file with its record fails. -/
theorem crash_fails (created : Exchange.create cfg = some (.ok fresh))
    (journaled : cfg.journalPath.isSome = true)
    (ran : run Exchange.call fresh calls = .ok (live, outcomes)) (size : Nat) :
    ∃ writer, live.journal = some writer ∧
      ((∃ exception, replayJournal (writer.out.take size) cfg = some (.ok (.error exception))) ↔
        ∃ k earlier written, run Exchange.call fresh (calls.take k) =
          .ok (earlier, outcomes.take k) ∧ earlier.journal = some written ∧
          written.out.length ≤ size ∧ Throws (outcomes.take k)) := by
  have copied := create_copy created none
  obtain ⟨path, named⟩ := Option.isSome_iff_exists.mp journaled
  have started : fresh.journal = some .create := by
    rw [(create_ok created).2, named]
    rfl
  obtain ⟨records, file, count, fronts⟩ :=
    run_recovers_fronts (create_alike created copied).1 started ran
  obtain ⟨kept, ended, reads, within, most, least, -⟩ := reads_cut_file records size
  obtain ⟨k, inside, counted⟩ :=
    exists_take_countP (fun call => call.command?.isSome) calls (count ▸ within)
  obtain ⟨earlier, recovered, replayed, front, written, recovers⟩ := fronts k
  rw [show recorded (calls.take k) = kept from counted] at written recovers
  have enough : (records.take kept).length ≤ ((fileOf records).take size).length := by
    have shorter := (fileOf_take_isPrefix records kept).length_le
    have fits := length_le_fileOf (records.take kept)
    rw [List.length_take (i := size)]
    rw [List.length_take] at fits ⊢
    omega
  have failing := replayJournal_throws copied reads enough recovers.ran
  refine ⟨_, file, failing.trans ⟨fun throws => ?_, ?_⟩⟩
  · refine ⟨k, earlier, _, front, written, ?_, (recovers.throws front).mp throws⟩
    obtain fits | ⟨rfl, -⟩ := least
    · exact fits
    · have nothing := recovers.ran
      rw [List.take_zero, run_nil, Except.ok.injEq, Prod.mk.injEq] at nothing
      obtain ⟨exception, member⟩ := throws
      rw [← nothing.2] at member
      cases member
  · rintro ⟨other, earlier', written', front', made, fits, throws⟩
    obtain ⟨_, recovered', replayed', ran', made', recovers'⟩ := fronts other
    obtain ⟨rfl, -⟩ := Prod.mk.inj (Except.ok.inj (front'.symm.trans ran'))
    obtain rfl := Option.some.inj (made.symm.trans made')
    have fewer : recorded (calls.take other) ≤ records.length :=
      count ▸ (List.take_sublist other calls).countP_le
    have first : recorded (calls.take other) ≤ kept := most _ fewer fits
    have split : records.take kept = records.take (recorded (calls.take other)) ++
        (records.take kept).drop (recorded (calls.take other)) := by
      have halves := List.take_append_drop (recorded (calls.take other)) (records.take kept)
      rw [List.take_take, Nat.min_eq_left first] at halves
      exact halves.symm
    have whole := recovers.ran
    rw [split] at whole
    obtain ⟨_, begun, rest, firstRan, -, rfl⟩ := run_append_ok whole
    obtain ⟨-, rfl⟩ := Prod.mk.inj (Except.ok.inj (firstRan.symm.trans recovers'.ran))
    obtain ⟨exception, member⟩ := (recovers'.throws front').mpr throws
    exact ⟨exception, List.mem_append_left _ member⟩

/-- The third call, a bid for a symbol that does not exist, keeps the file from replaying. -/
theorem crash_fails_fourCalls : ∃ live outcomes, run Exchange.call oneSymbol fourCalls =
    .ok (live, outcomes) ∧ ∃ writer, live.journal = some writer ∧
      ((∃ exception, replayJournal (writer.out.take 200) oneSymbolConfig =
        some (.ok (.error exception))) ↔ ∃ k earlier written,
      run Exchange.call oneSymbol (fourCalls.take k) = .ok (earlier, outcomes.take k) ∧
          earlier.journal = some written ∧ written.out.length ≤ 200 ∧
          Throws (outcomes.take k)) := by
  have returns : (run Exchange.call oneSymbol fourCalls).toOption.isSome = true := by decide +kernel
  obtain ⟨⟨live, outcomes⟩, returned⟩ := Option.isSome_iff_exists.mp returns
  have ran := ok_of_toOption returned
  exact ⟨live, outcomes, ran, crash_fails oneSymbol_created rfl ran 200⟩

end

end Exchange

end Exsim.Core
