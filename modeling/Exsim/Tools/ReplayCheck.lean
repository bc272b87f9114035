import Exsim.Exchange.Relaxation
import Exsim.Exchange.Restart

/-! # The replay check

The program replays a journal on the default ladder and under the default
limits, whatever those of the exchange that wrote it were, and prints what it
finds.  The path stands for the bytes of its file and the argument for what
`std::stoul` makes of it.
-/

open Exsim.Core Exsim.Data Exsim.Journal

namespace Exsim.Tools

/-- The exit code and the lines printed. -/
structure Printed where
  code : Nat
  lines : List String
deriving DecidableEq, Repr

def print (result : ReplayResult) : Printed :=
  match result.error with
  | some message => { code := 1, lines := ["replay error: " ++ message] }
  | none =>
      { code := 0
        lines :=
          ["records=" ++ toString result.records, "book_checksum=" ++ toString result.bookChecksum,
          "md_checksum=" ++ toString result.mdChecksum] }

/-- `none` where the constructor of the exchange does not return. -/
def main (file : Bytes) (maxSymbol : UInt64) : Option (Exec (Except Thrown Printed)) :=
  (replayJournal file { maxSymbol := maxSymbol.toUInt32 }).map fun ran => ran.map fun result =>
    result.map print

section

variable {cfg : ExchangeConfig} {fresh after : Exchange} {calls : List ExchangeCall}
  {outcomes : List Outcome}

theorem default_book (symbol : SymbolId) :
    ∃ book, OrderBook.create symbol (BookManager.symbolLadder {} symbol) = .ok book := by
  rw [BookManager.symbolLadder_flat rfl]
  exact ⟨_, rfl⟩

/-- An exchange of the same symbols on the default ladder and under the default limits. -/
theorem default_returns (created : Exchange.create cfg = some (.ok fresh)) :
    ∃ lax, Exchange.create { maxSymbol := cfg.maxSymbol, journalPath := cfg.journalPath } =
      some (.ok lax) := by
  have ends : cfg.maxSymbol ≠ 0xFFFFFFFF := by
    intro largest
    have built := (Exchange.create_ok created).1
    rw [BookManager.create, if_pos largest] at built
    cases built
  obtain ⟨books, built⟩ := BookManager.create_returns ends default_book
  rw [Exchange.create, built]
  exact ⟨_, rfl⟩

/-- The check prints the records and the checksums of the exchange that wrote the
journal in a run in which every call carried a command, no call threw and no price
and no limit was refused, if its ladders and limits are within the default ones and
its rate window is the default one.  No book may run out of slots on the way, and
no level total leave its counter. -/
theorem main_confirms {maxSymbol : UInt64} (created : Exchange.create cfg = some (.ok fresh))
    (journaled : cfg.journalPath.isSome = true) (symbols : maxSymbol.toUInt32 = cfg.maxSymbol)
    (ladders : cfg.ladder.Within {} cfg.maxSymbol) (within : cfg.riskLimits.Within {})
    (guarded : Along Exchange.call
      (fun exchange input => exchange.books.HasRoom ∧ exchange.overfills input = false) fresh calls)
    (carry : ∀ call ∈ calls, call.command?.isSome = true)
    (ran : run Exchange.call fresh calls = .ok (after, outcomes))
    (taken : ∀ outcome ∈ outcomes, ∃ result, outcome = .returned result ∧
      result.ack.reason.limits = false) :
    ∃ writer books, after.journal = some writer ∧ after.books.checksum = .ok books ∧
      main writer.out maxSymbol = some (.ok (.ok {
        code := 0
        lines := ["records=" ++ toString calls.length, "book_checksum=" ++ toString books,
          "md_checksum=" ++ toString after.mdChecksum] })) := by
  obtain ⟨path, opened⟩ := Option.isSome_iff_exists.mp journaled
  obtain ⟨lax, laxCreated⟩ := default_returns created
  have unlimited : ∀ outcome ∈ outcomes, outcome.limited = false := by
    intro outcome member
    obtain ⟨result, rfl, fine⟩ := taken outcome member
    exact fine
  obtain ⟨later, last, laxRan, kept⟩ :=
    (Exchange.create_beside created laxCreated rfl ladders within).run guarded ran unlimited
  have started : ∀ {config : ExchangeConfig} {made : Exchange}, Exchange.create config =
      some (.ok made) → config.journalPath = some path → made.journal = some .create := by
    intro config made created opened
    rw [(Exchange.create_ok created).2, opened]
    rfl
  -- The records of both journals are those of one specification.
  obtain ⟨written, file, -⟩ := Exchange.run_records carry (started created opened) ran
  obtain ⟨records, laxFile, replayed⟩ :=
    Exchange.run_records carry (started laxCreated opened) laxRan
  have same : fileOf written = fileOf records :=
    (kept.here.journal _ file).trans (kept.there.journal _ laxFile).symm
  have count : records.length = calls.length := (run_length replayed).symm.trans (run_length laxRan)
  have copied := Exchange.create_copy laxCreated none
  have returned : ∀ outcome ∈ outcomes, ∃ result, outcome =
      .returned result := fun outcome member => (taken outcome member).imp fun _ both => both.1
  obtain ⟨report, replays, length, clean, checksums⟩ :=
    Exchange.replayJournal_reads copied (reads_file records)
    (Exchange.length_le_fileOf records) replayed returned kept.there.models.checksum
  obtain ⟨books, feed⟩ := checksums clean
  have printed : print report = {
      code := 0
      lines :=
        ["records=" ++ toString calls.length, "book_checksum=" ++ toString later.books.digest,
        "md_checksum=" ++ toString after.mdChecksum] } := by
    have sameFeed : later.mdChecksum = after.mdChecksum := by
      rw [kept.here.mdChecksum, kept.there.mdChecksum]
      rfl
    rw [print, clean, length, count, books, feed, ← sameFeed]
    rfl
  refine ⟨_, later.books.digest, file, kept.checksum.symm.trans kept.there.models.checksum, ?_⟩
  have checked : replayJournal (fileOf written) { maxSymbol := cfg.maxSymbol } =
      some (.ok (.ok report)) := by
    rw [same]
    exact replays
  rw [main, symbols, ← printed]
  exact congrArg (Option.map _) checked

end

theorem main_confirms_bidAndAsk : ∃ after outcomes writer books,
    run Exchange.call Exchange.oneSymbol Exchange.bidAndAsk = .ok (after, outcomes) ∧
    after.journal = some writer ∧ after.books.checksum = .ok books ∧
    main writer.out 1 = some (.ok (.ok {
        code := 0
        lines :=
          ["records=" ++ toString Exchange.bidAndAsk.length, "book_checksum=" ++ toString books,
          "md_checksum=" ++ toString after.mdChecksum] })) := by
  have fine : ((run Exchange.call Exchange.oneSymbol Exchange.bidAndAsk).toOption.map fun result =>
      result.2.all fun outcome => outcome.answer.toOption.isSome && !outcome.limited) =
      some true := by decide +kernel
  obtain ⟨⟨after, outcomes⟩, ran, fine⟩ := ok_of_map fine
  have ladders : Exchange.oneSymbolConfig.ladder.Within {} Exchange.oneSymbolConfig.maxSymbol := by
    intro symbol _ _
    rw [BookManager.symbolLadder_flat rfl, BookManager.symbolLadder_flat rfl]
    decide
  have taken : ∀ outcome ∈ outcomes, ∃ result, outcome = .returned result ∧
      result.ack.reason.limits = false := by
    intro outcome member
    have good := List.all_eq_true.mp fine outcome member
    cases outcome with
    | returned result => exact ⟨result, rfl, Bool.not_eq_true' _ ▸ (Bool.and_eq_true_iff.mp good).2⟩
    | threw exception => cases good
  obtain ⟨writer, books, confirmed⟩ :=
    main_confirms Exchange.oneSymbol_created rfl (show UInt64.toUInt32 1 = 1 from rfl) ladders
    ⟨by decide, by decide, by decide, by decide, rfl⟩ (by decide +kernel)
    (by decide +kernel) ran taken
  exact ⟨after, outcomes, writer, books, ran, confirmed⟩

end Exsim.Tools
