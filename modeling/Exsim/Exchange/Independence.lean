import Exsim.Data.Interleave
import Exsim.Exchange.Interference

/-! # Independent flows do not interfere

Two streams of commands that share no symbol, no account and no order: while no
book runs out of slots, the commands of one stream are answered, and leave their
books, accounts and index entries, as if the other stream were not there.
-/

namespace Exsim.Core

open Data Journal

namespace Exchange

/-- Two streams of commands that name no symbol, order or account in common. -/
structure Independent (left right : List TimedCommand) : Prop where
  symbols : ∀ one ∈ left, ∀ other ∈ right, ∀ symbol ∈ one.1.newSymbols, symbol ∉ other.1.newSymbols
  ids : ∀ one ∈ left, ∀ other ∈ right, ∀ id ∈ one.1.orderIds, id ∉ other.1.orderIds
  accounts : ∀ one ∈ left, ∀ other ∈ right, one.1.accountId ≠ other.1.accountId

/-- Two exchanges that agree on the books, index entries and accounts of a stream. -/
structure Unaffected (stream : List TimedCommand) (both alone : Exchange) : Prop where
  books : ∀ input ∈ stream, ∀ symbol ∈ input.1.newSymbols, alone.books.findBook symbol =
      both.books.findBook symbol
  index : ∀ input ∈ stream, ∀ id ∈ input.1.orderIds,
    alone.books.orderToSymbol.lookup id = both.books.orderToSymbol.lookup id
  accounts : ∀ input ∈ stream, alone.risk.accounts.lookup input.1.accountId =
      both.risk.accounts.lookup input.1.accountId

/-- All that the commands of a stream name. -/
def laneOf (stream : List TimedCommand) : Lane where
  symbols symbol := stream.any fun input => input.1.newSymbols.contains symbol
  ids id := stream.any fun input => input.1.orderIds.contains id
  accounts account := stream.any fun input => input.1.accountId = account

section

variable {left right : List TimedCommand} {input : TimedCommand} {both alone : Exchange}

theorem laneOf_carries (member : input ∈ left) : (laneOf left).Carries true input.1 := by
  constructor
  · intro symbol named
    exact List.any_eq_true.mpr ⟨input, member, List.contains_iff_mem.mpr named⟩
  · intro id named
    exact List.any_eq_true.mpr ⟨input, member, List.contains_iff_mem.mpr named⟩
  · exact List.any_eq_true.mpr ⟨input, member, decide_eq_true rfl⟩

theorem Independent.carries (independent : Independent left right) (member : input ∈ right) :
    (laneOf left).Carries false input.1 := by
  constructor
  · intro symbol named
    refine List.any_eq_false.mpr fun one other both => ?_
    exact independent.symbols one other input member symbol (List.contains_iff_mem.mp both) named
  · intro id named
    refine List.any_eq_false.mpr fun one other both => ?_
    exact independent.ids one other input member id (List.contains_iff_mem.mp both) named
  · refine List.any_eq_false.mpr fun one other both => ?_
    exact independent.accounts one other input member (of_decide_eq_true both)

theorem SameLane.unaffected (same : SameLane (laneOf left) both alone) :
    Unaffected left both alone := by
  have carries : ∀ input ∈ left, (laneOf left).Carries true input.1 :=
    fun input member => laneOf_carries member
  refine ⟨fun input member symbol named => ?_, fun input member id named => ?_,
    fun input member => ?_⟩
  · rw [BookManager.findBook, BookManager.findBook, BookManager.validSymbol, same.books.maxSymbol,
      same.books.books symbol ((carries input member).symbols symbol named)]
    rfl
  · exact same.books.index id ((carries input member).ids id named)
  · exact same.risk.accounts _ (carries input member).account

end

/-- However two independent streams interleave, while no book runs out of slots
the one is answered as on its own, and leaves what it names as on its own. -/
theorem run_independent {cfg : ExchangeConfig} {fresh : Exchange} {left right : List TimedCommand}
    {merged : List (TimedCommand ⊕ TimedCommand)} (created : Exchange.create cfg = some (.ok fresh))
    (independent : Independent left right) (interleaved : Interleaves left right merged)
    (known : ∀ input ∈ left ++ right, ∀ symbol ∈ input.1.newSymbols,
      fresh.books.validSymbol symbol = true)
    (room : Along command (fun exchange _ => exchange.books.HasRoom) fresh (merged.map untagged)) :
    ∃ both outcomes alone aloneOutcomes, run command fresh (merged.map untagged) =
      .ok (both, outcomes) ∧ run command fresh left = .ok (alone, aloneOutcomes) ∧
      aloneOutcomes.map Outcome.unnumbered = (leftOutputs merged outcomes).map Outcome.unnumbered ∧
      Unaffected left both alone := by
  obtain ⟨rfl, rfl⟩ := interleaved
  have follow : ∀ both alone input, InStep (laneOf (lefts merged)) fresh both alone →
      input ∈ lefts merged → both.books.HasRoom →
      ∃ after outcome aloneAfter aloneOutcome, both.command input = .ok (after, outcome) ∧
        alone.command input = .ok (aloneAfter, aloneOutcome) ∧
        aloneOutcome.unnumbered = outcome.unnumbered ∧
        InStep (laneOf (lefts merged)) fresh after aloneAfter :=
    fun both alone input inStep member room =>
      inStep.follow room (known input (List.mem_append_left _ member)) (laneOf_carries member)
  have frame : ∀ both alone input, InStep (laneOf (lefts merged)) fresh both alone →
      input ∈ rights merged → both.books.HasRoom →
      ∃ after outcome, both.command input = .ok (after, outcome) ∧
        InStep (laneOf (lefts merged)) fresh after alone :=
    fun both alone input inStep member room =>
      inStep.frame room (known input (List.mem_append_right _ member)) (independent.carries member)
  obtain ⟨both, outcomes, alone, aloneOutcomes, ran, aloneRan, alike, ends⟩ :=
    run_interleaved follow frame (create_inStep created _) (fun _ member => member)
      (fun _ member => member) room
  exact ⟨both, outcomes, alone, aloneOutcomes, ran, aloneRan, alike, ends.same.unaffected⟩

section Pair

def pairConfig : ExchangeConfig := { maxSymbol := 2, ladder := { minPrice := 1, maxPrice := 1 } }

/-- A new exchange of two symbols with a single price. -/
def pair : Exchange where
  ladder := pairConfig.ladder
  books := {
    maxSymbol := 2
    ladder := pairConfig.ladder
    books := #[0, 1, 2].map fun symbolId => { OrderBook.oneTick with symbolId } }
  risk := { limits := {} }

theorem pair_created : Exchange.create pairConfig = some (.ok pair) := by
  decide +kernel

/-- A bid that is cancelled once the other stream has traded. -/
def twoFlows : List (TimedCommand ⊕ TimedCommand) := [
  .inl ({ orderId := 7, accountId := 1, symbolId := 1, price := 1, qty := 5 }, 0),
  .inr ({ orderId := 8, accountId := 2, symbolId := 2, price := 1, qty := 3 }, 1),
  .inr ({ orderId := 9, accountId := 3, symbolId := 2, side := .sell, price := 1, qty := 3 }, 2),
  .inl ({ type := .cancel, accountId := 1, cancelOrderId := 7 }, 3)]

theorem twoFlows_independent : Independent (lefts twoFlows) (rights twoFlows) := by
  have cancel : CommandType.cancel ≠ .new := by decide
  constructor <;>
    simp [twoFlows, lefts, rights, ClientCommand.newSymbols, ClientCommand.orderIds, cancel]

theorem twoFlows_known : ∀ input ∈ lefts twoFlows ++ rights twoFlows, ∀ symbol ∈ input.1.newSymbols,
    pair.books.validSymbol symbol = true := by
  have cancel : CommandType.cancel ≠ .new := by decide
  have one : pair.books.validSymbol 1 = true := by decide
  have two : pair.books.validSymbol 2 = true := by decide
  simp [twoFlows, lefts, rights, ClientCommand.newSymbols, cancel, one, two]

theorem run_independent_pair : ∃ both outcomes alone aloneOutcomes,
    run command pair (twoFlows.map untagged) = .ok (both, outcomes) ∧
      run command pair (lefts twoFlows) = .ok (alone, aloneOutcomes) ∧
      aloneOutcomes.map Outcome.unnumbered =
        (leftOutputs twoFlows outcomes).map Outcome.unnumbered ∧
      Unaffected (lefts twoFlows) both alone :=
  run_independent pair_created twoFlows_independent ⟨rfl, rfl⟩ twoFlows_known (by decide +kernel)

end Pair

/-- A bid of account zero on the other symbol. -/
def watched : TimedCommand :=
  ({ orderId := 0xFFFFFFFFFFFFFFFF, symbolId := 2, price := 1, qty := 1 }, 0)

/-- One bid for each slot and two more, a cancel of the last and a cancel of the `k`-th. -/
def crowd (count k : Nat) : List TimedCommand :=
  (List.range (count + 2)).map (fun k => bidInput (UInt64.ofNat k) (bidder k)) ++
    [cancelInput (UInt64.ofNat (count + 1)) 3, cancelInput (UInt64.ofNat k) 4]

section

variable {count k : Nat} {input : TimedCommand}

theorem watched_fills : ∃ alone outcome, pair.command watched = .ok (alone, outcome) ∧
    Filling alone 0 := by
  let state : AccountState := { openOrders := 1, openNotional := 1, recentMsgs := [0] }
  have ends : (pair.command watched).toOption.map (fun done =>
      (done.1.books.maxSymbol, done.1.books.books[1]?, done.1.risk)) =
        some
          (2, some OrderBook.oneTick, { limits := {}, accounts := Finmap.insert 0 state ∅ }) := by
    decide +kernel
  obtain ⟨⟨alone, outcome⟩, ran, ends⟩ := ok_of_map ends
  obtain ⟨maxSymbol, ends⟩ := Prod.mk.inj ends
  obtain ⟨stored, risk⟩ := Prod.mk.inj ends
  have risk : alone.risk = { limits := {}, accounts := Finmap.insert 0 state ∅ } := risk
  have own : alone.risk.account 0 = state := by
    rw [risk, RiskEngine.account, Finmap.lookup_insert]
    rfl
  have others : ∀ account, account ≠ 0 → alone.risk.account account = {} := by
    intro account other
    rw [risk, RiskEngine.account, Finmap.lookup_insert_of_ne _ other, Finmap.lookup_empty]
    rfl
  refine ⟨alone, outcome, ran, ⟨OrderBook.oneTick, ⟨maxSymbol, stored, ?_⟩, ?_⟩, ?_, ?_, ?_, ?_⟩
  · rw [risk]
  · exact (OrderBook.create_spec OrderBook.oneTick_created).1
  · rw [own]
  · intro account positive
    refine others account ?_
    rintro rfl
    exact absurd positive (Nat.lt_irrefl 0)
  · intro account
    by_cases zero : account = 0
    · subst zero
      exact ⟨by rw [own]; exact Nat.le_refl 1, by rw [own]; exact Nat.le_refl 1⟩
    · exact ⟨by rw [others account zero]; exact Nat.zero_le 1, by
        rw [others account zero]; exact Nat.zero_le 1⟩
  · intro k below
    exact absurd below (Nat.not_lt_zero k)

/-- Every command of the crowd is for symbol one, by another account and for
another order than the watched one. -/
theorem crowd_apart (small : count + 1 < 2 ^ 64 - 1) (earlier : k < count)
    (member : input ∈ crowd count k) :
    (∀ symbol ∈ input.1.newSymbols, symbol = 1) ∧
    (∀ id ∈ input.1.orderIds, id ≠ 0xFFFFFFFFFFFFFFFF) ∧ input.1.accountId ≠ 0 := by
  have apart : ∀ j, j ≤ count + 1 → UInt64.ofNat j ≠ 0xFFFFFFFFFFFFFFFF := by
    intro j bound same
    have values := congrArg UInt64.toNat same
    rw [UInt64.toNat_ofNat', Nat.mod_eq_of_lt (by omega)] at values
    have last : (0xFFFFFFFFFFFFFFFF : UInt64).toNat = 2 ^ 64 - 1 := rfl
    omega
  have three : (3 : AccountId) ≠ 0 := by decide
  have four : (4 : AccountId) ≠ 0 := by decide
  rw [crowd, List.mem_append, List.mem_map] at member
  rcases member with ⟨j, among, rfl⟩ | member
  · have below := List.mem_range.mp among
    refine ⟨fun symbol named => List.mem_singleton.mp named, fun id named => ?_,
      (bidder_ne_zero j).symm⟩
    rw [List.mem_singleton.mp named]
    exact apart j (by omega)
  · rcases List.mem_pair.mp member with rfl | rfl
    · refine ⟨fun symbol named => absurd named List.not_mem_nil, fun id named => ?_, three⟩
      rw [List.mem_singleton.mp named]
      exact apart _ (Nat.le_refl _)
    · refine ⟨fun symbol named => absurd named List.not_mem_nil, fun id named => ?_, four⟩
      rw [List.mem_singleton.mp named]
      exact apart k (by omega)

theorem crowd_independent (small : count + 1 < 2 ^ 64 - 1) (earlier : k < count) :
    Independent [watched] (crowd count k) := by
  constructor
  · intro one own other member symbol named theirs
    obtain rfl := List.mem_singleton.mp own
    rw [List.mem_singleton.mp named] at theirs
    exact absurd ((crowd_apart small earlier member).1 _ theirs) (by decide)
  · intro one own other member id named theirs
    obtain rfl := List.mem_singleton.mp own
    rw [List.mem_singleton.mp named] at theirs
    exact (crowd_apart small earlier member).2.1 _ theirs rfl
  · intro one own other member
    obtain rfl := List.mem_singleton.mp own
    exact (crowd_apart small earlier member).2.2.symm

/-- The crowd takes the watched order off the count of its account. -/
theorem run_crowd (full : count = kNull.toNat) :
    ∃ k < count, ∃ both outcomes alone aloneOutcomes, run command pair (watched :: crowd count k) =
      .ok (both, outcomes) ∧ run command pair [watched] = .ok (alone, aloneOutcomes) ∧
      (both.risk.account 0).openOrders = 0 ∧ (alone.risk.account 0).openOrders = 1 := by
  obtain ⟨alone, outcome, stepped, filling⟩ := watched_fills
  obtain ⟨filled, outcomes, ran, filling'⟩ := filling.fill (Nat.le_of_eq full)
  obtain ⟨k, earlier, both, last, finishes, emptied⟩ := filling'.interferes full
  refine ⟨k, earlier, both, outcome :: (outcomes ++ last), alone, [outcome], run_cons stepped ?_,
    run_cons stepped run_nil, emptied, filling.watched⟩
  have inputs :
      crowd count k = (List.range count).map (fun k => bidInput (UInt64.ofNat k) (bidder k)) ++
      [bidInput (UInt64.ofNat count) (bidder count),
        bidInput (UInt64.ofNat (count + 1)) (bidder (count + 1)),
        cancelInput (UInt64.ofNat (count + 1)) 3, cancelInput (UInt64.ofNat k) 4] := by
    rw [crowd, List.range_succ, List.range_succ]
    simp only [List.map_append, List.map_cons, List.map_nil, List.append_assoc, List.cons_append,
      List.nil_append]
  rw [inputs]
  exact run_append ran finishes

end

/-- Two streams with no symbol, order or account in common can still interfere:
after `2^32 + 1` bids for the one symbol, two cancels take the open order of an
account that only traded the other. -/
theorem flows_interfere_at_exhaustion :
    Exchange.create pairConfig = some (.ok pair) ∧
    ∃ k, Independent [watched] (crowd (2 ^ 32 - 1) k) ∧
      (∀ input ∈ [watched] ++ crowd (2 ^ 32 - 1) k, ∀ symbol ∈ input.1.newSymbols,
        pair.books.validSymbol symbol = true) ∧ ∃ merged both outcomes alone aloneOutcomes,
      Interleaves [watched] (crowd (2 ^ 32 - 1) k) merged ∧
        run command pair (merged.map untagged) = .ok (both, outcomes) ∧
        run command pair [watched] = .ok (alone, aloneOutcomes) ∧
        ¬ Unaffected [watched] both alone := by
  have limit : 2 ^ 32 - 1 = kNull.toNat := by decide
  rw [limit]
  obtain ⟨k, earlier, both, outcomes, alone, aloneOutcomes, ran, aloneRan, emptied, kept⟩ :=
    run_crowd (rfl : kNull.toNat = kNull.toNat)
  have small : kNull.toNat + 1 < 2 ^ 64 - 1 := by decide
  refine ⟨pair_created, k, crowd_independent small earlier, ?_,
    [watched].map Sum.inl ++ (crowd kNull.toNat k).map Sum.inr,
    both, outcomes, alone, aloneOutcomes, interleaves_append _ _, ?_, aloneRan, ?_⟩
  · intro input member symbol named
    rcases List.mem_append.mp member with own | among
    · obtain rfl := List.mem_singleton.mp own
      rw [List.mem_singleton.mp named]
      decide
    · rw [(crowd_apart small earlier among).1 symbol named]
      decide
  · rw [untagged_append, List.singleton_append]
    exact ran
  · intro unaffected
    have same : alone.risk.account 0 = both.risk.account 0 := by
      rw [RiskEngine.account, RiskEngine.account]
      exact congrArg (Option.getD · {}) (unaffected.accounts watched (List.mem_singleton_self _))
    rw [same, emptied] at kept
    cases kept

end Exchange

end Exsim.Core
