import Exsim.Core.Risk
import Exsim.Data.Reorder

/-! # The risk checksum and the order of the account table

The table is unordered, so its checksum is taken over some enumeration of it.
-/

namespace Exsim.Core.RiskEngine

open Data

/-- An order in which the account table may be enumerated: each entry once. -/
structure Enumerates (risk : RiskEngine) (entries : List (AccountId × AccountState)) : Prop where
  once : (entries.map Prod.fst).Nodup
  listed : ∀ id state, (id, state) ∈ entries ↔ risk.accounts.lookup id = some state

def counters (state : AccountState) : UInt32 × UInt64 := (state.openOrders, state.openNotional)

/-- The same accounts with the same counters. -/
def SameCounters (left right : RiskEngine) : Prop :=
  ∀ id, (right.accounts.lookup id).map counters = (left.accounts.lookup id).map counters

section

variable {risk other : RiskEngine} {entries swapped : List (AccountId × AccountState)}
    {left right : List (AccountId × AccountState)}

theorem Enumerates.perm (left : risk.Enumerates entries) (right : risk.Enumerates swapped) :
    swapped.Perm entries := by
  refine (List.perm_ext_iff_of_nodup (List.Nodup.of_map _ right.once)
    (List.Nodup.of_map _ left.once)).mpr ?_
  rintro ⟨id, state⟩
  rw [left.listed, right.listed]

theorem Enumerates.reorder (enumerates : risk.Enumerates entries) (order : swapped.Perm entries) :
    risk.Enumerates swapped := by
  refine ⟨(order.map _).nodup_iff.mpr enumerates.once, fun id state => ?_⟩
  rw [order.mem_iff]
  exact enumerates.listed id state

/-- The entries in the same order, with the states of another table. -/
def realign (risk : RiskEngine) (entries : List (AccountId × AccountState)) :
    List (AccountId × AccountState) :=
  entries.map fun entry => (entry.1, risk.account entry.1)

/-- An account of one table has a state with the same counters in the other. -/
theorem SameCounters.found (same : SameCounters risk other) {id : AccountId} {state : AccountState}
    (found : other.accounts.lookup id = some state) :
    risk.accounts.lookup id = some (risk.account id) ∧
    counters (risk.account id) = counters state := by
  have counted := same id
  rw [found, Option.map_some] at counted
  rw [account]
  cases own : risk.accounts.lookup id with
  | none =>
      rw [own] at counted
      cases counted
  | some mine =>
      rw [own, Option.map_some, Option.some.injEq] at counted
      exact ⟨rfl, counted.symm⟩

theorem Enumerates.realign (enumerates : other.Enumerates entries)
    (same : SameCounters risk other) :
    risk.Enumerates (risk.realign entries) := by
  refine ⟨?_, fun id state => ?_⟩
  · rw [RiskEngine.realign, List.map_map]
    exact enumerates.once
  · rw [RiskEngine.realign, List.mem_map]
    constructor
    · rintro ⟨⟨account, theirs⟩, member, made⟩
      obtain ⟨rfl, rfl⟩ := Prod.mk.inj made
      exact (same.found ((enumerates.listed _ _).mp member)).1
    · intro found
      have counted := same id
      rw [found, Option.map_some] at counted
      obtain ⟨theirs, present, -⟩ := Option.map_eq_some_iff.mp counted
      refine ⟨(id, theirs), (enumerates.listed _ _).mpr present, ?_⟩
      rw [account, found]
      rfl

theorem SameCounters.checksumOf_realign (same : SameCounters risk other)
    (enumerates : other.Enumerates entries) :
    checksumOf (risk.realign entries) = checksumOf entries := by
  rw [checksumOf, checksumOf, realign, List.foldl_map]
  refine List.foldl_ext _ _ _ fun h entry member => ?_
  obtain ⟨-, counted⟩ := same.found ((enumerates.listed entry.1 entry.2).mp member)
  obtain ⟨orders, notional⟩ := Prod.mk.inj counted
  dsimp only
  rw [orders, notional]

end

/-- Whether no enumeration of a table with the same counters has another checksum. -/
def Orderless (risk : RiskEngine) : Prop :=
  ∀ other left right, SameCounters risk other → risk.Enumerates left → other.Enumerates right →
  checksumOf left = checksumOf right

def OneAccount (risk : RiskEngine) : Prop :=
  ∀ left right, (risk.accounts.lookup left).isSome → (risk.accounts.lookup right).isSome →
    left = right

/-- No enumeration has another checksum exactly if no swap of neighbours changes one. -/
theorem orderless_iff_commute (risk : RiskEngine) :
    risk.Orderless ↔ ∀ entries, risk.Enumerates entries → NeighboursCommute checksumOf entries := by
  constructor
  · intro alike entries enumerates
    refine orderless_iff.mp fun left right leftOrder rightOrder => ?_
    exact alike risk left right (fun _ => rfl) (enumerates.reorder leftOrder)
      (enumerates.reorder rightOrder)
  · intro commute other left right same leftEnumerates rightEnumerates
    have realigned := rightEnumerates.realign same
    rw [← same.checksumOf_realign rightEnumerates]
    exact orderless_iff.mpr (commute left leftEnumerates) left _ (.refl _)
      (leftEnumerates.perm realigned)

/-- A table of one account has one enumeration. -/
theorem commute_of_oneAccount {risk : RiskEngine} {entries : List (AccountId × AccountState)}
    (enumerates : risk.Enumerates entries)
    (one : risk.OneAccount) : NeighboursCommute checksumOf entries := by
  refine commute_of_length_le_one ?_
  obtain ⟨once, listed⟩ := enumerates
  have held : ∀ entry ∈ entries, (risk.accounts.lookup entry.1).isSome := by
    intro entry member
    rw [(listed entry.1 entry.2).mp member]
    rfl
  match entries with
  | [] => exact Nat.zero_le 1
  | [_] => exact Nat.le_refl 1
  | first :: second :: rest =>
      have same := one first.1 second.1 (held _ (by simp)) (held _ (by simp))
      simp [same] at once

/-- The checksum of at most one account does not depend on the enumeration. -/
theorem checksum_orderless {risk : RiskEngine} (one : risk.OneAccount) : risk.Orderless :=
  (orderless_iff_commute risk).mpr fun _ enumerates => commute_of_oneAccount enumerates one

/-- An account with an open order. -/
def seenOnce : RiskEngine :=
  let risk : RiskEngine := { limits := {} }
  risk.onMarketData { type := .add, accountId := 1, price := 1, qty := 1 } true

def oneOpen : AccountState := { openOrders := 1, openNotional := 1 }

theorem seenOnce_accounts : seenOnce.accounts = Finmap.insert 1 oneOpen ∅ := by
  decide +kernel

theorem seenOnce_oneAccount : seenOnce.OneAccount := by
  have only : ∀ id, (seenOnce.accounts.lookup id).isSome → id = 1 := by
    intro id held
    by_contra other
    rw [seenOnce_accounts, Finmap.lookup_insert_of_ne _ other, Finmap.lookup_empty] at held
    cases held
  exact fun left right leftHeld rightHeld => (only left leftHeld).trans (only right rightHeld).symm

theorem checksum_orderless_seenOnce : (seenOnce.accounts.lookup 1).isSome ∧ seenOnce.Orderless :=
  ⟨by decide +kernel, checksum_orderless seenOnce_oneAccount⟩

/-- Two accounts seen in the order given, with an open order each. -/
def seen (first second : AccountId) : RiskEngine :=
  let risk : RiskEngine := { limits := {} }
  let risk := risk.onMarketData { type := .add, accountId := first, price := 1, qty := 1 } true
  risk.onMarketData { type := .add, accountId := second, price := 1, qty := 1 } true

theorem seen_accounts : (seen 1 2).accounts = Finmap.insert 1 oneOpen (Finmap.insert 2 oneOpen ∅) ∧
    (seen 2 1).accounts = Finmap.insert 1 oneOpen (Finmap.insert 2 oneOpen ∅) := by
  decide +kernel

/-- Either order enumerates a table of two accounts. -/
theorem enumerates_two {risk : RiskEngine} {first second : AccountId} (different : first ≠ second)
    (table : risk.accounts = Finmap.insert first oneOpen (Finmap.insert second oneOpen ∅)) :
    risk.Enumerates [(first, oneOpen), (second, oneOpen)] ∧
    risk.Enumerates [(second, oneOpen), (first, oneOpen)] := by
  have enumerates : risk.Enumerates [(first, oneOpen), (second, oneOpen)] := by
    refine ⟨by simp [different], fun id state => ?_⟩
    rw [table]
    by_cases isFirst : id = first
    · subst isFirst
      rw [Finmap.lookup_insert]
      simp [eq_comm]
    · rw [Finmap.lookup_insert_of_ne _ isFirst]
      by_cases isSecond : id = second
      · subst isSecond
        rw [Finmap.lookup_insert]
        simp [eq_comm]
      · rw [Finmap.lookup_insert_of_ne _ isSecond, Finmap.lookup_empty]
        simp [isFirst, isSecond]
  exact ⟨enumerates, enumerates.reorder (.swap _ _ _)⟩

/-- Two accounts, seen in either order: the same table can have two checksums. -/
theorem checksum_shows_enumeration :
    ¬ ∀ left right leftEntries rightEntries, SameCounters left right → left.Enumerates leftEntries →
      right.Enumerates rightEntries → checksumOf leftEntries = checksumOf rightEntries := by
  intro alike
  obtain ⟨left, right⟩ := seen_accounts
  have same : SameCounters (seen 1 2) (seen 2 1) := fun id => by rw [left, right]
  have equal :=
    alike _ _ _ _ same (enumerates_two (by decide) left).1 (enumerates_two (by decide) right).2
  exact absurd equal (by decide +kernel)

end Exsim.Core.RiskEngine
