import Mathlib.Data.List.Nodup
import Mathlib.Algebra.BigOperators.Group.List.Basic
import Mathlib.Algebra.GroupWithZero.Nat

namespace Exsim.Data.Keyed

/-! # Lists of entries told apart by a key

The list order is meaningful and every operation keeps it.  At most one entry
carries a key as long as the list is `Distinct`.
-/

def Distinct {Entry Key : Type} (key : Entry → Key) (entries : List Entry) : Prop :=
  (entries.map key).Nodup

section

variable {Entry Key : Type} {key : Entry → Key} {entries : List Entry}

theorem Distinct.eq (distinct : Distinct key entries) {left right : Entry}
    (leftMember : left ∈ entries) (rightMember : right ∈ entries) (same : key left = key right) :
    left = right :=
  List.inj_on_of_nodup_map distinct leftMember rightMember same

theorem Distinct.filter (distinct : Distinct key entries) (keep : Entry → Bool) :
    Distinct key (entries.filter keep) :=
  List.Nodup.sublist ((List.filter_sublist).map key) distinct

theorem Distinct.filter_key [DecidableEq Key] (distinct : Distinct key entries) {entry : Entry}
    (member : entry ∈ entries) :
    entries.filter (fun other => key other = key entry) = [entry] := by
  obtain ⟨front, back, rfl⟩ := List.append_of_mem member
  rw [Distinct, List.map_append, List.map_cons, List.nodup_middle,
    List.nodup_cons, ← List.map_append] at distinct
  have apart : ∀ other ∈ front ++ back, key other ≠ key entry := fun other member same =>
    distinct.1 (same ▸ List.mem_map_of_mem member)
  have before : front.filter (fun other => key other = key entry) = [] := by
    simpa using fun other member => apart other (List.mem_append_left back member)
  have after : back.filter (fun other => key other = key entry) = [] := by
    simpa using fun other member => apart other (List.mem_append_right front member)
  rw [List.filter_append, List.filter_cons, if_pos (by simp), before, after, List.nil_append]

end

section

variable {Entry Key : Type} [DecidableEq Key] (key : Entry → Key)

def find (k : Key) (entries : List Entry) : Option Entry := entries.find? fun entry => key entry = k

def holds (k : Key) (entries : List Entry) : Bool := (find key k entries).isSome

/-- The list without the entry of key `k`. -/
def erase (k : Key) (entries : List Entry) : List Entry := entries.filter fun entry => key entry ≠ k

/-- Rewrites the entry of key `k` in its place. -/
def adjust (k : Key) (change : Entry → Entry) (entries : List Entry) : List Entry :=
  entries.map fun entry => if key entry = k then change entry else entry

end

section

variable {Entry Key : Type} [DecidableEq Key] {key : Entry → Key} {entries front back : List Entry}
  {entry : Entry} {k other : Key} {change : Entry → Entry}

theorem find_eq_none : find key k entries = none ↔ ∀ entry ∈ entries, key entry ≠ k := by
  simp [find]

theorem holds_iff : holds key k entries = true ↔ ∃ entry ∈ entries, key entry = k := by
  simp [holds, find]

theorem holds_eq_false : holds key k entries = false ↔ ∀ entry ∈ entries, key entry ≠ k := by
  rw [← find_eq_none, holds, Option.isSome_eq_false_iff, Option.isNone_iff_eq_none]

theorem mem_of_find (found : find key k entries = some entry) :
    entry ∈ entries ∧ key entry = k := by
  refine ⟨List.mem_of_find?_eq_some found, ?_⟩
  simpa using List.find?_some found

theorem Distinct.find_eq_some (distinct : Distinct key entries) :
    find key k entries = some entry ↔ entry ∈ entries ∧ key entry = k := by
  refine ⟨mem_of_find, ?_⟩
  rintro ⟨member, rfl⟩
  cases found : find key (key entry) entries with
  | none => exact absurd rfl (find_eq_none.mp found entry member)
  | some first =>
      obtain ⟨firstMember, same⟩ := mem_of_find found
      rw [distinct.eq firstMember member same]

theorem Distinct.push (distinct : Distinct key entries)
    (fresh : holds key (key entry) entries = false) :
    Distinct key (entries ++ [entry]) := by
  rw [Distinct, List.map_append, List.nodup_append]
  refine ⟨distinct, List.nodup_singleton _, ?_⟩
  intro left leftMember right rightMember
  obtain ⟨first, firstMember, rfl⟩ := List.mem_map.mp leftMember
  rw [List.map_singleton, List.mem_singleton] at rightMember
  rw [rightMember]
  exact holds_eq_false.mp fresh first firstMember

theorem holds_push : holds key k (entries ++ [entry]) =
    (holds key k entries || decide (key entry = k)) := by
  rw [Bool.eq_iff_iff, Bool.or_eq_true, holds_iff, holds_iff, decide_eq_true_iff]
  simp only [List.mem_append, List.mem_singleton]
  constructor
  · rintro ⟨first, member | rfl, same⟩
    · exact .inl ⟨first, member, same⟩
    · exact .inr same
  · rintro (⟨first, member, same⟩ | same)
    · exact ⟨first, .inl member, same⟩
    · exact ⟨entry, .inr rfl, same⟩

section Erase

theorem mem_erase : entry ∈ erase key k entries ↔ entry ∈ entries ∧ key entry ≠ k := by
  simp [erase]

theorem Distinct.erase (distinct : Distinct key entries) (k : Key) :
    Distinct key (Keyed.erase key k entries) :=
  distinct.filter _

theorem filter_erase (keep : Entry → Bool) :
    (erase key k entries).filter keep = erase key k (entries.filter keep) :=
  List.filter_comm _ _ _

theorem erase_eq_self (absent : holds key k entries = false) : erase key k entries = entries := by
  rw [erase, List.filter_eq_self]
  simpa using holds_eq_false.mp absent

theorem holds_erase : holds key other (erase key k entries) =
    (holds key other entries && decide (other ≠ k)) := by
  rw [Bool.eq_iff_iff, Bool.and_eq_true, holds_iff, holds_iff, decide_eq_true_iff]
  constructor
  · rintro ⟨first, member, rfl⟩
    obtain ⟨member, different⟩ := mem_erase.mp member
    exact ⟨⟨first, member, rfl⟩, different⟩
  · rintro ⟨⟨first, member, rfl⟩, different⟩
    exact ⟨first, mem_erase.mpr ⟨member, different⟩, rfl⟩

theorem Distinct.erase_middle (distinct : Distinct key (front ++ entry :: back)) :
    Keyed.erase key (key entry) (front ++ entry :: back) = front ++ back := by
  rw [Distinct, List.map_append, List.map_cons, List.nodup_middle,
    List.nodup_cons, ← List.map_append] at distinct
  have apart : ∀ other ∈ front ++ back, key other ≠ key entry := fun other member same =>
    distinct.1 (List.mem_map.mpr ⟨other, member, same⟩)
  rw [Keyed.erase, List.filter_append, List.filter_cons_of_neg (by simp)]
  rw [List.filter_eq_self.mpr, List.filter_eq_self.mpr]
  · exact fun other member => by simpa using apart other (by simp [member])
  · exact fun other member => by simpa using apart other (by simp [member])

/-- What an entry weighs is what its erasure takes away. -/
theorem Distinct.sum_erase (distinct : Distinct key entries) (member : entry ∈ entries)
    (weight : Entry → Nat) :
    ((Keyed.erase key (key entry) entries).map weight).sum + weight entry =
      (entries.map weight).sum := by
  obtain ⟨front, back, rfl⟩ := List.append_of_mem member
  rw [distinct.erase_middle]
  simp only [List.map_append, List.map_cons, List.sum_append, List.sum_cons]
  omega

theorem Distinct.length_erase (distinct : Distinct key entries) (member : entry ∈ entries) :
    (Keyed.erase key (key entry) entries).length + 1 = entries.length := by
  obtain ⟨front, back, rfl⟩ := List.append_of_mem member
  rw [distinct.erase_middle]
  simp only [List.length_append, List.length_cons]
  omega

end Erase

section Adjust

theorem length_adjust : (adjust key k change entries).length = entries.length := by
  rw [adjust, List.length_map]

theorem mem_adjust : entry ∈ adjust key k change entries ↔
    ∃ before ∈ entries, (if key before = k then change before else before) = entry := by
  rw [adjust, List.mem_map]

theorem map_adjust (sameKey : ∀ entry, key (change entry) = key entry) :
    (adjust key k change entries).map key = entries.map key := by
  rw [adjust, List.map_map]
  apply List.map_congr_left
  intro entry _
  rw [Function.comp_apply]
  split
  · exact sameKey entry
  · rfl

theorem Distinct.adjust (distinct : Distinct key entries)
    (sameKey : ∀ entry, key (change entry) = key entry) :
    Distinct key (Keyed.adjust key k change entries) := by
  rwa [Distinct, map_adjust sameKey]

theorem holds_adjust (sameKey : ∀ entry, key (change entry) = key entry) :
    holds key other (adjust key k change entries) = holds key other entries := by
  have keys : ∀ list : List Entry, holds key other list = decide (other ∈ list.map key) := by
    intro list
    rw [Bool.eq_iff_iff, holds_iff, decide_eq_true_iff, List.mem_map]
  rw [keys, keys, map_adjust sameKey]

theorem filter_adjust {keep : Entry → Bool} (sameKeep : ∀ entry, keep (change entry) = keep entry) :
    (adjust key k change entries).filter keep = adjust key k change (entries.filter keep) := by
  induction entries with
  | nil => rfl
  | cons entry rest ih =>
      have head : keep (if key entry = k then change entry else entry) = keep entry := by
        split
        · exact sameKeep entry
        · rfl
      simp only [adjust, List.map_cons, List.filter_cons, head] at ih ⊢
      rw [ih]
      split <;> rfl

theorem adjust_eq_self (absent : holds key k entries = false) :
    adjust key k change entries = entries := by
  rw [adjust]
  conv_rhs => rw [← List.map_id entries]
  apply List.map_congr_left
  intro entry member
  rw [if_neg (holds_eq_false.mp absent entry member), id]

theorem adjust_congr {change' : Entry → Entry}
    (same : ∀ entry ∈ entries, key entry = k → change entry = change' entry) :
    adjust key k change entries = adjust key k change' entries := by
  apply List.map_congr_left
  intro entry member
  split
  · rename_i isKey
    exact same entry member isKey
  · rfl

/-- Erasing a rewritten entry. -/
theorem erase_adjust (sameKey : ∀ entry, key (change entry) = key entry) :
    erase key k (adjust key k change entries) = erase key k entries := by
  induction entries with
  | nil => rfl
  | cons entry rest ih =>
      simp only [erase, adjust, List.map_cons, List.filter_cons] at ih ⊢
      rw [ih]
      split
      · rename_i isKey
        simp [sameKey, isKey]
      · rfl

theorem Distinct.adjust_middle (distinct : Distinct key (front ++ entry :: back)) :
    Keyed.adjust key (key entry) change (front ++ entry :: back) = front ++
      change entry :: back := by
  rw [Distinct, List.map_append, List.map_cons, List.nodup_middle,
    List.nodup_cons, ← List.map_append] at distinct
  have apart : ∀ list, (∀ other ∈ list, other ∈ front ++ back) →
      Keyed.adjust key (key entry) change list = list := by
    intro list inside
    apply adjust_eq_self
    rw [holds_eq_false]
    exact fun other member same => distinct.1 (List.mem_map.mpr ⟨other, inside other member, same⟩)
  have frontKept := apart front fun other member => by simp [member]
  have backKept := apart back fun other member => by simp [member]
  simp only [Keyed.adjust] at frontKept backKept ⊢
  rw [List.map_append, List.map_cons, frontKept, backKept, if_pos rfl]

theorem Distinct.sum_adjust (distinct : Distinct key entries) (member : entry ∈ entries)
    (weight : Entry → Nat) :
    ((Keyed.adjust key (key entry) change entries).map weight).sum + weight entry =
      (entries.map weight).sum + weight (change entry) := by
  obtain ⟨front, back, rfl⟩ := List.append_of_mem member
  rw [distinct.adjust_middle]
  simp only [List.map_append, List.map_cons, List.sum_append, List.sum_cons]
  omega

end Adjust

section Map

variable (sameKey : ∀ entry, key (change entry) = key entry)
include sameKey

theorem find_map (k : Key) (entries : List Entry) :
    find key k (entries.map change) = (find key k entries).map change := by
  rw [find, find, List.find?_map]
  congr 2
  funext entry
  rw [Function.comp_apply, sameKey]

theorem holds_map (k : Key) (entries : List Entry) :
    holds key k (entries.map change) = holds key k entries := by
  rw [holds, find_map sameKey, Option.isSome_map, holds]

theorem erase_map (k : Key) (entries : List Entry) :
    erase key k (entries.map change) = (erase key k entries).map change := by
  rw [erase, List.filter_map, erase]
  congr 2
  funext entry
  rw [Function.comp_apply, sameKey]

/-- Rewriting an entry before or after another change to all of them. -/
theorem adjust_map (other : Entry → Entry)
    (swap : ∀ entry, other (change entry) = change (other entry)) (k : Key)
    (entries : List Entry) : adjust key k other (entries.map change) =
      (adjust key k other entries).map change := by
  rw [adjust, adjust, List.map_map, List.map_map]
  refine List.map_congr_left fun entry _ => ?_
  rw [Function.comp_apply, Function.comp_apply, sameKey, swap]
  split <;> rfl

end Map

end

end Exsim.Data.Keyed
