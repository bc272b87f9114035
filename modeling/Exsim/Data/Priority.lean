import Mathlib.Data.List.Sort
import Mathlib.Algebra.BigOperators.Group.List.Basic
import Mathlib.Algebra.GroupWithZero.Nat

/-! # Queues by rank, served first come first served

Entries rank by a total preorder; entries of one rank keep their order of
arrival, so the queue of a list is its insertion sort.  A quantity wanted from a
queue is allotted from the front: every entry gives what it has until nothing is
left to give.
-/

namespace Exsim.Data.Priority

section Rank

variable {Entry : Type} (rank : Entry → Entry → Prop) [DecidableRel rank]

/-- Puts an arrival behind the entries that rank at least as well as it does. -/
def place (entry : Entry) : List Entry → List Entry
  | [] => [entry]
  | other :: queue =>
      if rank other entry then other :: place entry queue else entry :: other :: queue

variable {rank} {entry other : Entry} {entries queue front back : List Entry}

theorem mem_place : other ∈ place rank entry queue ↔ other = entry ∨ other ∈ queue := by
  induction queue with
  | nil => rw [place, List.mem_singleton, or_iff_left List.not_mem_nil]
  | cons ahead queue ih =>
      rw [place]
      split
      · rw [List.mem_cons, ih, List.mem_cons]
        exact or_left_comm
      · rw [List.mem_cons]

theorem orderedInsert_behind (behind : ∀ ahead ∈ front, ¬rank entry ahead) :
    List.orderedInsert rank entry (front ++ back) = front ++
      List.orderedInsert rank entry back := by
  induction front with
  | nil => rfl
  | cons ahead front ih =>
      rw [List.cons_append, List.orderedInsert_of_not_le rank _ (behind ahead List.mem_cons_self),
        ih fun other member => behind other (List.mem_cons_of_mem ahead member), List.cons_append]

theorem orderedInsert_front (before : ∀ other ∈ queue, rank entry other) :
    List.orderedInsert rank entry queue = entry :: queue := by
  cases queue with
  | nil => rfl
  | cons other queue =>
      exact List.orderedInsert_cons_of_le rank queue (before other List.mem_cons_self)

/-- A queue kept as one list for each rank, the ranks in order. -/
theorem flatMap_ranks {Rank : Type} [DecidableEq Rank] (rankOf : Entry → Rank) {ranks : List Rank}
    (entries : List Entry) (listed : ∀ entry ∈ entries, rankOf entry ∈ ranks)
    (apart : ranks.Pairwise fun better worse => ∀ entry ∈ entries, ∀ other ∈ entries,
      rankOf entry = better → rankOf other = worse → rank entry other ∧ ¬rank other entry)
    (equal : ∀ entry ∈ entries, ∀ other ∈ entries, rankOf entry = rankOf other → rank entry other) :
    ranks.flatMap (fun tier => entries.filter fun entry => rankOf entry = tier) =
      entries.insertionSort rank := by
  induction entries with
  | nil => simp
  | cons entry entries ih =>
      have later : ∀ {other}, other ∈ entries → other ∈ entry :: entries :=
        List.mem_cons_of_mem entry
      rw [List.insertionSort_cons, ← ih (fun other member => listed other (later member))
        (apart.imp fun pair one oneMember two twoMember =>
          pair one (later oneMember) two (later twoMember))
        fun one oneMember two twoMember => equal one (later oneMember) two (later twoMember)]
      obtain ⟨better, worse, rfl⟩ := List.append_of_mem (listed entry List.mem_cons_self)
      obtain ⟨-, tierOrWorse, beyond⟩ := List.pairwise_append.mp apart
      obtain ⟨below, -⟩ := List.pairwise_cons.mp tierOrWorse
      have self := List.mem_cons_self (a := entry) (l := entries)
      have elsewhere : ∀ others : List Rank, rankOf entry ∉ others →
          others.flatMap (fun tier => (entry :: entries).filter fun other => rankOf other = tier) =
            others.flatMap fun tier => entries.filter fun other => rankOf other = tier := by
        intro others absent
        refine List.flatMap_congr fun tier member => ?_
        rw [List.filter_cons, if_neg]
        rw [decide_eq_true_iff]
        exact fun same => absent (same ▸ member)
      have notBetter : rankOf entry ∉ better := fun member =>
        (beyond _ member _ List.mem_cons_self entry self entry self rfl rfl).2
          (equal entry self entry self rfl)
      have notWorse : rankOf entry ∉ worse := fun member =>
        (below _ member entry self entry self rfl rfl).2 (equal entry self entry self rfl)
      rw [List.flatMap_append, List.flatMap_append, List.flatMap_cons, List.flatMap_cons,
        elsewhere better notBetter, elsewhere worse notWorse, List.filter_cons,
        if_pos (by rw [decide_eq_true_iff]), orderedInsert_behind,
        orderedInsert_front, List.cons_append]
      · intro other member
        obtain member | member := List.mem_append.mp member
        · obtain ⟨member, same⟩ := List.mem_filter.mp member
          exact equal entry self other (later member) (of_decide_eq_true same).symm
        · obtain ⟨tier, listed, member⟩ := List.mem_flatMap.mp member
          obtain ⟨member, same⟩ := List.mem_filter.mp member
          exact (below tier listed entry self other (later member) rfl (of_decide_eq_true same)).1
      · intro other member
        obtain ⟨tier, listed, member⟩ := List.mem_flatMap.mp member
        obtain ⟨member, same⟩ := List.mem_filter.mp member
        exact (beyond tier listed _ List.mem_cons_self other (later member) entry self
          (of_decide_eq_true same) rfl).2

variable [trans : IsTrans Entry rank]

theorem filter_orderedInsert (keep : Entry → Bool) (sorted : queue.Pairwise rank)
    (kept : keep entry = true) :
    (List.orderedInsert rank entry queue).filter keep =
      List.orderedInsert rank entry (queue.filter keep) := by
  induction queue with
  | nil => rw [List.orderedInsert_nil, List.filter_cons, if_pos kept, List.filter_nil,
        List.orderedInsert_nil]
  | cons other queue ih =>
      obtain ⟨least, sorted⟩ := List.pairwise_cons.mp sorted
      by_cases first : rank entry other
      · rw [List.orderedInsert_cons_of_le rank queue first, List.filter_cons_of_pos kept]
        refine (orderedInsert_front fun later member => ?_).symm
        obtain rfl | member := List.mem_cons.mp (List.mem_of_mem_filter member)
        · exact first
        · exact trans.trans _ _ _ first (least later member)
      · rw [List.orderedInsert_of_not_le rank queue first, List.filter_cons,
          List.filter_cons, ih sorted]
        split
        · rw [List.orderedInsert_of_not_le rank _ first]
        · rfl

variable [total : Std.Total rank]

theorem place_pairwise (sorted : queue.Pairwise rank) : (place rank entry queue).Pairwise rank := by
  induction queue with
  | nil => exact List.pairwise_singleton rank entry
  | cons ahead queue ih =>
      obtain ⟨least, sorted⟩ := List.pairwise_cons.mp sorted
      rw [place]
      split
      · rename_i first
        refine List.pairwise_cons.mpr ⟨fun other member => ?_, ih sorted⟩
        obtain rfl | member := mem_place.mp member
        · exact first
        · exact least other member
      · rename_i later
        have first := (total.total entry ahead).resolve_right later
        refine List.pairwise_cons.mpr
          ⟨fun other member => ?_, List.pairwise_cons.mpr ⟨least, sorted⟩⟩
        obtain rfl | member := List.mem_cons.mp member
        · exact first
        · exact trans.trans _ _ _ first (least other member)

/-- An earlier arrival and a later one are put into a queue in either order. -/
theorem orderedInsert_place (earlier later : Entry) (queue : List Entry) :
    List.orderedInsert rank earlier (place rank later queue) =
      place rank later (List.orderedInsert rank earlier queue) := by
  induction queue with
  | nil => rfl
  | cons other queue ih =>
      by_cases first : rank earlier other
      · rw [List.orderedInsert_cons_of_le rank queue first, place]
        by_cases ahead : rank other later
        · rw [if_pos ahead, List.orderedInsert_cons_of_le rank _ first, place,
            if_pos (trans.trans _ _ _ first ahead), place, if_pos ahead]
        · rw [if_neg ahead, List.orderedInsert_cons, place, place, if_neg ahead,
            List.orderedInsert_cons_of_le rank queue first]
      · rw [List.orderedInsert_of_not_le rank queue first, place, place]
        have before := (total.total earlier other).resolve_left first
        by_cases ahead : rank other later
        · rw [if_pos ahead, if_pos ahead, List.orderedInsert_of_not_le rank _ first, ih]
        · rw [if_neg ahead, if_neg ahead, List.orderedInsert_of_not_le rank _ fun sooner =>
            ahead (trans.trans _ _ _ before sooner), List.orderedInsert_of_not_le rank _ first]

/-- The last arrival goes behind the entries that rank at least as well. -/
theorem insertionSort_push (entries : List Entry) (entry : Entry) :
    (entries ++ [entry]).insertionSort rank = place rank entry (entries.insertionSort rank) := by
  induction entries with
  | nil => rfl
  | cons earlier entries ih =>
      rw [List.cons_append, List.insertionSort_cons, ih, orderedInsert_place,
        List.insertionSort_cons]

/-- Taking entries out keeps the rest in place. -/
theorem insertionSort_filter (keep : Entry → Bool) (entries : List Entry) :
    (entries.filter keep).insertionSort rank = (entries.insertionSort rank).filter keep := by
  induction entries with
  | nil => rfl
  | cons entry entries ih =>
      rw [List.insertionSort_cons, List.filter_cons]
      split
      · rename_i kept
        rw [List.insertionSort_cons, ih,
          filter_orderedInsert keep (List.pairwise_insertionSort rank entries) kept]
      · rename_i dropped
        have skip : ∀ queue : List Entry, (List.orderedInsert rank entry queue).filter keep =
            queue.filter keep := by
          intro queue
          induction queue with
          | nil => rw [List.orderedInsert_nil, List.filter_cons, if_neg dropped]
          | cons other queue inner =>
              rw [List.orderedInsert_cons]
              split
              · rw [List.filter_cons, if_neg dropped]
              · rw [List.filter_cons, inner, ← List.filter_cons]
        rw [skip, ih]

/-- The front of the queue is the earliest arrival of the best rank. -/
theorem head?_insertionSort (entries : List Entry) :
    (entries.insertionSort rank).head? = entries.find? fun entry => entries.all fun other =>
      rank entry other := by
  induction entries with
  | nil => rfl
  | cons entry entries ih =>
      have self : rank entry entry := (total.total entry entry).elim id id
      have sorted := List.pairwise_insertionSort rank entries
      rw [List.insertionSort_cons]
      by_cases first : ∀ other ∈ entries, rank entry other
      · -- No earlier arrival ranks better, so it is both in front and found first.
        rw [orderedInsert_front fun other member =>
          first other ((List.mem_insertionSort rank).mp member),
          List.head?_cons, List.find?_cons_of_pos]
        simpa [self] using first
      · obtain ⟨better, refused⟩ := not_forall.mp first
        obtain ⟨member, refused⟩ := Classical.not_imp.mp refused
        have before : rank better entry := (total.total entry better).resolve_left refused
        have skipped : ¬(entry :: entries).all (fun other => decide (rank entry other)) = true := by
          simpa [self] using ⟨better, member, refused⟩
        have agree : (fun other => (entry :: entries).all fun each => decide (rank other each)) =
            fun other => entries.all fun each => decide (rank other each) := by
          funext other
          rw [List.all_cons, Bool.eq_iff_iff, Bool.and_eq_true, decide_eq_true_iff]
          exact and_iff_right_of_imp fun best =>
            trans.trans _ _ _ (of_decide_eq_true (List.all_eq_true.mp best better member)) before
        rw [List.find?_cons_of_neg (by exact skipped), agree, ← ih]
        cases listed : entries.insertionSort rank with
        | nil =>
            rw [← List.mem_insertionSort rank, listed] at member
            cases member
        | cons best queue =>
            rw [← List.mem_insertionSort rank, listed] at member
            rw [listed] at sorted
            have ahead : rank best better := by
              obtain rfl | member := List.mem_cons.mp member
              · exact (total.total better better).elim id id
              · exact (List.pairwise_cons.mp sorted).1 better member
            rw [List.orderedInsert_of_not_le rank queue fun sooner =>
              refused (trans.trans _ _ _ sooner ahead), List.head?_cons, List.head?_cons]

end Rank

section Allotment

variable {Entry : Type} (size : Entry → Nat)

def total (entries : List Entry) : Nat := (entries.map size).sum

/-- What each entry gives of the quantity wanted, until it is given. -/
def allot (want : Nat) : List Entry → List (Entry × Nat)
  | [] => []
  | entry :: queue =>
      if want = 0 then [] else (entry, min (size entry) want) :: allot (want - size entry) queue

/-- What the quantity wanted leaves of a queue. -/
def deplete (lessen : Entry → Nat → Entry) (want : Nat) : List Entry → List Entry
  | [] => []
  | entry :: queue =>
      if want = 0 then entry :: queue
      else if size entry ≤ want then deplete lessen (want - size entry) queue
      else lessen entry want :: queue

variable {size} {lessen : Entry → Nat → Entry} {entry : Entry} {queue : List Entry} {want : Nat}

@[simp] theorem total_nil : total size ([] : List Entry) = 0 := rfl

@[simp] theorem total_cons : total size (entry :: queue) = size entry + total size queue := by
  rw [total, List.map_cons, List.sum_cons, total]

@[simp] theorem allot_zero (queue : List Entry) : allot size 0 queue = [] := by
  cases queue with
  | nil => rfl
  | cons => rw [allot, if_pos rfl]

@[simp] theorem deplete_zero (queue : List Entry) : deplete size lessen 0 queue = queue := by
  cases queue with
  | nil => rfl
  | cons => rw [deplete, if_pos rfl]

/-- The entries of a queue are asked in order: each gives what it has, as far as
those ahead of it leave something wanted. -/
theorem getElem?_allot (want : Nat) (queue : List Entry) (i : Nat) :
    (allot size want queue)[i]? = if total size (queue.take i) < want then
      queue[i]?.map fun entry => (entry, min (size entry) (want - total size (queue.take i)))
        else none := by
  induction queue generalizing want i with
  | nil =>
      rw [allot, List.getElem?_nil, List.getElem?_nil, Option.map_none, ite_self]
  | cons entry queue ih =>
      rw [allot]
      by_cases given : want = 0
      · rw [if_pos given, if_neg (by omega), List.getElem?_nil]
      · rw [if_neg given]
        cases i with
        | zero => rw [List.take_zero, total_nil, if_pos (Nat.pos_of_ne_zero given)]; rfl
        | succ i =>
            rw [List.getElem?_cons_succ, ih, List.take_succ_cons, total_cons,
              List.getElem?_cons_succ, Nat.sub_sub]
            by_cases more : size entry + total size (queue.take i) < want
            · rw [if_pos more, if_pos (by omega)]
            · rw [if_neg more, if_neg (by omega)]

/-- All that is wanted is given, or all there is. -/
theorem sum_allot (want : Nat) (queue : List Entry) :
    ((allot size want queue).map Prod.snd).sum = min want (total size queue) := by
  induction queue generalizing want with
  | nil => rw [allot, List.map_nil, List.sum_nil, total_nil, Nat.min_zero]
  | cons entry queue ih =>
      rw [allot, total_cons]
      by_cases given : want = 0
      · rw [if_pos given, given, List.map_nil, List.sum_nil, Nat.zero_min]
      · rw [if_neg given, List.map_cons, List.sum_cons, ih]
        dsimp only
        omega

/-- What is given is gone from the queue. -/
theorem total_deplete
    (lessens : ∀ entry qty, qty < size entry → size (lessen entry qty) = size entry - qty)
    (want : Nat) (queue : List Entry) :
    total size (deplete size lessen want queue) = total size queue - want := by
  induction queue generalizing want with
  | nil => rw [deplete, total_nil, Nat.zero_sub]
  | cons entry queue ih =>
      rw [deplete, total_cons]
      by_cases given : want = 0
      · rw [if_pos given, total_cons, given, Nat.sub_zero]
      · rw [if_neg given]
        split
        · rw [ih]
          omega
        · rename_i more
          rw [total_cons, lessens entry want (Nat.not_le.mp more)]
          omega

/-- A queue loses entries from its front only. -/
theorem map_deplete_suffix {Key : Type} {key : Entry → Key}
    (keeps : ∀ entry qty, key (lessen entry qty) = key entry)
    (want : Nat) (queue : List Entry) :
    (deplete size lessen want queue).map key <:+ queue.map key := by
  induction queue generalizing want with
  | nil => exact List.suffix_rfl
  | cons entry queue ih =>
      rw [deplete]
      split
      · exact List.suffix_rfl
      · split
        · exact (ih _).trans (List.suffix_cons _ _)
        · have same : (lessen entry want :: queue).map key = (entry :: queue).map key :=
            congrArg (· :: queue.map key) (keeps entry want)
          exact same ▸ List.suffix_rfl

end Allotment

end Exsim.Data.Priority
