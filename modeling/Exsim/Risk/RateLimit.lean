import Exsim.Data.Run
import Exsim.Risk.Counters
import Mathlib.Data.List.TakeWhile

/-! # The rate limit as a sliding window

The queue of an account is pruned only when the account sends again, and only
from its front.  It still holds exactly the admitted messages that count.
-/

namespace Exsim.Core

open Data

/-- The arguments of one check. -/
structure CheckCall where
  cmd : ClientCommand
  books : BookManager
  nowNs : TimestampNs

namespace RiskEngine

def checkCall (risk : RiskEngine) (call : CheckCall) : RiskEngine × RejectReason :=
  risk.check call.cmd call.books call.nowNs

/-- The checks of a new engine with what they returned. -/
def history (limits : RiskLimits) (calls : List CheckCall) : List (CheckCall × RejectReason) :=
  calls.zip (trace checkCall { limits } calls).2

/-- When messages of an account passed the rate limit, in order. -/
def admittedTimes (account : AccountId) (entries : List (CheckCall × RejectReason)) :
    List TimestampNs :=
  (entries.filter fun entry => entry.1.cmd.accountId = account && entry.2 ≠ .riskRateLimit).map
    fun entry => entry.1.nowNs

/-- How many messages of an account passed the rate limit in the window that ends now. -/
def recentlyAdmitted (limits : RiskLimits) (account : AccountId) (nowNs : TimestampNs)
    (entries : List (CheckCall × RejectReason)) : Nat :=
  (admittedTimes account entries).countP fun sent => nowNs.toNat - sent.toNat ≤
    limits.rateWindowNs.toNat

section

variable {risk : RiskEngine} {limits : RiskLimits} {cmd : ClientCommand} {books : BookManager}
    {nowNs later sent : TimestampNs} {account : AccountId}
    {entries : List (CheckCall × RejectReason)} {call : CheckCall} {calls : List CheckCall}

theorem checkCommand_admits {state : AccountState} :
    checkCommand limits state cmd books ≠ .riskRateLimit := by
  rw [checkCommand]
  split
  · split <;> decide
  split
  · decide
  split
  · decide
  split
  · decide
  split <;> decide

theorem expired_iff (order : sent ≤ nowNs) :
    expired limits nowNs sent = true ↔ ¬nowNs.toNat - sent.toNat ≤ limits.rateWindowNs.toNat := by
  rw [expired, Bool.and_eq_true, decide_eq_true_iff, decide_eq_true_iff, gt_iff_lt,
    UInt64.lt_iff_toNat_lt, UInt64.toNat_sub_of_le _ _ order, Nat.not_le]
  exact and_iff_right order

theorem expired_mono (gone : expired limits nowNs sent = true) (order : nowNs ≤ later) :
    expired limits later sent = true := by
  have before : sent ≤ nowNs := by
    rw [expired, Bool.and_eq_true, decide_eq_true_iff] at gone
    exact gone.1
  rw [expired_iff before] at gone
  rw [expired_iff (UInt64.le_trans before order)]
  rw [UInt64.le_iff_toNat_le] at order
  omega

/-- The queue of an account is the end of what it was admitted, and the rest has
expired for good. -/
structure Windowed (limits : RiskLimits) (risk : RiskEngine)
    (entries : List (CheckCall × RejectReason)) : Prop where
  sameLimits : risk.limits = limits
  ordered : entries.Pairwise fun earlier later => earlier.1.nowNs ≤ later.1.nowNs
  queue : ∀ account, ∃ dropped, admittedTimes account entries = dropped ++
    (risk.account account).recentMsgs ∧ ∀ sent ∈ dropped, ∀ nowNs,
      (∀ entry ∈ entries, entry.1.nowNs ≤ nowNs) → expired limits nowNs sent = true

/-- In a sorted queue nothing behind the front has expired if the front has not. -/
theorem not_expired_of_kept {queued : List TimestampNs} (sorted : queued.Pairwise (· ≤ ·))
    (upto : ∀ sent ∈ queued, sent ≤ nowNs) (kept : sent ∈ queued.dropWhile (expired limits nowNs)) :
    expired limits nowNs sent = false := by
  induction queued with
  | nil => simp at kept
  | cons front queued ih =>
      obtain ⟨least, sorted⟩ := List.pairwise_cons.mp sorted
      by_cases gone : expired limits nowNs front = true
      · rw [List.dropWhile_cons_of_pos gone] at kept
        exact ih sorted (fun sent member => upto sent (List.mem_cons_of_mem _ member)) kept
      · rw [List.dropWhile_cons_of_neg gone] at kept
        rcases List.mem_cons.mp kept with rfl | behind
        · exact Bool.eq_false_iff.mpr gone
        · have order := least sent behind
          have frontNow := upto front List.mem_cons_self
          have sentNow := upto sent (List.mem_cons_of_mem _ behind)
          rw [expired_iff frontNow, not_not] at gone
          refine Bool.eq_false_iff.mpr fun also => ?_
          rw [expired_iff sentNow] at also
          rw [UInt64.le_iff_toNat_le] at order
          omega

theorem mem_admittedTimes (member : sent ∈ admittedTimes account entries) :
    ∃ entry ∈ entries, entry.1.nowNs = sent := by
  obtain ⟨entry, kept, same⟩ := List.mem_map.mp member
  exact ⟨entry, (List.mem_filter.mp kept).1, same⟩

theorem admittedTimes_append (reason : RejectReason) :
    admittedTimes account (entries ++ [(call, reason)]) = admittedTimes account entries ++
      (if call.cmd.accountId = account ∧ reason ≠ .riskRateLimit then [call.nowNs] else []) := by
  rw [admittedTimes, admittedTimes, List.filter_append, List.map_append]
  congr 1
  by_cases own : call.cmd.accountId = account
  · by_cases passed : reason = .riskRateLimit
    · simp [passed]
    · simp [own, passed]
  · simp [own]

theorem Windowed.sorted (windowed : Windowed limits risk entries) (account : AccountId) :
    (admittedTimes account entries).Pairwise (· ≤ ·) :=
  List.pairwise_map.mpr (windowed.ordered.sublist List.filter_sublist)

/-- After the front is popped, what is left is what counts. -/
theorem Windowed.pruned (windowed : Windowed limits risk entries)
    (upto : ∀ entry ∈ entries, entry.1.nowNs ≤ nowNs) (account : AccountId) : ∃ dropped,
      admittedTimes account entries = dropped ++
        (risk.account account).recentMsgs.dropWhile (expired limits nowNs) ∧
      (∀ sent ∈ dropped, expired limits nowNs sent = true) ∧
      ((risk.account account).recentMsgs.dropWhile (expired limits nowNs)).length =
        recentlyAdmitted limits account nowNs entries := by
  obtain ⟨dropped, queue, gone⟩ := windowed.queue account
  let queued := (risk.account account).recentMsgs
  have split : admittedTimes account entries =
      (dropped ++ queued.takeWhile (expired limits nowNs)) ++
        queued.dropWhile (expired limits nowNs) := by
    rw [queue, List.append_assoc, List.takeWhile_append_dropWhile]
  have allGone : ∀ sent ∈ dropped ++ queued.takeWhile (expired limits nowNs),
      expired limits nowNs sent = true := by
    intro sent member
    rcases List.mem_append.mp member with early | popped
    · exact gone sent early nowNs upto
    · exact List.mem_takeWhile_imp popped
  have before : ∀ sent ∈ admittedTimes account entries, sent ≤ nowNs := by
    intro sent member
    obtain ⟨entry, among, rfl⟩ := mem_admittedTimes member
    exact upto entry among
  have sorted : queued.Pairwise (· ≤ ·) := by
    have whole := windowed.sorted account
    rw [queue] at whole
    exact (List.pairwise_append.mp whole).2.1
  have queuedBefore : ∀ sent ∈ queued, sent ≤ nowNs := fun sent member => before sent (by
    rw [queue]
    exact List.mem_append_right _ member)
  refine ⟨_, split, allGone, ?_⟩
  rw [split] at before
  have none : (dropped ++ queued.takeWhile (expired limits nowNs)).countP
      (fun sent => nowNs.toNat - sent.toNat ≤ limits.rateWindowNs.toNat) = 0 := by
    refine List.countP_eq_zero.mpr fun sent member => ?_
    rw [decide_eq_true_iff, ← expired_iff (before sent (List.mem_append_left _ member))]
    exact allGone sent member
  have all : (queued.dropWhile (expired limits nowNs)).countP
      (fun sent => nowNs.toNat - sent.toNat ≤ limits.rateWindowNs.toNat) =
        (queued.dropWhile (expired limits nowNs)).length := by
    refine List.countP_eq_length.mpr fun sent member => ?_
    have stays := not_expired_of_kept sorted queuedBefore member
    rw [decide_eq_true_iff, ← not_not (a := _ ≤ _), ← expired_iff
      (before sent (List.mem_append_right _ member)), stays]
    exact Bool.false_ne_true
  rw [recentlyAdmitted, split, List.countP_append]
  rw [none, all, Nat.zero_add]

theorem check_refused (full : risk.limits.maxMsgsPerWindow.toNat ≤
      ((risk.account cmd.accountId).recentMsgs.dropWhile (expired risk.limits nowNs)).length) :
    risk.check cmd books nowNs = (risk.withAccount cmd.accountId { risk.account cmd.accountId with
      recentMsgs := (risk.account cmd.accountId).recentMsgs.dropWhile (expired risk.limits nowNs) },
        .riskRateLimit) := by
  rw [check]
  exact if_pos full

theorem check_passed (books : BookManager) (room : ¬risk.limits.maxMsgsPerWindow.toNat ≤
      ((risk.account cmd.accountId).recentMsgs.dropWhile (expired risk.limits nowNs)).length) :
    ∃ reason, reason ≠ .riskRateLimit ∧
      risk.check cmd books nowNs = (risk.withAccount cmd.accountId { risk.account cmd.accountId with
        recentMsgs := (risk.account cmd.accountId).recentMsgs.dropWhile
          (expired risk.limits nowNs) ++ [nowNs] },
        reason) := by
  have passed : risk.check cmd books nowNs = _ := if_neg room
  exact ⟨_, checkCommand_admits, passed⟩

/-- The check refuses exactly where the window is full, and keeps the queues. -/
theorem Windowed.check (windowed : Windowed limits risk entries)
    (upto : ∀ entry ∈ entries, entry.1.nowNs ≤ call.nowNs) :
    ((risk.checkCall call).2 = .riskRateLimit ↔
      limits.maxMsgsPerWindow.toNat ≤
        recentlyAdmitted limits call.cmd.accountId call.nowNs entries) ∧
    Windowed limits (risk.checkCall call).1 (entries ++ [(call, (risk.checkCall call).2)]) := by
  obtain ⟨dropped, split, gone, length⟩ := windowed.pruned upto call.cmd.accountId
  have ordered : ∀ reason : RejectReason, (entries ++ [(call, reason)]).Pairwise
      fun earlier later => earlier.1.nowNs ≤ later.1.nowNs := by
    intro reason
    refine List.pairwise_append.mpr
      ⟨windowed.ordered, List.pairwise_singleton .., fun entry member other last => ?_⟩
    obtain rfl := List.mem_singleton.mp last
    exact upto entry member
  have reached : ∀ {reason : RejectReason} {nowNs : TimestampNs},
      (∀ entry ∈ entries ++ [(call, reason)], entry.1.nowNs ≤ nowNs) → call.nowNs ≤ nowNs :=
    fun upto => upto _ (List.mem_append_right _ (List.mem_singleton_self _))
  -- The other accounts keep their queues, and what they dropped stays expired.
  have others : ∀ (account : AccountId) (reason : RejectReason) (state : AccountState), account ≠
      call.cmd.accountId → ∃ dropped, admittedTimes account (entries ++ [(call, reason)]) =
          dropped ++ ((risk.withAccount call.cmd.accountId state).account account).recentMsgs ∧
        ∀ sent ∈ dropped, ∀ nowNs, (∀ entry ∈ entries ++ [(call, reason)], entry.1.nowNs ≤ nowNs) →
          expired limits nowNs sent = true := by
    intro account reason state other
    obtain ⟨dropped, queue, gone⟩ := windowed.queue account
    refine ⟨dropped, ?_, fun sent member nowNs upto => gone sent member nowNs fun entry among =>
      upto entry (List.mem_append_left _ among)⟩
    rw [account_withAccount, if_neg other, admittedTimes_append, if_neg fun own => other own.1.symm,
      List.append_nil, queue]
  obtain ⟨sameLimits, -, -⟩ := windowed
  rw [← sameLimits] at split gone length others ⊢
  by_cases full : risk.limits.maxMsgsPerWindow.toNat ≤
      ((risk.account call.cmd.accountId).recentMsgs.dropWhile
        (expired risk.limits call.nowNs)).length
  · rw [checkCall, check_refused full, ← length]
    refine ⟨iff_of_true rfl full, rfl, ordered _, fun account => ?_⟩
    by_cases own : account = call.cmd.accountId
    · subst own
      refine ⟨dropped, ?_, fun sent member nowNs upto =>
        expired_mono (gone sent member) (reached upto)⟩
      rw [account_withAccount, if_pos rfl, admittedTimes_append, if_neg fun passed => passed.2 rfl,
        List.append_nil, split]
    · exact others account _ _ own
  · obtain ⟨reason, passed, checked⟩ := check_passed call.books full
    rw [checkCall, checked, ← length]
    refine ⟨iff_of_false passed full, rfl, ordered _, fun account => ?_⟩
    by_cases own : account = call.cmd.accountId
    · subst own
      refine ⟨dropped, ?_, fun sent member nowNs upto =>
        expired_mono (gone sent member) (reached upto)⟩
      rw [account_withAccount, if_pos rfl, admittedTimes_append, if_pos ⟨rfl, passed⟩, split,
        List.append_assoc]
    · exact others account _ _ own

theorem history_append : history limits (calls ++ [call]) =
    history limits calls ++ [(call, (checkCall (trace checkCall { limits } calls).1 call).2)] := by
  rw [history, history, trace_append, List.zip_append trace_length.symm]
  rfl

theorem mem_history {entry : CheckCall × RejectReason} (member : entry ∈ history limits calls) :
    entry.1 ∈ calls :=
  (List.of_mem_zip (a := entry.1) (b := entry.2) member).1

/-- The queues of a run hold what counts. -/
theorem run_windowed (ordered : calls.Pairwise fun earlier later => earlier.nowNs ≤ later.nowNs) :
    Windowed limits (trace checkCall { limits } calls).1 (history limits calls) := by
  induction calls using List.reverseRecOn with
  | nil =>
      exact ⟨rfl, .nil, fun account => ⟨[], rfl, fun sent member => absurd member List.not_mem_nil⟩⟩
  | append_singleton calls call ih =>
      obtain ⟨before, -, last⟩ := List.pairwise_append.mp ordered
      have upto : ∀ entry ∈ history limits calls, entry.1.nowNs ≤ call.nowNs := fun entry member =>
        last _ (mem_history member) call (List.mem_singleton_self call)
      rw [history_append, trace_append]
      exact ((ih before).check upto).2

/-- No window of the given length holds more admitted messages than allowed. -/
theorem admitted_le (ordered : calls.Pairwise fun earlier later => earlier.nowNs ≤ later.nowNs)
    (account : AccountId) (start : Nat) : (admittedTimes account (history limits calls)).countP
      (fun sent => start ≤ sent.toNat && sent.toNat ≤ start + limits.rateWindowNs.toNat) ≤
      limits.maxMsgsPerWindow.toNat := by
  induction calls using List.reverseRecOn with
  | nil => exact Nat.zero_le _
  | append_singleton calls call ih =>
      obtain ⟨before, -, last⟩ := List.pairwise_append.mp ordered
      have upto : ∀ entry ∈ history limits calls, entry.1.nowNs ≤ call.nowNs := fun entry member =>
        last _ (mem_history member) call (List.mem_singleton_self call)
      have refused := ((run_windowed before).check upto).1
      rw [history_append, admittedTimes_append, List.countP_append]
      split
      · rename_i passed
        obtain ⟨rfl, passed⟩ := passed
        by_cases inside : start ≤ call.nowNs.toNat ∧
          call.nowNs.toNat ≤ start + limits.rateWindowNs.toNat
        · -- All that is inside with the last message counted when it was checked.
          have room := mt refused.mpr passed
          have counted : (admittedTimes call.cmd.accountId (history limits calls)).countP
              (fun sent => start ≤ sent.toNat && sent.toNat ≤ start + limits.rateWindowNs.toNat) ≤
                recentlyAdmitted limits call.cmd.accountId call.nowNs (history limits calls) := by
            refine List.countP_mono_left fun sent member within => ?_
            simp only [Bool.and_eq_true, decide_eq_true_iff] at within
            exact decide_eq_true (by omega)
          simp only [List.countP_singleton, inside, decide_true, Bool.and_self, ↓reduceIte]
          omega
        · have outside : (decide (start ≤ call.nowNs.toNat) &&
              decide (call.nowNs.toNat ≤ start + limits.rateWindowNs.toNat)) =
              false := by
            simpa using inside
          simp only [List.countP_singleton, outside, Bool.false_eq_true, ↓reduceIte, Nat.add_zero]
          exact ih before
      · exact ih before

/-- Over every run of checks at times that never decrease, a message is refused for its
rate exactly if the window that ends with it is full of admitted messages of its
account, and so no window of that length ever holds more of them than allowed. -/
theorem rate_limit_exact
    (ordered : (calls ++ [call]).Pairwise fun earlier later => earlier.nowNs ≤ later.nowNs) :
    ((checkCall (trace checkCall { limits } calls).1 call).2 = .riskRateLimit ↔
      limits.maxMsgsPerWindow.toNat ≤
        (admittedTimes call.cmd.accountId (history limits calls)).countP
          fun sent => call.nowNs.toNat - sent.toNat ≤ limits.rateWindowNs.toNat) ∧
    ∀ account start, (admittedTimes account (history limits (calls ++ [call]))).countP
      (fun sent => start ≤ sent.toNat && sent.toNat ≤ start + limits.rateWindowNs.toNat) ≤
      limits.maxMsgsPerWindow.toNat := by
  obtain ⟨before, -, last⟩ := List.pairwise_append.mp ordered
  have upto : ∀ entry ∈ history limits calls, entry.1.nowNs ≤ call.nowNs := fun entry member =>
    last _ (mem_history member) call (List.mem_singleton_self call)
  exact ⟨((run_windowed before).check upto).1,
    fun account start => admitted_le ordered account start⟩

end

/-- Two messages in one window where one is allowed. -/
def hastyCall (nowNs : TimestampNs) : CheckCall :=
  { cmd := { accountId := 1, price := 1, qty := 1 },
    books := { maxSymbol := 0, ladder := {}, books := #[] }, nowNs }

theorem rate_limit_exact_hasty :
    let limits : RiskLimits := { maxMsgsPerWindow := 1, rateWindowNs := 10 }
    ((checkCall (trace checkCall { limits } [hastyCall 5]).1 (hastyCall 15)).2 = .riskRateLimit ↔
      1 ≤ (admittedTimes 1 (history limits [hastyCall 5])).countP fun sent =>
        15 - sent.toNat ≤ 10) ∧
    ∀ account start,
      (admittedTimes account (history limits ([hastyCall 5] ++ [hastyCall 15]))).countP
      (fun sent => start ≤ sent.toNat && sent.toNat ≤ start + 10) ≤ 1 :=
  rate_limit_exact (by decide +kernel)

end RiskEngine

end Exsim.Core
