import Exsim.Data.Run
import Mathlib.Data.List.Forall2

/-! # A log sent over a channel that loses, repeats and reorders

The sender keeps every entry it has sent.  The receiver is given entries of that
log in any order, and takes an entry only when it is the one due.  So whatever
arrives, it has taken a front of the log, in order, and an arrival of all that is
missing, in order among anything else, brings it to the end.
-/

namespace Exsim.Data.Channel

variable {State Item Answer Error : Type} {receive : State → Item → Except Error (State × Answer)}
  {origin state : State} {log more : List Item} {count place : Nat} {item : Item}

/-- The receiver has taken the first `count` entries of the log and nothing else. -/
structure Caught (receive : State → Item → Except Error (State × Answer)) (origin : State)
    (log : List Item) (count : Nat) (state : State) : Prop where
  within : count ≤ log.length
  taken : ∃ answers, run receive origin (log.take count) = .ok (state, answers)

/-- Wherever the receiver stands, an entry that is not due leaves it there. -/
def TakesInOrder (receive : State → Item → Except Error (State × Answer)) (origin : State)
    (log : List Item) : Prop :=
  ∀ count state, Caught receive origin log count state → ∀ place item, log[place]? = some item →
    place ≠ count → ∃ answer, receive state item = .ok (state, answer)

theorem Caught.init (receive : State → Item → Except Error (State × Answer)) (origin : State)
    (log : List Item) :
    Caught receive origin log 0 origin := ⟨Nat.zero_le _, [], rfl⟩

/-- What the sender adds to its log takes nothing from the receiver. -/
theorem Caught.grow (caught : Caught receive origin log count state) (more : List Item) :
    Caught receive origin (log ++ more) count state := by
  refine ⟨?_, ?_⟩
  · rw [List.length_append]
    exact Nat.le_add_right_of_le caught.within
  · rw [List.take_append_of_le_length caught.within]
    exact caught.taken

/-- A receiver of a longer log stands in the part that was there, or past it. -/
theorem Caught.split {middle : State} {answers : List Answer}
    (caught : Caught receive origin (log ++ more) count state)
    (whole : run receive origin log = .ok (middle, answers)) :
    Caught receive origin log count state ∨
    ∃ further, Caught receive middle more further state := by
  obtain ⟨replies, ran⟩ := caught.taken
  by_cases before : count ≤ log.length
  · rw [List.take_append_of_le_length before] at ran
    exact .inl ⟨before, replies, ran⟩
  · have past : log.length ≤ count := Nat.le_of_not_le before
    rw [List.take_append, List.take_of_length_le past] at ran
    obtain ⟨reached, _, back, front, later, -⟩ := run_append_ok ran
    obtain ⟨rfl, -⟩ := Prod.mk.inj (Except.ok.inj (whole.symm.trans front))
    have within := caught.within
    rw [List.length_append] at within
    exact .inr ⟨count - log.length, Nat.sub_le_iff_le_add'.mpr within, back, later⟩

/-- There is one state in which a front of the log leaves the receiver. -/
theorem Caught.unique {other : State} (caught : Caught receive origin log count state)
    (also : Caught receive origin log count other) : other = state := by
  obtain ⟨answers, ran⟩ := caught.taken
  obtain ⟨answers', ran'⟩ := also.taken
  rw [ran, Except.ok.injEq, Prod.mk.injEq] at ran'
  exact ran'.1.symm

/-- The entry that is due is taken, if the log as a whole can be. -/
theorem Caught.take_due {final : State} {answers : List Answer}
    (caught : Caught receive origin log count state)
    (whole : run receive origin log = .ok (final, answers)) (found : log[count]? = some item) :
    ∃ after answer, receive state item = .ok (after, answer) ∧
    Caught receive origin log (count + 1) after := by
  obtain ⟨inside, isItem⟩ := List.getElem?_eq_some_iff.mp found
  obtain ⟨earlier, ran⟩ := caught.taken
  have split : log = log.take count ++ item :: log.drop (count + 1) := by
    rw [← isItem, ← List.drop_eq_getElem_cons inside, List.take_append_drop]
  rw [split] at whole
  obtain ⟨middle, front, back, reached, later, -⟩ := run_append_ok whole
  rw [ran, Except.ok.injEq, Prod.mk.injEq] at reached
  obtain ⟨rfl, rfl⟩ := reached
  obtain ⟨after, answer, rest, stepped, -, -⟩ := run_cons_ok later
  refine ⟨after, answer, stepped, inside, earlier ++ [answer], ?_⟩
  rw [List.take_add_one, found]
  exact run_append ran (run_cons stepped run_nil)

/-- One arrival moves the receiver on by the entry due, or not at all. -/
theorem Caught.arrive {final : State} {answers : List Answer}
    (caught : Caught receive origin log count state)
    (whole : run receive origin log = .ok (final, answers))
    (inOrder : TakesInOrder receive origin log) (found : log[place]? = some item) :
    ∃ after answer, receive state item = .ok (after, answer) ∧
      Caught receive origin log (if place = count then count + 1 else count) after := by
  by_cases due : place = count
  · subst due
    rw [if_pos rfl]
    exact caught.take_due whole found
  · rw [if_neg due]
    obtain ⟨answer, ignored⟩ := inOrder count state caught place item found due
    exact ⟨state, answer, ignored, caught⟩

/-- Whatever arrives, the receiver stands on a front of the log, and past every
run of due entries that came in order. -/
theorem Caught.deliver {final : State} {answers : List Answer} {places : List Nat}
    (caught : Caught receive origin log count state)
    (whole : run receive origin log = .ok (final, answers))
    (inOrder : TakesInOrder receive origin log) {items : List Item}
    (arrived : List.Forall₂ (fun place item => log[place]? = some item) places items) :
    ∃ after replies count', run receive state items = .ok (after, replies) ∧
    Caught receive origin log count' after ∧ count ≤ count' ∧
    ∀ length, (List.range' count length).Sublist places → count + length ≤ count' := by
  induction arrived generalizing count state with
  | nil =>
      refine ⟨state, [], count, rfl, caught, Nat.le_refl _, fun length missing => ?_⟩
      have none := List.eq_nil_of_sublist_nil missing
      rw [List.range'_eq_nil_iff] at none
      omega
  | @cons place item places items found _ ih =>
      obtain ⟨after, answer, stepped, kept⟩ := caught.arrive whole inOrder found
      obtain ⟨last, replies, count', ran, reached, further, past⟩ := ih kept
      refine ⟨last, answer :: replies, count', run_cons stepped ran, reached, ?_,
        fun length missing => ?_⟩
      · split at further <;> omega
      · cases length with
        | zero => split at further <;> omega
        | succ length =>
            rw [List.range'_succ] at missing
            by_cases due : place = count
            · subst due
              rw [if_pos rfl] at past
              have rest := past length (List.cons_sublist_cons.mp missing)
              omega
            · rw [if_neg due] at past
              have rest := past (length + 1) (by
                rw [List.range'_succ]
                exact (List.sublist_cons_iff.mp missing).resolve_right fun taken => by
                  obtain ⟨_, same, -⟩ := taken
                  exact due (List.cons.inj same).1.symm)
              omega

end Exsim.Data.Channel
