import Mathlib.Data.List.Basic
import Mathlib.Data.List.Nodup

namespace Exsim.Data

/-! # Intrusive doubly linked lists

`links` gives the previous and next pointer stored in a cell.  `Linked links before
cells after` says that `cells` are chained in this order, with `before` stored in
front of the first cell and `after` behind the last one.
-/

def Linked (links : Cell → Option (Cell × Cell)) : Cell → List Cell → Cell → Prop
  | _, [], _ => True
  | before, cell :: rest, after =>
      links cell = some (before, rest.headD after) ∧ Linked links cell rest after

section

variable {Cell : Type} {links links' : Cell → Option (Cell × Cell)} {before after null cell : Cell}
  {cells front back : List Cell}

@[simp] theorem linked_nil : Linked links before [] after := trivial

theorem linked_cons : Linked links before (cell :: cells) after ↔
    links cell = some (before, cells.headD after) ∧ Linked links cell cells after := Iff.rfl

/-- A chain reads no cell but its own. -/
theorem Linked.frame (linked : Linked links before cells after)
    (same : ∀ cell ∈ cells, links' cell = links cell) : Linked links' before cells after := by
  induction cells generalizing before with
  | nil => trivial
  | cons cell rest ih =>
      exact ⟨(same cell (by simp)).trans linked.1,
        ih linked.2 fun other member => same other (by simp [member])⟩

theorem linked_append : Linked links before (front ++ back) after ↔
    Linked links before front (back.headD after) ∧
    Linked links (front.getLastD before) back after := by
  induction front generalizing before with
  | nil => simp
  | cons cell rest ih =>
      have next : (rest ++ back).headD after = rest.headD (back.headD after) := by
        cases rest <;> simp
      rw [List.cons_append, linked_cons, linked_cons, ih, next, List.getLastD_cons, and_assoc]

/-- Storing a new successor in the last cell. -/
theorem Linked.relink_last {other : Cell} (linked : Linked links before (front ++ [cell]) after)
    (written : links' cell = some (front.getLastD before, other))
    (same : ∀ other ∈ front, links' other = links other) :
    Linked links' before (front ++ [cell]) other := by
  rw [linked_append] at linked ⊢
  exact ⟨linked.1.frame same, written, trivial⟩

/-- Storing a new predecessor in the first cell. -/
theorem Linked.relink_first {other : Cell} (linked : Linked links before (cell :: back) after)
    (written : links' cell = some (other, back.headD after))
    (same : ∀ other ∈ back, links' other = links other) :
    Linked links' other (cell :: back) after :=
  ⟨written, linked.2.frame same⟩

/-- Appending a fresh cell behind the last one. -/
theorem Linked.push (linked : Linked links null cells null)
    (written : links' cell = some (cells.getLastD null, null))
    (relinked : ∀ front last, cells = front ++ [last] →
      links' last = some (front.getLastD null, cell) ∧
      ∀ other ∈ front, links' other = links other) :
    Linked links' null (cells ++ [cell]) null := by
  rcases List.eq_nil_or_concat cells with rfl | ⟨front, last, rfl⟩
  · exact ⟨written, trivial⟩
  · rw [List.concat_eq_append] at *
    obtain ⟨lastWritten, same⟩ := relinked front last rfl
    have chain : Linked links' null (front ++ [last]) cell := linked.relink_last lastWritten same
    rw [linked_append]
    exact ⟨chain, written, trivial⟩

/-- Unlinking a cell: its neighbours are made to point at each other. -/
theorem Linked.unlink (linked : Linked links null (front ++ cell :: back) null)
    (beforeWritten : ∀ others last, front = others ++ [last] →
      links' last = some (others.getLastD null, back.headD null) ∧
        ∀ other ∈ others, links' other = links other)
    (afterWritten : ∀ first others, back = first :: others →
      links' first = some (front.getLastD null, others.headD null) ∧
        ∀ other ∈ others, links' other = links other) :
    Linked links' null (front ++ back) null := by
  rw [linked_append] at linked ⊢
  obtain ⟨frontLinked, -, backLinked⟩ := linked
  constructor
  · rcases List.eq_nil_or_concat front with rfl | ⟨others, last, rfl⟩
    · trivial
    · rw [List.concat_eq_append] at *
      obtain ⟨written, same⟩ := beforeWritten others last rfl
      exact frontLinked.relink_last written same
  · cases back with
    | nil => trivial
    | cons first others =>
        obtain ⟨written, same⟩ := afterWritten first others rfl
        exact backLinked.relink_first written same

/-- The pointers stored in a cell of the chain are its neighbours. -/
theorem Linked.links_mid (linked : Linked links before (front ++ cell :: back) after) :
    links cell = some (front.getLastD before, back.headD after) :=
  (linked_append.mp linked).2.1

end

/-- Follows the next pointers up to `null`, through at most `fuel` cells. -/
def walk [DecidableEq Cell] (next : Cell → Option Cell) (null : Cell) : Nat → Cell → List Cell
  | 0, _ => []
  | fuel + 1, cell =>
      if cell = null then []
      else match next cell with
        | none => []
        | some following => cell :: walk next null fuel following

theorem Linked.walk_eq [DecidableEq Cell] {links : Cell → Option (Cell × Cell)} {before null : Cell}
    {cells : List Cell} {fuel : Nat} (linked : Linked links before cells null)
    (proper : null ∉ cells) (enough : cells.length ≤ fuel) :
    walk (fun cell => (links cell).map Prod.snd) null fuel (cells.headD null) = cells := by
  induction cells generalizing before fuel with
  | nil => cases fuel <;> simp [walk]
  | cons cell rest ih =>
      obtain ⟨here, tail⟩ := linked
      simp only [List.mem_cons, not_or] at proper
      cases fuel with
      | zero => simp at enough
      | succ fuel =>
          have notNull : cell ≠ null := fun same => proper.1 same.symm
          have following := ih tail proper.2 (by simpa using enough)
          simp only [List.headD_cons, walk, if_neg notNull, here, Option.map_some, following]

end Exsim.Data
