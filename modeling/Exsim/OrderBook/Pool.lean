import Exsim.OrderBook.Explained

/-! # The node pool

A node is pushed only when no freed slot is left, and nothing is freed after it in
the same call.  So the pool never has more nodes than orders rested at once.
-/

namespace Exsim.Core.OrderBook

open Data

/-- The pool stays as it is, freed slots included. -/
def SamePool (book after : OrderBook) : Prop :=
  after.nodes.size = book.nodes.size ∧ after.free = book.free

/-- The pool grows by nothing, or by one node with no freed slot left. -/
def Grows (book after : OrderBook) : Prop :=
  after.nodes.size = book.nodes.size ∨ after.nodes.size = book.nodes.size + 1 ∧ after.free = []

section

variable {book middle after : OrderBook} {slot idx : UInt32} {n : Node} {level : Level}
  {isBuy : Bool} {seq : SeqNo} {id aggressor : OrderId} {accountId : AccountId} {side : Side}
  {price : Price} {qty done : Qty} {tif : TimeInForce} {type : MdType} {ev : MdEvent}
  {out out' : MatchOutput}

theorem SamePool.trans (left : SamePool book middle) (right : SamePool middle after) :
    SamePool book after :=
  ⟨right.1.trans left.1, right.2.trans left.2⟩

theorem samePool_withHalf (book : OrderBook) (isBuy : Bool) (half : BookSide) :
    SamePool book (book.withHalf isBuy half) := by
  cases isBuy <;> exact ⟨rfl, rfl⟩

theorem setNode_pool (ran : book.setNode slot n = .ok after) : SamePool book after := by
  rw [setNode, writeAt] at ran
  split at ran
  · obtain rfl := Except.ok.inj ran
    exact ⟨Array.size_setIfInBounds, rfl⟩
  · cases ran

theorem setLevel_pool (ran : book.setLevel isBuy idx level = .ok after) : SamePool book after := by
  rw [setLevel] at ran
  obtain ⟨levels, -, ran⟩ := exec_bind_eq_ok ran
  obtain rfl := Except.ok.inj ran
  exact samePool_withHalf _ _ _

theorem setOccupied_pool (ran : book.setOccupied isBuy idx = .ok after) : SamePool book after := by
  rw [setOccupied] at ran
  obtain ⟨half, -, ran⟩ := exec_bind_eq_ok ran
  obtain rfl := Except.ok.inj ran
  exact samePool_withHalf _ _ _

theorem clearOccupied_pool (ran : book.clearOccupied isBuy idx = .ok after) :
    SamePool book after := by
  rw [clearOccupied] at ran
  obtain ⟨half, -, ran⟩ := exec_bind_eq_ok ran
  obtain rfl := Except.ok.inj ran
  exact samePool_withHalf _ _ _

theorem appendToLevel_pool (ran : book.appendToLevel slot = .ok after) : SamePool book after := by
  rw [appendToLevel] at ran
  obtain ⟨n, -, ran⟩ := exec_bind_eq_ok ran
  obtain ⟨level, -, ran⟩ := exec_bind_eq_ok ran
  obtain ⟨linked, wrote, ran⟩ := exec_bind_eq_ok ran
  have finish : ∀ {joined : OrderBook} {longer : Level}, SamePool linked joined →
      (do
        let book ← joined.setLevel n.side.isBuy n.levelIdx longer
        if level.count = 0 then (book.countLevel n.side.isBuy).setOccupied n.side.isBuy n.levelIdx
        else pure book) =
        .ok after → SamePool book after := by
    intro joined longer tail ran
    obtain ⟨stored, levelled, ran⟩ := exec_bind_eq_ok ran
    have upTo := ((setNode_pool wrote).trans tail).trans (setLevel_pool levelled)
    split at ran
    · exact (upTo.trans (samePool_withHalf _ _ _)).trans (setOccupied_pool ran)
    · obtain rfl := Except.ok.inj ran
      exact upTo
  dsimp only at ran
  split at ran
  · obtain ⟨last, -, ran⟩ := exec_bind_eq_ok ran
    obtain ⟨joined, tailed, ran⟩ := exec_bind_eq_ok ran
    exact finish (setNode_pool tailed) ran
  · exact finish ⟨rfl, rfl⟩ ran

theorem allocNode_grows (ran : book.allocNode id accountId side price qty = .ok (after, slot)) :
    Grows book after := by
  rw [allocNode] at ran
  dsimp only at ran
  split at ran
  · obtain ⟨stored, wrote, ran⟩ := exec_bind_eq_ok ran
    obtain ⟨rfl, -⟩ := Prod.mk.inj (Except.ok.inj ran)
    exact .inl (setNode_pool wrote).1
  · rename_i none
    obtain ⟨stored, wrote, ran⟩ := exec_bind_eq_ok ran
    obtain ⟨rfl, -⟩ := Prod.mk.inj (Except.ok.inj ran)
    obtain ⟨size, free⟩ := setNode_pool wrote
    exact .inr ⟨size.trans (Array.size_push _), free.trans none⟩

theorem removeNode_size (ran : book.removeNode seq slot qty type = .ok (after, ev)) :
    after.nodes.size = book.nodes.size := by
  rw [removeNode] at ran
  obtain ⟨n, -, ran⟩ := exec_bind_eq_ok ran
  obtain ⟨level, -, ran⟩ := exec_bind_eq_ok ran
  obtain ⟨before, unlinked, ran⟩ := exec_bind_eq_ok ran
  obtain ⟨between, relinked, ran⟩ := exec_bind_eq_ok ran
  obtain ⟨stored, levelled, ran⟩ := exec_bind_eq_ok ran
  obtain ⟨freed, released, ran⟩ := exec_bind_eq_ok ran
  obtain ⟨rfl, -⟩ := Prod.mk.inj (Except.ok.inj ran)
  have first : SamePool book before := by
    split at unlinked
    · obtain ⟨neighbour, -, unlinked⟩ := exec_bind_eq_ok unlinked
      exact setNode_pool unlinked
    · obtain rfl := Except.ok.inj unlinked
      exact ⟨rfl, rfl⟩
  have second : SamePool before between := by
    split at relinked
    · obtain ⟨neighbour, -, relinked⟩ := exec_bind_eq_ok relinked
      exact setNode_pool relinked
    · obtain rfl := Except.ok.inj relinked
      exact ⟨rfl, rfl⟩
  have third : ∀ lowered : Level, (if lowered.count = 0 then do
        let book ← between.setLevel n.side.isBuy n.levelIdx
            { lowered with head := kNull, tail := kNull, totalQty := 0 }
        (book.uncountLevel n.side.isBuy).clearOccupied n.side.isBuy n.levelIdx
      else between.setLevel n.side.isBuy n.levelIdx lowered) = .ok stored →
        SamePool between stored := by
    intro lowered levelled
    split at levelled
    · obtain ⟨emptied, wrote, levelled⟩ := exec_bind_eq_ok levelled
      exact ((setLevel_pool wrote).trans (samePool_withHalf _ _ _)).trans
        (clearOccupied_pool levelled)
    · exact setLevel_pool levelled
  rw [freeNode] at released
  obtain ⟨gone, -, released⟩ := exec_bind_eq_ok released
  obtain ⟨blanked, wrote, released⟩ := exec_bind_eq_ok released
  obtain rfl := Except.ok.inj released
  exact (setNode_pool wrote).1.trans (first.trans (second.trans (third _ levelled))).1

theorem executeHead_size
    (ran : book.executeHead seq isBuy idx slot qty out aggressor = .ok (after, out', done)) :
    after.nodes.size = book.nodes.size := by
  rw [executeHead] at ran
  obtain ⟨resting, -, ran⟩ := exec_bind_eq_ok ran
  obtain ⟨filled, wrote, ran⟩ := exec_bind_eq_ok ran
  obtain ⟨level, -, ran⟩ := exec_bind_eq_ok ran
  obtain ⟨lowered, levelled, ran⟩ := exec_bind_eq_ok ran
  have reduced := ((setNode_pool wrote).trans (setLevel_pool levelled)).1
  split at ran
  · obtain ⟨⟨removed, told⟩, unlinked, ran⟩ := exec_bind_eq_ok ran
    obtain ⟨rfl, -⟩ := Prod.mk.inj (Except.ok.inj ran)
    exact (removeNode_size unlinked).trans reduced
  · obtain ⟨rfl, -⟩ := Prod.mk.inj (Except.ok.inj ran)
    exact reduced

theorem matchLoop_size {fuel : Nat}
    (ran : matchLoop seq aggressor side price fuel book out = .ok (after, out')) :
    after.nodes.size = book.nodes.size := by
  induction fuel generalizing book out with
  | zero =>
      rw [matchLoop] at ran
      split at ran
      · cases ran
      · obtain ⟨rfl, -⟩ := Prod.mk.inj (Except.ok.inj ran)
        rfl
  | succ fuel ih =>
      rw [matchLoop] at ran
      split at ran
      · split at ran
        · cases ran
        · obtain ⟨level, -, ran⟩ := exec_bind_eq_ok ran
          obtain ⟨⟨middle, partOut, done⟩, filled, ran⟩ := exec_bind_eq_ok ran
          exact (ih ran).trans (executeHead_size filled)
      · obtain ⟨rfl, -⟩ := Prod.mk.inj (Except.ok.inj ran)
        rfl

theorem rest_grows {stored : OrderBook}
    (allocated : book.allocNode id accountId side price qty = .ok (stored, slot))
    (appended : stored.appendToLevel slot = .ok after) : Grows book after := by
  obtain ⟨size, free⟩ := appendToLevel_pool appended
  rw [Grows, size, free]
  exact allocNode_grows allocated

theorem addOrder_grows
    (ran : book.addOrder seq id accountId side price qty tif = .ok (after, out)) :
    Grows book after := by
  have same : ∀ {given : MatchOutput}, (.ok (book, given) : Exec (OrderBook × MatchOutput)) =
      .ok (after, out) → Grows book after := fun ran => by
    obtain ⟨rfl, -⟩ := Prod.mk.inj (Except.ok.inj ran)
    exact .inl rfl
  rw [addOrder] at ran
  split at ran
  · exact same ran
  · split at ran
    · exact same ran
    · split at ran
      · exact same ran
      · obtain ⟨⟨matched, partOut⟩, loop, ran⟩ := exec_bind_eq_ok ran
        have size := matchLoop_size loop
        dsimp only at ran
        split at ran
        · obtain ⟨⟨stored, slot⟩, allocated, ran⟩ := exec_bind_eq_ok ran
          obtain ⟨final, appended, ran⟩ := exec_bind_eq_ok ran
          obtain ⟨rfl, -⟩ := Prod.mk.inj (Except.ok.inj ran)
          rw [Grows, ← size]
          exact rest_grows allocated appended
        · obtain ⟨rfl, -⟩ := Prod.mk.inj (Except.ok.inj ran)
          exact .inl size

theorem cancelOrder_size {told : Option MdEvent}
    (ran : book.cancelOrder seq id = .ok (after, told)) :
    after.nodes.size = book.nodes.size := by
  rw [cancelOrder] at ran
  split at ran
  · obtain ⟨rfl, -⟩ := Prod.mk.inj (Except.ok.inj ran)
    rfl
  · obtain ⟨n, -, ran⟩ := exec_bind_eq_ok ran
    obtain ⟨⟨removed, told⟩, unlinked, ran⟩ := exec_bind_eq_ok ran
    obtain ⟨rfl, -⟩ := Prod.mk.inj (Except.ok.inj ran)
    exact removeNode_size unlinked

theorem replaceOrder_grows {oldId : OrderId}
    (ran : book.replaceOrder seq oldId id accountId side price qty tif =
    .ok (after, out)) : Grows book after := by
  rw [replaceOrder] at ran
  split at ran
  · obtain ⟨rfl, -⟩ := Prod.mk.inj (Except.ok.inj ran)
    exact .inl rfl
  · obtain ⟨⟨cancelled, old⟩, withdrawn, ran⟩ := exec_bind_eq_ok ran
    have size := cancelOrder_size withdrawn
    cases old with
    | none =>
        obtain ⟨rfl, -⟩ := Prod.mk.inj (Except.ok.inj ran)
        exact .inl size
    | some old =>
        obtain ⟨⟨added, answer⟩, placed, ran⟩ := exec_bind_eq_ok ran
        obtain ⟨rfl, -⟩ := Prod.mk.inj (Except.ok.inj ran)
        rw [Grows, ← size]
        exact addOrder_grows placed

theorem feedAdd_grows {ok : Bool}
    (ran : book.feedAdd id accountId side price qty = .ok (after, ok)) : Grows book after := by
  rw [feedAdd] at ran
  split at ran
  · obtain ⟨rfl, -⟩ := Prod.mk.inj (Except.ok.inj ran)
    exact .inl rfl
  · obtain ⟨⟨stored, slot⟩, allocated, ran⟩ := exec_bind_eq_ok ran
    obtain ⟨final, appended, ran⟩ := exec_bind_eq_ok ran
    obtain ⟨rfl, -⟩ := Prod.mk.inj (Except.ok.inj ran)
    exact rest_grows allocated appended

theorem feedExecute_size {ok : Bool} (ran : book.feedExecute id qty = .ok (after, ok)) :
    after.nodes.size = book.nodes.size := by
  rw [feedExecute] at ran
  split at ran
  · obtain ⟨rfl, -⟩ := Prod.mk.inj (Except.ok.inj ran)
    rfl
  · split at ran
    · obtain ⟨rfl, -⟩ := Prod.mk.inj (Except.ok.inj ran)
      rfl
    · obtain ⟨n, -, ran⟩ := exec_bind_eq_ok ran
      obtain ⟨level, -, ran⟩ := exec_bind_eq_ok ran
      split at ran
      · obtain ⟨⟨removed, told⟩, unlinked, ran⟩ := exec_bind_eq_ok ran
        obtain ⟨rfl, -⟩ := Prod.mk.inj (Except.ok.inj ran)
        exact removeNode_size unlinked
      · obtain ⟨filled, wrote, ran⟩ := exec_bind_eq_ok ran
        obtain ⟨lowered, levelled, ran⟩ := exec_bind_eq_ok ran
        obtain ⟨rfl, -⟩ := Prod.mk.inj (Except.ok.inj ran)
        exact ((setNode_pool wrote).trans (setLevel_pool levelled)).1

theorem call_grows {input : BookCall} {answer : BookAnswer}
    (ran : book.call input = .ok (after, answer)) :
    Grows book after := by
  cases input with
  | matching input =>
      rw [call] at ran
      obtain ⟨⟨final, told⟩, matched, ran⟩ := exec_bind_eq_ok ran
      obtain ⟨rfl, -⟩ := Prod.mk.inj (Except.ok.inj ran)
      cases input with
      | add =>
          obtain ⟨⟨added, given⟩, placed, matched⟩ := exec_bind_eq_ok matched
          obtain ⟨rfl, -⟩ := Prod.mk.inj (Except.ok.inj matched)
          exact addOrder_grows placed
      | cancel =>
          obtain ⟨⟨cancelled, given⟩, withdrawn, matched⟩ := exec_bind_eq_ok matched
          obtain ⟨rfl, -⟩ := Prod.mk.inj (Except.ok.inj matched)
          exact .inl (cancelOrder_size withdrawn)
      | replace =>
          obtain ⟨⟨replaced, given⟩, placed, matched⟩ := exec_bind_eq_ok matched
          obtain ⟨rfl, -⟩ := Prod.mk.inj (Except.ok.inj matched)
          exact replaceOrder_grows placed
  | feedAdd =>
      rw [call] at ran
      obtain ⟨⟨added, ok⟩, placed, ran⟩ := exec_bind_eq_ok ran
      obtain ⟨rfl, -⟩ := Prod.mk.inj (Except.ok.inj ran)
      exact feedAdd_grows placed
  | feedExecute =>
      rw [call] at ran
      obtain ⟨⟨filled, ok⟩, executed, ran⟩ := exec_bind_eq_ok ran
      obtain ⟨rfl, -⟩ := Prod.mk.inj (Except.ok.inj ran)
      exact .inl (feedExecute_size executed)

/-- The pool holds the resting orders and the freed slots. -/
theorem Refines.pool {ref : ArrivalBook} (refines : book.Refines ref) :
    book.nodes.size = book.free.length + book.stats.liveOrders := by
  rw [refines.liveOrders]
  obtain ⟨queues, mirrors⟩ := refines
  exact mirrors.pool

/-- A pool that grew holds nothing but resting orders. -/
theorem Grows.size_eq {ref : ArrivalBook} (grows : Grows book after) (refines : after.Refines ref) :
    after.nodes.size = max book.nodes.size after.stats.liveOrders := by
  have pool := refines.pool
  obtain same | ⟨larger, full⟩ := grows
  · omega
  · rw [full, List.length_nil] at pool
    omega

end

/-- The pool of a later state is that of an earlier one or the most that rested after it. -/
theorem Tracks.run_grows {book : OrderBook} {ref : ArrivalBook} {calls : List BookCall}
    (tracks : book.Tracks ref)
    (room : Along call (fun book _ => book.stats.liveOrders < 2 ^ 32 - 1) book calls) :
    ∃ after answers, run call book calls = .ok (after, answers) ∧
    book.nodes.size ≤ after.nodes.size ∧
    (∀ front back, calls = front ++ back → ∃ middle told, run call book front = .ok (middle, told) ∧
        middle.stats.liveOrders ≤ after.nodes.size) ∧
      (after.nodes.size = book.nodes.size ∨ ∃ front back middle told, calls = front ++ back ∧
        run call book front = .ok (middle, told) ∧ middle.stats.liveOrders = after.nodes.size) := by
  have pool := tracks.1.pool
  induction calls generalizing book ref with
  | nil =>
      refine ⟨book, [], rfl, Nat.le_refl _, fun front back split => ?_, .inl rfl⟩
      obtain ⟨rfl, -⟩ := List.append_eq_nil_iff.mp split.symm
      exact ⟨book, [], rfl, by omega⟩
  | cons input calls ih =>
      have few : book.stats.liveOrders < 2 ^ 32 - 1 := room.1
      rw [tracks.1.liveOrders] at few
      obtain ⟨next, stepped, follows⟩ := call_spec tracks.1 few input
      have size := (call_grows stepped).size_eq follows.refines
      obtain ⟨after, answers, ran, larger, all, some⟩ :=
        ih ⟨follows.refines, tracks.2.call input⟩ (room.2 next _ stepped) follows.refines.pool
      refine ⟨after, _, run_cons stepped ran, by omega, fun front back split => ?_, ?_⟩
      · cases front with
        | nil => exact ⟨book, [], rfl, by omega⟩
        | cons first front =>
            obtain ⟨rfl, rest⟩ := List.cons.inj split
            obtain ⟨middle, told, reached, fits⟩ := all front back rest
            exact ⟨middle, _, run_cons stepped reached, fits⟩
      · obtain same | ⟨front, back, middle, told, rest, reached, peak⟩ := some
        · by_cases grew : next.nodes.size = book.nodes.size
          · exact .inl (same.trans grew)
          · exact .inr ⟨[input], calls, next, _, rfl, run_cons stepped rfl, by omega⟩
        · exact .inr ⟨input :: front, back, middle, _, congrArg (input :: ·) rest,
            run_cons stepped reached, peak⟩

/-- While fewer than `2^32 - 1` orders rest before each call, the pool ends with as
many nodes as orders rested after some front of the run, and never more rested. -/
theorem run_pool {symbolId : SymbolId} {ladder : PriceLadderConfig} {fresh : OrderBook}
    {calls : List BookCall} (created : OrderBook.create symbolId ladder = .ok fresh)
    (room : Along call (fun book _ => book.stats.liveOrders < 2 ^ 32 - 1) fresh calls) :
    ∃ after answers, run call fresh calls = .ok (after, answers) ∧
      (∀ front back, calls = front ++ back →
        ∃ middle told, run call fresh front = .ok (middle, told) ∧
        middle.stats.liveOrders ≤ after.nodes.size) ∧
      ∃ front back middle told, calls = front ++ back ∧ run call fresh front = .ok (middle, told) ∧
        middle.stats.liveOrders = after.nodes.size := by
  have tracks := create_tracks created
  obtain ⟨after, answers, ran, -, all, some⟩ := tracks.run_grows room
  refine ⟨after, answers, ran, all, some.elim (fun same => ?_) id⟩
  have live := tracks.1.liveOrders
  have empty : fresh.nodes.size = 0 := by
    rw [(create_ok created).2.2.1]
    rfl
  exact ⟨[], calls, fresh, [], rfl, rfl, live.trans (same.trans empty).symm⟩

/-- Two orders, one of them used up, and a third in its slot. -/
def reusedSlot : List BookCall :=
  [.feedAdd 7 1 .buy 1 5, .feedAdd 8 1 .buy 1 4, .feedExecute 7 5,
    .matching (.add 1 9 1 .buy 1 2 .gtc)]

theorem run_pool_reusedSlot : ∃ after answers, run call oneTick reusedSlot = .ok (after, answers) ∧
    (∀ front back, reusedSlot = front ++ back →
      ∃ middle told, run call oneTick front = .ok (middle, told) ∧
      middle.stats.liveOrders ≤ after.nodes.size) ∧
    ∃ front back middle told, reusedSlot = front ++ back ∧
    run call oneTick front = .ok (middle, told) ∧ middle.stats.liveOrders = after.nodes.size :=
  run_pool oneTick_created (by decide +kernel)

end Exsim.Core.OrderBook
