import Exsim.OrderBook.Calls
import Exsim.Reference.Sweep
import Exsim.Data.Run
import Mathlib.Data.Set.Card

/-! # Runs of one book, and what holds of every book they reach -/

namespace Exsim.Core

open Data

inductive MatchCall where
  | add (seq : SeqNo) (orderId : OrderId) (accountId : AccountId) (side : Side)
      (price : Price) (qty : Qty) (tif : TimeInForce)
  | cancel (seq : SeqNo) (orderId : OrderId)
  | replace (seq : SeqNo) (oldId newId : OrderId) (accountId : AccountId) (side : Side)
      (price : Price) (qty : Qty) (tif : TimeInForce)
deriving DecidableEq, Repr

inductive BookCall where
  | matching (call : MatchCall)
  | feedAdd (orderId : OrderId) (accountId : AccountId) (side : Side) (price : Price) (qty : Qty)
  | feedExecute (orderId : OrderId) (qty : Qty)
deriving DecidableEq, Repr

inductive MatchAnswer where
  | output (out : MatchOutput)
  | cancelled (ev : Option MdEvent)
deriving DecidableEq, Repr

/-- The market data of a call. -/
def MatchAnswer.events : MatchAnswer → List MdEvent
  | .output out => out.mdEvents
  | .cancelled ev => ev.toList

inductive BookAnswer where
  | matched (answer : MatchAnswer)
  | fed (ok : Bool)
deriving DecidableEq, Repr

namespace ArrivalBook

def matchCall (book : ArrivalBook) : MatchCall → ArrivalBook × MatchAnswer
  | .add seq orderId accountId side price qty tif =>
      let (book, out) := book.addOrder seq orderId accountId side price qty tif
      (book, .output out)
  | .cancel seq orderId =>
      let (book, ev) := book.cancelOrder seq orderId
      (book, .cancelled ev)
  | .replace seq oldId newId accountId side price qty tif =>
      let (book, out) := book.replaceOrder seq oldId newId accountId side price qty tif
      (book, .output out)

def call (book : ArrivalBook) : BookCall → ArrivalBook × BookAnswer
  | .matching call =>
      let (book, answer) := book.matchCall call
      (book, .matched answer)
  | .feedAdd orderId accountId side price qty =>
      let (book, ok) := book.feedAdd orderId accountId side price qty
      (book, .fed ok)
  | .feedExecute orderId qty =>
      let (book, ok) := book.feedExecute orderId qty
      (book, .fed ok)

theorem Sound.matchCall {book : ArrivalBook} (sound : book.Sound) (call : MatchCall) :
    (book.matchCall call).1.Sound := by
  cases call with
  | add => exact sound.addOrder
  | cancel seq orderId => exact sound.cancelOrder seq orderId
  | replace => exact sound.replaceOrder

theorem Sound.call {book : ArrivalBook} (sound : book.Sound) (call : BookCall) :
    (book.call call).1.Sound := by
  cases call with
  | matching call => exact sound.matchCall call
  | feedAdd => exact sound.feedAdd
  | feedExecute => exact sound.feedExecute

end ArrivalBook

namespace OrderBook

def matchCall (book : OrderBook) : MatchCall → Exec (OrderBook × MatchAnswer)
  | .add seq orderId accountId side price qty tif => do
      let (book, out) ← book.addOrder seq orderId accountId side price qty tif
      .ok (book, .output out)
  | .cancel seq orderId => do
      let (book, ev) ← book.cancelOrder seq orderId
      .ok (book, .cancelled ev)
  | .replace seq oldId newId accountId side price qty tif => do
      let (book, out) ← book.replaceOrder seq oldId newId accountId side price qty tif
      .ok (book, .output out)

def call (book : OrderBook) : BookCall → Exec (OrderBook × BookAnswer)
  | .matching call => do
      let (book, answer) ← book.matchCall call
      .ok (book, .matched answer)
  | .feedAdd orderId accountId side price qty => do
      let (book, ok) ← book.feedAdd orderId accountId side price qty
      .ok (book, .fed ok)
  | .feedExecute orderId qty => do
      let (book, ok) ← book.feedExecute orderId qty
      .ok (book, .fed ok)

section

variable {book fresh : OrderBook} {ref : ArrivalBook}

theorem matchCall_spec (refines : book.Refines ref) (room : ref.orders.length < kNull.toNat)
    (call : MatchCall) :
    ∃ after, book.matchCall call = .ok (after, (ref.matchCall call).2) ∧
      Follows book after ref (ref.matchCall call).1 := by
  cases call with
  | add seq orderId accountId side price qty tif =>
      obtain ⟨after, ran, follows⟩ :=
        addOrder_spec refines room seq orderId accountId side price qty tif
      exact ⟨after, by rw [matchCall, ran]; rfl, follows⟩
  | cancel seq orderId =>
      obtain ⟨after, ran, shrinks⟩ := cancelOrder_spec refines seq orderId
      exact ⟨after, by rw [matchCall, ran]; rfl, shrinks.follows⟩
  | replace seq oldId newId accountId side price qty tif =>
      obtain ⟨after, ran, follows⟩ :=
        replaceOrder_spec refines room seq oldId newId accountId side price qty tif
      exact ⟨after, by rw [matchCall, ran]; rfl, follows⟩

theorem call_spec (refines : book.Refines ref) (room : ref.orders.length < kNull.toNat)
    (call : BookCall) :
    ∃ after, book.call call = .ok (after, (ref.call call).2) ∧
    Follows book after ref (ref.call call).1 := by
  cases call with
  | matching call =>
      obtain ⟨after, ran, follows⟩ := matchCall_spec refines room call
      exact ⟨after, by rw [OrderBook.call, ran]; rfl, follows⟩
  | feedAdd orderId accountId side price qty =>
      obtain ⟨after, ran, follows⟩ := feedAdd_spec refines room orderId accountId side price qty
      exact ⟨after, by rw [OrderBook.call, ran]; rfl, follows⟩
  | feedExecute orderId qty =>
      obtain ⟨after, ran, shrinks⟩ := feedExecute_spec refines orderId qty
      exact ⟨after, by rw [OrderBook.call, ran]; rfl, shrinks.follows⟩

/-- The reference book a new book starts as. -/
def blank (book : OrderBook) : ArrivalBook :=
  { symbolId := book.symbolId, minPrice := book.minPrice, maxPrice := book.maxPrice }

/-- A new book starts on its ladder. -/
theorem create_blank {symbolId : SymbolId} {ladder : PriceLadderConfig}
    (created : OrderBook.create symbolId ladder = .ok fresh) :
    fresh.blank = { symbolId, minPrice := ladder.minPrice, maxPrice := ladder.maxPrice } := by
  rw [OrderBook.create] at created
  split at created
  · cases created
  · dsimp only at created
    split at created
    · cases created
    · obtain rfl := Except.ok.inj created
      rfl

/-- What a successful construction leaves. -/
theorem create_ok {symbolId : SymbolId} {ladder : PriceLadderConfig}
    (created : OrderBook.create symbolId ladder = .ok fresh) :
    LadderOk fresh ∧ fresh.symbolId = symbolId ∧ fresh.nodes = #[] ∧ fresh.free = [] ∧
    fresh.index = ∅ ∧ ∀ isBuy, fresh.half isBuy = .empty fresh.levelCount := by
  rw [OrderBook.create] at created
  split at created
  · cases created
  · rename_i range
    dsimp only at created
    split at created
    · cases created
    · rename_i narrow
      obtain rfl := Except.ok.inj created
      simp only [Bool.or_eq_true, decide_eq_true_iff, not_or, Int64.le_iff_toInt_le,
        Int64.lt_iff_toInt_lt, Int64.toInt_zero] at range
      obtain ⟨positive, order⟩ := range
      have upper := ladder.maxPrice.toInt_lt
      have difference : (ladder.maxPrice - ladder.minPrice).toInt =
          ladder.maxPrice.toInt - ladder.minPrice.toInt :=
        toInt_sub_of_le (by omega) (by omega)
      have word := toUInt64_toNat (ladder.maxPrice - ladder.minPrice) (by omega)
      have span : ((ladder.maxPrice - ladder.minPrice).toUInt64 + 1).toNat =
          (ladder.maxPrice - ladder.minPrice).toUInt64.toNat + 1 := by
        rw [UInt64.toNat_add]
        exact Nat.mod_eq_of_lt (by change _ + 1 < _; omega)
      rw [gt_iff_lt, UInt64.lt_iff_toNat_lt, span] at narrow
      have limit : (0xFFFFFFFF : UInt64).toNat = 2 ^ 32 - 1 := by decide
      refine ⟨⟨?_, ?_, ?_⟩, rfl, rfl, rfl, rfl, fun isBuy => by cases isBuy <;> rfl⟩
      · change 0 < ladder.minPrice.toInt
        omega
      · change ladder.minPrice.toInt ≤ ladder.maxPrice.toInt
        omega
      · change ((((ladder.maxPrice - ladder.minPrice).toUInt64 + 1).toUInt32.toNat : Nat) : Int) =
          ladder.maxPrice.toInt - ladder.minPrice.toInt + 1
        rw [UInt64.toNat_toUInt32, span, Nat.mod_eq_of_lt (by omega)]
        omega

/-- A constructed book refines the empty reference book. -/
theorem create_spec {symbolId : SymbolId} {ladder : PriceLadderConfig}
    (created : OrderBook.create symbolId ladder = .ok fresh) :
    fresh.Refines fresh.blank ∧ fresh.Exact fresh.blank := by
  obtain ⟨ladderOk, -, nodes, free, index, halves⟩ := create_ok created
  have levels : ∀ (isBuy : Bool) (i : Nat) (level : Level),
      (fresh.half isBuy).levels[i]? = some level → level = {} := by
    intro isBuy i level found
    rw [halves, BookSide.empty, Array.getElem?_replicate] at found
    split at found
    · exact (Option.some.inj found).symm
    · cases found
  have noSlot : ∀ slot : UInt32, fresh.nodes[slot.toNat]? = none := fun slot => by rw [nodes]; rfl
  refine ⟨⟨fun _ _ => [], ⟨?_, rfl, rfl, rfl, ?_, ?_, ?_, ?_⟩⟩, ?_⟩
  · constructor
    · exact ladderOk
    · intro isBuy
      rw [halves, BookSide.empty, Array.size_replicate]
    · intro isBuy
      rw [halves]
      exact (BookSide.empty_occupancy _).congr fun i => by simp
    · intro isBuy
      rw [halves]
      simp [BookSide.empty]
    · rw [nodes]
      exact Nat.zero_le _
    · intro isBuy i level found
      rw [levels isBuy i level found]
      exact ⟨rfl, rfl, rfl⟩
    · exact fun _ _ => trivial
    · exact fun _ _ => List.nodup_nil
    · exact fun _ _ _ member => absurd member List.not_mem_nil
    · intro id slot found
      rw [index, Finmap.lookup_empty] at found
      cases found
    · intro slot
      rw [free, nodes]
      simp
    · rw [free]
      exact List.nodup_nil
    · intro slot n found
      rw [bare, noSlot] at found
      cases found
  · exact fun _ _ => rfl
  · exact fun _ member => absurd member List.not_mem_nil
  · exact List.nodup_nil
  · rw [nodes, free]
    rfl
  · intro isBuy i
    have empty : fresh.total isBuy i = 0 := by
      rw [total]
      split
      · rename_i level found
        rw [levels isBuy i level found]
      · rfl
    rw [empty]
    rfl

/-- A book refines a reference book whose orders are sound. -/
def Tracks (book : OrderBook) (ref : ArrivalBook) : Prop := book.Refines ref ∧ ref.Sound

theorem create_tracks {symbolId : SymbolId} {ladder : PriceLadderConfig}
    (created : OrderBook.create symbolId ladder = .ok fresh) : fresh.Tracks fresh.blank :=
  ⟨(create_spec created).1, List.nodup_nil, fun _ member => absurd member List.not_mem_nil⟩

end

/-- Slot `slot` holds an active order of a side, `i` ticks above the lowest price. -/
def RestsAt (book : OrderBook) (isBuy : Bool) (i : Nat) (slot : UInt32) : Prop :=
  ∃ n, book.nodes[slot.toNat]? = some n ∧ n.active = true ∧ n.side.isBuy = isBuy ∧
    n.price.toInt = book.minPrice.toInt + i

/-- Some active order of a side rests `i` ticks above the lowest price. -/
def NonEmpty (book : OrderBook) (isBuy : Bool) (i : Nat) : Prop := ∃ slot, book.RestsAt isBuy i slot

/-- The representation invariant, in the members of the book alone. -/
structure WellFormed (book : OrderBook) : Prop where
  /-- Every node has a slot other than the null slot. -/
  slots : book.nodes.size ≤ kNull.toNat
  index : ∀ id slot, book.index.lookup id = some slot ↔
    ∃ n, book.nodes[slot.toNat]? = some n ∧ n.active = true ∧ n.orderId = id
  free : ∀ slot, slot ∈ book.free ↔ ∃ n, book.nodes[slot.toNat]? = some n ∧ n.active = false
  freeOnce : book.free.Nodup
  active : ∀ (slot : UInt32) (n : Node), book.nodes[slot.toNat]? = some n → n.active = true →
    n.qty ≠ 0 ∧ book.priceInBand n.price = true ∧
    (n.levelIdx.toNat : Int) = n.price.toInt - book.minPrice.toInt
  levels : ∀ isBuy, (book.half isBuy).levels.size = book.levelCount.toNat
  /-- The list of a level runs through the active orders of its side and price. -/
  queue : ∀ (isBuy : Bool) (i : Nat) (level : Level), (book.half isBuy).levels[i]? = some level →
    ∃ slots : List UInt32, slots.Nodup ∧ Linked book.links kNull slots kNull ∧
      level.head = slots.headD kNull ∧ level.tail = slots.getLastD kNull ∧
      level.count.toNat = slots.length ∧ ∀ slot, slot ∈ slots ↔ book.RestsAt isBuy i slot
  bits : ∀ isBuy i, testBit (book.half isBuy).bitmap i = true ↔
    i < book.levelCount.toNat ∧ book.NonEmpty isBuy i
  levelCounts : ∀ isBuy, (book.half isBuy).levelCount.toNat = {i | book.NonEmpty isBuy i}.ncard
  noBest : ∀ isBuy, (book.half isBuy).bestIdx = none → ∀ i, ¬ book.NonEmpty isBuy i
  /-- The best bid is the highest non-empty level, the best ask the lowest. -/
  best : ∀ isBuy idx, (book.half isBuy).bestIdx = some idx →
    book.NonEmpty isBuy idx.toNat ∧
      ∀ i, book.NonEmpty isBuy i → if isBuy then i ≤ idx.toNat else idx.toNat ≤ i

section WellFormed

variable {book fresh : OrderBook} {ref : ArrivalBook} {queues : Queues} {isBuy : Bool} {i : Nat}
  {slot : UInt32} {n : Node}

/-- The queued slots are those of the active orders. -/
theorem Mirrors.restsAt (mirrors : book.Mirrors queues ref) :
    book.RestsAt isBuy i slot ↔ slot ∈ queues isBuy i := by
  constructor
  · rintro ⟨n, found, active, side, price⟩
    have queued : ∃ d j, slot ∈ queues d j := by
      by_contra! unqueued
      have inactive := mirrors.rep.inactive slot n.bare (bare_of_getElem? found) unqueued
      rw [show n.bare.active = n.active from rfl, active] at inactive
      cases inactive
    obtain ⟨d, j, member⟩ := queued
    obtain ⟨m, found', listed, -, side', -, level, -⟩ := mirrors.order_of_queued member
    obtain rfl := Option.some.inj (found.symm.trans found')
    have inBand : book.priceInBand n.price = true := mirrors.inBand (viewNode n) listed
    have place := price_eq inBand
    obtain rfl : d = isBuy := side'.symm.trans side
    obtain rfl : j = i := by omega
    exact member
  · intro member
    obtain ⟨n, found, listed, active, side, -, level, -⟩ := mirrors.order_of_queued member
    have inBand : book.priceInBand n.price = true := mirrors.inBand (viewNode n) listed
    exact ⟨n, found, active, side, by rw [price_eq inBand, level]⟩

theorem Mirrors.nonEmpty (mirrors : book.Mirrors queues ref) :
    book.NonEmpty isBuy i ↔ queues isBuy i ≠ [] := by
  constructor
  · rintro ⟨slot, rests⟩
    exact List.ne_nil_of_mem (mirrors.restsAt.mp rests)
  · intro occupied
    obtain ⟨slot, member⟩ := List.exists_mem_of_ne_nil _ occupied
    exact ⟨slot, mirrors.restsAt.mpr member⟩

/-- A book that mirrors a sound list of orders is well formed. -/
theorem Mirrors.wellFormed (mirrors : book.Mirrors queues ref) (sound : ref.Sound) :
    book.WellFormed := by
  have rep := mirrors.rep
  have queuedOf : ∀ (slot : UInt32) (n : Node), book.nodes[slot.toNat]? = some n → n.active = true →
      slot ∈ queues n.side.isBuy n.levelIdx.toNat ∧ viewNode n ∈ ref.orders ∧
        book.levelOf n.price = n.levelIdx.toNat ∧ book.index.lookup n.orderId = some slot := by
    intro slot n found active
    have queued : ∃ d j, slot ∈ queues d j := by
      by_contra! unqueued
      have inactive := rep.inactive slot n.bare (bare_of_getElem? found) unqueued
      rw [show n.bare.active = n.active from rfl, active] at inactive
      cases inactive
    obtain ⟨d, j, member⟩ := queued
    obtain ⟨m, found', listed, -, rfl, rfl, level, indexed⟩ := mirrors.order_of_queued member
    obtain rfl := Option.some.inj (found.symm.trans found')
    exact ⟨member, listed, level, indexed⟩
  constructor
  · exact rep.slots
  · intro id slot
    constructor
    · intro indexed
      obtain ⟨n, found, isId, -, active, -⟩ := mirrors.order_of_index indexed
      exact ⟨n, found, active, isId⟩
    · rintro ⟨n, found, active, rfl⟩
      exact (queuedOf slot n found active).2.2.2
  · intro slot
    rw [rep.free]
    constructor
    · rintro ⟨bound, unqueued⟩
      obtain ⟨n, found⟩ : ∃ n, book.nodes[slot.toNat]? = some n :=
        ⟨_, Array.getElem?_eq_getElem bound⟩
      exact ⟨n, found, rep.inactive slot n.bare (bare_of_getElem? found) unqueued⟩
    · rintro ⟨n, found, inactive⟩
      refine ⟨(Array.getElem?_eq_some_iff.mp found).1, fun d j member => ?_⟩
      obtain ⟨m, found', -, active, -⟩ := mirrors.order_of_queued member
      obtain rfl := Option.some.inj (found.symm.trans found')
      rw [active] at inactive
      cases inactive
  · exact rep.freeNodup
  · intro slot n found active
    obtain ⟨-, listed, level, -⟩ := queuedOf slot n found active
    have inBand : book.priceInBand n.price = true := mirrors.inBand (viewNode n) listed
    refine ⟨sound.positive (viewNode n) listed, inBand, ?_⟩
    rw [price_eq inBand, level]
    omega
  · exact rep.levels
  · intro isBuy i level found
    obtain ⟨head, tail, -⟩ := rep.level isBuy i level found
    exact ⟨queues isBuy i, rep.nodup isBuy i, rep.linked isBuy i, head, tail, rep.count_toNat found,
      fun slot => mirrors.restsAt.symm⟩
  · intro isBuy i
    rw [(rep.occupancy isBuy).bits, mirrors.nonEmpty]
    exact ⟨fun occupied => ⟨(rep.occupancy isBuy).inside i occupied, occupied⟩, And.right⟩
  · intro isBuy
    rw [rep.levelCount_toNat, ← Set.ncard_coe_finset]
    congr 1
    ext i
    simp only [Finset.coe_filter, Finset.mem_range, Set.mem_ofPred_eq, mirrors.nonEmpty]
    exact ⟨And.right, fun occupied => ⟨(rep.occupancy isBuy).inside i occupied, occupied⟩⟩
  · intro isBuy none i occupied
    exact (rep.occupancy isBuy).none none i (mirrors.nonEmpty.mp occupied)
  · intro isBuy idx best
    obtain ⟨occupied, order⟩ := (rep.occupancy isBuy).best idx best
    exact ⟨mirrors.nonEmpty.mpr occupied, fun i other => order i (mirrors.nonEmpty.mp other)⟩

/-- Every book reached from a constructed one, while its pool stays below the
null slot, is well formed. -/
theorem run_wellFormed {symbolId : SymbolId} {ladder : PriceLadderConfig} {calls : List BookCall}
    (created : OrderBook.create symbolId ladder = .ok fresh)
    (room : Along call (fun book _ => book.nodes.size < kNull.toNat) fresh calls) :
    ∃ after answers, run call fresh calls = .ok (after, answers) ∧ after.WellFormed := by
  have simulate : ∀ (book : OrderBook) (ref : ArrivalBook) (call : BookCall), book.Tracks ref →
      book.nodes.size < kNull.toNat →
      ∃ after, book.call call = .ok (after, (ref.call call).2) ∧
      after.Tracks (ref.call call).1 := by
    intro book ref call tracks room
    obtain ⟨after, ran, follows⟩ :=
      call_spec tracks.1 (Nat.lt_of_le_of_lt tracks.1.length_le room) call
    exact ⟨after, ran, follows.refines, tracks.2.call call⟩
  obtain ⟨final, ran, ⟨queues, mirrors⟩, sound⟩ :=
    run_simulation simulate (create_tracks created) room
  exact ⟨final, _, ran, mirrors.wellFormed sound⟩

/-- A book with a single price. -/
def oneTick : OrderBook :=
  { symbolId := 1, minPrice := 1, maxPrice := 1, levelCount := 1, bids := .empty 1,
    asks := .empty 1 }

theorem oneTick_created : OrderBook.create 1 { minPrice := 1, maxPrice := 1 } = .ok oneTick := by
  rfl

/-- Matching, a feed execution and a cancel on one queue. -/
theorem run_wellFormed_oneTick : ∃ after answers,
    run call oneTick [.matching (.add 1 7 1 .buy 1 5 .gtc), .matching (.add 2 8 2 .sell 1 3 .ioc),
      .feedAdd 9 1 .buy 1 4, .feedExecute 7 1, .matching (.cancel 3 7)] = .ok (after, answers) ∧
    after.WellFormed :=
  run_wellFormed oneTick_created (by decide +kernel)

end WellFormed

end OrderBook

end Exsim.Core
