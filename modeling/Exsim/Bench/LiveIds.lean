import Exsim.Bench.Replay
import Exsim.Data.SwapRemove
import Exsim.Reference.Accounts
import Exsim.Reference.MarketFeed

/-! # The live ids of the benchmark

Following the events of each result, the benchmark keeps the ids that rest
somewhere in the exchange, each once, with its place.
-/

open Exsim.Core Exsim.Data

namespace Exsim

namespace Core.ArrivalMarket

/-- Whether some book holds an order. -/
def Rests (market : ArrivalMarket) (id : OrderId) : Prop :=
  ∃ symbol, market.validSymbol symbol = true ∧ (market.books symbol).holds id = true

variable {market : ArrivalMarket} {symbol : SymbolId} {id : OrderId}

theorem Indexed.rests (indexed : market.Indexed) :
    (market.symbolOf id).isSome = true ↔ market.Rests id := by
  rw [Option.isSome_iff_exists]
  exact exists_congr fun symbol => indexed id symbol

theorem rests_iff (valid : market.validSymbol symbol = true) :
    market.Rests id ↔ (market.books symbol).holds id = true ∨ market.Elsewhere symbol id := by
  constructor
  · rintro ⟨other, ok, held⟩
    by_cases here : other = symbol
    · exact .inl (here ▸ held)
    · exact .inr ⟨other, ok, here, held⟩
  · rintro (held | ⟨other, ok, -, held⟩)
    · exact ⟨symbol, valid, held⟩
    · exact ⟨other, ok, held⟩

theorem rests_congr {later : ArrivalMarket} (sameMax : later.maxSymbol = market.maxSymbol)
    (same : later.books = market.books) : later.Rests id ↔ market.Rests id := by
  rw [Rests, Rests, same]
  refine exists_congr fun symbol => and_congr_left fun _ => ?_
  rw [validSymbol, validSymbol, sameMax]

/-- An order that a command leaves resting rested before or is the command's own. -/
theorem apply_rests {seq : SeqNo} {cmd : ClientCommand} (sound : market.Sound)
    (listed : market.Listed) (known : cmd.type = .new → market.validSymbol cmd.symbolId = true)
    (rests : (market.apply seq cmd).1.Rests id) :
    market.Rests id ∨ ∃ ev ∈ (market.apply seq cmd).2.mdEvents, ev.type = .add ∧
    ev.orderId = id := by
  cases targeted : market.target cmd with
  | none =>
      rw [(apply_untargeted seq targeted).1] at rests
      exact .inl rests
  | some symbol =>
      obtain ⟨valid, after, books, reported⟩ := apply_targeted seq sound listed known targeted
      have validLater : (market.apply seq cmd).1.validSymbol symbol = true := by
        rw [validSymbol, apply_maxSymbol]
        exact valid
      rw [rests_iff validLater, books, Function.update_self,
        elsewhere_update apply_maxSymbol books] at rests
      obtain held | other := rests
      · exact ((reported.tells after.holds fun _ _ _ => rfl).entered held).imp_left fun before =>
          ⟨symbol, valid, before⟩
      · exact .inl ((rests_iff valid).mpr (.inr other))

end Core.ArrivalMarket

namespace Bench.State

/-- The live ids are those of which `rests` holds. -/
structure Tracks (state : State) (rests : OrderId → Prop) : Prop where
  places : SwapRemove.Indexed state.liveIds state.livePos
  live : ∀ id, id ∈ state.liveIds ↔ rests id

/-- What tracking leaves alone. -/
structure Beside (state after : State) : Prop where
  same : after = { state with liveIds := after.liveIds, livePos := after.livePos }

section

variable {state after later : State} {rests rests' : OrderId → Prop} {id : OrderId} {ev : MdEvent}
  {events : List MdEvent}

theorem Beside.refl (state : State) : Beside state state := ⟨rfl⟩

theorem Beside.trans (first : Beside state after) (second : Beside after later) :
    Beside state later :=
  ⟨by rw [second.same, first.same]⟩

theorem Tracks.congr (tracks : state.Tracks rests) (same : ∀ id, rests id ↔ rests' id) :
    state.Tracks rests' :=
  ⟨tracks.places, fun id => (tracks.live id).trans (same id)⟩

theorem Tracks.add (tracks : state.Tracks rests) (id : OrderId) :
    (state.trackAdd id).Tracks (fun other => rests other ∨ other = id) ∧
    Beside state (state.trackAdd id) := by
  rw [trackAdd]
  split
  · rename_i known
    refine ⟨tracks.congr fun other => ⟨.inl, fun either => either.elim (fun kept => kept) ?_⟩,
      .refl state⟩
    rintro rfl
    exact (tracks.live other).mp (tracks.places.mem.mpr known)
  · rename_i unknown
    refine ⟨⟨tracks.places.push (Option.not_isSome_iff_eq_none.mp unknown), fun other => ?_⟩, ⟨rfl⟩⟩
    rw [Array.mem_push, tracks.live]

theorem Tracks.remove (tracks : state.Tracks rests) (id : OrderId) :
    ∃ after, state.trackRemove id = .ok after ∧
    after.Tracks (fun other => rests other ∧ other ≠ id) ∧ Beside state after := by
  rw [trackRemove]
  cases found : state.livePos.lookup id with
  | none =>
      refine ⟨state, rfl, tracks.congr fun other => ⟨fun kept => ⟨kept, ?_⟩, And.left⟩, .refl state⟩
      rintro rfl
      exact tracks.places.absent.mp found ((tracks.live other).mpr kept)
  | some place =>
      have inside := (Array.getElem?_eq_some_iff.mp ((tracks.places id place).mp found)).1
      cases last : state.liveIds.back? with
      | none =>
          rw [Array.back?_eq_none_iff] at last
          rw [last] at inside
          cases inside
      | some back =>
          dsimp only
          rw [writeAt_of_lt back inside, exec_ok_bind]
          refine ⟨_, rfl, ⟨tracks.places.remove found last, fun other => ?_⟩, ⟨rfl⟩⟩
          rw [tracks.places.mem_remove found last, tracks.live]

/-- Tracking an event told of one book, while `elsewhere` holds of the ids that
rest in others. -/
theorem Tracks.told {elsewhere : OrderId → Prop} {book next : ArrivalBook}
    (told : ArrivalBook.Told state.exchange.books.containsOrder book ev next) (sound : book.Sound)
    (alone : ¬elsewhere ev.orderId)
    (tracks : state.Tracks fun id => book.holds id = true ∨ elsewhere id) :
    ∃ after, state.track ev = .ok after ∧
    after.Tracks (fun id => next.holds id = true ∨ elsewhere id) ∧ Beside state after := by
  have self := told.holds_self sound
  have others : ∀ id, id ≠ ev.orderId → next.holds id = book.holds id :=
    fun id away => told.holds_other (Ne.symm away)
  have removed : next.holds ev.orderId = false → ∃ after, state.trackRemove ev.orderId = .ok after ∧
      after.Tracks (fun id => next.holds id = true ∨ elsewhere id) ∧ Beside state after := by
    intro gone
    obtain ⟨after, ran, kept, beside⟩ := tracks.remove ev.orderId
    refine ⟨after, ran, kept.congr fun id => ?_, beside⟩
    by_cases isOwn : id = ev.orderId
    · subst isOwn
      simp [gone, alone]
    · rw [others id isOwn]
      exact and_iff_left isOwn
  rw [track]
  cases told with
  | add type =>
      obtain ⟨kept, beside⟩ := tracks.add ev.orderId
      rw [if_pos type]
      refine ⟨_, rfl, kept.congr fun id => ?_, beside⟩
      rw [ArrivalBook.rest_holds, Bool.or_eq_true, decide_eq_true_iff, or_right_comm,
        eq_comm (a := id)]
      rfl
  | cancel type =>
      rw [if_neg (by rw [type]; decide), if_pos type]
      exact removed (by rw [self, type]; rfl)
  | @execute order type symbol member named =>
      rw [if_neg (by rw [type]; decide), if_neg (by rw [type]; decide), type, decide_eq_true rfl,
        Bool.true_and]
      rw [type] at self
      cases lives : state.exchange.books.containsOrder ev.orderId with
      | true =>
          have isId : order.orderId = ev.orderId := congrArg RestingOrderView.orderId named
          refine ⟨state, rfl, tracks.congr fun id => or_congr_left ?_, .refl state⟩
          by_cases isOwn : id = ev.orderId
          · rw [isOwn, self, lives]
            exact iff_of_true (Keyed.holds_iff.mpr ⟨order, member, isId⟩) rfl
          · rw [others id isOwn]
      | false => exact removed (by rw [self, lives]; rfl)

/-- Tracking the events told of one book. -/
theorem Tracks.tells {elsewhere : OrderId → Prop} {live : OrderId → Bool} {book final : ArrivalBook}
    (tells : ArrivalBook.Tells live book events final) (sound : book.Sound)
    (alone : ∀ id, book.holds id = true → ¬elsewhere id)
    (adds : ∀ ev ∈ events, ev.type = .add → ¬elsewhere ev.orderId)
    (lives : state.exchange.books.containsOrder = live)
    (tracks : state.Tracks fun id => book.holds id = true ∨ elsewhere id) :
    ∃ after, events.foldlM track state = .ok after ∧
    after.Tracks (fun id => final.holds id = true ∨ elsewhere id) ∧ Beside state after := by
  induction tells generalizing state with
  | nil => exact ⟨state, rfl, tracks, .refl state⟩
  | @cons book ev middle events final head tail ih =>
      have own : ¬elsewhere ev.orderId := by
        cases head with
        | add type => exact adds ev List.mem_cons_self type
        | cancel type symbol member => exact alone _ (Keyed.holds_iff.mpr ⟨_, member, rfl⟩)
        | execute type symbol member named =>
            exact alone _ (Keyed.holds_iff.mpr ⟨_, member, congrArg RestingOrderView.orderId named⟩)
      subst lives
      obtain ⟨next, ran, kept, beside⟩ := tracks.told head sound own
      have stays : ∀ id, middle.holds id = true → ¬elsewhere id := by
        intro id held
        by_cases isOwn : ev.orderId = id
        · exact isOwn ▸ own
        · rw [head.holds_other isOwn] at held
          exact alone id held
      obtain ⟨after, rest, reached, further⟩ := ih (head.sound sound) stays
        (fun other member => adds other (List.mem_cons_of_mem ev member)) (by rw [beside.same]) kept
      refine ⟨after, ?_, reached, beside.trans further⟩
      rw [List.foldlM_cons, ran]
      exact rest

/-- The numbers of the events do not matter to tracking. -/
theorem track_stamp (state : State) (next : SeqNo) (events : List MdEvent) :
    (Exchange.stamp next events).foldlM track state = events.foldlM track state := by
  induction events generalizing state next with
  | nil => rfl
  | cons ev events ih =>
      rw [Exchange.stamp, List.foldlM_cons, List.foldlM_cons,
        show state.track { ev with seq := next } = state.track ev from rfl]
      cases state.track ev with
      | error fault => rfl
      | ok after => exact ih after _

/-- Tracking what a command publishes, under an id that is new to the other books. -/
theorem Tracks.tracked {market next : ArrivalMarket}
    (tracked : ArrivalMarket.Tracked market events next)
    (sound : market.Sound) (apart : market.Apart) (sameMax : next.maxSymbol = market.maxSymbol)
    (adds : ∀ ev ∈ events, ev.type = .add → ¬market.Rests ev.orderId)
    (lives : state.exchange.books.containsOrder = fun id => (next.symbolOf id).isSome)
    (tracks : state.Tracks market.Rests) :
    ∃ after, events.foldlM track state = .ok after ∧ after.Tracks next.Rests ∧
    Beside state after := by
  obtain ⟨same, rfl⟩ | ⟨symbol, book, valid, books, tells, -⟩ := tracked
  · exact ⟨state, rfl, tracks.congr fun id => (ArrivalMarket.rests_congr sameMax same).symm,
      .refl state⟩
  · have validNext : next.validSymbol symbol = true := by
      rw [ArrivalMarket.validSymbol, sameMax]
      exact valid
    obtain ⟨after, ran, kept, beside⟩ := Tracks.tells tells (sound.books symbol valid)
      (fun id => apart symbol id valid) (fun ev member added other =>
        adds ev member added ((ArrivalMarket.rests_iff valid).mpr (.inr other)))
      lives (tracks.congr fun id => ArrivalMarket.rests_iff valid)
    refine ⟨after, ran, kept.congr fun id => ?_, beside⟩
    rw [ArrivalMarket.rests_iff validNext, books, Function.update_self,
      ArrivalMarket.elsewhere_update sameMax books]

end

end Bench.State

end Exsim
