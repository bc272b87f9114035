import Exsim.Bench.Commands
import Exsim.Exchange.Accounts
import Exsim.Exchange.Delivery
import Exsim.Exchange.Restart
import Exsim.Reference.Lanes

/-! # The benchmark verifies

Along every run the subscriber follows the exchange, the live ids are those that
rest, and no call throws; the replay then brings back both checksums.
-/

open Exsim.Core Exsim.Data Exsim.Journal Exsim.Protocol

namespace Exsim.Bench

/-- What holds after every event, for the market of the exchange and that of the subscriber. -/
structure Kept (arguments : Arguments) (state : State) (market copy : ArrivalMarket) : Prop where
  mirrored : Exchange.Mirrored state.exchange state.subscriber market copy
  indexed : market.Indexed
  sameMax : market.maxSymbol = arguments.symbols
  /-- The ids that rest were given out before. -/
  used : ∀ id, market.Rests id → id ≠ 0 ∧ id.toNat < state.nextId.toNat
  numbered : 0 < state.nextId.toNat ∧ state.nextId.toNat ≤ state.i + 1
  quantity : market.weigh (fun order => order.qty.toNat) ≤ 100 * state.i
  tracks : state.Tracks market.Rests

section

variable {arguments : Arguments} {state after : State} {market copy later : ArrivalMarket}
  {draw : Draw} {draws : List Draw} {events : List MdEvent} {followed : SubscriberBook}
  {cmd : ClientCommand}

/-- Events that the subscriber takes are fed to it one after the other. -/
theorem feed_run (fed : run SubscriberBook.feedEvent state.subscriber events =
    .ok (followed, events.map fun _ => none)) :
    state.feed events =
      .ok ({ state with
        subscriber := followed, mdFrames := state.mdFrames + UInt64.ofNat events.length },
        none) := by
  induction events generalizing state with
  | nil =>
      rw [List.map_nil, run_nil, Except.ok.injEq, Prod.mk.injEq] at fed
      rw [State.feed, ← fed.1, List.length_nil, show UInt64.ofNat 0 = 0 from rfl, UInt64.add_zero]
  | cons ev events ih =>
      obtain ⟨middle, answer, rest, stepped, later, answers⟩ := run_cons_ok fed
      obtain ⟨rfl, rfl⟩ := List.cons.inj answers
      have taken : state.subscriber.applyFrame (Md.encodeMdEvent ev) = .ok (middle, none) :=
        (SubscriberBook.feedEvent_eq _ _).symm.trans stepped
      rw [State.feed, Md.encodeMdEventFrame_run, exec_ok_bind, taken, exec_ok_bind]
      dsimp only
      have fedRest := @ih { state with subscriber := middle, mdFrames := state.mdFrames + 1 } later
      rw [fedRest, List.length_cons, UInt64.ofNat_add, UInt64.add_comm (UInt64.ofNat _),
        UInt64.add_assoc]
      rfl

theorem counted_i (state : State) (ack : Ack) : (state.counted ack).i = state.i + 1 := by
  rw [State.counted]
  split <;> rfl

theorem counted_exchange (state : State) (ack : Ack) :
    (state.counted ack).exchange = state.exchange := by
  rw [State.counted]
  split <;> rfl

/-- Counting an event moves on by one and keeps the rest. -/
theorem Kept.counted (kept : Kept arguments { state with i := state.i + 1 } market copy)
    (ack : Ack) :
    Kept arguments (state.counted ack) market copy := by
  obtain ⟨mirrored, indexed, sameMax, used, numbered, quantity, places, live⟩ := kept
  rw [State.counted]
  split <;> exact ⟨mirrored, indexed, sameMax, used, numbered, quantity, places, live⟩

theorem quantity_monotone : ArrivalBook.Monotone fun order => order.qty.toNat :=
  fun _ _ less => UInt32.le_iff_toNat_le.mp less

/-- A book holds no more orders than their quantities add up to. -/
theorem length_le_weigh {book : ArrivalBook} (sound : book.Sound) :
    book.orders.length ≤ book.weigh fun order => order.qty.toNat := by
  have least : ∀ share ∈ book.orders.map (fun order => order.qty.toNat), 1 ≤ share := by
    intro share listed
    obtain ⟨order, member, rfl⟩ := List.mem_map.mp listed
    exact Nat.one_le_iff_ne_zero.mpr fun zero =>
      sound.positive order member (UInt32.toNat_inj.mp zero)
  have sum := List.card_nsmul_le_sum _ 1 least
  rwa [List.length_map, nsmul_eq_mul, mul_one, Nat.cast_id] at sum

theorem book_weigh_le (weight : RestingOrderView → Nat) {symbol : SymbolId}
    (valid : market.validSymbol symbol = true) :
    (market.books symbol).weigh weight ≤ market.weigh weight := by
  rw [ArrivalMarket.weigh_split weight valid]
  exact Nat.le_add_left _ _

/-- No book is near the end of its slots. -/
theorem Kept.room (kept : Kept arguments state market copy) (few : 100 * (state.i + 1) < 2 ^ 32) :
    market.HasRoom := by
  intro symbol valid
  have count := length_le_weigh (kept.mirrored.models.sound.books symbol valid)
  have part : (market.books symbol).weigh _ ≤ market.weigh _ :=
    book_weigh_le (fun order => order.qty.toNat) valid
  have total := kept.quantity
  have slots : kNull.toNat = 2 ^ 32 - 1 := rfl
  omega

theorem Chosen.known (chosen : Chosen arguments state after cmd)
    (sameMax : market.maxSymbol = arguments.symbols) :
    cmd.type = .new → market.validSymbol cmd.symbolId = true := by
  intro isNew
  cases chosen with
  | cancel isCancel => exact absurd (isCancel.symm.trans isNew) ArrivalMarket.cancel_ne_new
  | new isNew id known =>
      rw [ArrivalMarket.validSymbol, sameMax]
      simpa using known

theorem Chosen.ne_replace (chosen : Chosen arguments state after cmd) : cmd.type ≠ .replace := by
  cases chosen with
  | cancel isCancel => rw [isCancel]; decide
  | new isNew => rw [isNew]; decide

theorem Chosen.isNew (chosen : Chosen arguments state after cmd) (notCancel : cmd.type ≠ .cancel) :
    cmd.type = .new := by
  cases chosen with
  | cancel isCancel => exact absurd isCancel notCancel
  | new isNew => exact isNew

theorem Chosen.small (chosen : Chosen arguments state after cmd) (isNew : cmd.type = .new) :
    cmd.qty.toNat ≤ 100 := by
  cases chosen with
  | cancel isCancel => exact absurd (isCancel.symm.trans isNew) ArrivalMarket.cancel_ne_new
  | new _ _ _ small => exact small

/-- An order of the benchmark has an id that does not rest. -/
theorem Kept.fresh (kept : Kept arguments state market copy)
    (chosen : Chosen arguments state after cmd) (isNew : cmd.type = .new) :
    ¬market.Rests cmd.orderId := by
  intro rests
  have used := (kept.used _ rests).2
  cases chosen with
  | cancel isCancel => exact absurd (isCancel.symm.trans isNew) ArrivalMarket.cancel_ne_new
  | new isNew id =>
      rw [id] at used
      exact Nat.lt_irrefl _ used

theorem Kept.alone (kept : Kept arguments state market copy)
    (chosen : Chosen arguments state after cmd) :
    ¬market.Crowds cmd := by
  rintro (⟨isNew, -, -, other, valid, -, held⟩ | ⟨isReplace, -⟩)
  · exact kept.fresh chosen isNew ⟨other, valid, held⟩
  · exact chosen.ne_replace isReplace

/-- The index names every order a command can trade with. -/
theorem Kept.tracked (kept : Kept arguments state market copy)
    (chosen : Chosen arguments state after cmd) :
    ¬market.Untracked cmd := by
  rintro (⟨isNew, order, member, -, lost⟩ | ⟨isReplace, -⟩)
  · have found := (kept.indexed order.orderId cmd.symbolId).mpr
      ⟨chosen.known kept.sameMax isNew, Keyed.holds_iff.mpr ⟨order, member, rfl⟩⟩
    rw [lost] at found
    cases found
  · exact chosen.ne_replace isReplace

/-- No command of the benchmark takes a level past its counter. -/
theorem Kept.within (kept : Kept arguments state market copy) (few : 100 * (state.i + 1) < 2 ^ 32)
    (chosen : Chosen arguments state after cmd) : state.exchange.books.overfills cmd = false := by
  have models := kept.mirrored.models
  have known := chosen.known kept.sameMax
  rw [BookManager.overfills, decide_eq_false chosen.ne_replace, Bool.false_and, Bool.or_false]
  cases chosen with
  | cancel isCancel => rw [isCancel]; rfl
  | new isNew id valid small =>
      obtain ⟨book, stored, refines⟩ := models.books _ (known isNew)
      rw [models.findBook (known isNew) stored, Option.any_some,
        OrderBook.overfills_perm (refines.resting_perm (models.sound.books _ (known isNew))),
        OrderBook.overfills]
      have level : book.restingQty (market.books cmd.symbolId).orders cmd.side.isBuy
          (book.levelOf cmd.price) ≤ (market.books cmd.symbolId).weigh fun order =>
            order.qty.toNat := by
        rw [OrderBook.restingQty_eq_weigh]
        refine List.sum_le_sum fun order _ => ?_
        rw [OrderBook.share]
        split
        · exact Nat.le_refl _
        · exact Nat.zero_le _
      have part : (market.books cmd.symbolId).weigh _ ≤ market.weigh _ :=
        book_weigh_le (fun order => order.qty.toNat) (known isNew)
      have total := kept.quantity
      have fits : ¬2 ^ 32 ≤ book.restingQty (market.books cmd.symbolId).orders cmd.side.isBuy
          (book.levelOf cmd.price) +
            (cmd.qty.toNat - (market.books cmd.symbolId).orders.crossing cmd.side cmd.price) := by
        omega
      rw [decide_eq_false fits, Bool.and_false, Bool.and_false]

theorem Kept.reportable (kept : Kept arguments state market copy)
    (few : 100 * (state.i + 1) < 2 ^ 32) (chosen : Chosen arguments state after cmd)
    {call : ExchangeCall} (carried : call.command? = some cmd) :
    state.exchange.reportable call = true := by
  have whole : state.exchange.books.halts cmd = false := by
    rw [BookManager.halts, decide_eq_false chosen.ne_replace, Bool.false_and]
  have apart : state.exchange.books.crowds cmd = false :=
    Bool.eq_false_iff.mpr fun crowds =>
      kept.alone chosen ((kept.mirrored.models.crowds (chosen.known kept.sameMax)).mp crowds)
  rw [Exchange.reportable, carried]
  dsimp only
  rw [whole, apart, kept.within few chosen]
  simp

/-- A rejected command leaves nothing to track. -/
theorem track_reject (state : State) (exchange : Exchange) (seq : SeqNo) (cmd : ClientCommand)
    (reason : RejectReason) :
    (exchange.reject seq cmd reason).2.mdEvents.foldlM State.track state = .ok state := rfl

/-- What a call of the benchmark does to the market, and that tracking follows. -/
theorem Kept.called {call : ExchangeCall} {exchange : Exchange} {outcome : Outcome}
    (kept : Kept arguments state market copy) (chosen : Chosen arguments state after cmd)
    (carried : call.command? = some cmd)
    (called : Exchange.Called state.exchange market call exchange outcome later) :
    ∃ result, outcome = .returned result ∧ later.Indexed ∧ later.maxSymbol = market.maxSymbol ∧
      (∀ id, later.Rests id → market.Rests id ∨ cmd.type = .new ∧ id = cmd.orderId) ∧
      later.weigh (fun order => order.qty.toNat) ≤
        market.weigh (fun order => order.qty.toNat) + 100 ∧
      ∀ start : State, start.exchange = exchange → start.Tracks market.Rests →
        ∃ tracked, result.mdEvents.foldlM State.track start = .ok tracked ∧
        tracked.Tracks later.Rests ∧ State.Beside start tracked := by
  have models := kept.mirrored.models
  have known := chosen.known kept.sameMax
  have still : ∀ (exchange : Exchange) (seq : SeqNo) (reason : RejectReason) (start : State),
      start.Tracks market.Rests → ∃ tracked,
        (exchange.reject seq cmd reason).2.mdEvents.foldlM State.track start = .ok tracked ∧
        tracked.Tracks market.Rests ∧ State.Beside start tracked :=
    fun exchange seq reason start tracks =>
      ⟨start, track_reject start exchange seq cmd reason, tracks, .refl start⟩
  cases called with
  | undecoded undecoded =>
      rw [undecoded] at carried
      cases carried
  | refused carried' =>
      obtain rfl := Option.some.inj (carried.symm.trans carried')
      exact ⟨_, rfl, kept.indexed, rfl, fun id rests => .inl rests, Nat.le_add_right _ _,
        fun start _ tracks => still _ _ _ start tracks⟩
  | threw carried' admitted isNew unknown =>
      obtain rfl := Option.some.inj (carried.symm.trans carried')
      rw [models.validSymbol, known isNew] at unknown
      cases unknown
  | @applied _ books carried' admitted known advances =>
      obtain rfl := Option.some.inj (carried.symm.trans carried')
      have indexed := ArrivalMarket.apply_indexed known state.exchange.nextSeq models.sound
        kept.indexed (kept.alone chosen) fun strands => chosen.ne_replace strands.1
      have whole : ¬market.Halts cmd := fun halts => chosen.ne_replace halts.1
      have adds : ∀ ev ∈ (market.apply state.exchange.nextSeq cmd).2.mdEvents, ev.type = .add →
          cmd.type = .new ∧ ev.orderId = cmd.orderId := by
        intro ev member added
        refine ⟨chosen.isNew fun isCancel => ?_,
          (ArrivalMarket.apply_adds models.sound models.listed known member added).1.1⟩
        exact absurd ((ArrivalMarket.apply_cancels isCancel ev member).symm.trans added) (by decide)
      refine ⟨_, rfl, indexed, ArrivalMarket.apply_maxSymbol, fun id rests => ?_, ?_,
        fun start isStart tracks => ?_⟩
      · obtain before | ⟨ev, member, added, rfl⟩ :=
          ArrivalMarket.apply_rests models.sound models.listed known rests
        · exact .inl before
        · exact .inr (adds ev member added)
      · have grows := ArrivalMarket.apply_weigh_le state.exchange.nextSeq models.sound models.listed
          quantity_monotone known
        split at grows
        · rename_i rests
          have small := chosen.small (rests.resolve_right chosen.ne_replace)
          change _ ≤ _ + cmd.qty.toNat at grows
          omega
        · omega
      · by_cases accepted : (market.apply state.exchange.nextSeq cmd).2.reject = .none
        · have lives : start.exchange.books.containsOrder =
              fun id => ((market.apply state.exchange.nextSeq cmd).1.symbolOf id).isSome := by
            rw [isStart, Exchange.publish_books]
            exact advances.models.containsOrder_eq
          have tracked :
              ArrivalMarket.Tracked market (market.apply state.exchange.nextSeq cmd).2.mdEvents _ :=
            ArrivalMarket.apply_tracked models.sound models.listed known (kept.tracked chosen)
          rw [Exchange.publish_accepted accepted, State.track_stamp]
          refine State.Tracks.tracked tracked models.sound kept.mirrored.apart
            ArrivalMarket.apply_maxSymbol (fun ev member added => ?_) lives tracks
          obtain ⟨isNew, isOwn⟩ := adds ev member added
          rw [isOwn]
          exact kept.fresh chosen isNew
        · rw [Exchange.publish_refused accepted]
          have same := ArrivalMarket.apply_refused_books models.listed accepted whole
          obtain ⟨tracked, ran, follows, beside⟩ := still _ _ _ start tracks
          exact ⟨tracked, ran, follows.congr fun id =>
            (ArrivalMarket.rests_congr ArrivalMarket.apply_maxSymbol same).symm, beside⟩

/-- What drawing a command does to the state. -/
theorem Kept.chosen (kept : Kept arguments state market copy) (few : 100 * (state.i + 1) < 2 ^ 32)
    (chosen : Chosen arguments state after cmd) : ∃ nextId, after = { state with nextId } ∧
      state.nextId.toNat ≤ nextId.toNat ∧ nextId.toNat ≤ state.i + 2 ∧
      (cmd.type = .new → cmd.orderId ≠ 0 ∧ cmd.orderId.toNat < nextId.toNat) ∧
      validateClientCommand cmd = .none := by
  obtain ⟨positive, bound⟩ := kept.numbered
  cases chosen with
  | cancel isCancel live valid =>
      exact ⟨state.nextId, rfl, Nat.le_refl _, by
        omega, fun isNew => absurd (isCancel.symm.trans isNew) ArrivalMarket.cancel_ne_new, valid⟩
  | new isNew id known small valid =>
      have next : (state.nextId + 1).toNat = state.nextId.toNat + 1 := by
        rw [UInt64.toNat_add, UInt64.toNat_one, Nat.mod_eq_of_lt (by omega)]
      refine ⟨state.nextId + 1, rfl, by rw [next]; omega, by
        rw [next]; omega, fun _ => ⟨?_, by rw [id, next]; omega⟩, valid⟩
      rw [id]
      intro zero
      rw [zero, UInt64.toNat_zero] at positive
      exact Nat.lt_irrefl 0 positive

/-- One event: the command is sent, the subscriber follows and the live ids are kept. -/
theorem Kept.event (kept : Kept arguments state market copy) (sane : arguments.Sane)
    (within : draw.Within arguments) (few : 100 * (state.i + 1) < 2 ^ 32) :
    ∃ after later further input result, state.event arguments draw = .ok (after, none) ∧
    after.i = state.i + 1 ∧ Kept arguments after later further ∧
    state.exchange.call input = .ok (after.exchange, .returned result) ∧
      input.command?.isSome = true := by
  have positive : state.nextId ≠ 0 := fun zero => by
    have numbered := kept.numbered.1
    rw [zero, UInt64.toNat_zero] at numbered
    exact Nat.lt_irrefl 0 numbered
  obtain ⟨next, cmd, drawn, -, chosen⟩ := command_chosen sane within positive
    fun id live => (kept.used id ((kept.tracks.live id).mp live)).1
  obtain ⟨nextId, rfl, grown, bound, own, valid⟩ := kept.chosen few chosen
  have room := kept.room few
  have carried : (ExchangeCall.frame (encodeClientCommand cmd) cmd.clientTsNs).command? =
      some cmd := by
    rw [ExchangeCall.command?, decodeClientCommand_encoded, if_pos valid]
  obtain ⟨exchange, outcome, later, ran, called⟩ := Exchange.call_spec kept.mirrored.models room
    (.frame (encodeClientCommand cmd) cmd.clientTsNs)
  obtain ⟨followed, further, fed, mirrored⟩ :=
    called.mirrored kept.mirrored room (kept.reportable few chosen carried)
  obtain ⟨result, rfl, indexed, sameMax, rests, grows, tracking⟩ :=
    kept.called chosen carried called
  have processed : state.exchange.processFrame (encodeClientCommand cmd) cmd.clientTsNs =
      .ok (exchange, .returned result) :=
    ran
  have taken : State.feed { state with nextId, exchange } result.mdEvents = _ := feed_run fed
  obtain ⟨tracked, followedIds, tracks, same⟩ := tracking { state with
    nextId, exchange, subscriber :=
      followed, mdFrames := state.mdFrames + UInt64.ofNat result.mdEvents.length } rfl
    ⟨kept.tracks.places, kept.tracks.live⟩
  have stepped : state.event arguments draw = .ok (tracked.counted result.ack, none) := by
    rw [State.event, drawn, exec_ok_bind]
    dsimp only
    rw [encodeClientCommandFrame_run, exec_ok_bind, processed, exec_ok_bind]
    dsimp only
    rw [taken, exec_ok_bind]
    dsimp only
    rw [followedIds]
    rfl
  obtain ⟨liveIds, livePos, rfl⟩ : ∃ liveIds livePos, tracked = { state with
      nextId, exchange, subscriber :=
        followed, mdFrames := state.mdFrames + UInt64.ofNat result.mdEvents.length
      liveIds, livePos } := ⟨_, _, same.same⟩
  refine ⟨_, later, further, _, result, stepped, counted_i _ _, ?_, ?_, by rw [carried]; rfl⟩
  · refine Kept.counted ⟨mirrored, indexed, sameMax.trans kept.sameMax, fun id still => ?_,
      ⟨?_, ?_⟩, ?_, tracks.places, tracks.live⟩ result.ack
    · obtain before | ⟨isNew, rfl⟩ := rests id still
      · exact ⟨(kept.used id before).1, Nat.lt_of_lt_of_le (kept.used id before).2 grown⟩
      · exact own isNew
    · exact Nat.lt_of_lt_of_le kept.numbered.1 grown
    · exact bound
    · have before := kept.quantity
      change _ ≤ 100 * (state.i + 1)
      omega
  · rw [counted_exchange]
    exact ran

/-- Every event of a run is taken, and the run is one of calls with commands that return. -/
theorem Kept.loop (kept : Kept arguments state market copy) (sane : arguments.Sane)
    (within : ∀ draw ∈ draws, draw.Within arguments)
    (few : 100 * (state.i + draws.length) < 2 ^ 32) :
    ∃ after later further inputs outcomes, State.loop arguments state draws = .ok (after, none) ∧
      after.i = state.i + draws.length ∧ Kept arguments after later further ∧
      run Exchange.call state.exchange inputs = .ok (after.exchange, outcomes) ∧
      (∀ input ∈ inputs, input.command?.isSome = true) ∧
      ∀ outcome ∈ outcomes, ∃ result, outcome = .returned result := by
  induction draws generalizing state market copy with
  | nil => exact ⟨state, market, copy, [], [], rfl, rfl, kept, rfl,
        (fun input member => by cases member), (fun outcome member => by cases member)⟩
  | cons draw draws ih =>
      rw [List.length_cons] at few
      obtain ⟨next, market', copy', input, result, stepped, moved, kept', called, carries⟩ :=
        kept.event sane (within draw List.mem_cons_self) (by omega)
      obtain ⟨after, later, further, inputs, outcomes, ran, reached, held, calls, carry,
          returned⟩ :=
        ih kept' (fun other member => within other (List.mem_cons_of_mem draw member))
          (by rw [moved]; omega)
      refine ⟨after, later, further, input :: inputs, .returned result :: outcomes, ?_, ?_, held,
        run_cons called calls, List.forall_mem_cons.mpr ⟨carries, carry⟩,
        List.forall_mem_cons.mpr ⟨⟨result, rfl⟩, returned⟩⟩
      · rw [State.loop, stepped, exec_ok_bind]
        exact ran
      · rw [reached, moved, List.length_cons]
        omega

/-- The ladder of every symbol is one a book can be built on. -/
theorem create_book (symbol : SymbolId) :
    ∃ book, OrderBook.create symbol (BookManager.symbolLadder ladder symbol) = .ok book := by
  have each : ∀ n < 100, let offset := (UInt32.ofNat n).toUInt64.toInt64 * 10
      ((99900 : Price) + offset ≤ 0 || (100100 : Price) + offset < 99900 + offset) = false ∧
        ¬(((100100 : Price) + offset) - (99900 + offset)).toUInt64 + 1 > 0xFFFFFFFF := by
          decide +kernel
  have small : (symbol % 100).toNat < 100 := Nat.mod_lt _ (by decide)
  obtain ⟨ordered, narrow⟩ := each _ small
  rw [UInt32.ofNat_toNat] at ordered narrow
  have shifted : BookManager.symbolLadder ladder symbol = {
      minPrice := 99900 + (symbol % 100).toUInt64.toInt64 * 10
      maxPrice := 100100 + (symbol % 100).toUInt64.toInt64 * 10
      symbolPriceStride := 0, symbolPriceModulo := 0 } := rfl
  rw [OrderBook.create, shifted]
  dsimp only
  rw [if_neg (Bool.eq_false_iff.mp ordered), if_neg narrow]
  exact ⟨_, rfl⟩

/-- The constructors return. -/
theorem create_returns (sane : arguments.Sane) (journalPath : String) : ∃ exchange,
    Exchange.create (config arguments journalPath) = some (.ok exchange) ∧
      SubscriberBook.create arguments.symbols ladder = some (.ok { books := exchange.books }) := by
  obtain ⟨books, built⟩ := BookManager.create_returns sane.notLargest create_book
  have created : Exchange.create (config arguments journalPath) =
      some (.ok { ladder, books, risk := { limits := riskLimits }, journal := some .create }) := by
    rw [Exchange.create, config, built]
    rfl
  refine ⟨_, created, ?_⟩
  rw [SubscriberBook.create, built]
  rfl

theorem Kept.init {exchange : Exchange} {journalPath : String}
    (created : Exchange.create (config arguments journalPath) = some (.ok exchange))
    (subscribed : SubscriberBook.create arguments.symbols ladder =
      some (.ok { books := exchange.books })) :
    Kept arguments { exchange, subscriber := { books := exchange.books } } exchange.books.blank
      exchange.books.blank := by
  obtain ⟨mirrored, -⟩ := Exchange.create_mirrored created subscribed
  have empty : ∀ id, ¬exchange.books.blank.Rests id := by
    rintro id ⟨symbol, -, held⟩
    rw [ArrivalBook.holds, BookManager.blank_orders] at held
    cases held
  refine ⟨mirrored, mirrored.models.blank_indexed, ?_, fun id rests => absurd rests (empty id),
    ⟨Nat.one_pos, Nat.le_refl 1⟩, ?_, SwapRemove.indexed_empty, fun id =>
      ⟨fun member => absurd member (Array.not_mem_empty id), fun rests => absurd rests (empty id)⟩⟩
  · rw [mirrored.models.maxSymbol]
    exact (BookManager.create_ok (Exchange.create_ok created).1).1
  · rw [BookManager.blank_weigh]
    exact Nat.zero_le _

/-- Under sane arguments, with draws within their distributions and too few of them
for a level total of their quantities to wrap, the subscriber takes every event and
the verification passes. -/
theorem main_passes (sane : arguments.Sane) (within : ∀ draw ∈ draws, draw.Within arguments)
    (few : 100 * draws.length < 2 ^ 32) (journalPath : String) :
    main arguments journalPath draws = .ok (.code 0) := by
  obtain ⟨fresh, created, subscribed⟩ := create_returns sane journalPath
  obtain ⟨after, later, further, inputs, outcomes, ran, -, kept, calls, carry, returned⟩ :=
    (Kept.init created subscribed).loop sane within (by simpa using few)
  have started : fresh.journal = some .create := by
    rw [(Exchange.create_ok created).2]
    rfl
  obtain ⟨records, file, replayed⟩ := Exchange.run_records carry started calls
  have file : after.exchange.journal = some { out := fileOf records } := file
  let cfg : ExchangeConfig := { maxSymbol := arguments.symbols, ladder, riskLimits }
  have copied : Exchange.create { cfg with journalPath := none } = some (.ok _) :=
    Exchange.create_copy created none
  obtain ⟨report, replays, -, error, checksums⟩ :=
    Exchange.replayJournal_reads copied (reads_file records)
    (Exchange.length_le_fileOf records) replayed returned kept.mirrored.models.checksum
  have clean : report.error = none := error
  obtain ⟨books, feed⟩ := checksums clean
  obtain ⟨digest, live, followed⟩ := kept.mirrored.agree.checksum
  have same : after.exchange.books.digest = digest :=
    Except.ok.inj (kept.mirrored.models.checksum.symm.trans live)
  have verified : after.verify report = .ok (.code 0) := by
    have passes : (digest = digest && report.bookChecksum = digest &&
        report.mdChecksum = after.exchange.mdChecksum : Bool) = true := by
      rw [books, feed, same]
      simp [Exchange.unjournaled]
    rw [State.verify, clean, if_neg (by decide), live, exec_ok_bind, SubscriberBook.checksum,
      followed, exec_ok_bind]
    dsimp only
    rw [if_pos passes]
  rw [main]
  dsimp only
  rw [created, show (config arguments journalPath).ladder = ladder from rfl, subscribed]
  dsimp only
  rw [ran, exec_ok_bind]
  dsimp only
  rw [file, Option.elim_some,
    show (config arguments journalPath).riskLimits = riskLimits from rfl, replays]
  dsimp only
  rw [exec_ok_bind]
  exact verified

/-- After such draws the live ids are those that some book holds, each once, with
their places, and the index of the exchange names the same. -/
theorem loop_tracks (sane : arguments.Sane) (within : ∀ draw ∈ draws, draw.Within arguments)
    (few : 100 * draws.length < 2 ^ 32) (journalPath : String) :
    ∃ exchange after, Exchange.create (config arguments journalPath) = some (.ok exchange) ∧
      State.loop arguments { exchange, subscriber := { books := exchange.books } } draws =
        .ok (after, none) ∧ after.liveIds.toList.Nodup ∧
      (∀ id place, after.livePos.lookup id = some place ↔ after.liveIds[place]? = some id) ∧
      (∀ id, id ∈ after.liveIds ↔ ∃ symbol book, after.exchange.books.findBook symbol = some book ∧
        book.contains id = true) ∧
      ∀ id, id ∈ after.liveIds ↔ after.exchange.books.containsOrder id = true := by
  obtain ⟨fresh, created, subscribed⟩ := create_returns sane journalPath
  obtain ⟨after, later, further, inputs, outcomes, ran, -, kept, -⟩ :=
    (Kept.init created subscribed).loop sane within (by simpa using few)
  have models := kept.mirrored.models
  refine ⟨fresh, after, created, ran, kept.tracks.places.nodup, kept.tracks.places, fun id => ?_,
    fun id => ?_⟩
  · rw [kept.tracks.live]
    constructor
    · rintro ⟨symbol, valid, held⟩
      obtain ⟨book, stored, refines⟩ := models.books symbol valid
      exact ⟨symbol, book, models.findBook valid stored, by rw [refines.contains]; exact held⟩
    · rintro ⟨symbol, book, found, held⟩
      have valid : later.validSymbol symbol = true := by
        by_contra invalid
        rw [models.findBook_none (Bool.eq_false_iff.mpr invalid)] at found
        cases found
      obtain ⟨other, stored, refines⟩ := models.books symbol valid
      rw [models.findBook valid stored] at found
      obtain rfl := Option.some.inj found
      exact ⟨symbol, valid, by rw [← refines.contains]; exact held⟩
  · rw [kept.tracks.live, models.containsOrder, kept.indexed.rests]

end

section Witness

/-- A bid, an ask that meets it, another bid, and a cancel. -/
def fourDraws : List Draw :=
  [{ qty := 7 }, { side := 1, symbolRoll := 2, jitter := -20, account := 2, qty := 9 },
    { symbolRoll := 1 },
    { cancelRoll := 7, pick := 3 }]

theorem fourDraws_within : ∀ draw ∈ fourDraws, draw.Within { symbols := 2 } := by
  have each : ∀ draw ∈ fourDraws, (-50 ≤ draw.jitter.toInt ∧ draw.jitter.toInt ≤ 50) ∧
      (1 ≤ draw.account.toInt ∧ draw.account.toInt ≤ 1024) ∧ 1 ≤ draw.qty.toInt ∧
      draw.qty.toInt ≤ 100 := by decide
  exact fun draw member => ⟨(each draw member).1, (each draw member).2.1, (each draw member).2.2⟩

theorem main_passes_fourDraws : main { symbols := 2 } "journal" fourDraws = .ok (.code 0) :=
  main_passes ⟨by decide, by decide, by decide⟩ fourDraws_within (by decide) "journal"

theorem loop_tracks_fourDraws :
    ∃ exchange after, Exchange.create (config { symbols := 2 } "journal") = some (.ok exchange) ∧
    State.loop { symbols := 2 } { exchange, subscriber := { books := exchange.books } } fourDraws =
      .ok (after, none) ∧ after.liveIds.toList.Nodup ∧
    (∀ id place, after.livePos.lookup id = some place ↔ after.liveIds[place]? = some id) ∧
    (∀ id, id ∈ after.liveIds ↔ ∃ symbol book, after.exchange.books.findBook symbol = some book ∧
      book.contains id = true) ∧
    ∀ id, id ∈ after.liveIds ↔ after.exchange.books.containsOrder id = true :=
  loop_tracks ⟨by decide, by decide, by decide⟩ fourDraws_within (by decide) "journal"

end Witness

end Exsim.Bench
