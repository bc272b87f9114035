import Exsim.Data.Channel
import Exsim.Exchange.Mirror

/-! # The feed over a channel that loses, repeats, reorders and damages frames

The frames of every published event stay available for another delivery.  The
subscriber is given them in any order and any number of times, and between them
frames that no longer decode.  It holds at any time what a front of the feed
makes of it, and once it has been given what it lacks it agrees with the exchange.
-/

namespace Exsim.Core

open Data Data.Channel Md Protocol

/-- An exchange, a subscriber, and the frames of all events published so far. -/
structure Link where
  exchange : Exchange
  subscriber : SubscriberBook
  wire : List Bytes := []
deriving DecidableEq

inductive LinkEvent where
  /-- A client's frame reaches the exchange, and the frames of its events are sent. -/
  | process (frame : Bytes) (nowNs : TimestampNs)
  /-- Some frame reaches the subscriber. -/
  | arrive (frame : Bytes)
deriving DecidableEq, Repr

namespace SubscriberBook

theorem carried_encoded (ev : MdEvent) : carried (encodeMdEvent ev) = some ev := by
  rw [carried, decodeMdEvent_encoded]

theorem feedEvent_eq (subscriber : SubscriberBook) (ev : MdEvent) :
    subscriber.feedEvent ev = subscriber.applyFrame (encodeMdEvent ev) := by
  rw [feedEvent, encodeMdEventFrame_run, exec_ok_bind]

theorem run_feedEvent (subscriber : SubscriberBook) (events : List MdEvent) :
    run feedEvent subscriber events = run applyFrame subscriber (events.map encodeMdEvent) := by
  induction events generalizing subscriber with
  | nil => rfl
  | cons ev events ih =>
      rw [List.map_cons, run, run, feedEvent_eq]
      cases subscriber.applyFrame (encodeMdEvent ev) with
      | error fault => rfl
      | ok result =>
          dsimp only
          rw [ih]

/-- Frames that carry consecutive numbers, from `first` on. -/
def Numbered (first : SeqNo) (frames : List Bytes) : Prop :=
  ∀ (place : Nat) (frame : Bytes), frames[place]? = some frame → ∃ ev, carried frame = some ev ∧
    ev.seq = first + UInt64.ofNat place

variable {subscriber after listener : SubscriberBook} {first : SeqNo} {frame : Bytes}
  {frames more : List Bytes} {answers : List (Option String)} {count : Nat}

theorem Numbered.append (front : Numbered first frames)
    (back : Numbered (first + UInt64.ofNat frames.length) more) :
    Numbered first (frames ++ more) := by
  intro place frame found
  by_cases before : place < frames.length
  · rw [List.getElem?_append_left before] at found
    exact front place frame found
  · rw [List.getElem?_append_right (Nat.le_of_not_lt before)] at found
    obtain ⟨ev, isCarried, seq⟩ := back _ frame found
    refine ⟨ev, isCarried, ?_⟩
    rw [seq, UInt64.add_assoc, ← UInt64.ofNat_add, Nat.add_sub_cancel' (Nat.le_of_not_lt before)]

theorem Numbered.take (numbered : Numbered first frames) (count : Nat) :
    Numbered first (frames.take count) := by
  intro place frame found
  rw [List.getElem?_take] at found
  split at found
  · exact numbered place frame found
  · cases found

/-- A subscriber that is given consecutive numbers expects the next one after them. -/
theorem run_expected (numbered : Numbered first frames) (inBounds : subscriber.books.InBounds)
    (expected : subscriber.expectedSeq = first)
    (ran : run applyFrame subscriber frames = .ok (after, answers)) :
    after.books.InBounds ∧ after.expectedSeq = first + UInt64.ofNat frames.length := by
  induction frames generalizing subscriber first answers with
  | nil =>
      rw [run_nil, Except.ok.injEq, Prod.mk.injEq] at ran
      rw [← ran.1, expected]
      exact ⟨inBounds, (UInt64.add_zero first).symm⟩
  | cons frame frames ih =>
      obtain ⟨middle, answer, rest, stepped, tail, -⟩ := run_cons_ok ran
      obtain ⟨middle', answer', ran', bounds, handled⟩ := applyFrame_spec inBounds frame
      obtain ⟨rfl, rfl⟩ := Prod.mk.inj (Except.ok.inj (stepped.symm.trans ran'))
      obtain ⟨ev, isCarried, seq⟩ := numbered 0 frame rfl
      have due : isExpected subscriber.expectedSeq frame = true := by
        rw [isExpected, isCarried, Option.any_some, decide_eq_true_iff, seq, expected]
        exact UInt64.add_zero first
      have later : Numbered (first + 1) frames := by
        intro place other found
        obtain ⟨ev, isCarried, seq⟩ := numbered (place + 1) other found
        refine ⟨ev, isCarried, ?_⟩
        rw [seq, UInt64.ofNat_add, UInt64.add_assoc, UInt64.add_comm 1]
        rfl
      obtain ⟨kept, reached⟩ :=
        ih later bounds ((handled.counted due).trans (by rw [expected])) tail
      refine ⟨kept, ?_⟩
      rw [reached, List.length_cons, UInt64.ofNat_add, UInt64.add_assoc, UInt64.add_comm 1]
      rfl

/-- After a front of the feed the subscriber expects the number that follows. -/
theorem expected_of_caught (inBounds : listener.books.InBounds)
    (expected : listener.expectedSeq = first) (numbered : Numbered first frames)
    (caught : Caught applyFrame listener frames count subscriber) :
    subscriber.books.InBounds ∧ subscriber.expectedSeq = first + UInt64.ofNat count := by
  obtain ⟨answers, ran⟩ := caught.taken
  obtain ⟨bounds, reached⟩ := run_expected (numbered.take count) inBounds expected ran
  rw [List.length_take, Nat.min_eq_left caught.within] at reached
  exact ⟨bounds, reached⟩

/-- A frame that does not carry the expected number changes nothing. -/
theorem applyFrame_ignored (inBounds : subscriber.books.InBounds)
    (ignored : isExpected subscriber.expectedSeq frame = false) :
    ∃ answer, subscriber.applyFrame frame = .ok (subscriber, answer) := by
  obtain ⟨after, answer, ran, -, handled⟩ := applyFrame_spec inBounds frame
  obtain ⟨-, rfl⟩ := handled.ignored ignored
  exact ⟨answer, ran⟩

/-- While the numbers do not wrap, a subscriber takes the feed in order or not at all. -/
theorem takesInOrder (inBounds : listener.books.InBounds) (expected : listener.expectedSeq = first)
    (numbered : Numbered first frames) (few : frames.length < 2 ^ 64) :
    TakesInOrder applyFrame listener frames := by
  intro count state caught place frame found away
  obtain ⟨bounds, due⟩ := expected_of_caught inBounds expected numbered caught
  obtain ⟨ev, isCarried, seq⟩ := numbered place frame found
  have inside := (List.getElem?_eq_some_iff.mp found).1
  have within := caught.within
  refine applyFrame_ignored bounds ?_
  rw [isExpected, isCarried, Option.any_some, decide_eq_false_iff_not, seq, due]
  intro same
  have places := congrArg UInt64.toNat ((UInt64.add_right_inj _).mp same)
  rw [UInt64.toNat_ofNat_of_lt' (Nat.lt_trans inside few),
    UInt64.toNat_ofNat_of_lt' (Nat.lt_of_le_of_lt within few)] at places
  exact away places

end SubscriberBook

namespace Exchange

theorem mapM_encode (events : List MdEvent) :
    events.mapM encodeMdEventFrame = .ok (events.map encodeMdEvent) := by
  induction events with
  | nil => rfl
  | cons ev events ih =>
      rw [List.mapM_cons, encodeMdEventFrame_run, ih]
      rfl

/-- The frames of stamped events carry the numbers they were stamped with. -/
theorem stamp_numbered (next : SeqNo) (events : List MdEvent) :
    SubscriberBook.Numbered next ((stamp next events).map encodeMdEvent) := by
  induction events generalizing next with
  | nil =>
      intro place frame found
      cases found
  | cons ev events ih =>
      intro place frame found
      cases place with
      | zero =>
          obtain rfl := Option.some.inj found
          exact ⟨_, SubscriberBook.carried_encoded _, (UInt64.add_zero next).symm⟩
      | succ place =>
          obtain ⟨other, isCarried, seq⟩ := ih (next + 1) place frame found
          refine ⟨other, isCarried, ?_⟩
          rw [seq, UInt64.ofNat_add, UInt64.add_assoc, UInt64.add_comm 1]
          rfl

/-- A new subscriber with the books of a new exchange mirrors it. -/
theorem create_mirrored {cfg : ExchangeConfig} {fresh : Exchange} {listener : SubscriberBook}
    (created : Exchange.create cfg = some (.ok fresh))
    (subscribed : SubscriberBook.create cfg.maxSymbol cfg.ladder = some (.ok listener)) :
    Mirrored fresh listener fresh.books.blank fresh.books.blank ∧
    listener = { books := fresh.books } := by
  obtain ⟨built, isFresh⟩ := create_ok created
  rw [SubscriberBook.create, Option.map_eq_some_iff] at subscribed
  obtain ⟨made, madeBooks, subscribed⟩ := subscribed
  have same : made = .ok fresh.books := Option.some.inj (madeBooks.symm.trans built)
  rw [same] at subscribed
  obtain rfl := Except.ok.inj subscribed
  obtain ⟨models, exact⟩ := BookManager.create_spec built
  have indexed := models.blank_indexed
  refine ⟨⟨models, exact, indexed.apart, ⟨models, exact, indexed, ?_⟩, rfl, rfl, .refl _⟩, rfl⟩
  rw [isFresh]

end Exchange

namespace Link

def step (link : Link) : LinkEvent → Exec (Link × Option String)
  | .process frame nowNs => do
      let (exchange, outcome) ← link.exchange.processFrame frame nowNs
      let frames ← outcome.events.mapM encodeMdEventFrame
      .ok ({ link with exchange, wire := link.wire ++ frames }, none)
  | .arrive frame => do
      let (subscriber, answer) ← link.subscriber.applyFrame frame
      .ok ({ link with subscriber }, answer)

/-- A client's frame is one whose events tell all it changes.  What arrives was
published, while the numbers of the feed last, or does not decode. -/
def Allows (link : Link) : LinkEvent → Prop
  | .process frame nowNs =>
      link.exchange.books.HasRoom ∧ link.exchange.reportable (.frame frame nowNs) = true
  | .arrive frame =>
      link.wire.length < 2 ^ 64 ∧ (frame ∈ link.wire ∨ SubscriberBook.carried frame = none)

/-- The feed as a whole would bring the listener to the exchange's books, and a
front of it has brought it to where the subscriber stands. -/
structure Follows (listener : SubscriberBook) (link : Link) : Prop where
  published : ∃ followed replies market copy, run SubscriberBook.applyFrame listener link.wire =
    .ok (followed, replies) ∧ (∀ reply ∈ replies, reply = none) ∧
    Exchange.Mirrored link.exchange followed market copy
  numbered : SubscriberBook.Numbered 1 link.wire
  nextMdSeq : link.exchange.nextMdSeq = 1 + UInt64.ofNat link.wire.length
  caught : ∃ count, Caught SubscriberBook.applyFrame listener link.wire count link.subscriber

section

variable {listener : SubscriberBook} {link : Link} {frame : Bytes} {nowNs : TimestampNs}

/-- What is published joins the feed. -/
theorem Follows.process (follows : Follows listener link) (room : link.exchange.books.HasRoom)
    (reportable : link.exchange.reportable (.frame frame nowNs) = true) :
    ∃ after, link.step (.process frame nowNs) = .ok (after, none) ∧ Follows listener after := by
  obtain ⟨followed, replies, market, copy, ran, good, mirrored⟩ := follows.published
  obtain ⟨after, outcome, later, called, calls⟩ :=
    Exchange.call_spec mirrored.models (mirrored.models.hasRoom room) (.frame frame nowNs)
  obtain ⟨further, copy', fed, kept⟩ :=
    calls.mirrored mirrored (mirrored.models.hasRoom room) reportable
  have published := Exchange.call_publishes called
  have processed : link.exchange.processFrame frame nowNs = .ok (after, outcome) := called
  refine ⟨{ link with exchange := after, wire := link.wire ++ outcome.events.map encodeMdEvent },
    ?_, ?_, ?_, ?_, ?_⟩
  · rw [step, processed, exec_ok_bind]
    dsimp only
    rw [Exchange.mapM_encode, exec_ok_bind]
  · rw [SubscriberBook.run_feedEvent] at fed
    refine ⟨further, _, later, copy', run_append ran fed, fun reply member => ?_, kept⟩
    cases List.mem_append.mp member with
    | inl before => exact good reply before
    | inr among =>
        obtain ⟨-, -, rfl⟩ := List.mem_map.mp among
        rfl
  · refine follows.numbered.append ?_
    have same : Exchange.stamp link.exchange.nextMdSeq outcome.events = outcome.events :=
      published.events
    have stamped := Exchange.stamp_numbered link.exchange.nextMdSeq outcome.events
    rw [same, follows.nextMdSeq] at stamped
    exact stamped
  · rw [published.nextMdSeq, List.length_append, List.length_map,
      UInt64.ofNat_add, ← UInt64.add_assoc]
    exact congrArg (· + _) follows.nextMdSeq
  · obtain ⟨count, caught⟩ := follows.caught
    exact ⟨count, caught.grow _⟩

/-- What arrives is taken if it is due, and ignored otherwise. -/
theorem Follows.arrive (follows : Follows listener link) (inBounds : listener.books.InBounds)
    (expected : listener.expectedSeq = 1) (few : link.wire.length < 2 ^ 64)
    (origin : frame ∈ link.wire ∨ SubscriberBook.carried frame = none) :
    ∃ after answer, link.step (.arrive frame) = .ok (after, answer) ∧ Follows listener after := by
  obtain ⟨followed, replies, market, copy, ran, good, mirrored⟩ := follows.published
  obtain ⟨count, caught⟩ := follows.caught
  have taken : ∃ subscriber answer, link.subscriber.applyFrame frame = .ok (subscriber, answer) ∧
      ∃ count', Caught SubscriberBook.applyFrame listener link.wire count' subscriber := by
    cases origin with
    | inl sent =>
        obtain ⟨place, found⟩ := List.mem_iff_getElem?.mp sent
        obtain ⟨after, answer, stepped, kept⟩ := caught.arrive ran
          (SubscriberBook.takesInOrder inBounds expected follows.numbered few) found
        exact ⟨after, answer, stepped, _, kept⟩
    | inr mangled =>
        obtain ⟨bounds, -⟩ :=
          SubscriberBook.expected_of_caught inBounds expected follows.numbered caught
        obtain ⟨answer, ignored⟩ : ∃ answer, link.subscriber.applyFrame frame =
            .ok (link.subscriber, answer) :=
          SubscriberBook.applyFrame_ignored bounds (by rw [SubscriberBook.isExpected, mangled]; rfl)
        exact ⟨link.subscriber, answer, ignored, count, caught⟩
  obtain ⟨subscriber, answer, stepped, kept⟩ := taken
  refine ⟨{ link with subscriber }, answer, ?_,
    ⟨followed, replies, market, copy, ran, good, mirrored⟩, follows.numbered,
    follows.nextMdSeq, kept⟩
  rw [step, stepped, exec_ok_bind]

/-- A link between a new exchange and a new subscriber. -/
theorem follows_created {cfg : ExchangeConfig} {fresh : Exchange}
    (created : Exchange.create cfg = some (.ok fresh))
    (subscribed : SubscriberBook.create cfg.maxSymbol cfg.ladder = some (.ok listener)) :
    Follows listener { exchange := fresh, subscriber := listener } ∧ listener.books.InBounds ∧
      listener.expectedSeq = 1 := by
  obtain ⟨mirrored, rfl⟩ := Exchange.create_mirrored created subscribed
  have first : fresh.nextMdSeq = 1 := by rw [(Exchange.create_ok created).2]
  refine ⟨⟨⟨_, [], fresh.books.blank, fresh.books.blank, rfl, (fun reply member => by cases member),
    mirrored⟩, ?_, ?_, 0, .init _ _ _⟩,
    BookManager.create_inBounds (Exchange.create_ok created).1, rfl⟩
  · intro place frame found
    cases found
  · rw [first]
    rfl

/-- Along events that are all allowed, the subscriber follows the exchange. -/
theorem run_follows {cfg : ExchangeConfig} {fresh : Exchange} {events : List LinkEvent}
    (created : Exchange.create cfg = some (.ok fresh))
    (subscribed : SubscriberBook.create cfg.maxSymbol cfg.ladder = some (.ok listener))
    (allowed : Along step Allows { exchange := fresh, subscriber := listener } events) :
    ∃ link answers, run step { exchange := fresh, subscriber := listener } events =
      .ok (link, answers) ∧ Follows listener link := by
  obtain ⟨start, inBounds, expected⟩ := follows_created created subscribed
  refine run_invariant (fun link event follows allowed => ?_) start allowed
  cases event with
  | process frame nowNs =>
      obtain ⟨after, ran, kept⟩ := follows.process allowed.1 allowed.2
      exact ⟨after, none, ran, kept⟩
  | arrive frame => exact follows.arrive inBounds expected allowed.1 allowed.2

/-- Where the subscriber has taken the whole feed, it agrees with the exchange. -/
theorem Follows.agree (follows : Follows listener link) {caught : SubscriberBook}
    (all : Caught SubscriberBook.applyFrame listener link.wire link.wire.length caught) :
    link.exchange.books.Agree caught.books := by
  obtain ⟨followed, replies, market, copy, whole, -, mirrored⟩ := follows.published
  have last : Caught SubscriberBook.applyFrame listener link.wire link.wire.length followed :=
    ⟨Nat.le_refl _, replies, by rw [List.take_length]; exact whole⟩
  rw [last.unique all]
  exact mirrored.agree

/-- Along events that are all allowed, with frames lost, repeated and reordered
among them, the subscriber has taken a front of the feed, in order and without an
error, expects the number after it, and agrees with the exchange once the front is
the whole. -/
theorem run_delivers {cfg : ExchangeConfig} {fresh : Exchange} {events : List LinkEvent}
    (created : Exchange.create cfg = some (.ok fresh))
    (subscribed : SubscriberBook.create cfg.maxSymbol cfg.ladder = some (.ok listener))
    (allowed : Along step Allows { exchange := fresh, subscriber := listener } events) :
    ∃ link answers, run step { exchange := fresh, subscriber := listener } events =
      .ok (link, answers) ∧ ∃ count replies, count ≤ link.wire.length ∧
        run SubscriberBook.applyFrame listener (link.wire.take count) =
          .ok (link.subscriber, replies) ∧ (∀ reply ∈ replies, reply = none) ∧
          link.subscriber.expectedSeq = UInt64.ofNat (count + 1) ∧
        (count = link.wire.length → link.exchange.books.Agree link.subscriber.books) := by
  obtain ⟨-, inBounds, expected⟩ := follows_created created subscribed
  obtain ⟨link, answers, ran, follows⟩ := run_follows created subscribed allowed
  obtain ⟨followed, replies, market, copy, whole, good, mirrored⟩ := follows.published
  obtain ⟨count, caught⟩ := follows.caught
  obtain ⟨taken, front⟩ := caught.taken
  have numbers := SubscriberBook.expected_of_caught inBounds expected follows.numbered caught
  refine ⟨link, answers, ran, count, taken, caught.within, front, fun reply member => ?_, ?_,
    fun all => ?_⟩
  · rw [← List.take_append_drop count link.wire] at whole
    obtain ⟨middle, before, after, reached, -, rfl⟩ := run_append_ok whole
    obtain ⟨-, rfl⟩ := Prod.mk.inj (Except.ok.inj (front.symm.trans reached))
    exact good reply (List.mem_append_left _ member)
  · rw [numbers.2, UInt64.ofNat_add, UInt64.add_comm]
    rfl
  · exact follows.agree (all ▸ caught)

/-- In any state that allowed events lead the link to, deliveries that bring what the
subscriber lacks, in order among whatever else was sent, make it agree with the
exchange. -/
theorem run_catches_up {cfg : ExchangeConfig} {fresh : Exchange} {events : List LinkEvent}
    {answers : List (Option String)} (created : Exchange.create cfg = some (.ok fresh))
    (subscribed : SubscriberBook.create cfg.maxSymbol cfg.ladder = some (.ok listener))
    (allowed : Along step Allows { exchange := fresh, subscriber := listener } events)
    (ran : run step { exchange := fresh, subscriber := listener } events = .ok (link, answers))
    (few : link.wire.length < 2 ^ 64) :
    ∃ count, count ≤ link.wire.length ∧ link.subscriber.expectedSeq = UInt64.ofNat (count + 1) ∧
      ∀ places frames,
        List.Forall₂ (fun place frame => link.wire[place]? = some frame) places frames →
        (List.range' count (link.wire.length - count)).Sublist places →
        ∃ caught replies, run SubscriberBook.applyFrame link.subscriber frames =
          .ok (caught, replies) ∧ link.exchange.books.Agree caught.books := by
  obtain ⟨-, inBounds, expected⟩ := follows_created created subscribed
  obtain ⟨link', answers', ran', follows⟩ := run_follows created subscribed allowed
  obtain ⟨rfl, -⟩ := Prod.mk.inj (Except.ok.inj (ran.symm.trans ran'))
  obtain ⟨followed, replies, market, copy, whole, -, -⟩ := follows.published
  obtain ⟨count, caught⟩ := follows.caught
  have numbers := SubscriberBook.expected_of_caught inBounds expected follows.numbered caught
  refine ⟨count, caught.within, ?_, fun places frames arrived missing => ?_⟩
  · rw [numbers.2, UInt64.ofNat_add, UInt64.add_comm]
    rfl
  · obtain ⟨after, replies', count', reached, kept, -, past⟩ := caught.deliver whole
      (SubscriberBook.takesInOrder inBounds expected follows.numbered few) arrived
    have least := past _ missing
    have most := kept.within
    have within := caught.within
    obtain rfl : count' = link.wire.length := by omega
    exact ⟨after, replies', reached, follows.agree kept⟩

end

section Witness

open Exchange

instance (link : Link) (event : LinkEvent) : Decidable (link.Allows event) := by
  cases event <;> exact inferInstanceAs (Decidable (_ ∧ _))

/-- Two bids and an ask that meets them.  The second frame of the feed comes
first, the first one damaged, then whole and once more. -/
def roughLink : List LinkEvent :=
  let add : MdEvent :=
    { seq := 1, type := .add, symbolId := 1, orderId := 7, accountId := 1, side := .buy,
      price := 1, qty := 5 }
  [.process (encodeClientCommand BookManager.restingBid) 0,
    .process (encodeClientCommand secondBid) 0,
    .arrive (encodeMdEvent { add with seq := 2, orderId := 8 }),
    .arrive ((encodeMdEvent add).set 20 0xFF), .arrive (encodeMdEvent add),
    .arrive (encodeMdEvent add), .process (encodeClientCommand
      { orderId := 9, accountId := 2, symbolId := 1, side := .sell, price := 1, qty := 7 }) 0]

theorem run_delivers_rough :
    ∃ link answers, run step { exchange := oneSymbol, subscriber := .oneSymbol } roughLink =
      .ok (link, answers) ∧ ∃ count replies, count ≤ link.wire.length ∧
        run SubscriberBook.applyFrame .oneSymbol (link.wire.take count) =
          .ok (link.subscriber, replies) ∧ (∀ reply ∈ replies, reply = none) ∧
          link.subscriber.expectedSeq = UInt64.ofNat (count + 1) ∧
        (count = link.wire.length → link.exchange.books.Agree link.subscriber.books) :=
  run_delivers oneSymbol_created SubscriberBook.oneSymbol_created (by decide +kernel)

theorem run_catches_up_rough : ∃ link answers,
    run step { exchange := oneSymbol, subscriber := .oneSymbol } roughLink = .ok (link, answers) ∧
      ∃ count, count ≤ link.wire.length ∧ link.subscriber.expectedSeq = UInt64.ofNat (count + 1) ∧
        ∀ places frames,
          List.Forall₂ (fun place frame => link.wire[place]? = some frame) places frames →
          (List.range' count (link.wire.length - count)).Sublist places →
          ∃ caught replies, run SubscriberBook.applyFrame link.subscriber frames =
            .ok (caught, replies) ∧ link.exchange.books.Agree caught.books := by
  have sent : ((run step { exchange := oneSymbol, subscriber := .oneSymbol } roughLink).toOption.map
      fun result => result.1.wire.length) = some 4 := by
    decide +kernel
  obtain ⟨⟨link, answers⟩, ran, length⟩ := ok_of_map sent
  have few : link.wire.length < 2 ^ 64 := by
    rw [length]
    decide
  exact ⟨link, answers, ran,
    run_catches_up oneSymbol_created SubscriberBook.oneSymbol_created (by decide +kernel) ran few⟩

end Witness

end Link

end Exsim.Core
