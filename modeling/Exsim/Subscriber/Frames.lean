import Exsim.BookManager.Bounds
import Exsim.BookManager.Index
import Exsim.Core.Subscriber

/-! # What a subscriber makes of any frames

A frame that does not carry the expected number changes nothing.  A frame that
does raises the number, and leaves the books alone unless it is applied.
-/

namespace Exsim.Core.SubscriberBook

open Data Md

/-- The event a frame carries, whatever its number. -/
def carried (frame : Bytes) : Option MdEvent := (decodeMdEvent frame none).event

/-- Whether a frame carries the expected number. -/
def isExpected (expected : SeqNo) (frame : Bytes) : Bool :=
  (carried frame).any fun ev => ev.seq = expected

/-- The frames that carry the number expected when they arrive. -/
def inSequence : SeqNo → List Bytes → List Bytes
  | _, [] => []
  | expected, frame :: frames =>
      if isExpected expected frame then frame :: inSequence (expected + 1) frames
      else inSequence expected frames

/-- How a subscriber answers a frame, `none` standing for success. -/
structure Handled (subscriber : SubscriberBook) (frame : Bytes) (after : SubscriberBook)
    (answer : Option String) :
    Prop where
  /-- An error, for whatever reason, leaves the books and the index alone. -/
  refused : answer ≠ none → after.books = subscriber.books
  ignored : isExpected subscriber.expectedSeq frame = false → answer ≠ none ∧ after = subscriber
  counted : isExpected subscriber.expectedSeq frame = true →
      after.expectedSeq = subscriber.expectedSeq + 1

variable {subscriber fresh after : SubscriberBook} {frame : Bytes} {frames : List Bytes}

/-- The decoder takes the event a frame carries if it has the expected number. -/
theorem decode_expected (expected : SeqNo) (frame : Bytes) :
    (decodeMdEvent frame (some expected)).event =
      if isExpected expected frame then carried frame else none := by
  rw [isExpected]
  cases found : carried frame with
  | none =>
      cases decoded : (decodeMdEvent frame (some expected)).event with
      | none => rfl
      | some ev =>
          have unnumbered := decodeMdEvent_encoded ev none
          rw [(encode_of_decodeMdEvent decoded).1] at unnumbered
          rw [carried, unnumbered] at found
          cases found
  | some ev =>
      rw [← (encode_of_decodeMdEvent found).1, decodeMdEvent_encoded, Option.any_some]
      by_cases inSequence : ev.seq = expected
      · simp only [inSequence, decide_true, ↓reduceIte]
      · simp only [inSequence, decide_false, Bool.false_eq_true, ↓reduceIte]
        rfl

/-- An event never faults, keeps the number and, if it is refused, the books. -/
theorem applyEvent_spec (inBounds : subscriber.books.InBounds) (ev : MdEvent) :
    ∃ after answer, subscriber.applyEvent ev = .ok (after, answer) ∧ after.books.InBounds ∧
      after.decoder = subscriber.decoder ∧ (answer ≠ none → after.books = subscriber.books) := by
  rw [applyEvent]
  split
  · obtain ⟨books, ok, ran, kept, same⟩ := inBounds.feedAdd ev
    rw [ran]
    refine ⟨_, _, rfl, kept, rfl, fun failed => same ?_⟩
    cases ok with
    | false => rfl
    | true => exact absurd rfl failed
  · split
    · obtain ⟨books, cancelled, ran, kept, same⟩ := inBounds.cancelOrder ev.seq ev.orderId
      rw [ran]
      refine ⟨_, _, rfl, kept, rfl, fun failed => same ?_⟩
      cases cancelled with
      | none => rfl
      | some ev => exact absurd rfl failed
    · split
      · obtain ⟨books, ok, ran, kept, same⟩ := inBounds.feedExecute ev
        rw [ran]
        refine ⟨_, _, rfl, kept, rfl, fun failed => same ?_⟩
        cases ok with
        | false => rfl
        | true => exact absurd rfl failed
      · split
        · exact ⟨_, _, rfl, inBounds, rfl, fun _ => rfl⟩
        · split
          · exact ⟨_, _, rfl, inBounds, rfl, fun _ => rfl⟩
          · exact ⟨_, _, rfl, inBounds, rfl, fun _ => rfl⟩

theorem applyFrame_spec (inBounds : subscriber.books.InBounds) (frame : Bytes) :
    ∃ after answer, subscriber.applyFrame frame = .ok (after, answer) ∧ after.books.InBounds ∧
      Handled subscriber frame after answer := by
  have decoded := decode_expected subscriber.decoder.expected frame
  rw [applyFrame, FeedDecoder.decode]
  cases expected : isExpected subscriber.decoder.expected frame with
  | false =>
      rw [expected, if_neg (by decide)] at decoded
      simp only [decoded, Option.isSome_none, Bool.false_eq_true, ↓reduceIte]
      have ignored : ∀ answer : Option String, answer ≠ none →
          Handled subscriber frame subscriber answer :=
        fun answer failed => ⟨fun _ => rfl, fun _ => ⟨failed, rfl⟩,
          fun due => absurd (due.symm.trans expected) (by decide)⟩
      cases (decodeMdEvent frame (some subscriber.decoder.expected)).error with
      | none => exact ⟨_, _, rfl, inBounds, ignored _ (by decide)⟩
      | some error => exact ⟨_, _, rfl, inBounds, ignored _ (Option.some_ne_none _)⟩
  | true =>
      rw [expected, if_pos rfl] at decoded
      obtain ⟨ev, isCarried, -⟩ := Option.any_eq_true _ _ |>.mp expected
      rw [isCarried] at decoded
      simp only [decoded, Option.isSome_some, ↓reduceIte]
      have counted :
          ({ subscriber with decoder := { expected := subscriber.decoder.expected + 1 } } :
            SubscriberBook).books.InBounds :=
        inBounds
      obtain ⟨after, answer, ran, kept, decoder, same⟩ := applyEvent_spec counted ev
      refine ⟨after, answer, ran, kept, same,
        fun ignored => absurd (ignored.symm.trans expected) (by decide), fun _ => ?_⟩
      rw [expectedSeq, decoder]
      rfl

/-- No frame faults, and those out of sequence might as well not have come. -/
theorem run_inSequence (inBounds : subscriber.books.InBounds) (frames : List Bytes) :
    ∃ final answers kept, run applyFrame subscriber frames = .ok (final, answers) ∧
      run applyFrame subscriber (inSequence subscriber.expectedSeq frames) = .ok (final, kept) ∧
      final.books.InBounds := by
  induction frames generalizing subscriber with
  | nil => exact ⟨subscriber, [], [], rfl, rfl, inBounds⟩
  | cons frame frames ih =>
      obtain ⟨after, answer, ran, bounds, handled⟩ := applyFrame_spec inBounds frame
      obtain ⟨final, answers, kept, all, some, within⟩ := ih bounds
      rw [inSequence]
      cases expected : isExpected subscriber.expectedSeq frame with
      | true =>
          rw [handled.counted expected] at some
          exact ⟨final, answer :: answers, answer :: kept, run_cons ran all,
            run_cons ran some, within⟩
      | false =>
          obtain ⟨-, rfl⟩ := handled.ignored expected
          exact ⟨final, answer :: answers, kept, run_cons ran all, some, within⟩

/-- Whatever frames a subscriber is given, no call faults; the state reached is
that of the frames in sequence alone, and there every further frame is handled. -/
theorem run_unmoved {maxSymbol : SymbolId} {ladder : PriceLadderConfig}
    (created : create maxSymbol ladder = some (.ok fresh)) (frames : List Bytes) :
    ∃ final answers kept, run applyFrame fresh frames = .ok (final, answers) ∧
      run applyFrame fresh (inSequence 1 frames) = .ok (final, kept) ∧
      ∀ frame, ∃ after answer, final.applyFrame frame = .ok (after, answer) ∧
      Handled final frame after answer := by
  rw [create, Option.map_eq_some_iff] at created
  obtain ⟨made, built, created⟩ := created
  cases made with
  | error exception => cases created
  | ok books =>
      obtain rfl := Except.ok.inj created
      have inBounds : ({ books } : SubscriberBook).books.InBounds :=
        BookManager.create_inBounds built
      obtain ⟨final, answers, kept, all, some, within⟩ := run_inSequence inBounds frames
      refine ⟨final, answers, kept, all, some, fun frame => ?_⟩
      obtain ⟨after, answer, ran, -, handled⟩ := applyFrame_spec within frame
      exact ⟨after, answer, ran, handled⟩

/-- A subscriber of one symbol with two price levels. -/
def oneSymbol : SubscriberBook := { books := .oneSymbol }

theorem oneSymbol_created : create 1 { minPrice := 1, maxPrice := 2 } = some (.ok oneSymbol) := by
  rw [create, BookManager.oneSymbol_created]
  rfl

/-- An add, the same again, an execution that comes too early and a torn frame. -/
def roughFrames : List Bytes :=
  let add : MdEvent :=
    { seq := 1, type := .add, symbolId := 1, orderId := 7, accountId := 1, side := .buy,
      price := 1, qty := 5 }
  [encodeMdEvent add, encodeMdEvent add, encodeMdEvent { add with seq := 3, type := .execute },
    [0, 1, 2]]

theorem run_unmoved_oneSymbol : ∃ final answers kept, run applyFrame oneSymbol roughFrames =
    .ok (final, answers) ∧ run applyFrame oneSymbol (inSequence 1 roughFrames) = .ok (final, kept) ∧
    ∀ frame, ∃ after answer, final.applyFrame frame = .ok (after, answer) ∧
    Handled final frame after answer :=
  run_unmoved oneSymbol_created roughFrames

end Exsim.Core.SubscriberBook
