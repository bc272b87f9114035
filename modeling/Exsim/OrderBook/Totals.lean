import Exsim.OrderBook.Resting
import Exsim.Reference.Weights

/-! # Level totals

The stored total of a level is a 32-bit counter.  It is the sum of the resting
quantities for as long as no order comes to rest on more than the counter holds.
-/

namespace Exsim.Core.OrderBook

open Data

/-- Every level's stored total is the sum over its queue. -/
def TotalsExact (book : OrderBook) : Prop :=
  ∀ isBuy i, (book.total isBuy i).toNat = ((book.fifo isBuy i).map fun order => order.qty.toNat).sum

/-- Whether what is left of an order comes to rest on a level whose quantity it
takes past 32 bits. -/
def overfills (book : OrderBook) (orders : Arrivals) (id : OrderId) (side : Side)
    (price : Price) (qty : Qty) (tif : TimeInForce) : Bool :=
  book.priceInBand price && orders.rests id side price qty tif &&
    2 ^ 32 ≤ book.restingQty orders side.isBuy (book.levelOf price) +
      (qty.toNat - orders.crossing side price)

/-- Whether a call takes the quantity of a level past 32 bits. -/
def wraps (book : OrderBook) : BookCall → Bool
  | .matching (.add _ orderId _ side price qty tif) =>
      book.overfills book.resting orderId side price qty tif
  | .matching (.cancel _ _) => false
  | .matching (.replace _ oldId newId _ side price qty tif) =>
      book.contains oldId &&
        book.overfills (Keyed.erase RestingOrderView.orderId oldId book.resting) newId side
          price qty tif
  | .feedAdd orderId _ side price qty =>
      !book.contains orderId && qty ≠ 0 && book.priceInBand price &&
        2 ^ 32 ≤ book.restingQty book.resting side.isBuy (book.levelOf price) + qty.toNat
  | .feedExecute _ _ => false

section

variable {book after : OrderBook} {ref ref' : ArrivalBook} {order : RestingOrderView}
  {isBuy : Bool} {i : Nat} {seq : SeqNo} {id oldId : OrderId} {accountId : AccountId} {side : Side}
  {price : Price} {qty : Qty} {tif : TimeInForce}

/-- The sums over the queues are the sums over the reference book's levels. -/
theorem Refines.totalsExact (refines : book.Refines ref) : book.TotalsExact ↔ book.Exact ref := by
  obtain ⟨queues, mirrors⟩ := refines
  refine forall_congr' fun isBuy => forall_congr' fun i => ?_
  by_cases inside : i < book.levelCount.toNat
  · rw [mirrors.fifo isBuy inside, restingQty]
  · have empty : queues isBuy i = [] := by
      by_contra occupied
      exact inside ((mirrors.rep.occupancy isBuy).inside i occupied)
    rw [mirrors.fifo_beyond isBuy inside, mirrors.restingQty_of_empty empty]
    rfl

theorem Exact.fits (exact : book.Exact ref) : book.Fits ref := fun isBuy i => by
  rw [← exact isBuy i]
  exact (book.total isBuy i).toNat_lt

theorem restingQty_eq_weigh : book.restingQty ref.orders isBuy i = ref.weigh (book.share isBuy i) :=
  restingQty_eq_sum ref.orders

theorem share_monotone : ArrivalBook.Monotone (book.share isBuy i) := by
  intro order qty less
  have level : book.atLevel isBuy i { order with qty } = book.atLevel isBuy i order := rfl
  rw [share, share, level]
  split
  · exact UInt32.le_iff_toNat_le.mp less
  · exact Nat.le_refl 0

/-- Resting an order keeps every level within its counter unless it overfills its own. -/
theorem fits_rest (fits : book.Fits ref) : book.Fits (ref.rest order) ↔
    book.restingQty ref.orders order.side.isBuy (book.levelOf order.price) + order.qty.toNat <
      2 ^ 32 := by
  constructor
  · intro fits
    have own := fits order.side.isBuy (book.levelOf order.price)
    rw [ArrivalBook.rest, restingQty_rest, share, if_pos (atLevel_iff.mpr ⟨rfl, rfl⟩)] at own
    exact own
  · intro own isBuy i
    rw [ArrivalBook.rest, restingQty_rest, share]
    split
    · rename_i here
      obtain ⟨rfl, rfl⟩ := atLevel_iff.mp here
      exact own
    · exact fits isBuy i

theorem fits_addOrder (sound : ref.Sound) (band : book.priceInBand = ref.priceInBand)
    (fits : book.Fits ref) (seq : SeqNo) (id : OrderId) (accountId : AccountId) (side : Side)
    (price : Price) (qty : Qty) (tif : TimeInForce) :
    book.Fits (ref.addOrder seq id accountId side price qty tif).1 ↔
      book.overfills ref.orders id side price qty tif = false := by
  have swept : book.Fits (ref.swept seq id side price qty).1 := fun isBuy i => by
    have before := fits isBuy i
    rw [restingQty_eq_weigh] at before ⊢
    exact Nat.lt_of_le_of_lt (sound.weigh_swept_le share_monotone seq id side price qty) before
  have own :
      book.restingQty (ref.swept seq id side price qty).1.orders side.isBuy (book.levelOf price) =
      book.restingQty ref.orders side.isBuy (book.levelOf price) := by
    rw [restingQty_eq_weigh, restingQty_eq_weigh]
    refine sound.weigh_swept_apart seq id qty fun order opposite _ => if_neg fun here => ?_
    rw [(atLevel_iff.mp here).1] at opposite
    exact Bool.not_ne_self side.isBuy opposite.symm
  rw [overfills, band]
  obtain ⟨rests, isRest⟩ | ⟨stays, isBook⟩ :=
    sound.addOrder_cases seq id accountId side price qty tif
  · rw [isRest, rests, Bool.true_and, decide_eq_false_iff_not, Nat.not_le, fits_rest swept]
    change _ + (ref.remainder seq id accountId side price qty).qty.toNat < _ ↔ _
    rw [ArrivalBook.remainder, sound.remaining, own]
  · rw [stays, Bool.false_and]
    obtain isBook | isBook := isBook
    · rw [isBook]
      exact ⟨fun _ => rfl, fun _ => fits⟩
    · rw [isBook]
      exact ⟨fun _ => rfl, fun _ => swept⟩

theorem overfills_perm {orders others : Arrivals} (same : orders.Perm others) :
    book.overfills orders id side price qty tif = book.overfills others id side price qty tif := by
  have level : book.restingQty orders side.isBuy (book.levelOf price) =
      book.restingQty others side.isBuy (book.levelOf price) := ((same.filter _).map _).sum_eq
  have crossing : orders.crossing side price = others.crossing side price := (same.map _).sum_eq
  rw [overfills, overfills, Arrivals.rests_perm same, level, crossing]

theorem fits_replaceOrder (sound : ref.Sound) (band : book.priceInBand = ref.priceInBand)
    (fits : book.Fits ref) (seq : SeqNo) (oldId id : OrderId) (accountId : AccountId) (side : Side)
    (price : Price) (qty : Qty) (tif : TimeInForce) :
    book.Fits (ref.replaceOrder seq oldId id accountId side price qty tif).1 ↔
      (ref.holds oldId && book.overfills
        (Keyed.erase RestingOrderView.orderId oldId ref.orders) id side price qty tif) =
        false := by
  cases inBand : ref.priceInBand price with
  | false =>
      have outside : ∀ orders : Arrivals, book.overfills orders id side price qty tif = false :=
        fun orders => by
          rw [overfills, band, inBand, Bool.false_and, Bool.false_and]
      rw [ArrivalBook.replaceOrder_outOfBand inBand, outside, Bool.and_false]
      exact ⟨fun _ => rfl, fun _ => fits⟩
  | true =>
      cases found : ref.find oldId with
      | none =>
          have absent : ref.holds oldId = false := by
            rw [ArrivalBook.holds, Keyed.holds, ← ArrivalBook.find, found]
            rfl
          rw [ArrivalBook.replaceOrder, inBand, ArrivalBook.cancelOrder, found, absent,
            Bool.false_and]
          exact ⟨fun _ => rfl, fun _ => fits⟩
      | some old =>
          have held : ref.holds oldId = true := by
            rw [ArrivalBook.holds, Keyed.holds, ← ArrivalBook.find, found]
            rfl
          have cancelled : (ref.cancelOrder seq oldId).1 =
              { ref with orders := Keyed.erase RestingOrderView.orderId oldId ref.orders } := by
            rw [ArrivalBook.cancelOrder, found]
          have lessened : book.Fits (ref.cancelOrder seq oldId).1 := fun isBuy i => by
            have before := fits isBuy i
            rw [restingQty_eq_weigh] at before ⊢
            exact Nat.lt_of_le_of_lt (sound.weigh_cancelOrder_le seq oldId) before
          rw [ArrivalBook.replaceOrder_inBand inBand found, held, Bool.true_and]
          dsimp only
          rw [cancelled] at lessened ⊢
          exact fits_addOrder (sound.erase oldId) band lessened seq id accountId side price qty tif

theorem fits_feedAdd (band : book.priceInBand = ref.priceInBand) (fits : book.Fits ref) :
    book.Fits (ref.feedAdd id accountId side price qty).1 ↔
      (!ref.holds id && qty ≠ 0 && book.priceInBand price &&
        2 ^ 32 ≤ book.restingQty ref.orders side.isBuy (book.levelOf price) + qty.toNat) =
      false := by
  rw [ArrivalBook.feedAdd_eq, band]
  split
  · rename_i accepted
    obtain ⟨fresh, positive, inBand⟩ := accepted
    rw [fits_rest fits, fresh, inBand]
    simp [positive]
  · rename_i refused
    refine ⟨fun _ => ?_, fun _ => fits⟩
    rw [Bool.eq_false_iff]
    intro accepted
    simp only [Bool.and_eq_true, Bool.not_eq_true', decide_eq_true_eq] at accepted
    exact refused ⟨accepted.1.1.1, accepted.1.1.2, accepted.1.2⟩

/-- A call leaves every level within its counter unless it wraps one. -/
theorem fits_call (tracks : book.Tracks ref) (fits : book.Fits ref) (call : BookCall) :
    book.Fits (ref.call call).1 ↔ book.wraps call = false := by
  obtain ⟨refines, sound⟩ := tracks
  have band : book.priceInBand = ref.priceInBand := funext refines.priceInBand
  have same := refines.resting_perm sound
  have shrinks : ∀ {smaller : ArrivalBook}, (∀ isBuy i,
    smaller.weigh (book.share isBuy i) ≤ ref.weigh (book.share isBuy i)) →
      (book.Fits smaller ↔ false = false) := fun less => by
    refine ⟨fun _ => rfl, fun _ isBuy i => ?_⟩
    have before := fits isBuy i
    rw [restingQty_eq_weigh] at before ⊢
    exact Nat.lt_of_le_of_lt (less isBuy i) before
  cases call with
  | matching call =>
      cases call with
      | add seq orderId accountId side price qty tif =>
          rw [wraps, overfills_perm same]
          exact fits_addOrder sound band fits seq orderId accountId side price qty tif
      | cancel seq orderId => exact shrinks fun isBuy i => sound.weigh_cancelOrder_le seq orderId
      | replace seq oldId newId accountId side price qty tif =>
          rw [wraps, refines.contains, overfills_perm (Arrivals.erase_perm same oldId)]
          exact fits_replaceOrder sound band fits seq oldId newId accountId side price qty tif
  | feedAdd orderId accountId side price qty =>
      have level : book.restingQty book.resting side.isBuy (book.levelOf price) =
          book.restingQty ref.orders side.isBuy (book.levelOf price) :=
        ((same.filter _).map _).sum_eq
      rw [wraps, refines.contains, level]
      exact fits_feedAdd band fits
  | feedExecute orderId qty =>
      exact shrinks fun isBuy i => sound.weigh_feedExecute_le share_monotone orderId qty

end

/-- Exact totals stay exact over a call exactly if it wraps none. -/
theorem call_totals {book : OrderBook} {ref : ArrivalBook} (tracks : book.Tracks ref)
    (room : ref.orders.length < kNull.toNat) (input : BookCall) :
    ∃ after, book.call input = .ok (after, (ref.call input).2) ∧ after.Tracks (ref.call input).1 ∧
      (book.TotalsExact → (after.TotalsExact ↔ book.wraps input = false)) := by
  obtain ⟨after, ran, follows⟩ := call_spec tracks.1 room input
  refine ⟨after, ran, ⟨follows.refines, tracks.2.call input⟩, fun exact => ?_⟩
  have exact := tracks.1.totalsExact.mp exact
  have fits := fits_call tracks exact.fits input
  have same : after.Fits (ref.call input).1 ↔ book.Fits (ref.call input).1 := by
    rw [Fits, Fits, follows.ladder.restingQty]
  rw [follows.refines.totalsExact, ← fits, ← same]
  exact ⟨Exact.fits, fun fits => follows.exact fits exact⟩

/-- A run of calls that wrap nothing ends with exact totals. -/
theorem run_exact {symbolId : SymbolId} {ladder : PriceLadderConfig} {fresh : OrderBook}
    {calls : List MatchCall} (created : OrderBook.create symbolId ladder = .ok fresh)
    (fits : Along matchCall (fun book call => book.stats.liveOrders < 2 ^ 32 - 1 ∧
      book.wraps (.matching call) = false) fresh calls) :
    ∃ after answers, run matchCall fresh calls = .ok (after, answers) ∧ after.TotalsExact := by
  have keep : ∀ (book : OrderBook) (call : MatchCall), (∃ ref, book.Tracks ref ∧ book.Exact ref) →
      book.stats.liveOrders < 2 ^ 32 - 1 ∧ book.wraps (.matching call) = false →
      ∃ after answer, book.matchCall call = .ok (after, answer) ∧ ∃ ref, after.Tracks ref ∧
      after.Exact ref := by
    rintro book call ⟨ref, tracks, exact⟩ ⟨room, unwrapped⟩
    rw [tracks.1.liveOrders] at room
    obtain ⟨after, ran, follows⟩ := matchCall_spec tracks.1 room call
    have fits : book.Fits (ref.matchCall call).1 :=
      (fits_call tracks exact.fits (.matching call)).mpr unwrapped
    rw [Fits, ← follows.ladder.restingQty] at fits
    exact ⟨after, _, ran, _, ⟨follows.refines, tracks.2.matchCall call⟩, follows.exact fits exact⟩
  obtain ⟨after, answers, ran, ref, tracks, exact⟩ :=
    run_invariant keep ⟨_, create_tracks created, (create_spec created).2⟩ fits
  exact ⟨after, answers, ran, tracks.1.totalsExact.mpr exact⟩

/-- While no book reached runs out of slots, the level totals stay exact after
every call exactly if no call takes the quantity of a level past 32 bits. -/
theorem run_totals {symbolId : SymbolId} {ladder : PriceLadderConfig} {fresh : OrderBook}
    {calls : List BookCall} (created : OrderBook.create symbolId ladder = .ok fresh)
    (room : Along call (fun book _ => book.nodes.size < kNull.toNat) fresh calls) :
    fresh.TotalsExact ∧
    (Along call (fun book call => book.wraps call = false) fresh calls ↔
      Along call (fun book input => ∀ after answer, book.call input = .ok (after, answer) →
        after.TotalsExact) fresh calls) := by
  have keep : ∀ (book : OrderBook) (input : BookCall), (∃ ref, book.Tracks ref) →
      book.nodes.size < kNull.toNat → ∃ after answer, book.call input = .ok (after, answer) ∧
      (∃ ref, after.Tracks ref) ∧
      (book.TotalsExact → (after.TotalsExact ↔ book.wraps input = false)) := by
    intro book input kept room
    obtain ⟨ref, tracks⟩ := kept
    obtain ⟨after, ran, kept, exact⟩ :=
      call_totals tracks (Nat.lt_of_le_of_lt tracks.1.length_le room) input
    exact ⟨after, _, ran, ⟨_, kept⟩, exact⟩
  have start := create_spec created
  have fine : fresh.TotalsExact := start.1.totalsExact.mpr start.2
  exact ⟨fine, along_iff keep ⟨_, create_tracks created⟩ fine room⟩

/-- Two orders that fill a level exactly past its counter. -/
def fullLevel : List BookCall := [.feedAdd 7 1 .buy 1 0x80000000, .feedAdd 8 1 .buy 1 0x80000000]

theorem run_totals_oneTick : oneTick.TotalsExact ∧
    (Along call (fun book call => book.wraps call = false) oneTick fullLevel ↔
      Along call (fun book input => ∀ after answer, book.call input = .ok (after, answer) →
        after.TotalsExact) oneTick fullLevel) :=
  run_totals oneTick_created (by decide +kernel)

/-- Two orders of half the counter's range leave a total of zero. -/
theorem total_wraps : ¬ ∀ (symbolId : SymbolId) (ladder : PriceLadderConfig) (fresh : OrderBook)
    (calls : List BookCall) (after : OrderBook) (answers : List BookAnswer),
    OrderBook.create symbolId ladder = .ok fresh →
    run call fresh calls = .ok (after, answers) → after.TotalsExact := by
  intro exact
  have wrapped : ((run call oneTick [.matching (.add 1 7 1 .buy 1 0x80000000 .gtc),
      .matching (.add 2 8 1 .buy 1 0x80000000 .gtc)]).toOption.map fun result =>
        (result.1.total true 0, ((result.1.fifo true 0).map fun order => order.qty.toNat).sum)) =
      some (0, 2 ^ 32) := by
    decide +kernel
  obtain ⟨result, ran, wrapped⟩ := ok_of_map wrapped
  obtain ⟨total, sum⟩ := Prod.mk.inj wrapped
  have same := exact _ _ _ _ _ _ oneTick_created ran true 0
  rw [total, sum] at same
  exact absurd same (by decide)

end Exsim.Core.OrderBook
