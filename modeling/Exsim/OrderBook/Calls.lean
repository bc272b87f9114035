import Exsim.OrderBook.Matching

/-! # The calls of the engine follow the reference book -/

namespace Exsim.Core.OrderBook

open Data

variable {book : OrderBook} {queues : Queues} {ref : ArrivalBook} {isBuy : Bool} {idx : UInt32}

/-- `execute_head` on the head of the best level is one trade of the reference book. -/
theorem Mirrors.executeHead (mirrors : book.Mirrors queues ref)
    (best : (book.half isBuy).bestIdx = some idx)
    (seq : SeqNo) (aggressor : OrderId) (out : MatchOutput) :
    ∃ level n after filled done, book.levelFor isBuy idx = .ok level ∧ level.head ≠ kNull ∧
    book.node level.head = .ok n ∧ ref.orders.first isBuy = some (viewNode n) ∧
      book.executeHead seq isBuy idx level.head out.remainingQty out aggressor =
        .ok (after, filled, done) ∧ done = min n.qty out.remainingQty ∧
      { filled with remainingQty := filled.remainingQty - done } =
        (ref.trade seq aggressor (viewNode n) out).2 ∧
      Shrinks book after ref (ref.trade seq aggressor (viewNode n) out).1 := by
  obtain ⟨slot, rest, n, split, found, rfl, rfl, indexed, first, -⟩ := mirrors.first_eq_some best
  have member : slot ∈ queues n.side.isBuy n.levelIdx.toNat := by simp [split]
  obtain ⟨level, here⟩ := mirrors.rep.level_exists n.side.isBuy (mirrors.rep.inside member)
  have head : level.head = slot := by
    rw [(mirrors.rep.level _ _ level here).1, split, List.headD_cons]
  have readLevel : book.levelFor n.side.isBuy n.levelIdx = .ok level := levelFor_of_getElem? here
  have proper : level.head ≠ kNull := by
    rw [head]
    exact mirrors.rep.slot_ne_null member
  have readHead : book.node level.head = .ok n := by
    rw [head]
    exact node_of_getElem? found
  let qty := min n.qty out.remainingQty
  have enough : qty ≤ n.qty :=
    UInt32.le_iff_toNat_le.mpr (by rw [toNat_min]; exact Nat.min_le_left _ _)
  obtain ⟨wroteNode, readAgain, wroteLevel⟩ := withFill_run qty found here
  obtain ⟨filled, exact⟩ := mirrors.withFill indexed found here enough
  have foundView : Keyed.find RestingOrderView.orderId n.orderId ref.orders = some (viewNode n) :=
    mirrors.find_of_index indexed found
  have place : ref.orders.fill n.orderId qty =
      if n.qty ≤ qty then Keyed.erase RestingOrderView.orderId n.orderId ref.orders
      else ref.orders.lessen n.orderId qty := by
    rw [Arrivals.fill, foundView]
    rfl
  have usedUp : n.qty ≤ qty ↔ n.qty - qty = 0 := by
    rw [UInt32.le_iff_toNat_le] at enough ⊢
    rw [← UInt32.toNat_inj, UInt32.toNat_sub_of_le _ _ (UInt32.le_iff_toNat_le.mpr enough),
      UInt32.toNat_zero]
    omega
  have stands := node_withFill level qty found
  have listed : (book.withFill slot n level qty).index.lookup n.orderId = some slot := by
    rw [index_withFill]
    exact indexed
  have symbol : (book.withFill slot n level qty).symbolId = book.symbolId :=
    sameLadder_withFill.symbolId
  let done : MatchOutput := { out with
    trades := out.trades ++ [ref.tradeOf seq (viewNode n) aggressor qty]
    mdEvents := out.mdEvents ++ [ref.eventOf seq .execute (viewNode n) qty] }
  by_cases used : n.qty - qty = 0
  · rw [used] at stands
    obtain ⟨after, ran, shrinks⟩ := filled.unrest listed stands seq .execute
    have ran : (book.withFill slot n level qty).removeNode seq slot 0 .execute =
        .ok (after, _) := ran
    refine ⟨level, n, after, done, qty, readLevel, proper, readHead, first, ?_, rfl, rfl, ?_⟩
    · simp only [executeHead, head, node_of_getElem? found, exec_ok_bind]
      rw [wroteNode, exec_ok_bind, readAgain, exec_ok_bind, wroteLevel, exec_ok_bind,
        if_pos used, ran]
      rw [exec_ok_bind]
      simp only [done, ArrivalBook.tradeOf, ArrivalBook.eventOf, mirrors.symbolId, symbol]
      rfl
    · have orders : (ref.trade seq aggressor (viewNode n) out).1 = { ref with
          orders :=
            Keyed.erase RestingOrderView.orderId n.orderId (ref.orders.lessen n.orderId qty) } := by
        rw [ArrivalBook.trade]
        change { ref with orders := ref.orders.fill n.orderId qty } = _
        rw [place, if_pos (usedUp.mpr used), Arrivals.erase_lessen]
      rw [orders]
      exact ⟨sameLadder_withFill.trans shrinks.ladder, shrinks.refines,
        fun before => shrinks.exact (exact before)⟩
  · refine ⟨level, n, book.withFill slot n level qty, done, qty, readLevel, proper, readHead, first,
      ?_, rfl, rfl, ?_⟩
    · simp only [executeHead, head, node_of_getElem? found, exec_ok_bind]
      rw [wroteNode, exec_ok_bind, readAgain, exec_ok_bind, wroteLevel, exec_ok_bind, if_neg used]
      simp only [done, ArrivalBook.tradeOf, ArrivalBook.eventOf, mirrors.symbolId, symbol]
      rfl
    · have orders : (ref.trade seq aggressor (viewNode n) out).1 = { ref with
          orders := ref.orders.lessen n.orderId qty } := by
        rw [ArrivalBook.trade]
        change { ref with orders := ref.orders.fill n.orderId qty } = _
        rw [place, if_neg (mt usedUp.mp used)]
      rw [orders]
      exact ⟨sameLadder_withFill, ⟨queues, filled⟩, exact⟩

/-- The matching loop ends when nothing is left to fill or nothing crosses. -/
theorem matchLoop_stopped {seq : SeqNo} {aggressor : OrderId} {side : Side} {price : Price}
    {fuel : Nat} {out : MatchOutput}
    (stop : (out.remainingQty > 0 && book.crosses side price) = false) :
    matchLoop seq aggressor side price fuel book out = .ok (book, out) := by
  rw [matchLoop.eq_def]
  dsimp only
  rw [stop]
  rfl

/-- An order that meets nothing is stored, appended to its level and reported. -/
theorem addOrder_rests {book start after : OrderBook} {slot : UInt32} {id : OrderId}
    {accountId : AccountId} {side : Side} {price : Price} {qty : Qty} (seq : SeqNo)
    (positive : qty ≠ 0) (inBand : book.priceInBand price = true)
    (isFresh : book.contains id = false) (quiet : book.crosses side price = false)
    (allocated : book.allocNode id accountId side price qty = .ok (start, slot))
    (appended : start.appendToLevel slot = .ok after) :
    book.addOrder seq id accountId side price qty .gtc = .ok (after, {
      mdEvents :=
  [{ seq, type := .add, symbolId := after.symbolId, orderId := id, accountId, side, price, qty }]
    }) := by
  have matched :
      matchLoop seq id side price (qty.toNat + book.nodes.size) book { remainingQty := qty } =
      .ok (book, { remainingQty := qty }) := matchLoop_stopped (by rw [quiet, Bool.and_false])
  have some : (qty > 0) = True := eq_true (UInt32.pos_iff_ne_zero.mpr positive)
  simp only [addOrder, positive, inBand, isFresh, Bool.not_true, Bool.false_eq_true, ↓reduceIte,
    matched, exec_ok_bind, some, decide_true, Bool.and_self, allocated, appended]
  rfl

/-- The matching loop sweeps the reference book. -/
theorem matchLoop_spec (seq : SeqNo) (aggressor : OrderId) (side : Side) (price : Price)
    (out : MatchOutput) {rounds fuel : Nat} (refines : book.Refines ref)
    (bound : ref.orders.length ≤ rounds) (enough : rounds ≤ fuel) :
    ∃ after, matchLoop seq aggressor side price fuel book out =
        .ok (after, (ref.sweep seq aggressor side price rounds out).2) ∧
      Shrinks book after ref (ref.sweep seq aggressor side price rounds out).1 := by
  obtain ⟨queues, mirrors⟩ := refines
  induction rounds generalizing fuel book ref out queues with
  | zero =>
      have empty : ref.orders = [] := List.length_eq_zero_iff.mp (Nat.le_zero.mp bound)
      have quiet : book.crosses side price = false := by
        rw [mirrors.crosses, empty, Arrivals.first_nil, Option.any_none]
      refine ⟨book, matchLoop_stopped (by rw [quiet, Bool.and_false]), ?_⟩
      exact Shrinks.refl ⟨queues, mirrors⟩
  | succ rounds ih =>
      by_cases filled : out.remainingQty = 0
      · rw [ArrivalBook.sweep_filled _ _ filled]
        exact ⟨book, matchLoop_stopped (by simp [filled]), Shrinks.refl ⟨queues, mirrors⟩⟩
      · have crossing := mirrors.crosses side price
        cases best : (book.half !side.isBuy).bestIdx with
        | none =>
            have absent := mirrors.first_eq_none best
            rw [absent, Option.any_none] at crossing
            rw [ArrivalBook.sweep, if_neg filled, absent]
            exact ⟨book, matchLoop_stopped (by rw [crossing, Bool.and_false]),
              Shrinks.refl ⟨queues, mirrors⟩⟩
        | some idx =>
            obtain ⟨level, n, middle, partOut, done, readLevel, -, -, first, ran, -,
                output, shrinks⟩ :=
              mirrors.executeHead best seq aggressor out
            rw [first, Option.any_some] at crossing
            rw [ArrivalBook.sweep, if_neg filled, first]
            by_cases within : Arrivals.asGood (!side.isBuy) (viewNode n).price price = true
            · have going : (out.remainingQty > 0 && book.crosses side price) = true := by
                rw [crossing, within, Bool.and_true, decide_eq_true_iff]
                exact UInt32.pos_iff_ne_zero.mpr filled
              obtain ⟨fuel, rfl⟩ : ∃ less, fuel = less + 1 := ⟨fuel - 1, by omega⟩
              have step : matchLoop seq aggressor side price (fuel + 1) book out =
                  matchLoop seq aggressor side price fuel middle
                    (ref.trade seq aggressor (viewNode n) out).2 := by
                rw [matchLoop, going, best]
                simp only [↓reduceIte, readLevel, exec_ok_bind, ran, output]
              dsimp only
              rw [if_pos within, step]
              obtain ⟨queues', mirrors'⟩ := shrinks.refines
              by_cases complete : (ref.trade seq aggressor (viewNode n) out).2.remainingQty = 0
              · rw [ArrivalBook.sweep_filled _ _ complete]
                exact ⟨middle, matchLoop_stopped (by simp [complete]), shrinks⟩
              · have shorter :=
                  ArrivalBook.trade_length mirrors.distinct (Arrivals.first_mem first).1 complete
                obtain ⟨after, rest, shrinks'⟩ :=
                  ih _ (by omega) (Nat.le_of_succ_le_succ enough) queues' mirrors'
                exact ⟨after, rest, shrinks.trans shrinks'⟩
            · have quiet : book.crosses side price = false := by
                rw [crossing]
                exact Bool.eq_false_iff.mpr within
              dsimp only
              rw [if_neg within]
              exact ⟨book, matchLoop_stopped (by rw [quiet, Bool.and_false]),
                Shrinks.refl ⟨queues, mirrors⟩⟩

theorem cancelOrder_spec (refines : book.Refines ref) (seq : SeqNo) (id : OrderId) :
    ∃ after, book.cancelOrder seq id = .ok (after, (ref.cancelOrder seq id).2) ∧
      Shrinks book after ref (ref.cancelOrder seq id).1 := by
  obtain ⟨queues, mirrors⟩ := refines
  cases indexed : book.index.lookup id with
  | none =>
      refine ⟨book, ?_, ?_⟩ <;>
        simp only [OrderBook.cancelOrder, indexed, ArrivalBook.cancelOrder,
          mirrors.find_of_absent indexed]
      exact Shrinks.refl ⟨queues, mirrors⟩
  | some slot =>
      obtain ⟨n, found, -⟩ := mirrors.order_of_index indexed
      obtain ⟨after, ran, shrinks⟩ := mirrors.unrest indexed found seq .cancel
      refine ⟨after, ?_, ?_⟩ <;>
        simp only [OrderBook.cancelOrder, indexed, node_of_getElem? found, exec_ok_bind, ran,
          ArrivalBook.cancelOrder, mirrors.find_of_index indexed found]
      · rfl
      · exact shrinks

/-- Resting the remainder of an order. -/
theorem rest_spec (order : RestingOrderView) (refines : book.Refines ref)
    (fresh : ref.holds order.orderId = false) (inBand : book.priceInBand order.price = true)
    (room : ref.orders.length < kNull.toNat) :
    ∃ middle slot after,
      book.allocNode order.orderId order.accountId order.side order.price order.qty =
        .ok (middle, slot) ∧ middle.appendToLevel slot = .ok after ∧
        Follows book after ref (ref.rest order) := by
  obtain ⟨queues, mirrors⟩ := refines
  obtain ⟨middle, slot, after, queues', allocated, appended, same, mirrors', totals⟩ :=
    mirrors.rest fresh inBand room
  exact ⟨middle, slot, after, allocated, appended, same, ⟨queues', mirrors'⟩, fun fits exact =>
    exact.rest same totals fits⟩

theorem Refines.contains (refines : book.Refines ref) (id : OrderId) :
    book.contains id = ref.holds id := by
  obtain ⟨queues, mirrors⟩ := refines
  exact mirrors.contains id

theorem Refines.priceInBand (refines : book.Refines ref) (price : Price) :
    book.priceInBand price = ref.priceInBand price := by
  obtain ⟨queues, mirrors⟩ := refines
  exact (mirrors.priceInBand price).symm

theorem Refines.symbolId (refines : book.Refines ref) : book.symbolId = ref.symbolId := by
  obtain ⟨queues, mirrors⟩ := refines
  exact mirrors.symbolId.symm

/-- The pool holds a slot for each order. -/
theorem Refines.length_le (refines : book.Refines ref) : ref.orders.length ≤ book.nodes.size := by
  obtain ⟨queues, mirrors⟩ := refines
  have pool := mirrors.pool
  omega

theorem addOrder_spec (refines : book.Refines ref) (room : ref.orders.length < kNull.toNat)
    (seq : SeqNo) (orderId : OrderId) (accountId : AccountId) (side : Side) (price : Price)
    (qty : Qty) (tif : TimeInForce) :
    ∃ after, book.addOrder seq orderId accountId side price qty tif =
        .ok (after, (ref.addOrder seq orderId accountId side price qty tif).2) ∧
      Follows book after ref (ref.addOrder seq orderId accountId side price qty tif).1 := by
  rw [OrderBook.addOrder, ArrivalBook.addOrder, refines.priceInBand, refines.contains]
  split
  · exact ⟨book, rfl, Follows.refl refines⟩
  · split
    · exact ⟨book, rfl, Follows.refl refines⟩
    · rename_i inBand
      split
      · exact ⟨book, rfl, Follows.refl refines⟩
      · rename_i fresh
        obtain ⟨middle, matched, shrinks⟩ :=
          matchLoop_spec seq orderId side price { remainingQty := qty }
          refines (Nat.le_refl _) (Nat.le_trans refines.length_le (Nat.le_add_left _ qty.toNat))
        have fresh' :
            (ref.sweep seq orderId side price ref.orders.length { remainingQty := qty }).1.holds
            orderId = false :=
          Bool.eq_false_iff.mpr fun held => fresh (ArrivalBook.sweep_holds held)
        have shorter : (ref.sweep seq orderId side price ref.orders.length
            { remainingQty := qty }).1.orders.length ≤ ref.orders.length :=
          ArrivalBook.sweep_length_le
        rw [matched, exec_ok_bind]
        generalize ref.sweep seq orderId side price ref.orders.length { remainingQty := qty } =
          result at shrinks fresh' shorter ⊢
        obtain ⟨ref₁, out⟩ := result
        dsimp only at shrinks fresh' shorter ⊢
        split
        · have inBand' : middle.priceInBand price = true := by
            rw [shrinks.ladder.priceInBand, refines.priceInBand]
            simpa using inBand
          obtain ⟨start, slot, after, allocated, appended, follows⟩ := rest_spec
            { orderId, accountId, side, price, qty := out.remainingQty } shrinks.refines
            fresh' inBand' (by omega)
          dsimp only at allocated
          rw [allocated, exec_ok_bind]
          dsimp only
          rw [appended, exec_ok_bind, follows.refines.symbolId]
          exact ⟨after, rfl, shrinks.trans_follows follows⟩
        · exact ⟨middle, rfl, shrinks.follows⟩

/-- Every call leaves no more orders than there were and one more. -/
theorem replaceOrder_spec (refines : book.Refines ref) (room : ref.orders.length < kNull.toNat)
    (seq : SeqNo) (oldId newId : OrderId) (accountId : AccountId) (side : Side)
    (price : Price) (qty : Qty) (tif : TimeInForce) :
    ∃ after, book.replaceOrder seq oldId newId accountId side price qty tif =
        .ok (after, (ref.replaceOrder seq oldId newId accountId side price qty tif).2) ∧
      Follows book after ref (ref.replaceOrder seq oldId newId accountId side price qty tif).1 := by
  rw [OrderBook.replaceOrder, ArrivalBook.replaceOrder, refines.priceInBand]
  split
  · exact ⟨book, rfl, Follows.refl refines⟩
  · obtain ⟨middle, cancelled, shrinks⟩ := cancelOrder_spec refines seq oldId
    have shorter := ArrivalBook.cancelOrder_length_le ref seq oldId
    rw [cancelled, exec_ok_bind]
    generalize ref.cancelOrder seq oldId = result at shrinks shorter ⊢
    obtain ⟨ref₁, old⟩ := result
    cases old with
    | none => exact ⟨middle, rfl, shrinks.follows⟩
    | some old =>
        obtain ⟨after, added, follows⟩ :=
          addOrder_spec shrinks.refines (Nat.lt_of_le_of_lt shorter room) seq newId
          accountId side price qty tif
        dsimp only at added follows ⊢
        rw [added, exec_ok_bind]
        exact ⟨after, rfl, shrinks.trans_follows follows⟩

theorem feedAdd_spec (refines : book.Refines ref) (room : ref.orders.length < kNull.toNat)
    (orderId : OrderId) (accountId : AccountId) (side : Side) (price : Price) (qty : Qty) :
    ∃ after, book.feedAdd orderId accountId side price qty =
        .ok (after, (ref.feedAdd orderId accountId side price qty).2) ∧
      Follows book after ref (ref.feedAdd orderId accountId side price qty).1 := by
  rw [OrderBook.feedAdd, ArrivalBook.feedAdd, refines.priceInBand, refines.contains]
  split
  · exact ⟨book, rfl, Follows.refl refines⟩
  · rename_i accepted
    simp only [Bool.or_eq_true, not_or] at accepted
    obtain ⟨⟨fresh, -⟩, inBand⟩ := accepted
    obtain ⟨start, slot, after, allocated, appended, follows⟩ := rest_spec
      { orderId, accountId, side, price, qty } refines (Bool.eq_false_iff.mpr fresh)
      (by rw [refines.priceInBand]; simpa using inBand) room
    dsimp only at allocated
    rw [allocated, exec_ok_bind]
    dsimp only
    rw [appended, exec_ok_bind]
    exact ⟨after, rfl, follows⟩

theorem feedExecute_spec (refines : book.Refines ref) (orderId : OrderId) (qty : Qty) :
    ∃ after, book.feedExecute orderId qty = .ok (after, (ref.feedExecute orderId qty).2) ∧
      Shrinks book after ref (ref.feedExecute orderId qty).1 := by
  obtain ⟨queues, mirrors⟩ := refines
  have held := mirrors.lookup_isSome orderId
  rw [OrderBook.feedExecute, ArrivalBook.feedExecute, ← held]
  cases indexed : book.index.lookup orderId with
  | none => exact ⟨book, rfl, Shrinks.refl ⟨queues, mirrors⟩⟩
  | some slot =>
      by_cases zero : qty = 0
      · subst zero
        exact ⟨book, rfl, Shrinks.refl ⟨queues, mirrors⟩⟩
      · obtain ⟨n, found, isId, listed, -, queued, -⟩ := mirrors.order_of_index indexed
        obtain ⟨level, here⟩ := mirrors.rep.level_exists n.side.isBuy (mirrors.rep.inside queued)
        have readLevel : book.levelFor n.side.isBuy n.levelIdx = .ok level :=
          levelFor_of_getElem? here
        have place : ref.orders.fill orderId qty = if n.qty ≤ qty then
            Keyed.erase RestingOrderView.orderId orderId ref.orders
              else ref.orders.lessen orderId qty :=
          Arrivals.fill_of_mem mirrors.distinct listed isId
        have accepted : ((some slot).isSome && decide (qty ≠ 0)) = true := by simp [zero]
        dsimp only
        rw [if_neg zero, node_of_getElem? found, exec_ok_bind, readLevel, exec_ok_bind,
          accepted, place]
        by_cases used : n.qty ≤ qty
        · obtain ⟨after, ran, shrinks⟩ := mirrors.unrest indexed found 0 .execute
          rw [if_pos used, if_pos used, ran, exec_ok_bind]
          exact ⟨after, rfl, shrinks⟩
        · have enough : qty ≤ n.qty := by
            rw [UInt32.le_iff_toNat_le] at used ⊢
            omega
          obtain ⟨wroteNode, -, wroteLevel⟩ := withFill_run qty found here
          obtain ⟨filled, exact⟩ := mirrors.withFill indexed found here enough
          rw [if_neg used, if_neg used, wroteNode, exec_ok_bind, wroteLevel, exec_ok_bind]
          exact ⟨book.withFill slot n level qty, rfl, sameLadder_withFill, ⟨queues, filled⟩, exact⟩

end Exsim.Core.OrderBook
