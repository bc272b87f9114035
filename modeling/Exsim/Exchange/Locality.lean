import Exsim.Exchange.Recovery
import Exsim.OrderBook.Numbering
import Exsim.Reference.Lanes

/-! # What of the exchange a command reads and writes

A command reads one book, the index entries of the orders it names or its events
name, and the accounts it or its events name; it writes nothing else.
-/

namespace Exsim.Core

namespace BookManager

/-- The symbol whose book a command goes to. -/
def target (manager : BookManager) (cmd : ClientCommand) : Option SymbolId :=
  if cmd.type = .new then some cmd.symbolId
  else if cmd.type = .cancel || cmd.type = .replace then
    if manager.orderSymbol cmd.cancelOrderId = 0 then none
    else some (manager.orderSymbol cmd.cancelOrderId)
  else none

/-- The output of a command that goes to no book. -/
def unplaced (cmd : ClientCommand) : MatchOutput :=
  if cmd.type = .cancel || cmd.type = .replace then { reject := .unknownOrder } else {}

/-- A replace drops its target from the index before its events are looked at. -/
def cleared (manager : BookManager) (cmd : ClientCommand) : BookManager :=
  if cmd.type = .new then manager else manager.removeIndex cmd.cancelOrderId

/-- The manager once the book of `symbol` is what a command left. -/
def settled (manager : BookManager) (symbol : SymbolId) (cmd : ClientCommand) (after : OrderBook)
    (events : List MdEvent) : BookManager :=
  let manager := { manager with books := manager.books.setIfInBounds symbol.toNat after }
  if cmd.type = .cancel then
    if events.isEmpty then manager else manager.removeIndex cmd.cancelOrderId
  else
    let manager := dropGone after (manager.cleared cmd) events
    if after.contains cmd.orderId then
      { manager with orderToSymbol := manager.orderToSymbol.insert cmd.orderId symbol }
    else manager

section

variable {manager : BookManager} {symbol : SymbolId} {cmd : ClientCommand} {sc : SequencedCommand}
  {book after : OrderBook} {events : List MdEvent}

theorem target_ne_zero (valid : cmd.type = .new → manager.validSymbol cmd.symbolId = true)
    (target : manager.target cmd = some symbol) : symbol ≠ 0 := by
  rw [BookManager.target] at target
  split at target
  · rename_i isNew
    obtain rfl := Option.some.inj target
    intro zero
    have valid := valid isNew
    rw [zero, validSymbol] at valid
    simp at valid
  · split at target
    · split at target
      · cases target
      · rename_i nonzero
        obtain rfl := Option.some.inj target
        exact nonzero
    · cases target

theorem execute_untargeted (target : manager.target sc.cmd = none) :
    manager.execute sc = .ok (.ok (manager, unplaced sc.cmd)) := by
  rw [BookManager.target] at target
  rw [execute, unplaced]
  split at target
  · cases target
  · rename_i notNew
    rw [if_neg notNew]
    split at target
    · rename_i routed
      rw [if_pos routed]
      split at target
      · rename_i zero
        rw [cancelOrder, replaceOrder, zero, if_pos rfl, if_pos rfl]
        rw [Bool.or_eq_true, decide_eq_true_iff, decide_eq_true_iff] at routed
        obtain isCancel | isReplace := routed
        · rw [if_pos isCancel]
          rfl
        · rw [isReplace]
          rfl
      · cases target
    · rename_i unrouted
      rw [Bool.or_eq_true, decide_eq_true_iff, decide_eq_true_iff, not_or] at unrouted
      rw [if_neg unrouted.1, if_neg unrouted.2, decide_eq_false unrouted.1,
        decide_eq_false unrouted.2]
      rfl

/-- The order a command may have added gets the symbol, if it rests. -/
theorem refresh_dropGone {start : BookManager} (stored : start.books[symbol.toNat]? = some after)
    (added : OrderId) :
    (dropGone after start events).refreshIndexAfterAdd symbol added =
      .ok (if after.contains added then
        { dropGone after start events with
          orderToSymbol := (dropGone after start events).orderToSymbol.insert added symbol }
        else dropGone after start events) := by
  rw [← (dropGone_same after start events).1] at stored
  rw [refreshIndexAfterAdd, readAt_of_getElem? stored, exec_ok_bind]
  split <;> rfl

/-- A command that goes to a book does what it does to that book and puts it in place. -/
theorem execute_targeted (known : sc.cmd.type = .new → manager.validSymbol sc.cmd.symbolId = true)
    (target : manager.target sc.cmd = some symbol)
    (stored : manager.books[symbol.toNat]? = some book) :
    manager.execute sc = (fun done : OrderBook × MatchOutput =>
      .ok (manager.settled symbol sc.cmd done.1 done.2.mdEvents, done.2)) <$>
    book.perform sc.seq sc.cmd := by
  have inside := (Array.getElem?_eq_some_iff.mp stored).1
  have placed : ∀ after,
      (manager.books.setIfInBounds symbol.toNat after)[symbol.toNat]? = some after := fun after =>
    Array.getElem?_setIfInBounds_self_of_lt inside
  have nonzero := target_ne_zero known target
  rw [BookManager.target] at target
  rw [execute, OrderBook.perform]
  by_cases isNew : sc.cmd.type = .new
  · have notCancel : sc.cmd.type ≠ .cancel := by
      rw [isNew]
      decide
    rw [if_pos isNew] at target
    obtain rfl := Option.some.inj target
    rw [if_pos isNew, if_pos isNew, addOrder, known isNew, Bool.not_true, if_neg Bool.false_ne_true,
      readAt_of_getElem? stored, exec_ok_bind, map_eq_bind_pure_comp]
    refine bind_congr fun done => ?_
    obtain ⟨after, out⟩ := done
    dsimp only
    rw [withBook_run inside, exec_ok_bind, refresh_dropGone (placed after), exec_ok_bind,
      Function.comp, settled, if_neg notCancel, cleared, if_pos isNew]
    rfl
  · rw [if_neg isNew] at target
    split at target
    · rename_i routed
      rw [Bool.or_eq_true, decide_eq_true_iff, decide_eq_true_iff] at routed
      split at target
      · cases target
      · obtain rfl := Option.some.inj target
        rw [if_neg isNew, if_neg isNew]
        by_cases isCancel : sc.cmd.type = .cancel
        · rw [if_pos isCancel, if_pos isCancel, cancelOrder, if_neg nonzero,
            readAt_of_getElem? stored, exec_ok_bind, map_bind, bind_assoc]
          refine bind_congr fun done => ?_
          obtain ⟨after, ev⟩ := done
          dsimp only
          rw [withBook_run inside, exec_ok_bind]
          cases ev with
          | none =>
              rw [exec_ok_bind]
              change _ = Except.ok (Except.ok (manager.settled _ sc.cmd after [], _))
              rw [settled, if_pos isCancel]
              rfl
          | some ev =>
              rw [exec_ok_bind]
              change _ = Except.ok (Except.ok (manager.settled _ sc.cmd after [ev], _))
              rw [settled, if_pos isCancel]
              rfl
        · have isReplace := routed.resolve_left isCancel
          rw [if_neg isCancel, if_neg isCancel, if_pos isReplace, replaceOrder, if_neg nonzero,
            readAt_of_getElem? stored, exec_ok_bind, map_eq_bind_pure_comp, bind_assoc]
          refine bind_congr fun done => ?_
          obtain ⟨after, out⟩ := done
          dsimp only
          rw [withBook_run inside, exec_ok_bind, refresh_dropGone (placed after), exec_ok_bind,
            exec_ok_bind, Function.comp, settled, if_neg isCancel, cleared, if_neg isNew]
          rfl
    · cases target

theorem cleared_same (manager : BookManager) (cmd : ClientCommand) :
    (manager.cleared cmd).books = manager.books ∧
    (manager.cleared cmd).maxSymbol = manager.maxSymbol := by
  rw [cleared]
  split <;> exact ⟨rfl, rfl⟩

theorem settled_books (stored : manager.books[symbol.toNat]? = some book) (other : SymbolId) :
    (manager.settled symbol cmd after events).books[other.toNat]? =
      if other = symbol then some after else manager.books[other.toNat]? := by
  have same : (manager.settled symbol cmd after events).books =
      manager.books.setIfInBounds symbol.toNat after := by
    rw [settled]
    dsimp only
    split
    · split <;> rfl
    · split <;> exact (dropGone_same ..).1.trans (cleared_same _ cmd).1
  rw [same]
  exact getElem?_withBook (Array.getElem?_eq_some_iff.mp stored).1 other

theorem settled_maxSymbol : (manager.settled symbol cmd after events).maxSymbol =
    manager.maxSymbol := by
  rw [settled]
  dsimp only
  split
  · split <;> rfl
  · split <;> exact (dropGone_same ..).2.trans (cleared_same _ cmd).2

/-- Whether a command drops an order from the index. -/
def drops (cmd : ClientCommand) (after : OrderBook) (events : List MdEvent) (id : OrderId) : Bool :=
  if cmd.type = .cancel then !events.isEmpty && id = cmd.cancelOrderId
  else (events.any fun ev => ev.removes && ev.orderId = id) && !after.contains id ||
    (cmd.type ≠ .new && id = cmd.cancelOrderId)

/-- Whether a command enters an order in the index. -/
def enters (cmd : ClientCommand) (after : OrderBook) (id : OrderId) : Bool :=
  cmd.type ≠ .cancel && id = cmd.orderId && after.contains cmd.orderId

theorem removeIndex_lookup (manager : BookManager) (id other : OrderId) :
    (manager.removeIndex id).orderToSymbol.lookup other =
      if other = id then none else manager.orderToSymbol.lookup other := by
  rw [removeIndex]
  split
  · rename_i same
    rw [same]
    exact Finmap.lookup_erase _ _
  · rename_i different
    exact Finmap.lookup_erase_ne different

/-- Where a command leaves the index does not depend on the number of its events. -/
theorem settled_renumber (seq : SeqNo) (out : MatchOutput) :
    manager.settled symbol cmd after (out.renumber seq).mdEvents =
      manager.settled symbol cmd after out.mdEvents := by
  have dropped (start : BookManager) :
      dropGone after start (out.mdEvents.map fun ev => { ev with seq }) =
        dropGone after start out.mdEvents := List.foldl_map
  simp only [settled, MatchOutput.renumber, List.isEmpty_map, dropped]

theorem cleared_lookup (manager : BookManager) (cmd : ClientCommand) (id : OrderId) :
    (manager.cleared cmd).orderToSymbol.lookup id =
      if cmd.type ≠ .new && id = cmd.cancelOrderId then none
      else manager.orderToSymbol.lookup id := by
  rw [cleared]
  by_cases isNew : cmd.type = .new
  · simp [isNew]
  · simp [isNew, removeIndex_lookup]

theorem settled_lookup (id : OrderId) :
    (manager.settled symbol cmd after events).orderToSymbol.lookup id =
    if enters cmd after id then some symbol else if drops cmd after events id then none
    else manager.orderToSymbol.lookup id := by
  rw [settled, drops, enters]
  dsimp only
  by_cases isCancel : cmd.type = .cancel
  · cases events with
    | nil => simp [isCancel]
    | cons ev events => simp [isCancel, removeIndex_lookup]
  · rw [if_neg isCancel, if_neg isCancel, decide_eq_true isCancel, Bool.true_and]
    have missed : (dropGone after
          ({ manager with books := manager.books.setIfInBounds symbol.toNat after }.cleared cmd)
          events).orderToSymbol.lookup id =
        if (events.any fun ev => ev.removes && ev.orderId = id) && !after.contains id ||
          (cmd.type ≠ .new && id = cmd.cancelOrderId) then none
            else manager.orderToSymbol.lookup id := by
      rw [dropGone_lookup, cleared_lookup]
      simp only [List.any_eq_true, Bool.and_eq_true, Bool.or_eq_true, decide_eq_true_iff,
        Bool.not_eq_true']
      split
      · rename_i gone
        rw [if_pos (.inl gone)]
      · rename_i stays
        simp only [or_iff_right stays]
    by_cases held : after.contains cmd.orderId = true
    · rw [if_pos held, held, Bool.and_true]
      by_cases own : id = cmd.orderId
      · rw [decide_eq_true own, if_pos rfl, own]
        exact Finmap.lookup_insert _
      · rw [decide_eq_false own, if_neg Bool.false_ne_true, ← missed]
        exact Finmap.lookup_insert_of_ne _ own
    · rw [if_neg held, Bool.eq_false_iff.mpr held, Bool.and_false, if_neg Bool.false_ne_true]
      exact missed

end

/-- Two managers that agree on the books and the index entries of a lane. -/
structure SameLane (lane : Lane) (left right : BookManager) : Prop where
  maxSymbol : right.maxSymbol = left.maxSymbol
  books : ∀ symbol, lane.symbols symbol = true →
      right.books[symbol.toNat]? = left.books[symbol.toNat]?
  index : ∀ id, lane.ids id = true → right.orderToSymbol.lookup id = left.orderToSymbol.lookup id

section

variable {lane : Lane} {left right : BookManager} {symbol : SymbolId} {cmd : ClientCommand}
  {book after : OrderBook} {events : List MdEvent}

theorem SameLane.refl (lane : Lane) (manager : BookManager) : SameLane lane manager manager :=
  ⟨rfl, fun _ _ => rfl, fun _ _ => rfl⟩

theorem SameLane.containsOrder (same : SameLane lane left right) {id : OrderId}
    (mine : lane.ids id = true) :
    right.containsOrder id = left.containsOrder id := by
  rw [BookManager.containsOrder, BookManager.containsOrder, same.index id mine]

theorem SameLane.target (same : SameLane lane left right) (carries : lane.Carries true cmd) :
    right.target cmd = left.target cmd := by
  rw [BookManager.target, BookManager.target]
  split
  · rfl
  · split
    · rename_i routed
      rw [Bool.or_eq_true, decide_eq_true_iff, decide_eq_true_iff] at routed
      rw [orderSymbol, orderSymbol,
        same.index _ (carries.ids _ (ClientCommand.cancelOrderId_mem routed))]
    · rfl

/-- The same change to a book of the lane. -/
theorem SameLane.settled (same : SameLane lane left right)
    (stored : left.books[symbol.toNat]? = some book) (onLane : lane.symbols symbol = true) :
    SameLane lane (left.settled symbol cmd after events)
      (right.settled symbol cmd after events) := by
  have storedRight := (same.books symbol onLane).trans stored
  refine ⟨?_, fun other on => ?_, fun id mine => ?_⟩
  · rw [settled_maxSymbol, settled_maxSymbol, same.maxSymbol]
  · rw [settled_books storedRight, settled_books stored, same.books other on]
  · rw [settled_lookup, settled_lookup, same.index id mine]

theorem target_type (targeted : left.target cmd = some symbol) :
    cmd.type = .new ∨ cmd.type = .cancel ∨ cmd.type = .replace := by
  rw [BookManager.target] at targeted
  split at targeted
  · rename_i isNew
    exact .inl isNew
  · split at targeted
    · rename_i routed
      rw [Bool.or_eq_true, decide_eq_true_iff, decide_eq_true_iff] at routed
      exact .inr routed
    · cases targeted

/-- A change to a book off the lane, by orders off the lane. -/
theorem SameLane.aside (same : SameLane lane left right)
    (stored : left.books[symbol.toNat]? = some book)
    (offLane : lane.symbols symbol = false) (carries : lane.Carries false cmd)
    (targeted : left.target cmd = some symbol) (told : ∀ ev ∈ events, lane.ids ev.orderId = false) :
    SameLane lane (left.settled symbol cmd after events) right := by
  refine ⟨?_, fun other on => ?_, fun id mine => ?_⟩
  · rw [settled_maxSymbol, same.maxSymbol]
  · rw [settled_books stored, if_neg, same.books other on]
    rintro rfl
    rw [on] at offLane
    cases offLane
  · have apart : ∀ other, lane.ids other = false → id ≠ other := by
      rintro other theirs rfl
      rw [mine] at theirs
      cases theirs
    have routes := target_type targeted
    have noEntry : enters cmd after id = false := by
      rw [enters]
      by_cases isCancel : cmd.type = .cancel
      · simp [isCancel]
      · have adds : cmd.type = .new ∨ cmd.type = .replace :=
          routes.imp_right fun routed => routed.resolve_left isCancel
        simp [apart _ (carries.ids _ (ClientCommand.orderId_mem adds))]
    have noDrop : drops cmd after events id = false := by
      have untold : (events.any fun ev => ev.removes && ev.orderId = id) = false := by
        rw [List.any_eq_false]
        intro ev among both
        rw [Bool.and_eq_true, decide_eq_true_iff] at both
        exact apart _ (told ev among) both.2.symm
      rw [drops, untold]
      by_cases isNew : cmd.type = .new
      · simp [isNew, show ¬CommandType.new = .cancel by decide]
      · simp [apart _ (carries.ids _ (ClientCommand.cancelOrderId_mem (routes.resolve_left isNew)))]
    rw [settled_lookup, noEntry, noDrop, if_neg Bool.false_ne_true, if_neg Bool.false_ne_true,
      same.index id mine]

section Execute

variable {market : ArrivalMarket} {sc : SequencedCommand}

theorem Models.target (models : left.Models market) (cmd : ClientCommand) :
    left.target cmd = market.target cmd := by
  rw [BookManager.target, ArrivalMarket.target, models.orderSymbol]
  split
  · rfl
  · split
    · cases found : market.symbolOf cmd.cancelOrderId with
      | none => rfl
      | some symbol => exact if_neg (validSymbol_ne_zero (models.listed _ _ found).1)
    · rfl

/-- What a command does where the market has it: nothing to any book, or one
call of one book. -/
theorem Models.execute (models : left.Models market) (room : market.HasRoom)
    (known : sc.cmd.type = .new → market.validSymbol sc.cmd.symbolId = true) :
    (left.target sc.cmd = none ∧ (market.apply sc.seq sc.cmd).2 = unplaced sc.cmd ∧
        left.execute sc = .ok (.ok (left, unplaced sc.cmd))) ∨
      ∃ symbol book after, left.target sc.cmd = some symbol ∧
      left.books[symbol.toNat]? = some book ∧
      book.perform sc.seq sc.cmd = .ok (after, (market.apply sc.seq sc.cmd).2) ∧
        left.execute sc =
          .ok (.ok (left.settled symbol sc.cmd after (market.apply sc.seq sc.cmd).2.mdEvents,
          (market.apply sc.seq sc.cmd).2)) := by
  obtain ⟨later, ran, -⟩ := execute_spec models room known
  cases targeted : left.target sc.cmd with
  | none =>
      have idle := execute_untargeted targeted
      rw [ran] at idle
      obtain ⟨rfl, out⟩ := Prod.mk.inj (Except.ok.inj (Except.ok.inj idle))
      rw [out] at ran
      exact .inl ⟨rfl, out, ran⟩
  | some symbol =>
      have valid : market.validSymbol symbol = true :=
        (ArrivalMarket.apply_targeted sc.seq models.sound models.listed known
          (by rw [← models.target, targeted])).1
      obtain ⟨book, stored, -⟩ := models.books symbol valid
      have run := execute_targeted (fun isNew => by rw [models.validSymbol]; exact known isNew)
        targeted stored
      cases performed : book.perform sc.seq sc.cmd with
      | error fault =>
          rw [ran, performed] at run
          cases run
      | ok done =>
          obtain ⟨after, out⟩ := done
          rw [performed] at run
          obtain ⟨-, sameOut⟩ := Prod.mk.inj (Except.ok.inj (Except.ok.inj (ran.symm.trans run)))
          rw [sameOut]
          exact .inr ⟨symbol, book, after, rfl, stored, performed, run⟩

/-- A command of the lane does the same to both managers. -/
theorem SameLane.execute (same : SameLane lane left right) (models : left.Models market)
    (room : market.HasRoom) (known : sc.cmd.type = .new → market.validSymbol sc.cmd.symbolId = true)
    (keeps : lane.Keeps market) (carries : lane.Carries true sc.cmd) {again : SequencedCommand}
    (sameCmd : again.cmd = sc.cmd) :
    ∃ later rightLater, left.execute sc = .ok (.ok (later, (market.apply sc.seq sc.cmd).2)) ∧
      right.execute again =
        .ok (.ok (rightLater, (market.apply sc.seq sc.cmd).2.renumber again.seq)) ∧
      SameLane lane later rightLater := by
  have rightTarget := same.target carries
  obtain ⟨untargeted, out, ran⟩ | ⟨symbol, book, after, targeted, stored, performed, ran⟩ :=
    models.execute room known
  · refine ⟨left, right, by rw [out]; exact ran, ?_, same⟩
    rw [untargeted, ← sameCmd] at rightTarget
    rw [execute_untargeted rightTarget, out, sameCmd, unplaced]
    split <;> rfl
  · have onLane :=
      ArrivalMarket.target_side models.listed keeps carries ((models.target _).symm.trans targeted)
    have rightKnown : again.cmd.type = .new → right.validSymbol again.cmd.symbolId = true := by
      rw [sameCmd, BookManager.validSymbol, same.maxSymbol]
      intro isNew
      exact (models.validSymbol _).trans (known isNew)
    rw [targeted, ← sameCmd] at rightTarget
    have rightRun :=
      execute_targeted rightKnown rightTarget ((same.books symbol onLane).trans stored)
    have performedAgain := OrderBook.perform_again performed again.seq
    rw [sameCmd, performedAgain] at rightRun
    refine ⟨_, _, ran, rightRun, ?_⟩
    rw [settled_renumber]
    exact same.settled stored onLane

/-- A command off the lane does nothing the other manager can tell. -/
theorem SameLane.execute_aside (same : SameLane lane left right) (sc : SequencedCommand)
    (models : left.Models market) (room : market.HasRoom)
    (known : sc.cmd.type = .new → market.validSymbol sc.cmd.symbolId = true)
    (keeps : lane.Keeps market)
    (carries : lane.Carries false sc.cmd) :
    ∃ later, left.execute sc = .ok (.ok (later, (market.apply sc.seq sc.cmd).2)) ∧
    SameLane lane later right := by
  obtain ⟨-, out, ran⟩ | ⟨symbol, book, after, targeted, stored, -, ran⟩ :=
    models.execute room known
  · exact ⟨left, by rw [out]; exact ran, same⟩
  · have offLane :=
      ArrivalMarket.target_side models.listed keeps carries ((models.target _).symm.trans targeted)
    obtain ⟨-, told⟩ :=
      ArrivalMarket.apply_keeps sc.seq models.sound models.listed known keeps carries
    exact ⟨_, ran, same.aside stored offLane carries targeted fun ev among => (told ev among).id⟩

end Execute

end

end BookManager

namespace RiskEngine

/-- Two engines that agree on their limits and on the accounts of a lane. -/
structure SameLane (lane : Lane) (left right : RiskEngine) : Prop where
  limits : right.limits = left.limits
  accounts : ∀ account, lane.accounts account = true →
      right.accounts.lookup account = left.accounts.lookup account

section

variable {lane : Lane} {left right : RiskEngine} {id : AccountId} {cmd : ClientCommand}
  {ev : MdEvent} {events : List MdEvent} {books others : BookManager}

theorem SameLane.refl (lane : Lane) (risk : RiskEngine) : SameLane lane risk risk :=
  ⟨rfl, fun _ _ => rfl⟩

theorem SameLane.account (same : SameLane lane left right) (onLane : lane.accounts id = true) :
    right.account id = left.account id := by
  rw [RiskEngine.account, RiskEngine.account, same.accounts id onLane]

theorem SameLane.withAccount (same : SameLane lane left right) (state : AccountState) :
    SameLane lane (left.withAccount id state) (right.withAccount id state) := by
  refine ⟨same.limits, fun other onLane => ?_⟩
  rw [lookup_withAccount, lookup_withAccount, same.accounts other onLane]

/-- An account off the lane. -/
theorem SameLane.aside (same : SameLane lane left right) (offLane : lane.accounts id = false)
    (state : AccountState) :
    SameLane lane (left.withAccount id state) right := by
  refine ⟨same.limits, fun other onLane => ?_⟩
  have apart : other ≠ id := by
    rintro rfl
    rw [onLane] at offLane
    cases offLane
  rw [lookup_withAccount, if_neg apart, same.accounts other onLane]

/-- The check of a command of the lane. -/
theorem SameLane.check (same : SameLane lane left right) (nowNs : TimestampNs)
    (onLane : lane.accounts cmd.accountId = true)
    (known : cmd.type = .cancel ∨ cmd.type = .replace →
      others.containsOrder cmd.cancelOrderId = books.containsOrder cmd.cancelOrderId) :
    (right.check cmd others nowNs).2 = (left.check cmd books nowNs).2 ∧
      SameLane lane (left.check cmd books nowNs).1 (right.check cmd others nowNs).1 := by
  have verdict : ∀ state, checkCommand left.limits state cmd others =
      checkCommand left.limits state cmd books := by
    intro state
    rw [checkCommand, checkCommand]
    by_cases isCancel : cmd.type = .cancel
    · rw [known (.inl isCancel)]
    · by_cases isReplace : cmd.type = .replace
      · rw [known (.inr isReplace)]
      · simp only [if_neg isCancel, isReplace, decide_false, Bool.false_and]
  rw [RiskEngine.check, RiskEngine.check, same.account onLane, same.limits]
  dsimp only
  split
  · exact ⟨rfl, same.withAccount _⟩
  · exact ⟨verdict _, same.withAccount _⟩

/-- The check of a command off the lane. -/
theorem SameLane.check_aside (same : SameLane lane left right) (nowNs : TimestampNs)
    (offLane : lane.accounts cmd.accountId = false) :
    SameLane lane (left.check cmd books nowNs).1 right := by
  rw [RiskEngine.check]
  dsimp only
  split <;> exact same.aside offLane _

theorem SameLane.onMarketData (same : SameLane lane left right)
    (onLane : lane.accounts ev.accountId = true) (live : Bool) :
    SameLane lane (left.onMarketData ev live) (right.onMarketData ev live) := by
  rw [RiskEngine.onMarketData, RiskEngine.onMarketData, same.account onLane]
  split
  · exact same.withAccount _
  · split
    · exact same.withAccount _
    · split <;> exact same.withAccount _

theorem SameLane.onMarketData_aside (same : SameLane lane left right)
    (offLane : lane.accounts ev.accountId = false)
    (live : Bool) : SameLane lane (left.onMarketData ev live) right := by
  rw [RiskEngine.onMarketData]
  split
  · exact same.aside offLane _
  · split
    · exact same.aside offLane _
    · split <;> exact same.aside offLane _

theorem SameLane.tally {live others : OrderId → Bool} (same : SameLane lane left right)
    (onLane : ∀ ev ∈ events, lane.accounts ev.accountId = true)
    (alike : ∀ ev ∈ events, others ev.orderId = live ev.orderId) :
    SameLane lane (left.tally live events) (right.tally others events) := by
  induction events generalizing left right with
  | nil => exact same
  | cons ev events ih =>
      have stepped := same.onMarketData (onLane ev List.mem_cons_self) (live ev.orderId)
      rw [RiskEngine.tally, RiskEngine.tally, List.foldl_cons, List.foldl_cons,
        alike ev List.mem_cons_self]
      exact ih stepped
        (fun other member => onLane other (List.mem_cons_of_mem _ member)) fun other member =>
          alike other (List.mem_cons_of_mem _ member)

theorem SameLane.tally_aside (same : SameLane lane left right)
    (offLane : ∀ ev ∈ events, lane.accounts ev.accountId = false)
    (live : OrderId → Bool) : SameLane lane (left.tally live events) right := by
  induction events generalizing left with
  | nil => exact same
  | cons ev events ih =>
      have stepped := same.onMarketData_aside (offLane ev List.mem_cons_self) (live ev.orderId)
      rw [RiskEngine.tally, List.foldl_cons]
      exact ih stepped fun other member => offLane other (List.mem_cons_of_mem _ member)

end

end RiskEngine

end Exsim.Core
