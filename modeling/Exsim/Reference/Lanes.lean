import Exsim.Reference.Weights

/-! # Orders that keep to their lane

A lane is a set of symbols, order ids and accounts.  Commands that keep to a lane
or out of it leave every order in its lane or out of it with its symbol.
-/

namespace Exsim

namespace ClientCommand

/-- The symbol a new order goes to. -/
def newSymbols (cmd : ClientCommand) : List SymbolId :=
  if cmd.type = .new then [cmd.symbolId] else []

/-- The orders a command names. -/
def orderIds (cmd : ClientCommand) : List OrderId :=
  if cmd.type = .new then [cmd.orderId]
  else if cmd.type = .cancel then [cmd.cancelOrderId]
  else if cmd.type = .replace then [cmd.orderId, cmd.cancelOrderId]
  else []

variable {cmd : ClientCommand}

theorem symbolId_mem (isNew : cmd.type = .new) : cmd.symbolId ∈ cmd.newSymbols := by
  rw [newSymbols, if_pos isNew]
  exact List.mem_singleton_self _

theorem orderId_mem (adds : cmd.type = .new ∨ cmd.type = .replace) :
    cmd.orderId ∈ cmd.orderIds := by
  obtain isNew | isReplace := adds
  · simp [orderIds, isNew]
  · simp [orderIds, isReplace,
      show ¬CommandType.replace = .new by decide, show ¬CommandType.replace = .cancel by decide]

theorem cancelOrderId_mem (routed : cmd.type = .cancel ∨ cmd.type = .replace) :
    cmd.cancelOrderId ∈ cmd.orderIds := by
  obtain isCancel | isReplace := routed
  · simp [orderIds, isCancel, show ¬CommandType.cancel = .new by decide]
  · simp [orderIds, isReplace,
      show ¬CommandType.replace = .new by decide, show ¬CommandType.replace = .cancel by decide]

end ClientCommand

namespace Core

open Data.Keyed

structure Lane where
  symbols : SymbolId → Bool
  ids : OrderId → Bool
  accounts : AccountId → Bool

namespace Lane

/-- All that a command names is on one side of the lane. -/
structure Carries (lane : Lane) (side : Bool) (cmd : ClientCommand) : Prop where
  symbols : ∀ symbol ∈ cmd.newSymbols, lane.symbols symbol = side
  ids : ∀ id ∈ cmd.orderIds, lane.ids id = side
  account : lane.accounts cmd.accountId = side

/-- An order on one side of the lane. -/
structure Owns (lane : Lane) (side : Bool) (order : RestingOrderView) : Prop where
  id : lane.ids order.orderId = side
  account : lane.accounts order.accountId = side

/-- Every order is on the side of its symbol. -/
def Keeps (lane : Lane) (market : ArrivalMarket) : Prop :=
  ∀ symbol, market.validSymbol symbol = true →
    ∀ order ∈ (market.books symbol).orders, lane.Owns (lane.symbols symbol) order

end Lane

namespace ArrivalBook

variable {book after : ArrivalBook} {live : OrderId → Bool} {ev : MdEvent} {events : List MdEvent}
  {seq : SeqNo} {id oldId : OrderId} {accountId : AccountId} {side : Side} {price : Price}
  {qty : Qty} {tif : TimeInForce} {lane : Lane} {within : Bool}

theorem Told.owned (told : Told live book ev after)
    (owned : ∀ order ∈ book.orders, lane.Owns within order)
    (added : ev.type = .add → lane.Owns within (eventOrder ev)) :
    lane.Owns within (eventOrder ev) ∧ ∀ order ∈ after.orders, lane.Owns within order := by
  cases told with
  | add type =>
      refine ⟨added type, fun order member => ?_⟩
      obtain member | isNew := List.mem_append.mp member
      · exact owned order member
      · rw [List.mem_singleton.mp isNew]
        exact added type
  | cancel type symbol member =>
      exact ⟨owned _ member, fun order still => owned order (mem_erase.mp still).1⟩
  | @execute resting type symbol member named =>
      refine ⟨named ▸ ⟨(owned resting member).id, (owned resting member).account⟩,
        fun order still => ?_⟩
      obtain ⟨before, there, sameId, sameAccount, -⟩ := Arrivals.mem_fill still
      exact ⟨sameId ▸ (owned before there).id, sameAccount ▸ (owned before there).account⟩

/-- Where the orders of a book and those added to it are on one side, its events are too. -/
theorem Tells.owned (tells : Tells live book events after)
    (owned : ∀ order ∈ book.orders, lane.Owns within order)
    (added : ∀ ev ∈ events, ev.type = .add → lane.Owns within (eventOrder ev)) :
    (∀ ev ∈ events, lane.Owns within (eventOrder ev)) ∧
    ∀ order ∈ after.orders, lane.Owns within order := by
  induction tells with
  | nil => exact ⟨fun ev member => (nomatch member), owned⟩
  | cons head tail ih =>
      obtain ⟨first, middle⟩ := head.owned owned (added _ List.mem_cons_self)
      obtain ⟨rest, final⟩ := ih middle fun ev member => added ev (List.mem_cons_of_mem _ member)
      exact ⟨List.forall_mem_cons.mpr ⟨first, rest⟩, final⟩

/-- An add event is of the order the call brought. -/
theorem Sound.addOrder_adds (sound : book.Sound)
    (listed : ev ∈ (book.addOrder seq id accountId side price qty tif).2.mdEvents)
    (added : ev.type = .add) : ev.orderId = id ∧ ev.accountId = accountId := by
  have executes := (sound.sweptSo seq id side price qty).executes
  by_cases accepted : book.addReject id price qty = .none
  · rw [addOrder_accepted accepted] at listed
    split at listed
    · obtain listed | listed := List.mem_append.mp listed
      · exact absurd ((executes ev listed).symm.trans added) (by decide)
      · rw [List.mem_singleton.mp listed]
        exact ⟨rfl, rfl⟩
    · exact absurd ((executes ev listed).symm.trans added) (by decide)
  · rw [addOrder_rejected accepted] at listed
    exact absurd listed List.not_mem_nil

theorem Sound.replaceOrder_adds (sound : book.Sound)
    (listed : ev ∈ (book.replaceOrder seq oldId id accountId side price qty tif).2.mdEvents)
    (added : ev.type = .add) :
    ev.orderId = id ∧ ev.accountId = accountId := by
  rw [ArrivalBook.replaceOrder] at listed
  split at listed
  · exact absurd listed List.not_mem_nil
  · have kept := sound.cancelOrder seq oldId
    rw [ArrivalBook.cancelOrder] at listed kept
    cases found : book.find oldId with
    | none =>
        rw [found] at listed
        exact absurd listed List.not_mem_nil
    | some old =>
        rw [found] at listed kept
        obtain rfl | listed := List.mem_cons.mp listed
        · exact absurd added (show MdType.cancel ≠ .add by decide)
        · exact kept.addOrder_adds listed added

end ArrivalBook

namespace ArrivalMarket

variable {market : ArrivalMarket} {symbol : SymbolId} {cmd : ClientCommand} {seq : SeqNo}
  {ev : MdEvent} {lane : Lane} {within : Bool}

theorem apply_adds (sound : market.Sound) (listed : market.Listed)
    (known : cmd.type = .new → market.validSymbol cmd.symbolId = true)
    (among : ev ∈ (market.apply seq cmd).2.mdEvents) (added : ev.type = .add) :
    (ev.orderId = cmd.orderId ∧ ev.accountId = cmd.accountId) ∧ cmd.orderId ∈ cmd.orderIds := by
  by_cases isNew : cmd.type = .new
  · rw [apply_new isNew] at among
    exact ⟨(sound.books _ (known isNew)).addOrder_adds among added,
      ClientCommand.orderId_mem (.inl isNew)⟩
  by_cases isCancel : cmd.type = .cancel
  · exact absurd ((apply_cancels isCancel ev among).symm.trans added) (by decide)
  by_cases isReplace : cmd.type = .replace
  · rw [apply_replace isReplace, replaceOrder] at among
    cases target : market.symbolOf cmd.cancelOrderId with
    | none =>
        rw [target] at among
        exact absurd among List.not_mem_nil
    | some symbol =>
        rw [target] at among
        exact ⟨(sound.books _ (listed _ _ target).1).replaceOrder_adds among added,
          ClientCommand.orderId_mem (.inr isReplace)⟩
  · rw [apply_other isNew isCancel isReplace] at among
    exact absurd among List.not_mem_nil

/-- The target of a command that keeps to one side. -/
theorem target_side (listed : market.Listed) (keeps : lane.Keeps market)
    (carries : lane.Carries within cmd) (targeted : market.target cmd = some symbol) :
    lane.symbols symbol = within := by
  rw [target] at targeted
  split at targeted
  · rename_i isNew
    obtain rfl := Option.some.inj targeted
    exact carries.symbols _ (ClientCommand.symbolId_mem isNew)
  · split at targeted
    · rename_i routed
      rw [Bool.or_eq_true, decide_eq_true_iff, decide_eq_true_iff] at routed
      obtain ⟨valid, held⟩ := listed _ _ targeted
      obtain ⟨order, member, sameId⟩ := holds_iff.mp held
      rw [← (keeps symbol valid order member).id, sameId]
      exact carries.ids _ (ClientCommand.cancelOrderId_mem routed)
    · cases targeted

/-- A command that keeps to one side leaves every order on the side of its
symbol, and its events are on the command's side. -/
theorem apply_keeps (seq : SeqNo) (sound : market.Sound) (listed : market.Listed)
    (known : cmd.type = .new → market.validSymbol cmd.symbolId = true) (keeps : lane.Keeps market)
    (carries : lane.Carries within cmd) : lane.Keeps (market.apply seq cmd).1 ∧
      ∀ ev ∈ (market.apply seq cmd).2.mdEvents, lane.Owns within (eventOrder ev) := by
  cases targeted : market.target cmd with
  | none =>
      obtain ⟨same, silent⟩ := apply_untargeted seq targeted
      rw [same, silent]
      exact ⟨keeps, fun ev among => (nomatch among)⟩
  | some symbol =>
      obtain ⟨valid, after, books, reported⟩ := apply_targeted seq sound listed known targeted
      have side := target_side listed keeps carries targeted
      have owned := keeps symbol valid
      rw [side] at owned
      have tells := reported.tells after.holds fun _ _ _ => rfl
      obtain ⟨told, left⟩ := tells.owned owned fun ev among added => by
        obtain ⟨⟨sameId, sameAccount⟩, named⟩ := apply_adds sound listed known among added
        exact ⟨(congrArg lane.ids sameId).trans (carries.ids _ named),
          (congrArg lane.accounts sameAccount).trans carries.account⟩
      refine ⟨fun other validOther order member => ?_, told⟩
      rw [validSymbol, apply_maxSymbol] at validOther
      rw [books] at member
      by_cases isTarget : other = symbol
      · rw [isTarget, Function.update_self] at member
        rw [isTarget, side]
        exact left order member
      · rw [Function.update_of_ne isTarget] at member
        exact keeps other validOther order member

end ArrivalMarket

end Core

end Exsim
