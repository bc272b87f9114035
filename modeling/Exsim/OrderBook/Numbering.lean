import Exsim.Core.OrderBook

/-! # Sequence numbers do not matter to a book

A book stores no sequence number, so a call under another number leaves the same
book and the same output but for the number in its trades and events.
-/

namespace Exsim.Core

/-- The same output under another sequence number. -/
def MatchOutput.renumber (seq : SeqNo) (out : MatchOutput) : MatchOutput :=
  { out with
    mdEvents := out.mdEvents.map fun ev => { ev with seq }
    trades := out.trades.map fun trade => { trade with seq } }

theorem MatchOutput.renumber_renumber (first second : SeqNo) (out : MatchOutput) :
    (out.renumber first).renumber second = out.renumber second := by
  simp [renumber]

namespace OrderBook

/-- What a command does to the book it goes to. -/
def perform (book : OrderBook) (seq : SeqNo) (cmd : ClientCommand) :
    Exec (OrderBook × MatchOutput) :=
  if cmd.type = .new then
    book.addOrder seq cmd.orderId cmd.accountId cmd.side cmd.price cmd.qty cmd.tif
  else if cmd.type = .cancel then do
    let (book, ev) ← book.cancelOrder seq cmd.cancelOrderId
    match ev with
    | none => .ok (book, { reject := .unknownOrder })
    | some ev => .ok (book, { mdEvents := [ev] })
  else book.replaceOrder seq cmd.cancelOrderId cmd.orderId cmd.accountId cmd.side cmd.price
    cmd.qty cmd.tif

section

variable (book : OrderBook) (seq : SeqNo)

theorem removeNode_renumber (slot : UInt32) (removedQty : Qty) (type : MdType) :
    book.removeNode seq slot removedQty type =
      (fun removed : OrderBook × MdEvent => (removed.1, { removed.2 with seq })) <$>
        book.removeNode 0 slot removedQty type := by
  simp only [removeNode, map_bind]
  rfl

theorem executeHead_renumber (isBuy : Bool) (idx slot : UInt32) (qty : Qty) (out : MatchOutput)
    (aggressor : OrderId) :
    book.executeHead seq isBuy idx slot qty (out.renumber seq) aggressor =
      (fun done : OrderBook × MatchOutput × Qty => (done.1, done.2.1.renumber seq, done.2.2)) <$>
        book.executeHead 0 isBuy idx slot qty out aggressor := by
  simp only [executeHead, map_bind]
  refine bind_congr fun resting => bind_congr fun written => bind_congr fun level =>
    bind_congr fun settled => ?_
  rw [apply_ite (Functor.map _)]
  congr 1
  · rw [removeNode_renumber, map_bind, bind_map_left]
    refine bind_congr fun removed => ?_
    simp [MatchOutput.renumber]
  · simp [MatchOutput.renumber]

theorem matchLoop_renumber (aggressor : OrderId) (side : Side) (price : Price) (fuel : Nat)
    (out : MatchOutput) :
    matchLoop seq aggressor side price fuel book (out.renumber seq) =
      (fun done : OrderBook × MatchOutput => (done.1, done.2.renumber seq)) <$>
        matchLoop 0 aggressor side price fuel book out := by
  induction fuel generalizing book out with
  | zero =>
      rw [matchLoop, matchLoop, apply_ite (Functor.map _)]
      rfl
  | succ fuel ih =>
      rw [matchLoop, matchLoop, apply_ite (Functor.map _)]
      congr 1
      cases (book.half !side.isBuy).bestIdx with
      | none => rfl
      | some idxLevel =>
          dsimp only
          rw [map_bind]
          refine bind_congr fun level => ?_
          rw [map_bind]
          change (book.executeHead seq (!side.isBuy) idxLevel level.head out.remainingQty
            (out.renumber seq) aggressor >>= _) = _
          rw [executeHead_renumber, bind_map_left]
          exact bind_congr fun done =>
            ih done.1 { done.2.1 with remainingQty := done.2.1.remainingQty - done.2.2 }

theorem addOrder_renumber (orderId : OrderId) (accountId : AccountId) (side : Side)
    (price : Price) (qty : Qty) (tif : TimeInForce) :
    book.addOrder seq orderId accountId side price qty tif =
      (fun done : OrderBook × MatchOutput => (done.1, done.2.renumber seq)) <$>
        book.addOrder 0 orderId accountId side price qty tif := by
  have start : ({ remainingQty := qty } : MatchOutput) =
      ({ remainingQty := qty } : MatchOutput).renumber seq := rfl
  simp only [addOrder, apply_ite (Functor.map _), map_bind]
  refine congrArg _ (congrArg _ (congrArg _ ?_))
  rw [start, matchLoop_renumber, bind_map_left]
  refine bind_congr fun done => ?_
  simp [MatchOutput.renumber]

theorem cancelOrder_renumber (orderId : OrderId) :
    book.cancelOrder seq orderId =
      (fun done : OrderBook × Option MdEvent => (done.1, done.2.map fun ev => { ev with seq })) <$>
        book.cancelOrder 0 orderId := by
  rw [cancelOrder, cancelOrder]
  cases book.index.lookup orderId with
  | none => rfl
  | some slot =>
      simp only [map_bind]
      refine bind_congr fun n => ?_
      rw [removeNode_renumber, bind_map_left]
      rfl

theorem replaceOrder_renumber (oldId newId : OrderId) (accountId : AccountId) (side : Side)
    (price : Price) (qty : Qty) (tif : TimeInForce) :
    book.replaceOrder seq oldId newId accountId side price qty tif =
      (fun done : OrderBook × MatchOutput => (done.1, done.2.renumber seq)) <$>
        book.replaceOrder 0 oldId newId accountId side price qty tif := by
  simp only [replaceOrder, apply_ite (Functor.map _), map_bind]
  congr 1
  rw [cancelOrder_renumber, bind_map_left]
  refine bind_congr fun cancelled => ?_
  cases cancelled.2 with
  | none => rfl
  | some old =>
      dsimp only [Option.map]
      rw [addOrder_renumber, bind_map_left, map_bind]
      rfl

theorem perform_renumber (cmd : ClientCommand) :
    book.perform seq cmd =
      (fun done : OrderBook × MatchOutput => (done.1, done.2.renumber seq)) <$>
        book.perform 0 cmd := by
  rw [perform, perform]
  split
  · exact addOrder_renumber ..
  · split
    · rw [cancelOrder_renumber, bind_map_left, map_bind]
      refine bind_congr fun cancelled => ?_
      obtain ⟨after, ev⟩ := cancelled
      cases ev <;> rfl
    · exact replaceOrder_renumber ..

end

/-- The same command under another number. -/
theorem perform_again {book after : OrderBook} {seq : SeqNo} {cmd : ClientCommand}
    {out : MatchOutput} (ran : book.perform seq cmd = .ok (after, out)) (again : SeqNo) :
    book.perform again cmd = .ok (after, out.renumber again) := by
  rw [perform_renumber] at ran ⊢
  cases performed : book.perform 0 cmd with
  | error fault =>
      rw [performed] at ran
      cases ran
  | ok done =>
      rw [performed] at ran
      obtain ⟨rfl, rfl⟩ := Prod.mk.inj (Except.ok.inj ran)
      rw [MatchOutput.renumber_renumber]
      rfl

end OrderBook

end Exsim.Core
