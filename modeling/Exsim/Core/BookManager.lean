import Exsim.Core.OrderBook

namespace Exsim.Core

/-- All books, indexed by symbol id with slot zero unused, and the global
order-to-symbol index. -/
structure BookManager where
  maxSymbol : SymbolId
  ladder : PriceLadderConfig
  books : Array OrderBook
  orderToSymbol : UnorderedMap OrderId SymbolId := ∅
deriving DecidableEq

namespace BookManager

/-- The ladder of one symbol.  The offset arithmetic is signed and wraps here
where the source would overflow. -/
def symbolLadder (ladder : PriceLadderConfig) (symbol : SymbolId) : PriceLadderConfig :=
  if ladder.symbolPriceStride ≠ 0 && ladder.symbolPriceModulo ≠ 0 then
    let offset := (symbol % ladder.symbolPriceModulo).toUInt64.toInt64 * ladder.symbolPriceStride
    { minPrice := ladder.minPrice + offset, maxPrice := ladder.maxPrice + offset
      symbolPriceStride := 0, symbolPriceModulo := 0 }
  else ladder

/-- The constructor, or `none` where its loop `for (s = 1; s <= max; ++s)` never
ends because the bound is the largest symbol id. -/
def create (maxSymbol : SymbolId) (ladder : PriceLadderConfig) :
    Option (Except Thrown BookManager) :=
  if maxSymbol = 0xFFFFFFFF then none
  else some do
    let books ← (List.range (maxSymbol.toNat + 1)).mapM fun s =>
      OrderBook.create (UInt32.ofNat s) (symbolLadder ladder (UInt32.ofNat s))
    .ok { maxSymbol, ladder, books := books.toArray }

def validSymbol (manager : BookManager) (symbolId : SymbolId) : Bool :=
  !(symbolId = 0 || symbolId > manager.maxSymbol)

def findBook (manager : BookManager) (symbolId : SymbolId) : Option OrderBook :=
  if manager.validSymbol symbolId then manager.books[symbolId.toNat]? else none

def containsOrder (manager : BookManager) (id : OrderId) : Bool :=
  (manager.orderToSymbol.lookup id).isSome

def orderSymbol (manager : BookManager) (id : OrderId) : SymbolId :=
  (manager.orderToSymbol.lookup id).getD 0

def withBook (manager : BookManager) (symbol : SymbolId) (book : OrderBook) : Exec BookManager := do
  let books ← writeAt manager.books symbol.toNat book
  .ok { manager with books }

def refreshIndexAfterAdd (manager : BookManager) (symbol : SymbolId) (maybeAddedId : OrderId) :
    Exec BookManager := do
  let book ← readAt manager.books symbol.toNat
  if book.contains maybeAddedId then
    .ok { manager with orderToSymbol := manager.orderToSymbol.insert maybeAddedId symbol }
  else .ok manager

def removeIndex (manager : BookManager) (id : OrderId) : BookManager :=
  { manager with orderToSymbol := manager.orderToSymbol.erase id }

/-- The loop over the published events that drops executed and cancelled orders
from the index. -/
def dropGone (book : OrderBook) (manager : BookManager) (events : List MdEvent) : BookManager :=
  events.foldl (fun manager ev =>
    if (ev.type = .execute || ev.type = .cancel) && !book.contains ev.orderId then
      manager.removeIndex ev.orderId
    else manager) manager

/-- `book(symbol_id)` throws on a symbol outside `1..max_symbol`. -/
def addOrder (manager : BookManager) (seq : SeqNo) (cmd : ClientCommand) :
    Exec (Except Thrown (BookManager × MatchOutput)) :=
  if !manager.validSymbol cmd.symbolId then .ok (.error (.outOfRange "bad symbol id"))
  else do
    let book ← readAt manager.books cmd.symbolId.toNat
    let (book, out) ←
      book.addOrder seq cmd.orderId cmd.accountId cmd.side cmd.price cmd.qty cmd.tif
    let manager ← manager.withBook cmd.symbolId book
    let manager ← (dropGone book manager out.mdEvents).refreshIndexAfterAdd cmd.symbolId cmd.orderId
    .ok (.ok (manager, out))

def cancelOrder (manager : BookManager) (seq : SeqNo) (orderId : OrderId) :
    Exec (BookManager × Option MdEvent) :=
  let symbol := manager.orderSymbol orderId
  if symbol = 0 then .ok (manager, none)
  else do
    let book ← readAt manager.books symbol.toNat
    let (book, ev) ← book.cancelOrder seq orderId
    let manager ← manager.withBook symbol book
    match ev with
    | some ev => .ok (manager.removeIndex orderId, some ev)
    | none => .ok (manager, none)

def feedAdd (manager : BookManager) (ev : MdEvent) : Exec (BookManager × Bool) :=
  if !manager.validSymbol ev.symbolId then .ok (manager, false)
  else do
    let book ← readAt manager.books ev.symbolId.toNat
    let (book, ok) ← book.feedAdd ev.orderId ev.accountId ev.side ev.price ev.qty
    let manager ← manager.withBook ev.symbolId book
    if ok then
      .ok ({ manager with orderToSymbol := manager.orderToSymbol.insert ev.orderId ev.symbolId },
        true)
    else .ok (manager, false)

def feedExecute (manager : BookManager) (ev : MdEvent) : Exec (BookManager × Bool) :=
  let symbol := manager.orderSymbol ev.orderId
  if symbol = 0 then .ok (manager, false)
  else do
    let book ← readAt manager.books symbol.toNat
    let (book, ok) ← book.feedExecute ev.orderId ev.qty
    let manager ← manager.withBook symbol book
    if ok && !book.contains ev.orderId then .ok (manager.removeIndex ev.orderId, ok)
    else .ok (manager, ok)

def replaceOrder (manager : BookManager) (seq : SeqNo) (cmd : ClientCommand) :
    Exec (BookManager × MatchOutput) :=
  let symbol := manager.orderSymbol cmd.cancelOrderId
  if symbol = 0 then .ok (manager, { reject := .unknownOrder })
  else do
    let book ← readAt manager.books symbol.toNat
    let (book, out) ← book.replaceOrder seq cmd.cancelOrderId cmd.orderId cmd.accountId cmd.side
      cmd.price cmd.qty cmd.tif
    let manager ← manager.withBook symbol book
    let manager := dropGone book (manager.removeIndex cmd.cancelOrderId) out.mdEvents
    let manager ← manager.refreshIndexAfterAdd symbol cmd.orderId
    .ok (manager, out)

/-- The books of symbols `1..max_symbol`, the ones every loop of the manager visits. -/
def activeBooks (manager : BookManager) : List OrderBook :=
  manager.books.toList.drop 1

def checksum (manager : BookManager) : Exec UInt64 :=
  manager.activeBooks.foldlM (fun h book => return hashCombine h (← book.checksum))
    0x424f4f4b4d475231

def liveOrders (manager : BookManager) : Nat :=
  (manager.activeBooks.map fun book => book.stats.liveOrders).sum

end BookManager

end Exsim.Core
