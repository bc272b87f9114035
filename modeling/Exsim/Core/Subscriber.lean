import Exsim.Core.BookManager
import Exsim.Md.MarketData

namespace Exsim.Core

open Md

structure SubscriberBook where
  books : BookManager
  decoder : FeedDecoder := { expected := 1 }
deriving DecidableEq

namespace SubscriberBook

def create (maxSymbol : SymbolId) (ladder : PriceLadderConfig) :
    Option (Except Thrown SubscriberBook) :=
  (BookManager.create maxSymbol ladder).map fun created => do
    let books ← created
    .ok { books }

/-- `apply_event`, with its error text if it fails. -/
def applyEvent (subscriber : SubscriberBook) (ev : MdEvent) :
    Exec (SubscriberBook × Option String) :=
  if ev.type = .add then do
    let (books, ok) ← subscriber.books.feedAdd ev
    .ok ({ subscriber with books }, if ok then none else some "md add failed")
  else if ev.type = .cancel then do
    let (books, cancelled) ← subscriber.books.cancelOrder ev.seq ev.orderId
    .ok ({ subscriber with books }, if cancelled.isSome then none
      else some "md cancel unknown order")
  else if ev.type = .execute then do
    let (books, ok) ← subscriber.books.feedExecute ev
    .ok ({ subscriber with books }, if ok then none else some "md execute failed")
  else if ev.type = .replace then .ok (subscriber, none)
  else if ev.type = .reject then .ok (subscriber, none)
  else .ok (subscriber, some "unknown md type")

def applyFrame (subscriber : SubscriberBook) (mdFrame : Bytes) :
    Exec (SubscriberBook × Option String) :=
  let (decoder, res) := subscriber.decoder.decode mdFrame
  let subscriber := { subscriber with decoder }
  match res.event with
  | none =>
      match res.error with
      | some error => .ok (subscriber, some error.message)
      | none => .ok (subscriber, some "unknown decode error")
  | some ev => subscriber.applyEvent ev

def checksum (subscriber : SubscriberBook) : Exec UInt64 := subscriber.books.checksum
def liveOrders (subscriber : SubscriberBook) : Nat := subscriber.books.liveOrders
def expectedSeq (subscriber : SubscriberBook) : SeqNo := subscriber.decoder.expected

end SubscriberBook

end Exsim.Core
