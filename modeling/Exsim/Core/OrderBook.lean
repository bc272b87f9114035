import Exsim.Util.Checksum

/-! # One symbol's order book

Resting orders live in a slot pool (`nodes`) recycled through a free list; each
price level is an intrusive doubly linked list of slots, and each side keeps an
occupancy bitmap with the index of its best level.  The four members the source
keeps per side (`bids_`, `bid_bitmap_`, `bid_level_count_`, `best_bid_idx_` and
their ask twins) are grouped in a `BookSide`.
-/

namespace Exsim.Core

abbrev UnorderedMap (Key Value : Type) := Finmap fun _ : Key => Value

def bitsPerWord : Nat := 64

/-- The null slot, `UINT32_MAX`. -/
def kNull : UInt32 := 0xFFFFFFFF

structure RestingOrderView where
  orderId : OrderId := 0
  accountId : AccountId := 0
  side : Side := .buy
  price : Price := 0
  qty : Qty := 0
deriving DecidableEq, Repr

structure MatchOutput where
  mdEvents : List MdEvent := []
  trades : List Trade := []
  remainingQty : Qty := 0
  reject : RejectReason := .none
deriving DecidableEq, Repr

structure BookStats where
  liveOrders : Nat := 0
  bidLevels : UInt64 := 0
  askLevels : UInt64 := 0
  bestBid : Option Price := none
  bestAsk : Option Price := none
deriving DecidableEq, Repr

structure PriceLadderConfig where
  minPrice : Price := 1
  maxPrice : Price := 200000
  symbolPriceStride : Price := 0
  symbolPriceModulo : SymbolId := 0
deriving DecidableEq, Repr

structure Node where
  orderId : OrderId := 0
  accountId : AccountId := 0
  side : Side := .buy
  price : Price := 0
  qty : Qty := 0
  levelIdx : UInt32 := 0
  prev : UInt32 := kNull
  next : UInt32 := kNull
  active : Bool := false
deriving DecidableEq, Repr

structure Level where
  head : UInt32 := kNull
  tail : UInt32 := kNull
  totalQty : Qty := 0
  count : UInt32 := 0
deriving DecidableEq, Repr

structure BookSide where
  levels : Array Level
  bitmap : Array UInt64
  levelCount : UInt64 := 0
  bestIdx : Option UInt32 := none
deriving DecidableEq

structure OrderBook where
  symbolId : SymbolId
  minPrice : Price
  maxPrice : Price
  levelCount : UInt32
  nodes : Array Node := #[]
  /-- Freed slots, the back of the source's vector first. -/
  free : List UInt32 := []
  index : UnorderedMap OrderId UInt32 := ∅
  bids : BookSide
  asks : BookSide
deriving DecidableEq

namespace BookSide

/-- `bids_.resize(n)` with its zeroed bitmap. -/
def empty (levelCount : UInt32) : BookSide where
  levels := Array.replicate levelCount.toNat {}
  bitmap := Array.replicate ((levelCount.toNat + bitsPerWord - 1) / bitsPerWord) 0

def hasBit (side : BookSide) (idx : UInt32) : Exec Bool := do
  let word ← readAt side.bitmap (idx.toNat / bitsPerWord)
  .ok ((word &&& (1 <<< (idx % 64).toUInt64)) != 0)

/-- Whether `idx` beats the cached best level of this side. -/
def improves (isBuy : Bool) (idx : UInt32) (best : Option UInt32) : Bool :=
  match best with
  | none => true
  | some best => if isBuy then idx > best else idx < best

def setOccupied (side : BookSide) (isBuy : Bool) (idx : UInt32) : Exec BookSide := do
  let word ← readAt side.bitmap (idx.toNat / bitsPerWord)
  let bitmap ← writeAt side.bitmap (idx.toNat / bitsPerWord) (word ||| (1 <<< (idx % 64).toUInt64))
  let side := { side with bitmap }
  if improves isBuy idx side.bestIdx then .ok { side with bestIdx := some idx } else .ok side

/-- The word scan of `find_lowest_occupied`, from word `w` with `words` left. -/
def lowestFrom (levelCount : UInt32) : List UInt64 → Nat → Option UInt32
  | [], _ => none
  | word :: words, w =>
      let idx := UInt32.ofNat (w * bitsPerWord + word.toBitVec.ctz.toNat)
      if word != 0 && idx < levelCount then some idx else lowestFrom levelCount words (w + 1)

def findLowestOccupied (bitmap : Array UInt64) (levelCount : UInt32) : Option UInt32 :=
  lowestFrom levelCount bitmap.toList 0

/-- The word scan of `find_highest_occupied`: `reversed` holds the words below
word `w`, the next one first. -/
def highestFrom (levelCount : UInt32) : List UInt64 → Nat → Option UInt32
  | [], _ => none
  | word :: words, w =>
      let idx := UInt32.ofNat ((w - 1) * bitsPerWord + (63 - word.toBitVec.clz.toNat))
      if word != 0 && idx < levelCount then some idx else highestFrom levelCount words (w - 1)

def findHighestOccupied (bitmap : Array UInt64) (levelCount : UInt32) : Option UInt32 :=
  highestFrom levelCount bitmap.toList.reverse bitmap.size

def recomputeBestAfterClear (side : BookSide) (isBuy : Bool) (levelCount clearedIdx : UInt32) :
    BookSide :=
  if side.bestIdx = some clearedIdx then
    { side with bestIdx :=
        if isBuy then findHighestOccupied side.bitmap levelCount
        else findLowestOccupied side.bitmap levelCount }
  else side

def clearOccupied (side : BookSide) (isBuy : Bool) (levelCount idx : UInt32) : Exec BookSide := do
  let word ← readAt side.bitmap (idx.toNat / bitsPerWord)
  let bitmap ← writeAt side.bitmap (idx.toNat / bitsPerWord)
      (word &&& ~~~(1 <<< (idx % 64).toUInt64))
  .ok (recomputeBestAfterClear { side with bitmap } isBuy levelCount idx)

end BookSide

namespace OrderBook

/-- The constructor.  Signed overflow cannot happen in the span: both bounds are
positive by then. -/
def create (symbolId : SymbolId) (ladder : PriceLadderConfig) : Except Thrown OrderBook :=
  if ladder.minPrice ≤ 0 || ladder.maxPrice < ladder.minPrice then
    .error (.invalidArgument "invalid price ladder range")
  else
    let span := (ladder.maxPrice - ladder.minPrice).toUInt64 + 1
    if span > 0xFFFFFFFF then .error (.invalidArgument "price ladder range too wide")
    else .ok {
      symbolId
      minPrice := ladder.minPrice
      maxPrice := ladder.maxPrice
      levelCount := span.toUInt32
      bids := .empty span.toUInt32
      asks := .empty span.toUInt32 }

def priceInBand (book : OrderBook) (price : Price) : Bool :=
  price ≥ book.minPrice && price ≤ book.maxPrice

def priceToIndex (book : OrderBook) (price : Price) : UInt32 :=
  (price - book.minPrice).toUInt64.toUInt32

def indexToPrice (book : OrderBook) (idx : UInt32) : Price :=
  book.minPrice + idx.toUInt64.toInt64

def contains (book : OrderBook) (id : OrderId) : Bool := (book.index.lookup id).isSome

def node (book : OrderBook) (slot : UInt32) : Exec Node := readAt book.nodes slot.toNat

def setNode (book : OrderBook) (slot : UInt32) (node : Node) : Exec OrderBook := do
  let nodes ← writeAt book.nodes slot.toNat node
  .ok { book with nodes }

/-- `side == Side::Buy ? bids_ : asks_`, with the other per-side members. -/
def half (book : OrderBook) (isBuy : Bool) : BookSide := if isBuy then book.bids else book.asks

def withHalf (book : OrderBook) (isBuy : Bool) (half : BookSide) : OrderBook :=
  if isBuy then { book with bids := half } else { book with asks := half }

def levelFor (book : OrderBook) (isBuy : Bool) (idx : UInt32) : Exec Level :=
  readAt (book.half isBuy).levels idx.toNat

def setLevel (book : OrderBook) (isBuy : Bool) (idx : UInt32) (level : Level) : Exec OrderBook := do
  let levels ← writeAt (book.half isBuy).levels idx.toNat level
  .ok (book.withHalf isBuy { book.half isBuy with levels })

def setOccupied (book : OrderBook) (isBuy : Bool) (idx : UInt32) : Exec OrderBook := do
  let half ← (book.half isBuy).setOccupied isBuy idx
  .ok (book.withHalf isBuy half)

def clearOccupied (book : OrderBook) (isBuy : Bool) (idx : UInt32) : Exec OrderBook := do
  let half ← (book.half isBuy).clearOccupied isBuy book.levelCount idx
  .ok (book.withHalf isBuy half)

/-- `++bid_level_count_` or `++ask_level_count_`. -/
def countLevel (book : OrderBook) (isBuy : Bool) : OrderBook :=
  book.withHalf isBuy { book.half isBuy with levelCount := (book.half isBuy).levelCount + 1 }

/-- `--bid_level_count_` or `--ask_level_count_`. -/
def uncountLevel (book : OrderBook) (isBuy : Bool) : OrderBook :=
  book.withHalf isBuy { book.half isBuy with levelCount := (book.half isBuy).levelCount - 1 }

def viewNode (node : Node) : RestingOrderView :=
  { orderId := node.orderId, accountId := node.accountId, side := node.side
    price := node.price, qty := node.qty }

def find (book : OrderBook) (id : OrderId) : Exec (Option RestingOrderView) :=
  match book.index.lookup id with
  | none => .ok none
  | some slot => do
      let n ← book.node slot
      if n.active then .ok (some (viewNode n)) else .ok none

def allocNode (book : OrderBook) (id : OrderId) (accountId : AccountId) (side : Side)
    (price : Price) (qty : Qty) : Exec (OrderBook × UInt32) := do
  let n : Node := {
    orderId := id, accountId, side, price, qty
    levelIdx := book.priceToIndex price, active := true }
  match book.free with
  | slot :: free =>
      let book ← { book with free }.setNode slot n
      .ok ({ book with index := book.index.insert id slot }, slot)
  | [] =>
      let slot := UInt32.ofNat book.nodes.size
      let book ← { book with nodes := book.nodes.push {} }.setNode slot n
      .ok ({ book with index := book.index.insert id slot }, slot)

def freeNode (book : OrderBook) (slot : UInt32) : Exec OrderBook := do
  let n ← book.node slot
  let book ← { book with index := book.index.erase n.orderId }.setNode slot {}
  .ok { book with free := slot :: book.free }

def appendToLevel (book : OrderBook) (slot : UInt32) : Exec OrderBook := do
  let n ← book.node slot
  let isBuy := n.side.isBuy
  let level ← book.levelFor isBuy n.levelIdx
  let book ← book.setNode slot { n with prev := level.tail, next := kNull }
  let book ←
    if level.tail ≠ kNull then do
      let last ← book.node level.tail
      book.setNode level.tail { last with next := slot }
    else pure book
  let head := if level.tail ≠ kNull then level.head else slot
  let book ← book.setLevel isBuy n.levelIdx {
    head, tail := slot, totalQty := level.totalQty + n.qty, count := level.count + 1 }
  if level.count = 0 then (book.countLevel isBuy).setOccupied isBuy n.levelIdx
  else pure book

def removeNode (book : OrderBook) (seq : SeqNo) (slot : UInt32) (removedQty : Qty) (type : MdType) :
    Exec (OrderBook × MdEvent) := do
  let n ← book.node slot
  let isBuy := n.side.isBuy
  let level ← book.levelFor isBuy n.levelIdx
  let book ←
    (if n.prev ≠ kNull then do
      let before ← book.node n.prev
      book.setNode n.prev { before with next := n.next }
    else pure book)
  let book ←
    (if n.next ≠ kNull then do
      let after ← book.node n.next
      book.setNode n.next { after with prev := n.prev }
    else pure book)
  let level : Level := {
    head := if n.prev ≠ kNull then level.head else n.next
    tail := if n.next ≠ kNull then level.tail else n.prev
    totalQty := level.totalQty - min level.totalQty removedQty
    count := if level.count > 0 then level.count - 1 else level.count }
  let ev : MdEvent := {
    seq, type, symbolId := book.symbolId, orderId := n.orderId, accountId := n.accountId
    side := n.side, price := n.price, qty := removedQty }
  let book ←
    (if level.count = 0 then do
      let book ← book.setLevel isBuy n.levelIdx
          { level with head := kNull, tail := kNull, totalQty := 0 }
      (book.uncountLevel isBuy).clearOccupied isBuy n.levelIdx
    else book.setLevel isBuy n.levelIdx level)
  let book ← book.freeNode slot
  .ok (book, ev)

def crosses (book : OrderBook) (side : Side) (price : Price) : Bool :=
  if side.isBuy then
    match book.asks.bestIdx with
    | some best => price ≥ book.indexToPrice best
    | none => false
  else
    match book.bids.bestIdx with
    | some best => price ≤ book.indexToPrice best
    | none => false

/-- Fills the head `slot` of level `idx` on side `isBuy`; the level argument of
the source is a reference, here its address. -/
def executeHead (book : OrderBook) (seq : SeqNo) (isBuy : Bool) (idx slot : UInt32) (qty : Qty)
    (out : MatchOutput) (aggressor : OrderId) : Exec (OrderBook × MatchOutput × Qty) := do
  let resting ← book.node slot
  let execQty := min resting.qty qty
  let book ← book.setNode slot { resting with qty := resting.qty - execQty }
  let level ← book.levelFor isBuy idx
  let book ← book.setLevel isBuy idx { level with totalQty := level.totalQty - execQty }
  let trade : Trade := {
    seq, symbolId := book.symbolId, restingOrderId := resting.orderId
    aggressingOrderId := aggressor, price := resting.price, qty := execQty }
  let ev : MdEvent := {
    seq, type := .execute, symbolId := book.symbolId, orderId := resting.orderId
    accountId := resting.accountId, side := resting.side, price := resting.price, qty := execQty }
  let out := { out with trades := out.trades ++ [trade], mdEvents := out.mdEvents ++ [ev] }
  if resting.qty - execQty = 0 then do
    -- The execute event is already out: the removal reports quantity zero, its event is dropped.
    let (book, _) ← book.removeNode seq slot 0 .execute
    .ok (book, out, execQty)
  else .ok (book, out, execQty)

/-- The matching loop of `add_order`.  Every iteration fills at least one unit
or unlinks a slot, so the caller's fuel bounds it. -/
def matchLoop (seq : SeqNo) (aggressor : OrderId) (side : Side) (price : Price) :
    Nat → OrderBook → MatchOutput → Exec (OrderBook × MatchOutput)
  | fuel, book, out =>
      if out.remainingQty > 0 && book.crosses side price then
        match fuel with
        | 0 => .error .divergence
        | fuel + 1 =>
            match (book.half !side.isBuy).bestIdx with
            | none => .error .emptyOptional
            | some idxLevel => do
                let level ← book.levelFor (!side.isBuy) idxLevel
                let (book, out, done) ←
                  book.executeHead seq (!side.isBuy) idxLevel level.head out.remainingQty
                    out aggressor
                matchLoop seq aggressor side price fuel book
                  { out with remainingQty := out.remainingQty - done }
      else .ok (book, out)

def addOrder (book : OrderBook) (seq : SeqNo) (orderId : OrderId) (accountId : AccountId)
    (side : Side) (price : Price) (qty : Qty) (tif : TimeInForce) :
    Exec (OrderBook × MatchOutput) :=
  let out : MatchOutput := { remainingQty := qty }
  if qty = 0 then .ok (book, { out with reject := .invalidQty })
  else if !book.priceInBand price then .ok (book, { out with reject := .invalidPrice })
  else if book.contains orderId then .ok (book, { out with reject := .duplicateOrder })
  else do
    let (book, out) ← matchLoop seq orderId side price (qty.toNat + book.nodes.size) book out
    if out.remainingQty > 0 && tif = .gtc then do
      let (book, slot) ← book.allocNode orderId accountId side price out.remainingQty
      let book ← book.appendToLevel slot
      let ev : MdEvent := {
        seq, type := .add, symbolId := book.symbolId, orderId, accountId, side, price
        qty := out.remainingQty }
      .ok (book, { out with mdEvents := out.mdEvents ++ [ev], remainingQty := 0 })
    else .ok (book, out)

def cancelOrder (book : OrderBook) (seq : SeqNo) (orderId : OrderId) :
    Exec (OrderBook × Option MdEvent) :=
  match book.index.lookup orderId with
  | none => .ok (book, none)
  | some slot => do
      let n ← book.node slot
      let (book, ev) ← book.removeNode seq slot n.qty .cancel
      .ok (book, some ev)

def feedAdd (book : OrderBook) (orderId : OrderId) (accountId : AccountId) (side : Side)
    (price : Price) (qty : Qty) : Exec (OrderBook × Bool) :=
  if book.contains orderId || qty = 0 || !book.priceInBand price then .ok (book, false)
  else do
    let (book, slot) ← book.allocNode orderId accountId side price qty
    let book ← book.appendToLevel slot
    .ok (book, true)

def feedExecute (book : OrderBook) (orderId : OrderId) (qty : Qty) : Exec (OrderBook × Bool) :=
  match book.index.lookup orderId with
  | none => .ok (book, false)
  | some slot =>
      if qty = 0 then .ok (book, false)
      else do
        let n ← book.node slot
        let level ← book.levelFor n.side.isBuy n.levelIdx
        if qty ≥ n.qty then do
          let (book, _) ← book.removeNode 0 slot n.qty .execute
          .ok (book, true)
        else do
          let book ← book.setNode slot { n with qty := n.qty - qty }
          let book ← book.setLevel n.side.isBuy n.levelIdx
              { level with totalQty := level.totalQty - qty }
          .ok (book, true)

def replaceOrder (book : OrderBook) (seq : SeqNo) (oldId newId : OrderId) (accountId : AccountId)
    (side : Side) (price : Price) (qty : Qty) (tif : TimeInForce) :
    Exec (OrderBook × MatchOutput) :=
  if !book.priceInBand price then .ok (book, { reject := .invalidPrice })
  else do
    let (book, old) ← book.cancelOrder seq oldId
    match old with
    | none => .ok (book, { reject := .unknownOrder })
    | some old =>
        let (book, add) ← book.addOrder seq newId accountId side price qty tif
        .ok (book, { add with mdEvents := old :: add.mdEvents })

def stats (book : OrderBook) : BookStats where
  liveOrders := book.index.keys.card
  bidLevels := book.bids.levelCount
  askLevels := book.asks.levelCount
  bestBid := book.bids.bestIdx.map book.indexToPrice
  bestAsk := book.asks.bestIdx.map book.indexToPrice

/-- The node loop of `checksum`.  A list that does not end within the pool has a
cycle, on which the source's loop would not stop. -/
def hashNodes (book : OrderBook) : Nat → UInt64 → UInt32 → Exec UInt64
  | fuel, h, slot =>
      if slot = kNull then .ok h
      else match fuel with
        | 0 => .error .divergence
        | fuel + 1 => do
            let n ← book.node slot
            let h := hashCombine h n.orderId
            let h := hashCombine h n.accountId.toUInt64
            let h := hashCombine h n.qty.toUInt64
            hashNodes book fuel h n.next

def hashLevel (book : OrderBook) (isBuy : Bool) (h : UInt64) (idx : UInt32) : Exec UInt64 := do
  let level ← book.levelFor isBuy idx
  let h := hashCombine h (book.indexToPrice idx).toUInt64
  let h := hashCombine h level.totalQty.toUInt64
  book.hashNodes book.nodes.size h level.head

/-- `for (j = idx; j-- > 0;)`: the highest bid bit below `j`. -/
def nextLowerBid (book : OrderBook) : Nat → Exec (Option UInt32)
  | 0 => .ok none
  | j + 1 => do
      if ← book.bids.hasBit (UInt32.ofNat j) then .ok (some (UInt32.ofNat j))
      else nextLowerBid book j

/-- `for (j = idx + 1; j < level_count_; ++j)`, with `remaining` levels left. -/
def nextHigherAsk (book : OrderBook) : Nat → Nat → Exec (Option UInt32)
  | 0, _ => .ok none
  | remaining + 1, j => do
      if ← book.asks.hasBit (UInt32.ofNat j) then .ok (some (UInt32.ofNat j))
      else nextHigherAsk book remaining (j + 1)

def hashBids (book : OrderBook) : Nat → UInt64 → Option UInt32 → Exec UInt64
  | _, h, none => .ok h
  | 0, _, some _ => .error .divergence
  | fuel + 1, h, some idx => do
      let h ← book.hashLevel true h idx
      if idx = 0 then .ok h
      else
        let next ← book.nextLowerBid idx.toNat
        hashBids book fuel h next

def hashAsks (book : OrderBook) : Nat → UInt64 → Option UInt32 → Exec UInt64
  | _, h, none => .ok h
  | 0, _, some _ => .error .divergence
  | fuel + 1, h, some idx => do
      let h ← book.hashLevel false h idx
      let next ← book.nextHigherAsk (book.levelCount.toNat - (idx.toNat + 1)) (idx.toNat + 1)
      hashAsks book fuel h next

/-- Each level loop visits strictly lower (higher) indices, so `level_count_`
iterations suffice. -/
def checksum (book : OrderBook) : Exec UInt64 := do
  let h := hashCombine 0x45584348424f4f4b book.symbolId.toUInt64
  let levels := book.levelCount.toNat
  let h ← book.hashBids levels h (BookSide.findHighestOccupied book.bids.bitmap book.levelCount)
  book.hashAsks levels h (BookSide.findLowestOccupied book.asks.bitmap book.levelCount)

end OrderBook

end Exsim.Core
