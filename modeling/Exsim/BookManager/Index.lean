import Exsim.BookManager.Calls
import Exsim.OrderBook.Resting
import Exsim.Data.Run

/-! # The order index over runs of the book manager -/

namespace Exsim.Core

open Data

inductive ManagerCall where
  | add (seq : SeqNo) (cmd : ClientCommand)
  | cancel (seq : SeqNo) (orderId : OrderId)
  | replace (seq : SeqNo) (cmd : ClientCommand)
  | feedAdd (ev : MdEvent)
  | feedExecute (ev : MdEvent)
deriving DecidableEq, Repr

inductive ManagerAnswer where
  | output (out : MatchOutput)
  | cancelled (ev : Option MdEvent)
  | fed (ok : Bool)
  | threw (exception : Thrown)
deriving DecidableEq, Repr

namespace BookManager

def call (manager : BookManager) : ManagerCall → Exec (BookManager × ManagerAnswer)
  | .add seq cmd => do
      match ← manager.addOrder seq cmd with
      | .error exception => .ok (manager, .threw exception)
      | .ok (manager, out) => .ok (manager, .output out)
  | .cancel seq orderId => do
      let (manager, ev) ← manager.cancelOrder seq orderId
      .ok (manager, .cancelled ev)
  | .replace seq cmd => do
      let (manager, out) ← manager.replaceOrder seq cmd
      .ok (manager, .output out)
  | .feedAdd ev => do
      let (manager, ok) ← manager.feedAdd ev
      .ok (manager, .fed ok)
  | .feedExecute ev => do
      let (manager, ok) ← manager.feedExecute ev
      .ok (manager, .fed ok)

/-- Every book has a slot number left. -/
def HasRoom (manager : BookManager) : Prop :=
  ∀ book ∈ manager.activeBooks, book.stats.liveOrders < 2 ^ 32 - 1

instance (manager : BookManager) : Decidable manager.HasRoom := by
  unfold HasRoom
  infer_instance

/-- The index names the book an order rests in, and no other. -/
def IndexConsistent (manager : BookManager) : Prop :=
  ∀ id symbol, manager.validSymbol symbol = true →
    (manager.orderSymbol id = symbol ↔ ∃ book, manager.findBook symbol = some book ∧
      book.contains id = true)

/-- Whether a book of another symbol holds an order. -/
def elsewhere (manager : BookManager) (symbol : SymbolId) (id : OrderId) : Bool :=
  manager.activeBooks.any fun book => book.symbolId ≠ symbol && book.contains id

/-- Whether an add rests an order whose id another book holds. -/
def addCrowds (manager : BookManager) (cmd : ClientCommand) : Bool :=
  (manager.findBook cmd.symbolId).any fun book =>
    book.priceInBand cmd.price &&
    book.resting.rests cmd.orderId cmd.side cmd.price cmd.qty cmd.tif &&
      manager.elsewhere cmd.symbolId cmd.orderId

/-- Whether a replace does. -/
def replaceCrowds (manager : BookManager) (cmd : ClientCommand) : Bool :=
  (manager.findBook (manager.orderSymbol cmd.cancelOrderId)).any fun book =>
    book.priceInBand cmd.price &&
      Arrivals.rests cmd.orderId cmd.side cmd.price cmd.qty cmd.tif
        (Keyed.erase RestingOrderView.orderId cmd.cancelOrderId book.resting) &&
      manager.elsewhere (manager.orderSymbol cmd.cancelOrderId) cmd.orderId

/-- Whether a replace is refused for its price and takes another id, so that its
target stays without an index entry. -/
def replaceStrands (manager : BookManager) (cmd : ClientCommand) : Bool :=
  (manager.findBook (manager.orderSymbol cmd.cancelOrderId)).any fun book =>
    !book.priceInBand cmd.price && cmd.orderId ≠ cmd.cancelOrderId

def feedAddCrowds (manager : BookManager) (ev : MdEvent) : Bool :=
  (manager.findBook ev.symbolId).any fun book =>
    !book.contains ev.orderId && ev.qty ≠ 0 && book.priceInBand ev.price &&
      manager.elsewhere ev.symbolId ev.orderId

/-- Whether a call keeps the index right. -/
def keepsIndex (manager : BookManager) : ManagerCall → Bool
  | .add _ cmd => !manager.addCrowds cmd
  | .cancel _ _ => true
  | .replace _ cmd => !manager.replaceCrowds cmd && !manager.replaceStrands cmd
  | .feedAdd ev => !manager.feedAddCrowds ev
  | .feedExecute _ => true

section

variable {manager later : BookManager} {market : ArrivalMarket} {symbol : SymbolId}
  {book : OrderBook} {id : OrderId}

theorem Models.mem_activeBooks (models : manager.Models market) :
    book ∈ manager.activeBooks ↔
      ∃ symbol : SymbolId, market.validSymbol symbol = true ∧
      manager.books[symbol.toNat]? = some book := by
  have bound := manager.maxSymbol.toNat_lt
  rw [activeBooks, List.mem_iff_getElem?]
  constructor
  · rintro ⟨i, found⟩
    rw [List.getElem?_drop, Array.getElem?_toList] at found
    have inside := (Array.getElem?_eq_some_iff.mp found).1
    have size := models.size
    have index : (UInt32.ofNat (1 + i)).toNat = 1 + i := by
      rw [UInt32.toNat_ofNat', Nat.mod_eq_of_lt (by omega)]
    refine ⟨UInt32.ofNat (1 + i), ?_, by rw [index, found]⟩
    simp only [ArrivalMarket.validSymbol, models.maxSymbol, Bool.not_eq_true', Bool.or_eq_false_iff,
      decide_eq_false_iff_not, gt_iff_lt, UInt32.lt_iff_toNat_lt, ← UInt32.toNat_inj, index,
      UInt32.toNat_zero]
    omega
  · rintro ⟨symbol, valid, stored⟩
    have positive : symbol.toNat ≠ 0 :=
      fun zero => validSymbol_ne_zero valid (UInt32.toNat_inj.mp zero)
    refine ⟨symbol.toNat - 1, ?_⟩
    rw [List.getElem?_drop, Array.getElem?_toList,
      Nat.add_sub_cancel' (Nat.one_le_iff_ne_zero.mpr positive), stored]

/-- What the books give in symbol order. -/
theorem Models.map_activeBooks {Value : Type} {f : OrderBook → Value} {g : SymbolId → Value}
    (models : manager.Models market) (each : ∀ symbol book, market.validSymbol symbol = true →
      manager.books[symbol.toNat]? = some book → f book = g symbol) :
    manager.activeBooks.map f = (List.range manager.maxSymbol.toNat).map fun i =>
      g (UInt32.ofNat (i + 1)) := by
  have length : manager.activeBooks.length = manager.maxSymbol.toNat := by
    rw [activeBooks, List.length_drop, Array.length_toList, models.size, Nat.add_sub_cancel]
  refine List.ext_getElem (by rw [List.length_map, List.length_map, length, List.length_range])
    fun i inside _ => ?_
  rw [List.length_map, length] at inside
  have bound := manager.maxSymbol.toNat_lt
  have index : (UInt32.ofNat (i + 1)).toNat = i + 1 := by
    rw [UInt32.toNat_ofNat', Nat.mod_eq_of_lt (by omega)]
  have valid : market.validSymbol (UInt32.ofNat (i + 1)) = true := by
    simp only [ArrivalMarket.validSymbol, models.maxSymbol, Bool.not_eq_true', Bool.or_eq_false_iff,
      decide_eq_false_iff_not, gt_iff_lt, UInt32.lt_iff_toNat_lt, ← UInt32.toNat_inj, index,
      UInt32.toNat_zero]
    omega
  have within : i < manager.activeBooks.length := by
    rw [length]
    exact inside
  have stored : manager.books[(UInt32.ofNat (i + 1)).toNat]? = some manager.activeBooks[i] := by
    have here : i + 1 < manager.books.size := by
      rw [models.size]
      omega
    simp only [index, activeBooks, List.getElem_drop, Array.getElem_toList, Nat.add_comm 1 i,
      Array.getElem?_eq_getElem here]
  rw [List.getElem_map, List.getElem_map, List.getElem_range]
  exact each _ _ valid stored

theorem Models.findBook (models : manager.Models market) (valid : market.validSymbol symbol = true)
    (stored : manager.books[symbol.toNat]? = some book) : manager.findBook symbol = some book := by
  rw [BookManager.findBook, models.validSymbol, valid, if_pos rfl, stored]

theorem Models.findBook_none (models : manager.Models market)
    (invalid : market.validSymbol symbol = false) :
    manager.findBook symbol = none := by
  rw [BookManager.findBook, models.validSymbol, invalid, if_neg Bool.false_ne_true]

theorem Models.valid_of_stored (models : manager.Models market)
    (stored : manager.books[symbol.toNat]? = some book)
    (proper : symbol ≠ 0) : market.validSymbol symbol = true := by
  have inside := (Array.getElem?_eq_some_iff.mp stored).1
  rw [models.size, ← models.maxSymbol] at inside
  simp only [ArrivalMarket.validSymbol, proper, decide_false, Bool.false_or, Bool.not_eq_true',
    decide_eq_false_iff_not, gt_iff_lt, UInt32.lt_iff_toNat_lt]
  omega

/-- A book that is found represents the orders of its symbol. -/
theorem Models.of_findBook (models : manager.Models market)
    (found : manager.findBook symbol = some book) :
    market.validSymbol symbol = true ∧ manager.books[symbol.toNat]? = some book ∧
    book.Refines (market.books symbol) := by
  cases valid : market.validSymbol symbol with
  | false =>
      rw [models.findBook_none valid] at found
      cases found
  | true =>
      obtain ⟨other, stored, refines⟩ := models.books symbol valid
      obtain rfl := Option.some.inj ((models.findBook valid stored).symm.trans found)
      exact ⟨rfl, stored, refines⟩

theorem Models.ownSymbol (models : manager.Models market) (valid : market.validSymbol symbol = true)
    (stored : manager.books[symbol.toNat]? = some book) : book.symbolId = symbol := by
  obtain ⟨before, found, refines⟩ := models.books symbol valid
  obtain rfl := Option.some.inj (stored.symm.trans found)
  rw [refines.symbolId, models.sound.symbolId symbol valid]

theorem Models.hasRoom (models : manager.Models market) (room : manager.HasRoom) :
    market.HasRoom := by
  intro symbol valid
  obtain ⟨book, stored, refines⟩ := models.books symbol valid
  have live := room book (models.mem_activeBooks.mpr ⟨symbol, valid, stored⟩)
  rwa [refines.liveOrders] at live

theorem Models.elsewhere (models : manager.Models market) (symbol : SymbolId) (id : OrderId) :
    manager.elsewhere symbol id = true ↔ market.Elsewhere symbol id := by
  rw [BookManager.elsewhere, List.any_eq_true]
  constructor
  · rintro ⟨book, member, both⟩
    obtain ⟨other, valid, stored⟩ := models.mem_activeBooks.mp member
    obtain ⟨before, found, refines⟩ := models.books other valid
    obtain rfl := Option.some.inj (stored.symm.trans found)
    rw [Bool.and_eq_true, decide_eq_true_iff, models.ownSymbol valid stored,
      refines.contains] at both
    exact ⟨other, valid, both.1, both.2⟩
  · rintro ⟨other, valid, different, held⟩
    obtain ⟨book, stored, refines⟩ := models.books other valid
    refine ⟨book, models.mem_activeBooks.mpr ⟨other, valid, stored⟩, ?_⟩
    rw [Bool.and_eq_true, decide_eq_true_iff, models.ownSymbol valid stored, refines.contains]
    exact ⟨different, held⟩

/-- The index of the manager is right exactly if that of the market is. -/
theorem Models.indexConsistent (models : manager.Models market) :
    manager.IndexConsistent ↔ market.Indexed := by
  have named : ∀ id symbol, market.validSymbol symbol = true →
      (manager.orderSymbol id = symbol ↔ market.symbolOf id = some symbol) := by
    intro id symbol valid
    rw [models.orderSymbol]
    cases market.symbolOf id with
    | none => exact ⟨fun zero => absurd zero.symm (validSymbol_ne_zero valid),
          fun impossible => nomatch impossible⟩
    | some other => exact ⟨congrArg some, Option.some.inj⟩
  have held : ∀ id symbol, market.validSymbol symbol = true →
      ((∃ book, manager.findBook symbol = some book ∧ book.contains id = true) ↔
        (market.books symbol).holds id = true) := by
    intro id symbol valid
    obtain ⟨book, stored, refines⟩ := models.books symbol valid
    rw [models.findBook valid stored]
    constructor
    · rintro ⟨other, same, contained⟩
      rw [← refines.contains, Option.some.inj same]
      exact contained
    · exact fun contained => ⟨book, rfl, by rw [refines.contains]; exact contained⟩
  constructor
  · intro consistent id symbol
    by_cases valid : market.validSymbol symbol = true
    · have iff := consistent id symbol (by rw [models.validSymbol]; exact valid)
      rw [named id symbol valid, held id symbol valid] at iff
      rw [iff, and_iff_right valid]
    · exact ⟨fun found => models.listed id symbol found, fun both => absurd both.1 valid⟩
  · intro indexed id symbol valid
    rw [models.validSymbol] at valid
    rw [named id symbol valid, held id symbol valid, indexed id symbol, and_iff_right valid]

section Guards

variable {cmd : ClientCommand} {ev : MdEvent}

theorem Models.addCrowds (models : manager.Models market)
    (valid : market.validSymbol cmd.symbolId = true) :
    manager.addCrowds cmd = true ↔ (market.books cmd.symbolId).priceInBand cmd.price = true ∧
      (market.books cmd.symbolId).orders.rests cmd.orderId cmd.side cmd.price cmd.qty cmd.tif =
        true ∧ market.Elsewhere cmd.symbolId cmd.orderId := by
  obtain ⟨book, stored, refines⟩ := models.books cmd.symbolId valid
  rw [BookManager.addCrowds, models.findBook valid stored, Option.any_some, Bool.and_eq_true,
    Bool.and_eq_true, models.elsewhere, refines.priceInBand,
    Arrivals.rests_perm (refines.resting_perm (models.sound.books _ valid)), and_assoc]

/-- A condition on the book of a replace's target. -/
theorem Models.any_target (models : manager.Models market) (condition : OrderBook → Bool) :
    (manager.findBook (manager.orderSymbol id)).any condition = true ↔
      ∃ (symbol : SymbolId) (book : OrderBook), market.symbolOf id = some symbol ∧
      market.validSymbol symbol = true ∧ manager.books[symbol.toNat]? = some book ∧
      condition book = true := by
  cases target : market.symbolOf id with
  | none =>
      rw [models.orderSymbol_eq_zero target, models.findBook_none rfl]
      simp
  | some symbol =>
      obtain ⟨valid, -⟩ := models.listed _ _ target
      obtain ⟨book, stored, -⟩ := models.books symbol valid
      rw [models.orderSymbol_eq target, models.findBook valid stored]
      constructor
      · exact fun met => ⟨symbol, book, rfl, valid, stored, met⟩
      · intro met
        obtain ⟨other, book', same, -, found, met⟩ := met
        obtain rfl := Option.some.inj same
        rw [stored] at found
        rw [Option.any_some, Option.some.inj found]
        exact met

theorem Models.replaceCrowds (models : manager.Models market) :
    manager.replaceCrowds cmd = true ↔ ∃ symbol, market.symbolOf cmd.cancelOrderId = some symbol ∧
      (market.books symbol).priceInBand cmd.price = true ∧
      Arrivals.rests cmd.orderId cmd.side cmd.price cmd.qty cmd.tif
        (Keyed.erase RestingOrderView.orderId cmd.cancelOrderId (market.books symbol).orders) =
          true ∧ market.Elsewhere symbol cmd.orderId := by
  rw [BookManager.replaceCrowds, models.any_target]
  refine exists_congr fun symbol => ?_
  constructor
  · intro met
    obtain ⟨book, target, valid, stored, met⟩ := met
    obtain ⟨book', found, refines⟩ := models.books symbol valid
    obtain rfl := Option.some.inj (stored.symm.trans found)
    have same :=
      Arrivals.erase_perm (refines.resting_perm (models.sound.books _ valid)) cmd.cancelOrderId
    rw [Bool.and_eq_true, Bool.and_eq_true, models.orderSymbol_eq target, models.elsewhere,
      refines.priceInBand, Arrivals.rests_perm same, and_assoc] at met
    exact ⟨target, met⟩
  · intro met
    obtain ⟨target, met⟩ := met
    obtain ⟨valid, -⟩ := models.listed _ _ target
    obtain ⟨book, stored, refines⟩ := models.books symbol valid
    have same :=
      Arrivals.erase_perm (refines.resting_perm (models.sound.books _ valid)) cmd.cancelOrderId
    refine ⟨book, target, valid, stored, ?_⟩
    rw [Bool.and_eq_true, Bool.and_eq_true, models.orderSymbol_eq target, models.elsewhere,
      refines.priceInBand, Arrivals.rests_perm same, and_assoc]
    exact met

theorem Models.replaceStrands (models : manager.Models market) :
    manager.replaceStrands cmd = true ↔ ∃ symbol, market.symbolOf cmd.cancelOrderId = some symbol ∧
      (market.books symbol).priceInBand cmd.price = false ∧ cmd.orderId ≠ cmd.cancelOrderId := by
  rw [BookManager.replaceStrands, models.any_target]
  refine exists_congr fun symbol => ?_
  simp only [Bool.and_eq_true, Bool.not_eq_true', decide_eq_true_eq]
  constructor
  · intro met
    obtain ⟨book, target, valid, stored, outOfBand, different⟩ := met
    obtain ⟨book', found, refines⟩ := models.books symbol valid
    obtain rfl := Option.some.inj (stored.symm.trans found)
    exact ⟨target, by rw [← refines.priceInBand]; exact outOfBand, different⟩
  · intro met
    obtain ⟨target, outOfBand, different⟩ := met
    obtain ⟨valid, -⟩ := models.listed _ _ target
    obtain ⟨book, stored, refines⟩ := models.books symbol valid
    exact ⟨book, target, valid, stored, by rw [refines.priceInBand]; exact outOfBand, different⟩

theorem Models.feedAddCrowds (models : manager.Models market) :
    manager.feedAddCrowds ev = true ↔ market.validSymbol ev.symbolId = true ∧
      (market.books ev.symbolId).holds ev.orderId = false ∧ ev.qty ≠ 0 ∧
      (market.books ev.symbolId).priceInBand ev.price = true ∧
      market.Elsewhere ev.symbolId ev.orderId := by
  rw [BookManager.feedAddCrowds]
  by_cases valid : market.validSymbol ev.symbolId = true
  · obtain ⟨book, stored, refines⟩ := models.books ev.symbolId valid
    rw [models.findBook valid stored, Option.any_some, Bool.and_eq_true, Bool.and_eq_true,
      Bool.and_eq_true, models.elsewhere, Bool.not_eq_true', decide_eq_true_iff, refines.contains,
      refines.priceInBand, and_iff_right valid, and_assoc, and_assoc]
  · rw [models.findBook_none (Bool.eq_false_iff.mpr valid)]
    simp [valid]

theorem not_true_iff {condition : Bool} : (!condition) = true ↔ ¬condition = true := by
  rw [Bool.not_eq_true', Bool.not_eq_true]

end Guards

/-- A call keeps the model, and a right index exactly if it is of the kinds that do. -/
theorem call_spec (models : manager.Models market) (room : market.HasRoom) (call : ManagerCall) :
    ∃ later answer market', manager.call call = .ok (later, answer) ∧
    Advances manager later market market' ∧
    (market.Indexed → (market'.Indexed ↔ manager.keepsIndex call = true)) := by
  cases call with
  | add seq cmd =>
      by_cases valid : market.validSymbol cmd.symbolId = true
      · obtain ⟨later, ran, advances⟩ := addOrder_spec models room seq cmd valid
        refine ⟨later, _, _, by rw [call, ran]; rfl, advances, fun indexed => ?_⟩
        rw [ArrivalMarket.addOrder_indexed models.sound indexed valid,
          ArrivalMarket.addOrder_apart models.sound indexed.apart valid, keepsIndex, not_true_iff,
          models.addCrowds valid]
      · have invalid := Bool.eq_false_iff.mpr valid
        refine ⟨manager, .threw (.outOfRange "bad symbol id"), market, ?_, .refl models,
          fun indexed => ?_⟩
        · rw [call, addOrder_invalid seq cmd (by rw [models.validSymbol]; exact invalid)]
          rfl
        · simp [keepsIndex, BookManager.addCrowds, models.findBook_none invalid, indexed]
  | cancel seq orderId =>
      obtain ⟨later, ran, advances⟩ := cancelOrder_spec models seq orderId
      refine ⟨later, _, _, by rw [call, ran]; rfl, advances, fun indexed => ?_⟩
      exact ⟨fun _ => rfl, fun _ => ArrivalMarket.cancelOrder_indexed indexed⟩
  | replace seq cmd =>
      obtain ⟨later, ran, advances⟩ := replaceOrder_spec models room seq cmd
      refine ⟨later, _, _, by rw [call, ran]; rfl, advances, fun indexed => ?_⟩
      rw [ArrivalMarket.replaceOrder_indexed models.sound indexed,
        ArrivalMarket.replaceOrder_apart models.sound indexed.listed indexed.apart, keepsIndex,
        Bool.and_eq_true, not_true_iff, not_true_iff, models.replaceCrowds, models.replaceStrands,
        not_exists, not_exists]
      refine and_congr (forall_congr' fun symbol => not_and.symm) (forall_congr' fun symbol => ?_)
      rw [not_and, not_and, not_not]
  | feedAdd ev =>
      obtain ⟨later, ran, advances⟩ := feedAdd_spec models room ev
      refine ⟨later, _, _, by rw [call, ran]; rfl, advances, fun indexed => ?_⟩
      rw [ArrivalMarket.feedAdd_indexed indexed, keepsIndex, not_true_iff, models.feedAddCrowds]
  | feedExecute ev =>
      obtain ⟨later, ran, advances⟩ := feedExecute_spec models ev
      refine ⟨later, _, _, by rw [call, ran]; rfl, advances, fun indexed => ?_⟩
      exact ⟨fun _ => rfl, fun _ => ArrivalMarket.feedExecute_indexed indexed⟩

/-- A new manager's empty index is right. -/
theorem Models.blank_indexed (models : manager.Models manager.blank) : manager.blank.Indexed := by
  intro id symbol
  refine ⟨fun found => (nomatch (show none = some symbol from found)), fun both => ?_⟩
  obtain ⟨valid, held⟩ := both
  obtain ⟨book, stored, -⟩ := models.books symbol valid
  simp only [blank, stored] at held
  cases held

/-- While no book runs out of slots, no run fails, and every call leaves the index
right exactly if every call is of the kinds that do. -/
theorem run_indexConsistent {maxSymbol : SymbolId} {ladder : PriceLadderConfig}
    {fresh : BookManager} {calls : List ManagerCall}
    (created : BookManager.create maxSymbol ladder = some (.ok fresh))
    (room : Along call (fun manager _ => manager.HasRoom) fresh calls) :
    fresh.IndexConsistent ∧ (∃ final answers, run call fresh calls = .ok (final, answers)) ∧
      (Along call (fun manager call => manager.keepsIndex call = true) fresh calls ↔
        Along call (fun manager call => ∀ later answer, manager.call call = .ok (later, answer) →
          later.IndexConsistent) fresh calls) := by
  obtain ⟨models, -⟩ := create_spec created
  have start : fresh.IndexConsistent := models.indexConsistent.mpr models.blank_indexed
  have keep : ∀ (manager : BookManager) (input : ManagerCall), (∃ market, manager.Models market) →
      manager.HasRoom → ∃ later answer, manager.call input = .ok (later, answer) ∧
      (∃ market, later.Models market) ∧
      (manager.IndexConsistent → (later.IndexConsistent ↔ manager.keepsIndex input = true)) := by
    rintro manager input ⟨market, models⟩ room
    obtain ⟨later, answer, market', ran, advances, indexed⟩ :=
      call_spec models (models.hasRoom room) input
    refine ⟨later, answer, ran, ⟨market', advances.models⟩, fun consistent => ?_⟩
    rw [advances.models.indexConsistent, indexed (models.indexConsistent.mp consistent)]
  refine ⟨start, ?_, along_iff keep ⟨_, models⟩ start room⟩
  have total : ∀ (manager : BookManager) (input : ManagerCall), (∃ market, manager.Models market) →
      manager.HasRoom → ∃ later answer, manager.call input = .ok (later, answer) ∧
      ∃ market, later.Models market := by
    intro manager input kept room
    obtain ⟨later, answer, ran, kept, -⟩ := keep manager input kept room
    exact ⟨later, answer, ran, kept⟩
  obtain ⟨final, answers, ran, -⟩ := run_invariant total ⟨_, models⟩ room
  exact ⟨final, answers, ran⟩

/-- A new manager of one symbol with two price levels. -/
def oneSymbol : BookManager where
  maxSymbol := 1
  ladder := { minPrice := 1, maxPrice := 2 }
  books := #[0, 1].map fun symbolId =>
    { symbolId, minPrice := 1, maxPrice := 2, levelCount := 2, bids := .empty 2, asks := .empty 2 }

theorem oneSymbol_created : BookManager.create 1 { minPrice := 1, maxPrice := 2 } =
    some (.ok oneSymbol) := by
  decide +kernel

def restingBid : ClientCommand :=
  { orderId := 7, accountId := 1, symbolId := 1, price := 1, qty := 5 }

/-- A replace of the resting bid by another id at a price outside the band. -/
def outOfBandReplace : ClientCommand :=
  { type := .replace, orderId := 8, cancelOrderId := 7, accountId := 1, symbolId := 1,
    price := 9, qty := 5 }

theorem run_indexConsistent_oneSymbol :
    oneSymbol.IndexConsistent ∧
      (∃ final answers, run call oneSymbol [.add 1 restingBid, .replace 2 outOfBandReplace] =
        .ok (final, answers)) ∧
      (Along call (fun manager call => manager.keepsIndex call = true) oneSymbol
          [.add 1 restingBid, .replace 2 outOfBandReplace] ↔
        Along call (fun manager call => ∀ later answer, manager.call call = .ok (later, answer) →
          later.IndexConsistent) oneSymbol [.add 1 restingBid, .replace 2 outOfBandReplace]) :=
  run_indexConsistent oneSymbol_created (by decide +kernel)

/-- The refused replace takes the resting bid out of the index. -/
theorem outOfBandReplace_loses_order :
    ∃ final answers, run call oneSymbol [.add 1 restingBid, .replace 2 outOfBandReplace] =
      .ok (final, answers) ∧ ¬final.IndexConsistent := by
  have lost : (match run call oneSymbol [.add 1 restingBid, .replace 2 outOfBandReplace] with
      | .ok (final, _) => final.validSymbol 1 && decide (final.orderSymbol 7 = 0) &&
          (final.findBook 1).any fun book => book.contains 7
      | .error _ => false) = true := by
    decide +kernel
  cases ran : run call oneSymbol [.add 1 restingBid, .replace 2 outOfBandReplace] with
  | error fault =>
      rw [ran] at lost
      cases lost
  | ok result =>
      obtain ⟨final, answers⟩ := result
      rw [ran] at lost
      simp only [Bool.and_eq_true, decide_eq_true_iff, Option.any_eq_true] at lost
      obtain ⟨⟨valid, zero⟩, book, found, held⟩ := lost
      refine ⟨final, answers, rfl, fun consistent => ?_⟩
      have named := (consistent 7 1 valid).mpr ⟨book, found, held⟩
      rw [zero] at named
      cases named

end

end BookManager

end Exsim.Core
