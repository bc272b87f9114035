import Exsim.Core.BookManager
import Exsim.Reference.Crossing
import Exsim.Reference.Feed

/-! # The reference market: a book for each symbol and the symbol of each order

The index is a function of what rests where, brought up to date once after each
call instead of event by event.
-/

namespace Exsim.Core

open Data.Keyed

structure ArrivalMarket where
  maxSymbol : SymbolId
  books : SymbolId → ArrivalBook
  symbolOf : OrderId → Option SymbolId

namespace ArrivalMarket

def validSymbol (market : ArrivalMarket) (symbol : SymbolId) : Bool :=
  !(symbol = 0 || symbol > market.maxSymbol)

/-- Puts in place the book a call left.  An order that is gone loses its symbol,
and the order `added` gets it if it rests. -/
def settle (market : ArrivalMarket) (symbol : SymbolId) (after : ArrivalBook) (added : OrderId) :
    ArrivalMarket :=
  { market with
    books := Function.update market.books symbol after
    symbolOf := fun id =>
      if id = added ∧ after.holds id = true then some symbol
      else if (market.books symbol).holds id = true ∧ after.holds id = false then none
      else market.symbolOf id }

def forget (market : ArrivalMarket) (id : OrderId) : ArrivalMarket :=
  { market with symbolOf := Function.update market.symbolOf id none }

def addOrder (market : ArrivalMarket) (seq : SeqNo) (cmd : ClientCommand) :
    ArrivalMarket × MatchOutput :=
  let (after, out) :=
    (market.books cmd.symbolId).addOrder seq cmd.orderId cmd.accountId cmd.side cmd.price cmd.qty
    cmd.tif
  (market.settle cmd.symbolId after cmd.orderId, out)

def cancelOrder (market : ArrivalMarket) (seq : SeqNo) (id : OrderId) :
    ArrivalMarket × Option MdEvent :=
  match market.symbolOf id with
  | none => (market, none)
  | some symbol =>
      let (after, ev) := (market.books symbol).cancelOrder seq id
      (market.settle symbol after id, ev)

def replaceOrder (market : ArrivalMarket) (seq : SeqNo) (cmd : ClientCommand) :
    ArrivalMarket × MatchOutput :=
  match market.symbolOf cmd.cancelOrderId with
  | none => (market, { reject := .unknownOrder })
  | some symbol =>
      let (after, out) :=
        (market.books symbol).replaceOrder seq cmd.cancelOrderId cmd.orderId cmd.accountId cmd.side
        cmd.price cmd.qty cmd.tif
      ((market.forget cmd.cancelOrderId).settle symbol after cmd.orderId, out)

def feedAdd (market : ArrivalMarket) (ev : MdEvent) : ArrivalMarket × Bool :=
  if market.validSymbol ev.symbolId then
    let (after, ok) :=
      (market.books ev.symbolId).feedAdd ev.orderId ev.accountId ev.side ev.price ev.qty
    if ok then (market.settle ev.symbolId after ev.orderId, true) else (market, false)
  else (market, false)

def feedExecute (market : ArrivalMarket) (ev : MdEvent) : ArrivalMarket × Bool :=
  match market.symbolOf ev.orderId with
  | none => (market, false)
  | some symbol =>
      let (after, ok) := (market.books symbol).feedExecute ev.orderId ev.qty
      (market.settle symbol after ev.orderId, ok)

/-- The books are sound and each is of its own symbol. -/
structure Sound (market : ArrivalMarket) : Prop where
  books : ∀ symbol, market.validSymbol symbol = true → (market.books symbol).Sound
  symbolId : ∀ symbol, market.validSymbol symbol = true → (market.books symbol).symbolId = symbol

/-- An order with a symbol rests in the book of that symbol. -/
def Listed (market : ArrivalMarket) : Prop :=
  ∀ id symbol, market.symbolOf id = some symbol →
    market.validSymbol symbol = true ∧ (market.books symbol).holds id = true

/-- The symbol of an order is the one in whose book it rests. -/
def Indexed (market : ArrivalMarket) : Prop :=
  ∀ id symbol, market.symbolOf id = some symbol ↔
    market.validSymbol symbol = true ∧ (market.books symbol).holds id = true

/-- Some book other than that of `symbol` holds an order. -/
def Elsewhere (market : ArrivalMarket) (symbol : SymbolId) (id : OrderId) : Prop :=
  ∃ other, market.validSymbol other = true ∧ other ≠ symbol ∧ (market.books other).holds id = true

/-- No order rests in two books. -/
def Apart (market : ArrivalMarket) : Prop :=
  ∀ symbol id, market.validSymbol symbol = true → (market.books symbol).holds id = true →
    ¬market.Elsewhere symbol id

section

variable {market : ArrivalMarket} {symbol other : SymbolId} {after : ArrivalBook}
  {id added : OrderId}

theorem settle_books_self : (market.settle symbol after added).books symbol = after :=
  Function.update_self _ _ _

theorem settle_books_of_ne (different : other ≠ symbol) :
    (market.settle symbol after added).books other = market.books other :=
  Function.update_of_ne different _ _

theorem settle_validSymbol : (market.settle symbol after added).validSymbol other =
    market.validSymbol other := rfl

theorem settle_symbolOf : (market.settle symbol after added).symbolOf id =
    if id = added ∧ after.holds id = true then some symbol
    else if (market.books symbol).holds id = true ∧ after.holds id = false then none
    else market.symbolOf id := rfl

theorem forget_symbolOf : (market.forget id).symbolOf =
    Function.update market.symbolOf id none := rfl

/-- Putting a book back that did not change. -/
theorem settle_self
    (kept : market.symbolOf added = some symbol ∨ (market.books symbol).holds added = false) :
    market.settle symbol (market.books symbol) added = market := by
  have sameBooks : (market.settle symbol (market.books symbol) added).books = market.books :=
    Function.update_eq_self _ _
  have sameIndex : (market.settle symbol (market.books symbol) added).symbolOf =
      market.symbolOf := by
    funext id
    rw [settle_symbolOf]
    split
    · rename_i isAdded
      rcases kept with kept | absent
      · rw [isAdded.1, kept]
      · rw [isAdded.1, absent] at isAdded
        exact absurd isAdded.2 (by decide)
    · split
      · rename_i both
        exact absurd (both.1.symm.trans both.2) (by decide)
      · rfl
  cases market with
  | mk maxSymbol books symbolOf => exact congr (congrArg (mk maxSymbol) sameBooks) sameIndex

theorem Indexed.listed (indexed : market.Indexed) : market.Listed :=
  fun id symbol => (indexed id symbol).mp

theorem Sound.settle (sound : market.Sound) (kept : after.Sound) (same : after.symbolId = symbol) :
    (market.settle symbol after added).Sound := by
  constructor <;> intro other valid <;> by_cases isSymbol : other = symbol
  · rw [isSymbol, settle_books_self]
    exact kept
  · rw [settle_books_of_ne isSymbol]
    exact sound.books other valid
  · rw [isSymbol, settle_books_self]
    exact same
  · rw [settle_books_of_ne isSymbol]
    exact sound.symbolId other valid

theorem Listed.forget (listed : market.Listed) (id : OrderId) : (market.forget id).Listed := by
  intro other symbol found
  rw [forget_symbolOf] at found
  by_cases isId : other = id
  · rw [isId, Function.update_self] at found
    cases found
  · rw [Function.update_of_ne isId] at found
    exact listed other symbol found

theorem Listed.settle (listed : market.Listed) (valid : market.validSymbol symbol = true) :
    (market.settle symbol after added).Listed := by
  intro id other found
  rw [settle_symbolOf] at found
  split at found
  · rename_i isAdded
    obtain rfl := Option.some.inj found
    exact ⟨valid, by rw [settle_books_self]; exact isAdded.2⟩
  · split at found
    · cases found
    · rename_i stays
      obtain ⟨validOther, held⟩ := listed id other found
      refine ⟨validOther, ?_⟩
      by_cases isSymbol : other = symbol
      · rw [isSymbol] at held ⊢
        rw [settle_books_self]
        by_contra gone
        exact stays ⟨held, Bool.eq_false_iff.mpr gone⟩
      · rw [settle_books_of_ne isSymbol]
        exact held

theorem Indexed.apart (indexed : market.Indexed) : market.Apart := by
  intro symbol id valid held elsewhere
  obtain ⟨other, validOther, different, heldOther⟩ := elsewhere
  have here := (indexed id symbol).mpr ⟨valid, held⟩
  have there := (indexed id other).mpr ⟨validOther, heldOther⟩
  rw [here] at there
  exact different (Option.some.inj there).symm

/-- Books stay apart exactly if the order added to one rests in no other. -/
theorem Apart.settle (apart : market.Apart) (valid : market.validSymbol symbol = true)
    (only : ∀ id, after.holds id = true → (market.books symbol).holds id = true ∨ id = added) :
    (market.settle symbol after added).Apart ↔
    ¬(after.holds added = true ∧ market.Elsewhere symbol added) := by
  constructor
  · intro settled both
    obtain ⟨held, other, validOther, different, heldOther⟩ := both
    refine settled symbol added valid (by rw [settle_books_self]; exact held)
      ⟨other, validOther, different, ?_⟩
    rw [settle_books_of_ne different]
    exact heldOther
  · intro alone one id validOne held elsewhere
    obtain ⟨two, validTwo, different, heldTwo⟩ := elsewhere
    -- What the settled book holds it held before, or is the order added.
    have clash : ∀ other, market.validSymbol other = true → other ≠ symbol → after.holds id = true →
        (market.books other).holds id = true → False := by
      intro other validOther away heldAfter heldOther
      cases only id heldAfter with
      | inl before => exact apart symbol id valid before ⟨other, validOther, away, heldOther⟩
      | inr isAdded =>
          subst isAdded
          exact alone ⟨heldAfter, other, validOther, away, heldOther⟩
    by_cases oneHere : one = symbol
    · subst oneHere
      rw [settle_books_self] at held
      rw [settle_books_of_ne different] at heldTwo
      exact clash two validTwo different held heldTwo
    · rw [settle_books_of_ne oneHere] at held
      by_cases twoHere : two = symbol
      · subst twoHere
        rw [settle_books_self] at heldTwo
        exact clash one validOne oneHere heldTwo held
      · rw [settle_books_of_ne twoHere] at heldTwo
        exact apart one id validOne held ⟨two, validTwo, different, heldTwo⟩

/-- An index that was right stays so exactly if the books stay apart. -/
theorem Indexed.settle (indexed : market.Indexed) (valid : market.validSymbol symbol = true)
    (only : ∀ id, after.holds id = true → (market.books symbol).holds id = true ∨ id = added) :
    (market.settle symbol after added).Indexed ↔ (market.settle symbol after added).Apart := by
  refine ⟨fun settled => settled.apart, fun settled => ?_⟩
  have alone := (indexed.apart.settle valid only).mp settled
  intro id other
  refine ⟨indexed.listed.settle valid id other, fun both => ?_⟩
  obtain ⟨validOther, held⟩ := both
  rw [settle_symbolOf]
  rw [settle_validSymbol] at validOther
  by_cases isSymbol : other = symbol
  · subst isSymbol
    rw [settle_books_self] at held
    split
    · rfl
    · rename_i notAdded
      rw [if_neg (by rw [held]; simp)]
      have before : (market.books other).holds id = true :=
        (only id held).resolve_right fun isAdded => notAdded ⟨isAdded, held⟩
      exact (indexed id other).mpr ⟨valid, before⟩
  · rw [settle_books_of_ne isSymbol] at held
    have found := (indexed id other).mpr ⟨validOther, held⟩
    have notAdded : ¬(id = added ∧ after.holds id = true) := by
      intro both
      obtain ⟨rfl, heldHere⟩ := both
      exact alone ⟨heldHere, other, validOther, isSymbol, held⟩
    have notHere : ¬((market.books symbol).holds id = true ∧ after.holds id = false) := by
      intro both
      have here := (indexed id symbol).mpr ⟨valid, both.1⟩
      rw [found] at here
      exact isSymbol (Option.some.inj here)
    rw [if_neg notAdded, if_neg notHere]
    exact found

end

end ArrivalMarket

end Exsim.Core
