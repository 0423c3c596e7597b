import ScreenerBot.Library.Keyed
import ScreenerBot.Positions.Paper.Booking

/-! Paper trading as it runs: orders are priced, wait and are booked in any order, buys and adds
under the capacity lock, while runs are reset and rounds settled under it. -/
namespace ScreenerBot.Positions.Paper
open Library Trader

/-- Who holds the capacity lock: a buy or an add between its checks and its write, with the account
it was checked against, or a settlement of the rounds `pending`. `reset` is the starting balance of
the run that follows a settlement. -/
inductive Capacity where
  | free
  | buying (order : PaperOrder) (now : ℤ) (account : Option PaperAccount)
  | settling (pending : List PaperRound) (reason : String) (now : ℤ) (reset : Option ℚ)
  deriving DecidableEq, Repr

/-- The paper book with the rounds read for a decision, the orders priced, and the capacity lock. An
order stays after its booking, so the same leg may be booked again. -/
structure PaperDesk where
  book : PaperBook
  targeted : List PaperRound
  orders : List PaperOrder
  capacity : Capacity
  deriving DecidableEq

/-- The steps of paper trading. An order `i` is locked and written, or sold, after the wait; a
settlement closes one round a step. -/
inductive DeskAction where
  | account (startingBalanceNative : ℚ) (now : ℤ)
  | target (positionId : ℤ)
  | priceBuy (decision : BuyDecision) (reads : ExecutionReads)
  | priceAdd (target : ℕ) (sizeNative : ℚ) (reads : ExecutionReads)
  | priceSell (target : ℕ) (decision : SellDecision) (reads : ExecutionReads)
  | lock (i : ℕ) (now : ℤ)
  | write
  | sell (i : ℕ)
  | settleAtMark (rounds : List PaperRound) (reason : String) (now : ℤ)
  | resetRun (startingBalanceNative : ℚ) (reason : String) (now : ℤ)
  | settleNext (currentPrice : Option ℚ) (decimalsOf : String → Option ℕ) (key : String)
  | settled
  | restart

/-- When a run that is reset at `now` starts: just after the latest round entered since. -/
def PaperStore.startedAt (db : PaperStore) (now : ℤ) : ℤ :=
  (db.positionsEnteredSince now).foldl (fun latest row => max latest (row.entryTime + 1)) now

/-- The paper book of a store as a process loads it. -/
def PaperBook.load (db : PaperStore) : PaperBook := ⟨db, (values db.rounds).filter (·.isOpen), none⟩

/-- The open rounds of the store. -/
def PaperStore.openRounds (db : PaperStore) : List PaperRound :=
  (values db.rounds).filter (·.isOpen)

namespace PaperDesk

/-- A desk over an empty store. -/
def new : PaperDesk := ⟨⟨⟨∅, 1, [], [], [], []⟩, [], none⟩, [], [], .free⟩

/-- Adds an order priced in the current run, when there is one. -/
def price (desk : PaperDesk) (order : ℤ → Except PaperFillError (Option PaperOrder)) : PaperDesk :=
  match desk.book.db.currentPaperEpoch with
  | none => desk
  | some epoch =>
    match order epoch.epoch with
    | .ok (some order) => { desk with orders := desk.orders ++ [order] }
    | _ => desk

/-- The book as `order` leaves it; a refused booking leaves it as it was. -/
def booked (desk : PaperDesk) (order : PaperOrder) (now : ℤ) : PaperBook :=
  match order.write desk.book now with
  | .ok book => book
  | .error _ => desk.book

/-- Order `i` passes its checks under the capacity lock and holds it, or lets it go. -/
def lock (desk : PaperDesk) (i : ℕ) (now : ℤ) : PaperDesk :=
  match desk.capacity, desk.orders[i]? with
  | .free, some order =>
    match order.check desk.book now with
    | .ok (some account) => { desk with capacity := .buying order now account }
    | _ => desk
  | _, _ => desk

/-- Closes the next pending round at its mark. The leg's key is a new one, so no stored leg has it.
A round that cannot be closed ends the settlement. -/
def settleNext (desk : PaperDesk) (currentPrice : Option ℚ) (decimalsOf : String → Option ℕ)
    (key : String) : PaperDesk :=
  match desk.capacity with
  | .settling (round :: pending) reason now reset =>
    if (desk.book.db.paperLeg (PaperLeg.reference key)).isSome then desk
    else match desk.book.settleRound round currentPrice decimalsOf reason key now with
      | .ok (_, book) => { desk with book := book, capacity := .settling pending reason now reset }
      | .error _ => { desk with capacity := .free }
  | _ => desk

/-- A settlement with no round left ends; after a reset the next run starts. -/
def settled (desk : PaperDesk) : PaperDesk :=
  match desk.capacity with
  | .settling [] _ _ none => { desk with capacity := .free }
  | .settling [] _ now (some startingBalanceNative) =>
    let db := desk.book.db
    { desk with
      book := { desk.book with db := db.startPaperEpoch startingBalanceNative (db.startedAt now) }
      capacity := .free }
  | _ => desk

def step (desk : PaperDesk) : DeskAction → PaperDesk
  | .account startingBalanceNative now =>
    { desk with book := desk.book.account startingBalanceNative now }
  | .target positionId =>
    { desk with targeted := desk.targeted ++ (desk.book.position positionId).toList }
  | .priceBuy decision reads => desk.price fun epoch => (buyOrder decision reads epoch).map some
  | .priceAdd target sizeNative reads =>
    match desk.targeted[target]? with
    | some round => desk.price (addOrder round.row sizeNative reads)
    | none => desk
  | .priceSell target decision reads =>
    match desk.targeted[target]? with
    | some round => desk.price (sellOrder round.row decision reads)
    | none => desk
  | .lock i now => desk.lock i now
  | .write =>
    match desk.capacity with
    | .buying order now _ => { desk with book := desk.booked order now, capacity := .free }
    | _ => desk
  | .sell i =>
    match desk.orders[i]?.filter (·.isSale) with
    | some order => { desk with book := desk.booked order 0 }
    | none => desk
  | .settleAtMark rounds reason now =>
    match desk.capacity with
    | .free => { desk with capacity := .settling rounds reason now none }
    | _ => desk
  | .resetRun startingBalanceNative reason now =>
    match desk.capacity with
    | .free =>
      { desk with capacity := .settling desk.book.opened reason now (some startingBalanceNative) }
    | _ => desk
  | .settleNext currentPrice decimalsOf key => desk.settleNext currentPrice decimalsOf key
  | .settled => desk.settled
  | .restart => ⟨.load desk.book.db, [], [], .free⟩

/-- The order a step writes. -/
def booking (desk : PaperDesk) : DeskAction → Option PaperOrder
  | .write =>
    match desk.capacity with
    | .buying order _ _ => some order
    | _ => none
  | .sell i => desk.orders[i]?.filter (·.isSale)
  | _ => none

variable {desk : PaperDesk}

theorem price_book {order : ℤ → Except PaperFillError (Option PaperOrder)} :
    (desk.price order).book = desk.book := by
  unfold price
  split
  · rfl
  · split <;> rfl

theorem lock_book {i : ℕ} {now : ℤ} : (desk.lock i now).book = desk.book := by
  unfold lock
  split
  · split <;> rfl
  · rfl

end PaperDesk

/-- The rounds, their records and their legs are as they were. -/
structure PaperStore.Same (db db' : PaperStore) : Prop where
  rounds : db'.rounds = db.rounds
  nextId : db'.nextId = db.nextId
  entries : db'.entries = db.entries
  exits : db'.exits = db.exits
  legs : db'.legs = db.legs

theorem PaperStore.Same.refl (db : PaperStore) : db.Same db := ⟨rfl, rfl, rfl, rfl, rfl⟩

/-- What a step makes of the book: it keeps the rounds, writes an order, or closes a pending round
at its mark. -/
inductive DeskStep (desk : PaperDesk) : DeskAction → PaperBook → Prop where
  | kept {action : DeskAction} {book' : PaperBook} (hsame : desk.book.db.Same book'.db) :
      DeskStep desk action book'
  | wrote {action : DeskAction} (order : PaperOrder) (now : ℤ)
      (hbooking : desk.booking action = some order) : DeskStep desk action (desk.booked order now)
  | closedAtMark {currentPrice : Option ℚ} {decimalsOf : String → Option ℕ} {key reason : String}
      {round : PaperRound} {pending : List PaperRound} {now : ℤ} {reset : Option ℚ}
      {booked : PaperBooked} {book' : PaperBook}
      (hcapacity : desk.capacity = .settling (round :: pending) reason now reset)
      (hnew : desk.book.db.paperLeg (PaperLeg.reference key) = none)
      (hsettle : desk.book.settleRound round currentPrice decimalsOf reason key now =
        .ok (booked, book')) : DeskStep desk (.settleNext currentPrice decimalsOf key) book'

theorem PaperDesk.desk_step (desk : PaperDesk) (action : DeskAction) :
    DeskStep desk action (desk.step action).book := by
  have hkept : desk.book.db.Same desk.book.db := .refl _
  cases action with
  | account startingBalanceNative now =>
    refine .kept ?_
    simp only [step, PaperBook.account]
    split
    · exact hkept
    · exact ⟨rfl, rfl, rfl, rfl, rfl⟩
  | target positionId => exact .kept hkept
  | priceBuy decision reads =>
    simp only [step, price_book]
    exact .kept hkept
  | priceAdd target sizeNative reads =>
    simp only [step]
    split
    · rw [price_book]
      exact .kept hkept
    · exact .kept hkept
  | priceSell target decision reads =>
    simp only [step]
    split
    · rw [price_book]
      exact .kept hkept
    · exact .kept hkept
  | lock i now =>
    simp only [step, lock_book]
    exact .kept hkept
  | write =>
    simp only [step]
    split
    next order now account hcapacity => exact .wrote order now (by simp only [booking, hcapacity])
    · exact .kept hkept
  | sell i =>
    simp only [step]
    split
    next order horder => exact .wrote order 0 horder
    · exact .kept hkept
  | settleAtMark rounds reason now =>
    simp only [step]
    split <;> exact .kept hkept
  | resetRun startingBalanceNative reason now =>
    simp only [step]
    split <;> exact .kept hkept
  | settleNext currentPrice decimalsOf key =>
    simp only [step, settleNext]
    split
    next hcapacity =>
      split
      · exact .kept hkept
      next hnew =>
        split
        next hsettle => exact .closedAtMark hcapacity (by simpa using hnew) hsettle
        · exact .kept hkept
    · exact .kept hkept
  | settled =>
    simp only [step, settled]
    split
    · exact .kept hkept
    · exact .kept ⟨rfl, rfl, rfl, rfl, rfl⟩
    · exact .kept hkept
  | restart => exact .kept hkept

end ScreenerBot.Positions.Paper
