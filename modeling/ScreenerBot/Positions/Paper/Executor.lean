import ScreenerBot.Positions.Paper.Book

/-! Paper orders: what the executor prices from the round it read, and books after the landing
wait. -/
namespace ScreenerBot.Positions.Paper
open Library Trader

/-- What the executor reads for one decision: the wallet, the token's decimals, the two quotes of
the fill, and the clock when the leg is built. `key` is the caller's, or a new one. -/
structure ExecutionReads where
  wallet : String
  decimals : ℕ
  initial : Quote
  landing : Quote
  times : QuoteTimes
  strategyId : Option String
  key : String
  legTime : ℤ
  deriving DecidableEq, Repr

/-- How much of a round a decision sells. -/
inductive ExitSize where
  | full
  | partialExit (percentage : ℚ)
  deriving DecidableEq, Repr

/-- The share `rawSellAmount` is asked for. -/
def ExitSize.percentage : ExitSize → Option ℚ
  | .full => none
  | .partialExit percentage => some percentage

/-- A decision to buy a new round, with the market price and the clock read for its opening. -/
structure BuyDecision where
  mint : String
  symbol : String
  name : String
  sizeNative : ℚ
  marketPrice : Option ℚ
  entryTime : ℤ
  origin : PositionOrigin
  management : PositionManagement
  maxOpen : ℕ
  openCooldownSecs : ℕ
  deriving DecidableEq, Repr

/-- A decision to sell from an open round. `price` is the decision's price, or the round's mark. -/
structure SellDecision where
  exitSize : ExitSize
  takeProfitLevel : Option ℕ
  price : Option ℚ
  reason : String
  deriving DecidableEq, Repr

/-- A priced fill that waits for its booking. `epoch` is the paper run it was priced in. -/
inductive PaperOrder where
  | buy (opening : Opening) (fill : PaperFill) (leg : PaperLeg) (terms : PaperOpenTerms)
  | add (positionId : ℤ) (mint : String) (fill : PaperFill) (leg : PaperLeg) (epoch : ℤ)
  | sale (positionId : ℤ) (mint : String) (fill : PaperSellFill) (sale : PaperSale) (leg : PaperLeg)
      (epoch : ℤ)
  deriving DecidableEq, Repr

/-- The quote request of a buy of `sizeNative` of `mint`. -/
def buyRequest (mint wallet : String) (sizeNative : ℚ) : Except PaperFillError QuoteRequest :=
  let size := ⌊sizeNative * 10 ^ nativeAssetDecimals⌋
  if size ≤ 0 then .error .invalidSize
  else match checkedRaw size.toNat with
    | none => .error .invalidSize
    | some inputAmount => .ok ⟨solMint, mint, inputAmount, wallet, .exactIn⟩

/-- The order of a new round, priced in run `epoch`. -/
def buyOrder (decision : BuyDecision) (reads : ExecutionReads) (epoch : ℤ) :
    Except PaperFillError PaperOrder := do
  let request ← buyRequest decision.mint reads.wallet decision.sizeNative
  let fill ← simulateBuy request reads.decimals reads.initial reads.landing reads.times epoch.toNat
  let opening : Opening := {
    mint := decision.mint
    symbol := decision.symbol
    name := decision.name
    entryPrice := decision.marketPrice.getD fill.marketPriceSol
    entryTime := decision.entryTime
    sizeNative := fill.inputSol
    entrySignature := none
    origin := decision.origin
    management := decision.management }
  return .buy opening fill (.buy fill reads.strategyId reads.legTime reads.key)
    ⟨decision.maxOpen, decision.openCooldownSecs, epoch⟩

/-- The order of an add to the round `position`, as it was read, priced in run `epoch`. -/
def addOrder (position : Position) (sizeNative : ℚ) (reads : ExecutionReads) (epoch : ℤ) :
    Except PaperFillError (Option PaperOrder) :=
  match position.id with
  | none => .ok none
  | some positionId => do
    let request ← buyRequest position.mint reads.wallet sizeNative
    let fill ← simulateBuy request reads.decimals reads.initial reads.landing
      reads.times epoch.toNat
    return some (.add positionId position.mint fill
      (.buy fill reads.strategyId reads.legTime reads.key) epoch)

/-- The order of a sale from the round `position`, as it was read, priced in run `epoch`: the amount
is taken from what the round held then. -/
def sellOrder (position : Position) (decision : SellDecision) (reads : ExecutionReads) (epoch : ℤ) :
    Except PaperFillError (Option PaperOrder) :=
  match position.id with
  | none => .ok none
  | some positionId => do
    let amount ← rawSellAmount (position.heldAmount.getD 0) decision.exitSize.percentage
    let fill ← simulateSell ⟨position.mint, solMint, amount, reads.wallet, .exactIn⟩ reads.decimals
      reads.initial reads.landing reads.times epoch.toNat
    let sale := match decision.exitSize with
      | .partialExit percentage => .partialExit percentage decision.takeProfitLevel
      | .full => .full (decision.price.getD fill.marketPriceSol) decision.reason
    return some (.sale positionId position.mint fill sale
      (.sell fill reads.strategyId reads.legTime reads.key) epoch)

namespace PaperOrder

def leg : PaperOrder → PaperLeg
  | buy _ _ leg _ => leg
  | add _ _ _ leg _ => leg
  | sale _ _ _ _ leg _ => leg

/-- The paper run the fill was priced in. -/
def epoch : PaperOrder → ℤ
  | buy _ _ _ terms => terms.epoch
  | add _ _ _ _ epoch => epoch
  | sale _ _ _ _ _ epoch => epoch

/-- The round the fill is booked onto; a buy opens its own. -/
def target : PaperOrder → Option ℤ
  | buy .. => none
  | add positionId .. => some positionId
  | sale positionId .. => some positionId

def isSale : PaperOrder → Bool
  | sale .. => true
  | _ => false

/-- What the booking spends: the size of a buy with its fee. -/
def cost : PaperOrder → ℚ
  | buy _ fill _ _ =>
    Binary64.add fill.inputSol (Rounded.rawToNative (nativeToRaw fill.networkFeeSol))
  | add _ _ fill _ _ =>
    Binary64.add fill.inputSol (Rounded.rawToNative (nativeToRaw fill.networkFeeSol))
  | sale .. => 0

/-- What a buy or an add finds under the capacity lock: the account it spends from, when its checks
pass. An add to a round that is not open in memory is checked against no account. -/
def check (book : PaperBook) (now : ℤ) :
    PaperOrder → Except PaperError (Option (Option PaperAccount))
  | buy opening fill leg terms => do
    let entry ← entryFill opening.mint fill
    match ← book.checkOpen opening.mint entry leg terms now with
    | .inl _ => return none
    | .inr account => return some (some account)
  | add positionId mint fill leg _ => do
    let (dca, _) ← dcaFill mint fill leg
    let account ← book.checkDca positionId dca
    return some account
  | sale .. => .ok none

/-- What the booking makes of the book once its checks passed. -/
def write (book : PaperBook) (now : ℤ) : PaperOrder → Except PaperError PaperBook
  | buy opening fill leg _ => do
    let entry ← entryFill opening.mint fill
    let (_, book) ← book.writeOpen opening entry leg now
    return book
  | add positionId mint fill leg _ => do
    let (dca, decimals) ← dcaFill mint fill leg
    let (_, book) ← book.writeDca positionId dca fill.fillPriceSol decimals leg
    return book
  | sale positionId mint fill way leg _ => do
    let (_, book) ← book.bookSale positionId mint fill way leg
    return book

end PaperOrder

end ScreenerBot.Positions.Paper
