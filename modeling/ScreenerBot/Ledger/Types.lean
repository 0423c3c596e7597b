import ScreenerBot.Chain.Amount

/-! The wallet-history ledger's data: observed balance deltas, and the rounds reduced from
them. -/
namespace ScreenerBot.Ledger

inductive DeltaKind where
  | trade | transfer | deFi | other
  deriving DecidableEq, Repr

/-- One subject-relative asset movement within one transaction. Raw amounts are in base
units; slots, times and indices are the chain's own integers. -/
structure SubjectAssetDelta where
  signature : String
  mint : String
  slot : Option ℕ
  blockTime : Option ℤ
  txIndex : ℕ
  deltaRaw : ℤ
  beforeRaw : Option ℕ
  afterRaw : Option ℕ
  decimals : ℕ
  kind : DeltaKind
  venue : Option String
  success : Bool
  deriving DecidableEq, Repr

/-- The asset a trade's consideration was denominated in. -/
inductive QuoteAsset where
  | sol | usd
  deriving DecidableEq, Repr

structure QuoteLeg where
  asset : QuoteAsset
  amount : ℚ
  deriving DecidableEq, Repr

/-- What one balance movement meant for its round. -/
inductive LedgerEventKind where
  | entry | add | partialExit | exit | receive | send
  deriving DecidableEq, Repr

def LedgerEventKind.isAcquisition : LedgerEventKind → Bool
  | .entry | .add | .receive => true
  | .partialExit | .exit | .send => false

structure LedgerEvent where
  signature : String
  slot : Option ℕ
  blockTime : Option ℤ
  kind : LedgerEventKind
  amount : ℚ
  amountRaw : ℕ
  balanceAfter : ℚ
  quote : Option QuoteLeg
  priceNative : Option ℚ
  venue : Option String
  deriving DecidableEq, Repr

/-- One `0 -> ... -> 0` lifecycle of one mint. -/
structure LedgerRound where
  mint : String
  decimals : ℕ
  roundKey : String
  openedAt : Option ℤ
  closedAt : Option ℤ
  isOpen : Bool
  balanceRaw : ℕ
  totalAcquiredRaw : ℕ
  totalDisposedRaw : ℕ
  entryCount : ℕ
  exitCount : ℕ
  investedNative : ℚ
  remainingBasisNative : ℚ
  realizedProceedsNative : ℚ
  realizedCostNative : ℚ
  averageEntryPriceNative : Option ℚ
  averageExitPriceNative : Option ℚ
  realizedPnlNative : Option ℚ
  basisComplete : Bool
  historyComplete : Bool
  entrySignature : Option String
  exitSignature : Option String
  events : List LedgerEvent
  deriving DecidableEq, Repr

/-- The latest moment the round was observed to exist. -/
def LedgerRound.lastSeenAt (r : LedgerRound) : Option ℤ :=
  (r.events.filterMap LedgerEvent.blockTime).max?.or r.openedAt

/-- The slot of the round's latest event. -/
def LedgerRound.lastSlot (r : LedgerRound) : Option ℕ :=
  (r.events.filterMap LedgerEvent.slot).max?

/-- A currently-held balance read from the wallet. -/
structure WalletHolding where
  mint : String
  amountRaw : ℕ
  decimals : ℕ
  deriving DecidableEq, Repr

/-- Assets that denominate trades rather than being positions themselves. -/
def isReferenceAsset (mint : String) : Bool := mint == nativeSolSentinel || isQuoteAsset mint

/-- What the tokens a holding still holds cost, under the moving-average rule. -/
structure HeldCost where
  cost : ℚ
  deriving DecidableEq, Repr

namespace HeldCost

def new : HeldCost := ⟨0⟩

def atAverage (average heldWhole : ℚ) : HeldCost := ⟨average * heldWhole⟩

def acquire (h : HeldCost) (spent : ℚ) : HeldCost := ⟨h.cost + spent⟩

/-- A sale of `fraction` of what is held; returns what stays and the cost released. -/
def release (h : HeldCost) (fraction : ℚ) : HeldCost × ℚ :=
  let released := h.cost * max 0 (min fraction 1)
  (⟨max (h.cost - released) 0⟩, released)

def clear (_ : HeldCost) : HeldCost := ⟨0⟩

/-- The average cost per whole token of `heldWhole` tokens. -/
def average (h : HeldCost) (heldWhole : ℚ) : Option ℚ :=
  if dust < heldWhole then
    let average := h.cost / heldWhole
    if 0 < average then some average else none
  else none

@[simp] theorem new_cost : new.cost = 0 := rfl

@[simp] theorem acquire_cost (h : HeldCost) (spent : ℚ) :
    (h.acquire spent).cost = h.cost + spent := rfl

@[simp] theorem clear_cost (h : HeldCost) : h.clear.cost = 0 := rfl

/-- What a sale releases and what stays make up the cost before it. -/
theorem release_split (h : HeldCost) (fraction : ℚ) (hc : 0 ≤ h.cost) :
    (h.release fraction).1.cost + (h.release fraction).2 = h.cost := by
  have hf : max 0 (min fraction 1) ≤ 1 := max_le zero_le_one (min_le_right _ _)
  have hle : h.cost * max 0 (min fraction 1) ≤ h.cost := mul_le_of_le_one_right hc hf
  simp only [release]
  rw [max_eq_left (sub_nonneg.mpr hle)]
  ring

theorem release_cost_nonneg (h : HeldCost) (fraction : ℚ) :
    0 ≤ (h.release fraction).1.cost := le_max_right _ _

/-- Selling everything held releases the whole cost. -/
theorem release_all (h : HeldCost) : (h.release 1).1.cost = 0 := by
  simp [release]

end HeldCost

end ScreenerBot.Ledger
