import ScreenerBot.Ledger.Types

/-! The round accumulator: one delta folded at a time, and the round it finishes as. -/
namespace ScreenerBot.Ledger

/-- A round while it is still being built. Balances are exact raw base units. -/
structure Round where
  mint : String
  decimals : ℕ
  roundKey : String
  openedAt : Option ℤ
  closedAt : Option ℤ
  balance : ℤ
  totalAcquired : ℤ
  totalDisposed : ℤ
  entryCount : ℕ
  exitCount : ℕ
  quoteAsset : Option QuoteAsset
  invested : ℚ
  heldCost : HeldCost
  averagePrice : Option ℚ
  realizedProceeds : ℚ
  realizedCost : ℚ
  pricedDisposed : ℚ
  basisComplete : Bool
  historyComplete : Bool
  proceedsComplete : Bool
  entrySignature : Option String
  exitSignature : Option String
  events : List LedgerEvent
  deriving DecidableEq, Repr

/-- The raw balance a delta reports, when `i128` can hold it. -/
def SubjectAssetDelta.before (d : SubjectAssetDelta) : Option ℤ := d.beforeRaw.bind i128OfRaw

def SubjectAssetDelta.after (d : SubjectAssetDelta) : Option ℤ := d.afterRaw.bind i128OfRaw

/-- What a sibling movement could pay for, or be paid by, a movement of `targetMint`. -/
def quoteCandidate (targetMint : String) (acquisition : Bool) (d : SubjectAssetDelta) : Option ℚ :=
  let matchesDirection := if acquisition then decide (d.deltaRaw < 0) else decide (0 < d.deltaRaw)
  if d.mint != targetMint && matchesDirection then
    some (toWholeUnits d.deltaRaw.natAbs d.decimals)
  else none

/-- The first candidate among the movements of the wanted mints. -/
def quoteAmount (group : List SubjectAssetDelta) (targetMint : String) (acquisition : Bool)
    (wanted : String → Bool) : Option ℚ :=
  group.findSome? fun d => if wanted d.mint then quoteCandidate targetMint acquisition d else none

/-- Find what a movement of `targetMint` was traded against, inside the same transaction:
native SOL first, then wSOL, then a stablecoin. One reference leg is never split across
several positions moved in the same direction. -/
def quoteFor (group : List SubjectAssetDelta) (targetMint : String) (acquisition : Bool) :
    Option QuoteLeg :=
  let sameDirectionPositions := group.countP fun d =>
    !isReferenceAsset d.mint && if acquisition then decide (0 < d.deltaRaw) else decide
      (d.deltaRaw < 0)
  if 1 < sameDirectionPositions then none
  else
    let find := quoteAmount group targetMint acquisition
    (((find (· == nativeSolSentinel)).or (find isNativeAsset)).map (QuoteLeg.mk .sol)).or
      ((find isStableAsset).map (QuoteLeg.mk .usd))

namespace Round

/-- A round whose opening acquisition was watched happen from a zero balance. -/
def grounded (d : SubjectAssetDelta) (roundKey : String) : Round where
  mint := d.mint
  decimals := d.decimals
  roundKey := roundKey
  openedAt := d.blockTime
  closedAt := none
  balance := 0
  totalAcquired := 0
  totalDisposed := 0
  entryCount := 0
  exitCount := 0
  quoteAsset := none
  invested := 0
  heldCost := .new
  averagePrice := none
  realizedProceeds := 0
  realizedCost := 0
  pricedDisposed := 0
  basisComplete := true
  historyComplete := true
  proceedsComplete := true
  entrySignature := some d.signature
  exitSignature := none
  events := []

/-- A round that was already running before the history we hold. -/
def genesis (d : SubjectAssetDelta) (roundKey : String) : Round :=
  let round := { grounded d roundKey with
    openedAt := none, entrySignature := none, basisComplete := false, historyComplete := false }
  match d.before with
  | some balance => { round with balance := balance, totalAcquired := balance }
  | none => round

/-- The history has a hole: neither it nor the basis is complete any more. -/
def markHole (r : Round) : Round := { r with historyComplete := false, basisComplete := false }

/-- The chain's own balance before a delta is authoritative over the one carried. -/
def reconcileBefore (r : Round) (d : SubjectAssetDelta) : Round :=
  match d.before with
  | none => r.markHole
  | some before =>
    if before ≠ r.balance then
      { r with balance := before, totalAcquired := max r.totalAcquired before }.markHole
    else r

/-- A leg outside SOL is a real basis the SOL-denominated model cannot express. -/
def acceptSol (r : Round) (leg : QuoteLeg) : Round × Bool :=
  if leg.asset ≠ .sol then ({ r with basisComplete := false }, false) else (r, true)

/-- Record the quote asset; true when it can contribute to a SOL basis. -/
def acceptQuote (r : Round) (leg : QuoteLeg) : Round × Bool :=
  match r.quoteAsset with
  | some existing =>
    if existing ≠ leg.asset then
      ({ r with basisComplete := false, proceedsComplete := false }, false)
    else r.acceptSol leg
  | none => { r with quoteAsset := some leg.asset }.acceptSol leg

def addAcquired (r : Round) (amountRaw : ℤ) : Round :=
  match checkedI128 (r.totalAcquired + amountRaw) with
  | some total => { r with totalAcquired := total }
  | none => r.markHole

def addDisposed (r : Round) (amountRaw : ℤ) : Round :=
  match checkedI128 (r.totalDisposed + amountRaw) with
  | some total => { r with totalDisposed := total }
  | none => r.markHole

/-- Prices a traded acquisition of `amount` whole tokens; returns its price when it joined
the basis. -/
def priceAcquisition (r : Round) (quote : Option QuoteLeg) (traded : Bool) (amount : ℚ)
    (after : ℤ) : Round × Option ℚ :=
  match quote with
  | some leg =>
    let (r, accepted) := r.acceptQuote leg
    if accepted && decide (dust < amount) then
      let heldCost := r.heldCost.acquire leg.amount
      ({ r with
        invested := r.invested + leg.amount
        heldCost := heldCost
        averagePrice := heldCost.average (toWholeUnits (max after 0).natAbs r.decimals) },
        some (leg.amount / amount))
    else (r, none)
  | none => (if traded then { r with basisComplete := false } else r, none)

/-- Counts a traded acquisition; tokens that arrived without a trade have no cost. -/
def countEntry (r : Round) (traded : Bool) : Round :=
  if traded then { r with entryCount := saturatingAddU32 r.entryCount 1 }
  else { r with basisComplete := false }

/-- Stamps the entry signature and opening time a round does not have yet. -/
def stampEntry (r : Round) (d : SubjectAssetDelta) (kind : LedgerEventKind) (before : ℤ) : Round :=
  { r with
    entrySignature := if r.entrySignature = none ∧ kind = .entry then some d.signature
      else r.entrySignature
    openedAt := if r.openedAt = none ∧ before ≤ 0 then d.blockTime else r.openedAt }

/-- Keeps one movement of the round as its own event. -/
def record (r : Round) (d : SubjectAssetDelta) (kind : LedgerEventKind) (amountRaw after : ℤ)
    (quote : Option QuoteLeg) (priceNative : Option ℚ) : Round :=
  { r with events := r.events ++ [{
      signature := d.signature
      slot := d.slot
      blockTime := d.blockTime
      kind := kind
      amount := toWholeUnits amountRaw.natAbs r.decimals
      amountRaw := amountRaw.natAbs
      balanceAfter := toWholeUnits after.natAbs r.decimals
      quote := quote
      priceNative := priceNative
      venue := d.venue }] }

def acquisitionKind (d : SubjectAssetDelta) (before : ℤ) : LedgerEventKind :=
  if d.kind = .trade then if before ≤ 0 then .entry else .add else .receive

def applyAcquisition (r : Round) (group : List SubjectAssetDelta) (d : SubjectAssetDelta)
    (before after : ℤ) : Round :=
  let amountRaw := d.deltaRaw
  let traded := d.kind == .trade
  let kind := acquisitionKind d before
  let r := ((r.countEntry traded).addAcquired amountRaw).stampEntry d kind before
  let quote := if traded then quoteFor group d.mint true else none
  let priced := r.priceAcquisition quote traded (toWholeUnits amountRaw.natAbs r.decimals) after
  priced.1.record d kind amountRaw after quote priced.2

/-- Prices a traded disposal of `amount` whole tokens that released `allocatedBasis`. -/
def priceDisposal (r : Round) (quote : Option QuoteLeg) (traded : Bool)
    (amount allocatedBasis : ℚ) :
    Round × Option ℚ :=
  if traded then
    match quote with
    | some leg =>
      if leg.asset = .sol ∧ r.quoteAsset ≠ some .usd then
        ({ r with
          realizedProceeds := r.realizedProceeds + leg.amount
          realizedCost := r.realizedCost + allocatedBasis
          pricedDisposed := r.pricedDisposed + amount },
          if dust < amount then some (leg.amount / amount) else none)
      else ({ r with proceedsComplete := false }, none)
    | none => ({ r with proceedsComplete := false }, none)
  else (r, none)

/-- Releases the basis of a disposal pro rata against the balance standing before it. -/
def releaseBasis (r : Round) (amountRaw before : ℤ) : Round × ℚ :=
  if 0 < before then
    let (heldCost, released) := r.heldCost.release ((amountRaw : ℚ) / before)
    ({ r with heldCost := heldCost }, released)
  else (r.markHole, 0)

/-- The raw amount a disposal takes out of a round standing at `before`. -/
def disposedRaw (d : SubjectAssetDelta) (before : ℤ) : ℤ :=
  if 0 < before then min (-d.deltaRaw) before else -d.deltaRaw

/-- Counts a traded disposal; tokens sent out are not proceeds. -/
def countExit (r : Round) (traded : Bool) : Round :=
  if traded then { r with exitCount := saturatingAddU32 r.exitCount 1 }
  else { r with proceedsComplete := false }

def stampExit (r : Round) (d : SubjectAssetDelta) (closing traded : Bool) : Round :=
  { r with exitSignature := if closing && traded then some d.signature else r.exitSignature }

def disposalKind (d : SubjectAssetDelta) (after : ℤ) : LedgerEventKind :=
  if d.kind = .trade then if after ≤ 0 then .exit else .partialExit else .send

/-- A disposal that empties the round leaves nothing held. -/
def clearWhen (r : Round) (closing : Bool) : Round :=
  { r with heldCost := if closing then r.heldCost.clear else r.heldCost }

def applyDisposal (r : Round) (group : List SubjectAssetDelta) (d : SubjectAssetDelta)
    (before after : ℤ) : Round :=
  let amountRaw := disposedRaw d before
  let traded := d.kind == .trade
  let closing := decide (after ≤ 0)
  let kind := disposalKind d after
  let r := ((r.countExit traded).addDisposed amountRaw).stampExit d closing traded
  let released := r.releaseBasis amountRaw before
  let r := released.1
  let quote := if traded then quoteFor group d.mint false else none
  let priced := r.priceDisposal quote traded (toWholeUnits amountRaw.natAbs r.decimals) released.2
  (priced.1.record d kind amountRaw after quote priced.2).clearWhen closing

/-- The first delta that knows the decimals supplies them. -/
def learnDecimals (r : Round) (d : SubjectAssetDelta) : Round :=
  if r.decimals = 0 ∧ d.decimals ≠ 0 then { r with decimals := d.decimals } else r

/-- A resulting balance the chain does not report, or reports differently, is a hole. -/
def confirmAfter (r : Round) (d : SubjectAssetDelta) (computedAfter : ℤ) : Round :=
  if d.after ≠ some computedAfter then r.markHole else r

def move (r : Round) (group : List SubjectAssetDelta) (d : SubjectAssetDelta)
    (before after : ℤ) : Round :=
  if 0 < d.deltaRaw then r.applyAcquisition group d before after
  else r.applyDisposal group d before after

/-- The balance a delta leaves, and the close time when it is empty. -/
def settle (r : Round) (d : SubjectAssetDelta) (after : ℤ) : Round :=
  { r with balance := after, closedAt := if after ≤ 0 then d.blockTime else r.closedAt }

/-- Fold one delta into the round. A delta the round cannot represent is a hole in the
history, never a wrapped balance. -/
def apply (r : Round) (group : List SubjectAssetDelta) (d : SubjectAssetDelta) : Round :=
  let r := (r.learnDecimals d).reconcileBefore d
  let before := max r.balance 0
  match checkedI128 (before + d.deltaRaw), checkedI128 (-d.deltaRaw) with
  | some moved, some _ =>
    let computedAfter := max moved 0
    let after := d.after.getD computedAfter
    ((r.confirmAfter d computedAfter).move group d before after).settle d after
  | _, _ => r.markHole

/-- A basis is only complete if every acquisition was priced in SOL and there was one. -/
def basisEstablished (r : Round) : Bool :=
  r.basisComplete && r.quoteAsset == some .sol && decide (0 < r.entryCount)

def finish (r : Round) (stillOpen : Bool) : LedgerRound where
  mint := r.mint
  decimals := r.decimals
  roundKey := r.roundKey
  openedAt := r.openedAt
  closedAt := if stillOpen then none else r.closedAt
  isOpen := stillOpen
  balanceRaw := (max r.balance 0).natAbs
  totalAcquiredRaw := (max r.totalAcquired 0).natAbs
  totalDisposedRaw := (max r.totalDisposed 0).natAbs
  entryCount := r.entryCount
  exitCount := r.exitCount
  investedNative := if r.basisEstablished then r.invested else 0
  remainingBasisNative := if r.basisEstablished then r.heldCost.cost else r.heldCost.clear.cost
  realizedProceedsNative := r.realizedProceeds
  realizedCostNative := r.realizedCost
  averageEntryPriceNative := if r.basisEstablished then r.averagePrice else none
  averageExitPriceNative := if r.proceedsComplete && decide (dust < r.pricedDisposed) then
    some (r.realizedProceeds / r.pricedDisposed) else none
  realizedPnlNative := if r.basisEstablished && r.proceedsComplete && decide (0 < r.exitCount) then
    some (r.realizedProceeds - r.realizedCost) else none
  basisComplete := r.basisEstablished
  historyComplete := r.historyComplete
  entrySignature := r.entrySignature
  exitSignature := r.exitSignature
  events := r.events

def identity (r : Round) : String × String := (r.mint, r.roundKey)

@[simp] theorem markHole_identity (r : Round) : r.markHole.identity = r.identity := rfl

@[simp] theorem reconcileBefore_identity (r : Round) (d : SubjectAssetDelta) :
    (r.reconcileBefore d).identity = r.identity := by
  unfold reconcileBefore
  split
  · rfl
  · split <;> rfl

@[simp] theorem acceptQuote_identity (r : Round) (leg : QuoteLeg) :
    (r.acceptQuote leg).1.identity = r.identity := by
  have hsol (r' : Round) : (r'.acceptSol leg).1.identity = r'.identity := by
    unfold acceptSol; split <;> rfl
  unfold acceptQuote
  split
  · split
    · rfl
    · exact hsol r
  · exact hsol _

@[simp] theorem addAcquired_identity (r : Round) (amountRaw : ℤ) :
    (r.addAcquired amountRaw).identity = r.identity := by
  unfold addAcquired; split <;> rfl

@[simp] theorem addDisposed_identity (r : Round) (amountRaw : ℤ) :
    (r.addDisposed amountRaw).identity = r.identity := by
  unfold addDisposed; split <;> rfl

@[simp] theorem priceAcquisition_identity (r : Round) (quote : Option QuoteLeg) (traded : Bool)
    (amount : ℚ) (after : ℤ) :
    (r.priceAcquisition quote traded amount after).1.identity = r.identity := by
  unfold priceAcquisition
  split
  next leg =>
    dsimp only
    split <;> exact acceptQuote_identity r leg
  next => split <;> rfl

@[simp] theorem countEntry_identity (r : Round) (traded : Bool) :
    (r.countEntry traded).identity = r.identity := by unfold countEntry; split <;> rfl

@[simp] theorem priceDisposal_identity (r : Round) (quote : Option QuoteLeg) (traded : Bool)
    (amount allocatedBasis : ℚ) :
    (r.priceDisposal quote traded amount allocatedBasis).1.identity = r.identity := by
  unfold priceDisposal
  split
  · split
    · split <;> rfl
    · rfl
  · rfl

@[simp] theorem releaseBasis_identity (r : Round) (amountRaw before : ℤ) :
    (r.releaseBasis amountRaw before).1.identity = r.identity := by
  unfold releaseBasis; split <;> rfl

@[simp] theorem countExit_identity (r : Round) (traded : Bool) :
    (r.countExit traded).identity = r.identity := by unfold countExit; split <;> rfl

@[simp] theorem learnDecimals_identity (r : Round) (d : SubjectAssetDelta) :
    (r.learnDecimals d).identity = r.identity := by unfold learnDecimals; split <;> rfl

@[simp] theorem confirmAfter_identity (r : Round) (d : SubjectAssetDelta) (computedAfter : ℤ) :
    (r.confirmAfter d computedAfter).identity = r.identity := by
  unfold confirmAfter; split <;> rfl

@[simp] theorem applyAcquisition_identity (r : Round) (group : List SubjectAssetDelta)
    (d : SubjectAssetDelta) (before after : ℤ) :
    (r.applyAcquisition group d before after).identity = r.identity :=
  calc (r.applyAcquisition group d before after).identity
    _ = (((r.countEntry (d.kind == .trade)).addAcquired d.deltaRaw).stampEntry d
          (acquisitionKind d before) before).identity := priceAcquisition_identity _ _ _ _ _
    _ = ((r.countEntry (d.kind == .trade)).addAcquired d.deltaRaw).identity := rfl
    _ = r.identity := by simp

@[simp] theorem applyDisposal_identity (r : Round) (group : List SubjectAssetDelta)
    (d : SubjectAssetDelta) (before after : ℤ) :
    (r.applyDisposal group d before after).identity = r.identity :=
  calc (r.applyDisposal group d before after).identity
    _ = ((((r.countExit (d.kind == .trade)).addDisposed (disposedRaw d before)).stampExit d
          (decide (after ≤ 0)) (d.kind == .trade)).releaseBasis
            (disposedRaw d before) before).1.identity := priceDisposal_identity _ _ _ _ _
    _ = (((r.countExit (d.kind == .trade)).addDisposed (disposedRaw d before)).stampExit d
          (decide (after ≤ 0)) (d.kind == .trade)).identity := releaseBasis_identity _ _ _
    _ = ((r.countExit (d.kind == .trade)).addDisposed (disposedRaw d before)).identity := rfl
    _ = r.identity := by simp

@[simp] theorem apply_identity (r : Round) (group : List SubjectAssetDelta)
    (d : SubjectAssetDelta) : (r.apply group d).identity = r.identity := by
  unfold apply
  dsimp only
  split
  next =>
    unfold move
    split
    · exact (applyAcquisition_identity _ _ _ _ _).trans (by simp)
    · exact (applyDisposal_identity _ _ _ _ _).trans (by simp)
  next => simp

theorem apply_mint (r : Round) (group : List SubjectAssetDelta) (d : SubjectAssetDelta) :
    (r.apply group d).mint = r.mint := congrArg Prod.fst (r.apply_identity group d)

theorem apply_roundKey (r : Round) (group : List SubjectAssetDelta) (d : SubjectAssetDelta) :
    (r.apply group d).roundKey = r.roundKey := congrArg Prod.snd (r.apply_identity group d)

theorem genesis_identity (d : SubjectAssetDelta) (roundKey : String) :
    (genesis d roundKey).identity = (d.mint, roundKey) := by
  unfold genesis
  dsimp only
  split <;> rfl

theorem genesis_historyComplete (d : SubjectAssetDelta) (roundKey : String) :
    (genesis d roundKey).historyComplete = false := by
  unfold genesis
  dsimp only
  split <;> rfl

theorem genesis_basisComplete (d : SubjectAssetDelta) (roundKey : String) :
    (genesis d roundKey).basisComplete = false := by
  unfold genesis
  dsimp only
  split <;> rfl

/-- An open round's balance is what the reported rounds carry, exactly. -/
theorem finish_balanceRaw {r : Round} (h : 0 ≤ r.balance) (stillOpen : Bool) :
    ((r.finish stillOpen).balanceRaw : ℤ) = r.balance := by
  simp only [finish]
  omega

end Round

end ScreenerBot.Ledger
