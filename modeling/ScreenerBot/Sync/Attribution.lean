import ScreenerBot.Positions.RoundState

/-! Which part of the wallet's rounds a row of the bot is charged. -/
namespace ScreenerBot.Positions
open Ledger

/-- The swap legs the trader itself executed for one position. -/
structure TraderLegs where
  entrySignatures : Finset String
  exitSignatures : Finset String
  bookedInvestedNative : ℚ
  bookedAcquired : ℕ
  bookedReceivedNative : ℚ
  deriving DecidableEq

def TraderLegs.empty : TraderLegs := ⟨∅, ∅, 0, 0, 0⟩

def TraderLegs.booked (legs : TraderLegs) (signature : String) : Bool :=
  decide (signature ∈ legs.entrySignatures) || decide (signature ∈ legs.exitSignatures)

def Position.isWalletDerived (p : Position) : Bool := p.origin == .external

def solQuote (event : LedgerEvent) : Option ℚ :=
  (event.quote.filter (·.asset == .sol)).map (·.amount)

/-- What a bot row's reconciliation may charge it from a round. -/
structure RoundAttribution where
  own : TraderLegs
  ownEntrySignature : Option String
  /-- Every record, entry and exit signature of the mint's other positions. -/
  bookedElsewhere : Finset String
  /-- What the mint's other open positions hold. -/
  heldElsewhere : ℕ
  /-- The row's records cover its entry, every DCA and every partial exit it booked. -/
  recordsComplete : Bool
  deriving DecidableEq

def Position.accountedSignatures (p : Position) (legs : Option TraderLegs) : Finset String :=
  p.entryTransactionSignature.toFinset ∪ p.exitTransactionSignature.toFinset ∪
    legs.elim ∅ fun legs => legs.entrySignatures ∪ legs.exitSignatures

/-- The attribution of `row` among `mintRows`, every position of its mint. -/
def RoundAttribution.new (row : Position) (mintRows : List Position)
    (legs : ℤ → Option TraderLegs) (heldElsewhere : ℕ) : RoundAttribution :=
  let others := mintRows.filter fun other => other.id.isSome && other.id != row.id
  let own := (row.id.bind legs).getD .empty
  { own := own
    ownEntrySignature := row.entryTransactionSignature
    bookedElsewhere := others.foldl
      (fun booked other => booked ∪ other.accountedSignatures (other.id.bind legs)) ∅
    heldElsewhere := heldElsewhere
    recordsComplete :=
      row.entryTransactionSignature.all
        (fun signature => decide (signature ∈ own.entrySignatures)) &&
        decide (1 + row.dcaCount ≤ own.entrySignatures.card) &&
        decide (row.partialExitCount ≤ own.exitSignatures.card) }

structure RoundShare where
  acquired : ℕ
  investedNative : ℚ
  held : ℕ
  hasOutsideAcquisition : Bool
  basisKnown : Bool
  historyComplete : Bool
  deriving DecidableEq, Repr

/-- SOL received for whole tokens sold outside the bot. -/
structure OutsideProceeds where
  native : ℚ
  tokens : ℚ
  acquired : ℕ
  deriving DecidableEq, Repr

/-- `checked_add` that stops at the largest raw amount. -/
def saturatingRaw (a b : ℕ) : ℕ := min (a + b) u128Max

namespace RoundAttribution

/-- True when another position of the mint booked one of the round's signatures. -/
def shares (a : RoundAttribution) (round : LedgerRound) : Bool :=
  round.events.any fun event => decide (event.signature ∈ a.bookedElsewhere)

/-- True when the row is charged only a part of `round`. -/
def chargesPart (a : RoundAttribution) (round : LedgerRound) (earlier : List LedgerRound) : Bool :=
  !earlier.isEmpty || a.shares round

def isOwn (a : RoundAttribution) (signature : String) : Bool :=
  a.own.booked signature || a.ownEntrySignature == some signature

/-- Where the row's part of `round` starts; `none` when a shared round holds none of the row's
own events. -/
def partStart (a : RoundAttribution) (round : LedgerRound) : Option ℕ :=
  if a.shares round then round.events.findIdx? fun event => a.isOwn event.signature else some 0

def isOutside (a : RoundAttribution) (signature : String) : Bool :=
  !a.isOwn signature && decide (signature ∉ a.bookedElsewhere)

/-- The outside events of the row's part of a round. -/
def outsideEvents (a : RoundAttribution) (round : LedgerRound) (start : ℕ) : List LedgerEvent :=
  (round.events.drop start).filter fun event => a.isOutside event.signature

end RoundAttribution

structure ShareSum where
  acquired : ℕ
  investedNative : ℚ
  hasOutsideAcquisition : Bool
  outsideAcquisitionsPriced : Bool
  basisComplete : Bool
  historyComplete : Bool
  deriving DecidableEq, Repr

def ShareSum.add (sum : ShareSum) (event : LedgerEvent) : ShareSum :=
  match event.kind with
  | .entry | .add =>
    let sum := { sum with
      hasOutsideAcquisition := true, acquired := saturatingRaw sum.acquired event.amountRaw }
    match solQuote event with
    | some sol => { sum with investedNative := sum.investedNative + sol }
    | none => { sum with outsideAcquisitionsPriced := false }
  | .receive => { sum with
      hasOutsideAcquisition := true
      acquired := saturatingRaw sum.acquired event.amountRaw
      outsideAcquisitionsPriced := false }
  | .partialExit | .exit | .send => sum

def ShareSum.addRound (a : RoundAttribution) (sum : ShareSum) (round : LedgerRound) :
    Option ShareSum :=
  (a.partStart round).map fun start =>
    (a.outsideEvents round start).foldl ShareSum.add { sum with
      basisComplete := sum.basisComplete && round.basisComplete
      historyComplete := sum.historyComplete && round.historyComplete }

/-- The row's part of `round`, its home round, and of the `earlier` rounds holding its legs. -/
def roundShare (round : LedgerRound) (earlier : List LedgerRound) (a : RoundAttribution) :
    Option RoundShare :=
  if !a.chargesPart round earlier || !a.recordsComplete then none
  else
    let start : ShareSum :=
      ⟨a.own.bookedAcquired, a.own.bookedInvestedNative, false, true, true, true⟩
    ((earlier ++ [round]).foldlM (ShareSum.addRound a) start).map fun sum =>
      { acquired := sum.acquired
        investedNative := sum.investedNative
        held := attributableHeld round.balanceRaw a.heldElsewhere sum.acquired
        hasOutsideAcquisition := sum.hasOutsideAcquisition
        basisKnown := sum.basisComplete && sum.outsideAcquisitionsPriced
        historyComplete := sum.historyComplete }

structure ProceedsSum where
  disposed : ℕ
  acquired : ℕ
  native : ℚ
  deriving DecidableEq, Repr

/-- Adds an outside event to the proceeds; `none` for a sale without a SOL price and for a
transfer out. -/
def ProceedsSum.add (sum : ProceedsSum) (event : LedgerEvent) : Option ProceedsSum :=
  match event.kind with
  | .partialExit | .exit => (solQuote event).map fun sol =>
    { sum with disposed := saturatingRaw sum.disposed event.amountRaw, native := sum.native + sol }
  | .send => none
  | .entry | .add | .receive =>
    some { sum with acquired := saturatingRaw sum.acquired event.amountRaw }

def ProceedsSum.addRound (a : RoundAttribution) (sum : ProceedsSum) (round : LedgerRound) :
    Option ProceedsSum :=
  if !round.historyComplete then none
  else if 0 < round.exitCount ∧ round.averageExitPriceNative = none then none
  else (a.partStart round).bind fun start =>
    (a.outsideEvents round start).foldlM ProceedsSum.add sum

/-- What the row's part of `round` and of the `earlier` rounds sold outside the bot received. -/
def outsideProceeds (round : LedgerRound) (earlier : List LedgerRound) (a : RoundAttribution) :
    Option OutsideProceeds :=
  if !a.recordsComplete then none
  else ((earlier ++ [round]).foldlM (ProceedsSum.addRound a) ⟨0, 0, 0⟩).bind fun sum =>
    let tokens := toWholeUnits sum.disposed round.decimals
    if dust < tokens then some ⟨sum.native, tokens, sum.acquired⟩ else none

end ScreenerBot.Positions
