import Mathlib.Data.String.Basic
import ScreenerBot.Chain.Amount
import ScreenerBot.Library.Drawdown
import ScreenerBot.Library.Sorting
import ScreenerBot.Library.Text
import ScreenerBot.Trader.TimeWatch

/-!
The realized figures of a window: which closed rounds count as trades, and what is derived of them.

Figures are exact rationals. A calendar day is the number of days since the epoch, and a text shown
to the user is a value of a type of its own.
-/
namespace ScreenerBot.Trader
open Library Ledger
open Positions (PositionOrigin)

/-- A closed position, as far as the figures read it. -/
structure ClosedRound where
  id : Option ℤ
  mint : String
  symbol : String
  name : String
  origin : PositionOrigin
  entryTime : Moment
  exitTime : Option Moment
  closedReason : Option String
  pnl : Option ℚ
  pnlPercent : Option ℚ
  entryFeeRaw : Option ℕ
  exitFeeRaw : Option ℕ
  basisComplete : Bool
  historyComplete : Bool

inductive StatsWindow where
  | days (days : ℕ)
  | all
  deriving DecidableEq

inductive Outcome where
  | win
  | loss
  deriving DecidableEq

structure Streak where
  outcome : Outcome
  length : ℕ
  deriving DecidableEq

inductive PnlBucket where
  | day
  | week
  deriving DecidableEq

/-- `date` is the first day of the bucket. -/
structure DailyPnlPoint where
  date : ℤ
  bucket : PnlBucket
  netPnlNative : ℚ
  trades : ℕ
  deriving DecidableEq

structure GroupFigures where
  count : ℕ
  winners : ℕ
  winRatePct : Option ℚ
  avgProfitPct : Option ℚ
  netPnlNative : Option ℚ
  deriving DecidableEq

/-- How the reasons of closes are shown. -/
structure ReasonTexts (T : Type) where
  groupText : String → T
  storedText : String → T
  unknown : T

structure ExitBreakdown (T : Type) where
  exitType : String
  label : T
  figures : GroupFigures

structure SourceBreakdown where
  source : String
  figures : GroupFigures
  deriving DecidableEq

structure OutcomeBucket where
  lowerPct : Option ℚ
  upperPct : Option ℚ
  count : ℕ
  netPnlNative : ℚ
  deriving DecidableEq

structure RecentRound (T : Type) where
  positionId : Option ℤ
  mint : String
  symbol : String
  name : String
  source : String
  exitTime : ℤ
  holdSecs : ℤ
  pnlNative : Option ℚ
  pnlPercent : Option ℚ
  reason : T

structure RoundTotals where
  closed : ℕ
  winners : ℕ
  losers : ℕ
  excludedUntrusted : ℕ
  realizedNative : ℚ
  winRatePct : Option ℚ
  deriving DecidableEq

structure RealizedStats (T : Type) where
  periodDays : Option ℕ
  totals : RoundTotals
  grossProfitNative : ℚ
  grossLossNative : ℚ
  profitFactor : Option ℚ
  expectancyNative : Option ℚ
  maxDrawdownNative : ℚ
  feesNative : Option ℚ
  payoffRatio : Option ℚ
  avgWinPct : Option ℚ
  avgLossPct : Option ℚ
  avgHoldTimeHours : Option ℚ
  medianHoldTimeHours : Option ℚ
  medianWinHoldHours : Option ℚ
  medianLossHoldHours : Option ℚ
  bestTradePct : Option ℚ
  bestTradeToken : Option String
  worstTradePct : Option ℚ
  worstTradeToken : Option String
  currentStreak : Option Streak
  longestWinStreak : ℕ
  longestLossStreak : ℕ
  dailyPnl : List DailyPnlPoint
  exitBreakdown : List (ExitBreakdown T)
  sourceBreakdown : List SourceBreakdown
  outcomeDistribution : List OutcomeBucket
  recentRounds : List (RecentRound T)

def isPaperResetClose (round : ClosedRound) : Bool := round.closedReason == some "PaperReset"

def hasTrustworthyPnl (round : ClosedRound) : Bool := round.basisComplete && round.historyComplete

/-- The rounds counted as trades, and how many were left out for an incomplete history. -/
def countedRounds (rounds : List ClosedRound) : List ClosedRound × ℕ :=
  let trades := rounds.filter fun round => !isPaperResetClose round
  (trades.filter hasTrustworthyPnl, trades.countP fun round => !hasTrustworthyPnl round)

def Outcome.of (round : ClosedRound) : Option Outcome :=
  match round.pnlPercent with
  | none => none
  | some pct => if 0 < pct then some .win else if pct < 0 then some .loss else none

def RoundTotals.of (counted : List ClosedRound) (excludedUntrusted : ℕ) : RoundTotals :=
  let winners := counted.countP fun round => Outcome.of round = some .win
  let decided := counted.countP fun round => round.pnlPercent.isSome
  { closed := counted.length
    winners := winners
    losers := counted.countP fun round => Outcome.of round = some .loss
    excludedUntrusted := excludedUntrusted
    realizedNative := (counted.filterMap ClosedRound.pnl).sum
    winRatePct := if 0 < decided then some (winners / decided * 100) else none }

def mean (values : List ℚ) : Option ℚ :=
  if values.isEmpty then none else some (values.sum / values.length)

def median (values : List ℚ) : Option ℚ :=
  let sorted := sortBy id values
  let mid := values.length / 2
  if values.isEmpty then none
  else if values.length % 2 = 0 then some ((sorted.getD (mid - 1) 0 + sorted.getD mid 0) / 2)
  else some (sorted.getD mid 0)

/-- The hold of a closed round in hours. -/
def holdHours (round : ClosedRound) : Option ℚ :=
  round.exitTime.map fun exit => (exit.secondsSince round.entryTime : ℚ) / 3600

def holdHoursOf (closed : List ClosedRound) (outcome : Option Outcome) : List ℚ :=
  (closed.filter fun round => outcome.isNone || Outcome.of round = outcome).filterMap holdHours

/-- The fees of the buys and the sales of a position, in whole units of the native asset. -/
def totalFees (round : ClosedRound) : ℚ :=
  toWholeUnits (round.entryFeeRaw.getD 0) 9 + toWholeUnits (round.exitFeeRaw.getD 0) 9

/-- The rounds of one group, accumulated one at a time. -/
structure GroupTotals where
  count : ℕ := 0
  decided : ℕ := 0
  winners : ℕ := 0
  returns : List ℚ := []
  netPnlNative : Option ℚ := none

def GroupTotals.add (totals : GroupTotals) (round : ClosedRound) : GroupTotals where
  count := totals.count + 1
  decided := totals.decided + if round.pnlPercent.isSome then 1 else 0
  winners := totals.winners + if Outcome.of round = some .win then 1 else 0
  returns := totals.returns ++ round.pnlPercent.toList
  netPnlNative :=
    match round.pnl with
    | some pnl => some (totals.netPnlNative.getD 0 + pnl)
    | none => totals.netPnlNative

def GroupTotals.figures (totals : GroupTotals) : GroupFigures where
  count := totals.count
  winners := totals.winners
  winRatePct := if 0 < totals.decided then some (totals.winners / totals.decided * 100) else none
  avgProfitPct := mean totals.returns
  netPnlNative := totals.netPnlNative

def groupFigures (rounds : List ClosedRound) : GroupFigures :=
  (rounds.foldl GroupTotals.add {}).figures

/-- `str::strip_suffix`. -/
def stripSuffix (text suffix : String) : Option String :=
  if suffix.toList <:+ text.toList then
    some (String.ofList (text.toList.take (text.length - suffix.length)))
  else none

/-- The group a stored reason is counted under. -/
def closedReasonKey (stored : Option String) : String :=
  match stored.filter fun reason => trim reason ≠ "" with
  | none => "unknown"
  | some stored =>
    let base := (stripSuffix stored "_pending_verification").getD stored
    if "force_closed".toList <+: base.toList then "force_closed" else base

/-- The groups come out of a hash map in an order of its own, and are then put in order: largest
first, the key breaking a tie. -/
def exitBreakdown {T : Type} (texts : ReasonTexts T) (mapOrder : List String → List String)
    (closed : List ClosedRound) : List (ExitBreakdown T) :=
  let keyOf := fun round : ClosedRound => closedReasonKey round.closedReason
  let groups := (mapOrder (closed.map keyOf).dedup).map fun key =>
    (⟨key, texts.groupText key, groupFigures (closed.filter (keyOf · = key))⟩ : ExitBreakdown T)
  sortBy (fun group => toLex (OrderDual.toDual group.figures.count, group.exitType)) groups

def originKind : PositionOrigin → String
  | .auto _ => "auto"
  | .manual => "manual"
  | .copy _ _ => "copy"
  | .external => "external"

def sourceOrder : List String := ["auto", "copy", "manual", "external"]

def sourceBreakdown (closed : List ClosedRound) : List SourceBreakdown :=
  sourceOrder.filterMap fun source =>
    let figures := groupFigures (closed.filter fun round => originKind round.origin = source)
    if 0 < figures.count then some ⟨source, figures⟩ else none

def outcomeEdgesPct : List ℚ := [-50, -20, -5, 0, 5, 20, 50, 100]

/-- The rounds by return, one bucket per range of the edges; an unknown return is in none. -/
def outcomeDistribution (closed : List ClosedRound) : List OutcomeBucket :=
  if closed.isEmpty then []
  else
    (List.range (outcomeEdgesPct.length + 1)).map fun index =>
      let inside := closed.filter fun round => round.pnlPercent.any fun pct =>
        (outcomeEdgesPct.filter (· ≤ pct)).length = index
      { lowerPct := if index = 0 then none else outcomeEdgesPct[index - 1]?
        upperPct := outcomeEdgesPct[index]?
        count := inside.length
        netPnlNative := (inside.map fun round => round.pnl.getD 0).sum }

/-- The run of outcomes at each round, in exit order; a flat round ends a run. -/
def runs : Option Streak → List ClosedRound → List Streak
  | _, [] => []
  | run, round :: rest =>
    match Outcome.of round with
    | none => runs none rest
    | some outcome =>
      let length := match run with
        | some run => if run.outcome = outcome then run.length + 1 else 1
        | none => 1
      ⟨outcome, length⟩ :: runs (some ⟨outcome, length⟩) rest

def longestRun (closed : List ClosedRound) (outcome : Outcome) : ℕ :=
  ((runs none closed.reverse).filter (·.outcome = outcome)).foldl (fun longest run =>
    max longest run.length) 0

/-- The streak the newest round belongs to. -/
def currentStreak (closed : List ClosedRound) : Option Streak :=
  (closed.head?.bind Outcome.of).map fun outcome =>
    ⟨outcome, (closed.takeWhile fun round => Outcome.of round = some outcome).length⟩

def recentRoundsShown : ℕ := 10

def recentRounds {T : Type} (texts : ReasonTexts T) (closed : List ClosedRound) :
    List (RecentRound T) :=
  (closed.filterMap fun round => round.exitTime.map fun exit =>
    { positionId := round.id
      mint := round.mint
      symbol := round.symbol
      name := round.name
      source := originKind round.origin
      exitTime := exit.timestamp
      holdSecs := exit.secondsSince round.entryTime
      pnlNative := round.pnl
      pnlPercent := round.pnlPercent
      reason :=
        match round.closedReason.filter fun reason => trim reason ≠ "" with
        | some reason => texts.storedText reason
        | none => texts.unknown : RecentRound T }).take recentRoundsShown

/-- Nanoseconds of a day. -/
def dayNanos : ℤ := 86400 * 10 ^ 9

/-- The UTC day of a moment. -/
def dayOf (nanos : ℤ) : ℤ := nanos / dayNanos

def minDay : ℤ := dayOf minNanos

def dailySeriesMaxDays : ℤ := 90

/-- Days since Monday; the epoch was a Thursday. -/
def daysFromMonday (day : ℤ) : ℤ := (day + 3) % 7

/-- The first day of the bucket holding a day. -/
def bucketStart : PnlBucket → ℤ → ℤ
  | .day, day => day
  | .week, day => day - daysFromMonday day

def bucketStep : PnlBucket → ℤ
  | .day => 1
  | .week => 7

def bucketFor (firstDay : Option ℤ) (today : ℤ) : PnlBucket :=
  match firstDay with
  | some first => if dailySeriesMaxDays < today - first + 1 then .week else .day
  | none => .day

/-- What one bucket has gathered. -/
def addToBucket (gathered : ℤ → ℚ × ℕ) (start : ℤ) (pnl : ℚ) : ℤ → ℚ × ℕ :=
  Function.update gathered start ((gathered start).1 + pnl, (gathered start).2 + 1)

/-- The pass over the rounds in exit order: the running P&L, and what each bucket gathers. -/
def seriesStep (bucket : PnlBucket) (s : Drawdown ℚ × (ℤ → ℚ × ℕ)) (round : ClosedRound) :
    Drawdown ℚ × (ℤ → ℚ × ℕ) :=
  let pnl := round.pnl.getD 0
  (s.1.add pnl,
    match round.exitTime with
    | some exit => addToBucket s.2 (bucketStart bucket (dayOf exit.nanos)) pnl
    | none => s.2)

/-- The starts of the buckets from one on, as long as they are not after today. -/
def bucketWalk (step today : ℤ) : ℕ → ℤ → List ℤ
  | 0, _ => []
  | fuel + 1, start => if start ≤ today then start :: bucketWalk step today fuel (start + step)
    else []

/-- The starts of the buckets from the first day's on. -/
def bucketStarts (bucket : PnlBucket) (firstDay : Option ℤ) (today : ℤ) : List ℤ :=
  match firstDay with
  | some first =>
    bucketWalk (bucketStep bucket) today (today - bucketStart bucket first + 1).toNat
      (bucketStart bucket first)
  | none => []

/-- The days whose bucket is asked for: the first one's, and that of each exit. -/
def bucketDays (closed : List ClosedRound) (firstDay : Option ℤ) : List ℤ :=
  firstDay.toList ++ (closed.filterMap ClosedRound.exitTime).map fun exit => dayOf exit.nanos

/-- The series and the drawdown. A bucket that starts before the first day of the calendar ends the
computation. -/
def pnlSeries (closed : List ClosedRound) (windowStart : Option ℤ) (now : Moment) :
    Option (List DailyPnlPoint × ℚ) :=
  let today := dayOf now.nanos
  let firstDay := windowStart.map dayOf
  let bucket := bucketFor firstDay today
  if (bucketDays closed firstDay).any fun day => bucketStart bucket day < minDay then none
  else
    let gathered := closed.reverse.foldl (seriesStep bucket) (Drawdown.start, fun _ => (0, 0))
    some ((bucketStarts bucket firstDay today).map fun start =>
      ⟨start, bucket, (gathered.2 start).1, (gathered.2 start).2⟩, gathered.1.fall)

/-- The order of the figures: newest first, the id breaking a tie. -/
def exitOrder (round : ClosedRound) : Lex ((WithBot ℤ)ᵒᵈ × (WithBot ℤ)ᵒᵈ) :=
  toLex (OrderDual.toDual (round.exitTime.map Moment.nanos), OrderDual.toDual round.id)

/-- The earliest exit a window reads from; a moment before the first timestamp is none. -/
def StatsWindow.since (window : StatsWindow) (now : Moment) : Option ℤ :=
  match window with
  | .days n =>
    if minNanos ≤ now.nanos - n * dayNanos then some (now.nanos - n * dayNanos) else none
  | .all => some 0

/-- Where a window starts: a day window before now, the whole history at its first exit. -/
def windowStart (window : StatsWindow) (recentClosed : List ClosedRound) (now : Moment) :
    Option (Option ℤ) :=
  match window with
  | .days _ => (window.since now).map some
  | .all => some ((recentClosed.filterMap ClosedRound.exitTime).map Moment.nanos).min?

/-- The realized figures of a window, from the rounds it closed. -/
def RealizedStats.of {T : Type} (texts : ReasonTexts T) (mapOrder : List String → List String)
    (window : StatsWindow) (rounds : List ClosedRound) (now : Moment) :
      Option (RealizedStats T) := do
  let recentClosed := sortBy exitOrder rounds
  let start ← windowStart window recentClosed now
  let (closed, excludedUntrusted) := countedRounds recentClosed
  let totals := RoundTotals.of closed excludedUntrusted
  let profits := (closed.filterMap ClosedRound.pnl).filter (0 < ·)
  let losses := ((closed.filterMap ClosedRound.pnl).filter (· < 0)).map fun pnl => |pnl|
  let (dailyPnl, maxDrawdownNative) ← pnlSeries closed start now
  let returned := closed.filter fun round => round.pnlPercent.isSome
  let best := returned.reverse.argmax fun round => round.pnlPercent.getD 0
  let worst := returned.argmin fun round => round.pnlPercent.getD 0
  let returns := closed.filterMap ClosedRound.pnlPercent
  return {
    periodDays := match window with
      | .days days => some days
      | .all => none
    totals := totals
    grossProfitNative := profits.sum
    grossLossNative := losses.sum
    profitFactor := if 0 < losses.sum then some (profits.sum / losses.sum) else none
    expectancyNative := if 0 < totals.closed then some (totals.realizedNative / totals.closed)
      else none
    maxDrawdownNative := maxDrawdownNative
    feesNative := if closed.isEmpty then none else some (closed.map totalFees).sum
    payoffRatio := if ¬ profits.isEmpty ∧ 0 < losses.sum then
        some (profits.sum / profits.length / (losses.sum / losses.length))
      else none
    avgWinPct := mean (returns.filter (0 < ·))
    avgLossPct := mean (returns.filter (· < 0))
    avgHoldTimeHours := mean (holdHoursOf closed none)
    medianHoldTimeHours := median (holdHoursOf closed none)
    medianWinHoldHours := median (holdHoursOf closed (some .win))
    medianLossHoldHours := median (holdHoursOf closed (some .loss))
    bestTradePct := best.bind ClosedRound.pnlPercent
    bestTradeToken := best.map ClosedRound.symbol
    worstTradePct := worst.bind ClosedRound.pnlPercent
    worstTradeToken := worst.map ClosedRound.symbol
    currentStreak := Trader.currentStreak closed
    longestWinStreak := longestRun closed .win
    longestLossStreak := longestRun closed .loss
    dailyPnl := dailyPnl
    exitBreakdown := Trader.exitBreakdown texts mapOrder closed
    sourceBreakdown := Trader.sourceBreakdown closed
    outcomeDistribution := Trader.outcomeDistribution closed
    recentRounds := Trader.recentRounds texts closed }

end ScreenerBot.Trader
