import Mathlib
import ScreenerBot.Library.Keyed
import ScreenerBot.Library.Sorting

/-! Missing ranges of a candle series: the rows that record them, the spans they are filled in, and
what a source's answer writes. -/
namespace ScreenerBot.Ohlcvs
open Library

inductive Timeframe where
  | minute1
  | minute5
  | minute15
  | hour1
  | hour4
  | hour12
  | day1
  deriving DecidableEq, Repr

namespace Timeframe

def toSeconds : Timeframe → ℤ
  | minute1 => 60
  | minute5 => 300
  | minute15 => 900
  | hour1 => 3600
  | hour4 => 14400
  | hour12 => 43200
  | day1 => 86400

theorem toSeconds_pos (timeframe : Timeframe) : 0 < timeframe.toSeconds := by
  cases timeframe <;> decide

theorem toSeconds_injective : Function.Injective toSeconds := by
  intro a b h
  cases a <;> cases b <;> first | rfl | cases h

end Timeframe

/-- A candle as the gap filler reads it. -/
structure Candle where
  timestamp : ℤ
  volume : ℚ
  deriving DecidableEq

def isStorable (candle : Candle) : Bool := decide (0 < candle.volume)

/-- Division truncates. -/
def bucketStart (timestamp : ℤ) (timeframe : Timeframe) : ℤ :=
  timestamp.tdiv timeframe.toSeconds * timeframe.toSeconds

theorem dvd_bucketStart (timestamp : ℤ) (timeframe : Timeframe) :
    timeframe.toSeconds ∣ bucketStart timestamp timeframe := Dvd.intro_left _ rfl

/-- The range of a row of one pool's series. -/
structure RowKey where
  timeframe : Timeframe
  start : ℤ
  stop : ℤ
  deriving DecidableEq, Repr

namespace RowKey

/-- The row lies inside `[start, stop]` of a timeframe. -/
def Inside (key : RowKey) (timeframe : Timeframe) (start stop : ℤ) : Prop :=
  key.timeframe = timeframe ∧ start ≤ key.start ∧ key.stop ≤ stop

instance (key : RowKey) (timeframe : Timeframe) (start stop : ℤ) :
    Decidable (key.Inside timeframe start stop) := by
  unfold Inside
  infer_instance

/-- `b` is a bucket of the row. -/
def Bucket (key : RowKey) (b : ℤ) : Prop :=
  key.timeframe.toSeconds ∣ b ∧ key.start ≤ b ∧ b ≤ key.stop

end RowKey

structure GapRow where
  attempts : ℕ := 0
  lastAttempt : Option ℤ := none
  filled : Bool := false
  errorMessage : Option String := none
  deriving DecidableEq, Repr

/-- The gap rows of one pool. -/
abbrev GapTable := AList fun _ : RowKey => GapRow

/-- A row of the open set. -/
structure GapRecord where
  timeframe : Timeframe
  start : ℤ
  stop : ℤ
  attempts : ℕ
  lastAttempt : Option ℤ

namespace GapTable

/-- Registers a detected gap unless a resolved row contains it. -/
def insertGap (table : GapTable) (timeframe : Timeframe) (start stop : ℤ) : GapTable :=
  if table.entries.any fun e =>
      e.2.filled && decide
        (e.1.timeframe = timeframe ∧ e.1.start ≤ start ∧ stop ≤ e.1.stop) then table
  else if (table.lookup ⟨timeframe, start, stop⟩).isSome then table
  else table.insert ⟨timeframe, start, stop⟩ {}

/-- The unfilled rows; `groupSpans` gives them their order. -/
def getOpenGaps (table : GapTable) (since : ℤ) (maxAttempts : ℕ) : List GapRecord :=
  (table.entries.filter fun e =>
      !e.2.filled && decide (e.2.attempts < maxAttempts) && decide (since ≤ e.1.stop)).map
    fun e => ⟨e.1.timeframe, e.1.start, e.1.stop, e.2.attempts, e.2.lastAttempt⟩

/-- `f` of every unfilled row inside `[start, stop]`. -/
def updateInside (table : GapTable) (timeframe : Timeframe) (start stop : ℤ) (f : GapRow → GapRow) :
    GapTable :=
  mapWithKey (fun key row =>
    if !row.filled && decide (key.Inside timeframe start stop) then f row else row)
    table

def recordGapAttempt (table : GapTable) (timeframe : Timeframe) (start stop attemptedAt : ℤ)
    (error : String) : GapTable :=
  table.updateInside timeframe start stop fun row =>
    { row with attempts := row.attempts + 1, lastAttempt := some attemptedAt, errorMessage
        := some error }

def closeRows (table : GapTable) (timeframe : Timeframe) (start stop attemptedAt : ℤ) : GapTable :=
  table.updateInside timeframe start stop fun row =>
    { row with
      filled := true, attempts := row.attempts + 1, lastAttempt :=
        some attemptedAt, errorMessage := none }

def upsertRow (table : GapTable) (timeframe : Timeframe) (start stop : ℤ) (filled : Bool)
    (attempts : ℕ) (attemptedAt : ℤ) (error : Option String) : GapTable :=
  table.insert ⟨timeframe, start, stop⟩
    { attempts, lastAttempt := some attemptedAt, filled, errorMessage := error }

def resolveGapSpan (table : GapTable) (timeframe : Timeframe) (start stop attemptedAt : ℤ) :
    GapTable :=
  (table.closeRows timeframe start stop attemptedAt).upsertRow timeframe start stop true 1
    attemptedAt none

def splitGapSpan (table : GapTable) (timeframe : Timeframe)
    (start stop coveredStart remainderEnd : ℤ) (attempts : ℕ) (attemptedAt : ℤ) : GapTable :=
  ((table.closeRows timeframe start stop attemptedAt).upsertRow timeframe coveredStart stop true 1
      attemptedAt none).upsertRow timeframe start remainderEnd false attempts attemptedAt
    (some "source answer covered part of the span")

end GapTable

structure GapSpan where
  timeframe : Timeframe
  start : ℤ
  stop : ℤ
  attempts : ℕ
  lastAttempt : Option ℤ
  deriving DecidableEq, Repr

def GapRecord.toSpan (row : GapRecord) : GapSpan where
  timeframe := row.timeframe
  start := row.start
  stop := row.stop
  attempts := row.attempts
  lastAttempt := row.lastAttempt

def maxCandlesPerRequest : ℕ := 1000

def catchUpMargin : ℕ := 2

def gapSpanMaxBuckets : ℕ := maxCandlesPerRequest - catchUpMargin

def maxGapAttempts : ℕ := 6

def gapRetryBaseSecs : ℤ := 240

def bucketsBetween (start stop : ℤ) (timeframe : Timeframe) : ℕ :=
  (max ((stop - start).tdiv (max timeframe.toSeconds 1)) 0).toNat + 1

/-- The later of two attempts, where there was one. -/
def laterAttempt : Option ℤ → Option ℤ → Option ℤ
  | some a, some b => some (max a b)
  | some a, none => some a
  | none, b => b

/-- A row joins the last span or starts one. -/
def groupRow (spans : List GapSpan) (row : GapRecord) : List GapSpan :=
  match spans.getLast? with
  | none => [row.toSpan]
  | some span =>
    if span.timeframe = row.timeframe ∧ (row.start ≤ span.stop + row.timeframe.toSeconds ∨
        bucketsBetween span.start (max span.stop row.stop) row.timeframe ≤ gapSpanMaxBuckets) then
      spans.dropLast ++ [{ span with
        stop := max span.stop row.stop
        attempts := max span.attempts row.attempts
        lastAttempt := laterAttempt span.lastAttempt row.lastAttempt }]
    else spans ++ [row.toSpan]

def groupSpans (rows : List GapRecord) : List GapSpan :=
  (sortBy (fun row => toLex (row.timeframe.toSeconds, toLex (row.start, row.stop))) rows).foldl
    groupRow []

def gapRetryBackoffSecs (attempts : ℕ) : ℤ :=
  match attempts with
  | 0 => 0
  | n + 1 => gapRetryBaseSecs * 2 ^ min n maxGapAttempts

def gapRetryDue (attempts : ℕ) (lastAttempt : Option ℤ) (now : ℤ) : Bool :=
  if maxGapAttempts ≤ attempts then false
  else lastAttempt.elim true fun last => decide (gapRetryBackoffSecs attempts ≤ now - last)

/-- Due spans, most recent first. -/
def selectDueSpans (spans : List GapSpan) (now : ℤ) (budget : ℕ) : List GapSpan :=
  (sortBy (fun span => toLex (-span.stop, -span.start))
    (spans.filter fun span => gapRetryDue span.attempts span.lastAttempt now)).take budget

/-- The due spans of a pool within the retention window. -/
def dueSpans (table : GapTable) (now since : ℤ) (budget : ℕ) : List GapSpan :=
  if budget = 0 then []
  else selectDueSpans (groupSpans (table.getOpenGaps since maxGapAttempts)) now budget

inductive GapOutcome where
  | resolved (candles : ℕ)
  | partial_ (coveredStart : ℤ)
  | inconclusive (reason : String)
  deriving DecidableEq, Repr

/-- The buckets of an answer's storable candles. -/
def answeredBuckets (span : GapSpan) (candles : List Candle) : List ℤ :=
  (candles.filter isStorable).map fun candle => bucketStart candle.timestamp span.timeframe

def evaluateAnswer (span : GapSpan) (candles : List Candle) (serverRefreshing : Bool) :
    GapOutcome :=
  let buckets := answeredBuckets span candles
  match buckets.min? with
  | none => .inconclusive "source returned no candles"
  | some oldest =>
    if serverRefreshing then .inconclusive "data server is refreshing the series"
    else
      let inSpan := (buckets.filter fun b => span.start ≤ b ∧ b ≤ span.stop).length
      if oldest ≤ span.start then .resolved inSpan
      else if 0 < inSpan then .partial_ oldest
      else .inconclusive "source answer did not reach the span"

/-- What an answer to a span records on the gap rows. -/
def applyAnswer (table : GapTable) (span : GapSpan) (candles : List Candle)
    (serverRefreshing : Bool)
    (now : ℤ) : GapTable :=
  match evaluateAnswer span candles serverRefreshing with
  | .resolved _ => table.resolveGapSpan span.timeframe span.start span.stop now
  | .partial_ coveredStart =>
    table.splitGapSpan span.timeframe span.start span.stop coveredStart
      (coveredStart - span.timeframe.toSeconds) span.attempts now
  | .inconclusive reason => table.recordGapAttempt span.timeframe span.start span.stop now reason

/-- The holes between the candles of a series, from one candle to the next. -/
def holes (timeframe : Timeframe) : List ℤ → List (ℤ × ℤ)
  | previous :: current :: rest =>
    if previous + timeframe.toSeconds < current then
      (previous + timeframe.toSeconds, current - timeframe.toSeconds) ::
        holes timeframe (current :: rest)
    else holes timeframe (current :: rest)
  | _ => []

def detectGaps (timestamps : List ℤ) (timeframe : Timeframe) : List (ℤ × ℤ) :=
  holes timeframe (sortBy id timestamps)

end ScreenerBot.Ohlcvs
