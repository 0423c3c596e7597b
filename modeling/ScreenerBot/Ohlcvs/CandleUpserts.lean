import Mathlib.Algebra.Order.Field.Rat
import ScreenerBot.Ohlcvs.Gaps

/-!
The upserts of one candle series: native candles, the last write of which wins, and aggregates of
the stored minutes, which widen a bucket that is still forming.

Each write takes the time it judges closure by and the time the database stamps it with. Prices
and volumes, `f64` in the source, are exact rationals.
-/
namespace ScreenerBot.Ohlcvs

def AGGREGATE_SOURCE : String := "monitor_aggregate"

def NATIVE_SOURCE : String := "backfill"

/-- A candle with its prices. -/
structure PricedCandle extends Candle where
  opening : ℚ
  high : ℚ
  low : ℚ
  close : ℚ
  deriving DecidableEq

/-- A stored candle; `fetchedAt` in seconds. -/
structure CandleRow where
  opening : ℚ
  high : ℚ
  low : ℚ
  close : ℚ
  volume : ℚ
  source : String
  fetchedAt : ℤ
  deriving DecidableEq

/-- The rows of a series by their bucket. -/
abbrev Series := ℤ → Option CandleRow

/-- What the two statements read of the time they run at. -/
structure WriteTime where
  now : ℤ
  clock : ℤ

def PricedCandle.row (candle : PricedCandle) (source : String) (clock : ℤ) : CandleRow :=
  ⟨candle.opening, candle.high, candle.low, candle.close, candle.volume, source, clock⟩

/-- The comparison both statements make: the stored row against the incoming one. -/
def CandleRow.differs (stored incoming : CandleRow) : Bool :=
  stored.opening ≠ incoming.opening ∨ stored.high ≠ incoming.high ∨ stored.low ≠ incoming.low ∨
    stored.close ≠ incoming.close ∨ stored.volume ≠ incoming.volume ∨
    stored.source ≠ incoming.source

/-- Every value of a row but the time it was written. -/
def CandleRow.SameValues (row other : CandleRow) : Prop :=
  { row with fetchedAt := 0 } = { other with fetchedAt := 0 }

def Series.set (series : Series) (timestamp : ℤ) (row : CandleRow) : Series :=
  fun t => if t = timestamp then some row else series t

/-- An insert that updates the stored row on conflict, where the guard lets it. -/
def Series.upsert (series : Series) (timestamp : ℤ) (incoming : CandleRow)
    (update : CandleRow → CandleRow) (guarded : CandleRow → Bool) : ℕ × Series :=
  match series timestamp with
  | none => (1, series.set timestamp incoming)
  | some stored =>
    if guarded stored then (1, series.set timestamp (update stored)) else (0, series)

/-- The statement of `insert_candles_batch_at`. -/
def writeInserted (bucket : ℤ) (source : String) (time : WriteTime) (series : Series)
    (candle : PricedCandle) (alignedTs : ℤ) : ℕ × Series :=
  let incoming := candle.row source time.clock
  series.upsert alignedTs incoming (fun _ => incoming) fun stored =>
    !(source = AGGREGATE_SOURCE ∧ stored.source ≠ AGGREGATE_SOURCE ∧
      alignedTs + bucket ≤ time.now) && stored.differs incoming

/-- The row an aggregate leaves in place of a stored one. -/
def mergedRow (bucket : ℤ) (time : WriteTime) (alignedTs : ℤ) (stored incoming : CandleRow) :
    CandleRow :=
  if time.now < alignedTs + bucket then
    { incoming with
      opening := stored.opening
      high := max stored.high incoming.high
      low := min stored.low incoming.low
      volume := max stored.volume incoming.volume }
  else incoming

/-- The statement of `upsert_aggregate_candles`. -/
def writeAggregate (bucket : ℤ) (time : WriteTime) (series : Series)
    (item : PricedCandle × ℤ) (alignedTs : ℤ) : ℕ × Series :=
  let (candle, newestMinute) := item
  let incoming := candle.row AGGREGATE_SOURCE time.clock
  series.upsert alignedTs incoming (fun stored => mergedRow bucket time alignedTs stored incoming)
    fun stored =>
      decide (stored.source = AGGREGATE_SOURCE ∨ time.now < alignedTs + bucket ∧
        stored.fetchedAt < newestMinute + Timeframe.minute1.toSeconds) && stored.differs incoming

/-- The series and the rows counted after the storable items, each at its bucket. -/
def upsertStorableCandles {T : Type} (timeframe : Timeframe) (candleOf : T → PricedCandle)
    (write : Series → T → ℤ → ℕ × Series) (series : Series) (items : List T) : ℕ × Series :=
  items.foldl (fun (changed, series) item =>
    if isStorable (candleOf item).toCandle then
      let (count, written) := write series item (bucketStart (candleOf item).timestamp timeframe)
      (changed + count, written)
    else (changed, series)) (0, series)

inductive OhlcvError where
  | seriesPoolMoved
  deriving DecidableEq

/-- A batch for a pool that may no longer be the series pool of its token. -/
def guardedBatch {T : Type} (isSeriesPool : Bool) (items : List T) (series : Series)
    (batch : ℕ × Series) : Except OhlcvError ℕ × Series :=
  if items.isEmpty then (.ok 0, series)
  else if isSeriesPool then (.ok batch.1, batch.2)
  else (.error .seriesPoolMoved, series)

def insertCandlesBatchAt (timeframe : Timeframe) (isSeriesPool : Bool) (candles : List PricedCandle)
    (source : String) (time : WriteTime) (series : Series) : Except OhlcvError ℕ × Series :=
  guardedBatch isSeriesPool candles series (upsertStorableCandles timeframe id
    (writeInserted timeframe.toSeconds source time) series candles)

def upsertAggregateCandles (timeframe : Timeframe) (isSeriesPool : Bool)
    (candles : List (PricedCandle × ℤ)) (time : WriteTime) (series : Series) :
    Except OhlcvError ℕ × Series :=
  guardedBatch isSeriesPool candles series (upsertStorableCandles timeframe Prod.fst
    (writeAggregate timeframe.toSeconds time) series candles)

/-- One call. -/
inductive CandleWrite where
  | insert (isSeriesPool : Bool) (candles : List PricedCandle) (source : String) (time : WriteTime)
  | aggregate (isSeriesPool : Bool) (candles : List (PricedCandle × ℤ)) (time : WriteTime)

namespace CandleWrite

def time : CandleWrite → WriteTime
  | insert _ _ _ time => time
  | aggregate _ _ time => time

/-- Written under the aggregate label, by either call. -/
def Aggregated : CandleWrite → Prop
  | insert _ _ source _ => source = AGGREGATE_SOURCE
  | aggregate .. => True

def Merges : CandleWrite → Prop
  | insert .. => False
  | aggregate .. => True

def apply (timeframe : Timeframe) (series : Series) : CandleWrite → Series
  | insert isSeriesPool candles source time =>
    (insertCandlesBatchAt timeframe isSeriesPool candles source time series).2
  | aggregate isSeriesPool candles time =>
    (upsertAggregateCandles timeframe isSeriesPool candles time series).2

end CandleWrite

def CandleWrite.run (timeframe : Timeframe) (series : Series) (writes : List CandleWrite) :
    Series :=
  writes.foldl (CandleWrite.apply timeframe) series

section Statement
variable {series : Series} {timestamp : ℤ} {row : CandleRow}

@[simp] theorem Series.set_self (series : Series) (timestamp : ℤ) (row : CandleRow) :
    series.set timestamp row timestamp = some row := by
  simp [Series.set]

theorem Series.set_other {t : ℤ} (h : t ≠ timestamp) :
    series.set timestamp row t = series t := by
  simp [Series.set, h]

/-- An upsert leaves every other bucket, and one whose row the guard holds back. -/
theorem upsert_leaves {incoming : CandleRow} {update : CandleRow → CandleRow}
    {guarded : CandleRow → Bool} {t : ℤ} (hrow : series t = some row)
    (hguard : t = timestamp → guarded row = false) :
    (series.upsert timestamp incoming update guarded).2 t = some row := by
  unfold Series.upsert
  by_cases ht : t = timestamp
  · subst ht
    simp [hrow, hguard rfl]
  · split
    · simp only [Series.set_other ht, hrow]
    · split
      · simp only [Series.set_other ht, hrow]
      · exact hrow

/-- Otherwise it leaves the row or its update. -/
theorem upsert_cases {incoming : CandleRow} {update : CandleRow → CandleRow}
    {guarded : CandleRow → Bool} (hrow : series timestamp = some row) :
    series.upsert timestamp incoming update guarded =
      if guarded row then (1, series.set timestamp (update row)) else (0, series) := by
  simp [Series.upsert, hrow]

theorem upsertStorable_keeps {T : Type} {timeframe : Timeframe} {candleOf : T → PricedCandle}
    {write : Series → T → ℤ → ℕ × Series} {items : List T} {P : Series → Prop}
    (hwrite : ∀ series item timestamp, P series → P (write series item timestamp).2)
    (h : P series) : P (upsertStorableCandles timeframe candleOf write series items).2 := by
  unfold upsertStorableCandles
  generalize 0 = changed
  induction items generalizing changed series with
  | nil => exact h
  | cons item items ih =>
    rw [List.foldl_cons]
    by_cases hstorable : isStorable (candleOf item).toCandle
    · simp only [hstorable, if_true]
      exact ih (hwrite _ _ _ h) _
    · simp only [hstorable]
      exact ih h _

theorem guardedBatch_keeps {T : Type} {isSeriesPool : Bool} {items : List T} {batch : ℕ × Series}
    {P : Series → Prop} (h : P series) (hbatch : P batch.2) :
    P (guardedBatch isSeriesPool items series batch).2 := by
  unfold guardedBatch
  split
  · exact h
  · split
    · exact hbatch
    · exact h

end Statement

theorem writeInserted_closed {bucket t timestamp : ℤ} {time : WriteTime} {series : Series}
    {candle : PricedCandle} {row : CandleRow} (hrow : series t = some row)
    (hnative : row.source ≠ AGGREGATE_SOURCE) (hclosed : t + bucket ≤ time.now) :
    (writeInserted bucket AGGREGATE_SOURCE time series candle timestamp).2 t = some row := by
  apply upsert_leaves hrow
  rintro rfl
  simp [hnative, hclosed]

theorem writeAggregate_closed {bucket t timestamp : ℤ} {time : WriteTime} {series : Series}
    {item : PricedCandle × ℤ} {row : CandleRow} (hrow : series t = some row)
    (hnative : row.source ≠ AGGREGATE_SOURCE) (hclosed : t + bucket ≤ time.now) :
    (writeAggregate bucket time series item timestamp).2 t = some row := by
  apply upsert_leaves hrow
  rintro rfl
  simp [hnative, not_lt.mpr hclosed]

theorem apply_closed {timeframe : Timeframe} {series : Series} {write : CandleWrite} {t : ℤ}
    {row : CandleRow} (hrow : series t = some row) (hnative : row.source ≠ AGGREGATE_SOURCE)
    (haggregated : write.Aggregated) (hclosed : t + timeframe.toSeconds ≤ write.time.now) :
    write.apply timeframe series t = some row := by
  cases write with
  | insert isSeriesPool candles source time =>
    obtain rfl : source = AGGREGATE_SOURCE := haggregated
    exact guardedBatch_keeps (P := fun s => s t = some row) hrow
      (upsertStorable_keeps (P := fun s => s t = some row)
        (fun _ _ _ h => writeInserted_closed h hnative hclosed) hrow)
  | aggregate isSeriesPool candles time =>
    exact guardedBatch_keeps (P := fun s => s t = some row) hrow
      (upsertStorable_keeps (P := fun s => s t = some row)
        (fun _ _ _ h => writeAggregate_closed h hnative hclosed) hrow)

/-- The open is kept, the range covers what it did, and no volume is lost. -/
structure CandleRow.WidensTo (row wider : CandleRow) : Prop where
  opening : wider.opening = row.opening
  high : row.high ≤ wider.high
  low : wider.low ≤ row.low
  volume : row.volume ≤ wider.volume

theorem CandleRow.WidensTo.rfl {row : CandleRow} : row.WidensTo row :=
  ⟨Eq.refl _, le_refl _, le_refl _, le_refl _⟩

theorem CandleRow.WidensTo.trans {a b c : CandleRow} (hab : a.WidensTo b) (hbc : b.WidensTo c) :
    a.WidensTo c :=
  ⟨hbc.opening.trans hab.opening, hab.high.trans hbc.high, hbc.low.trans hab.low,
    hab.volume.trans hbc.volume⟩

theorem mergedRow_widens {bucket t : ℤ} {time : WriteTime} {stored incoming : CandleRow}
    (hforming : time.now < t + bucket) :
    stored.WidensTo (mergedRow bucket time t stored incoming) := by
  unfold mergedRow
  rw [if_pos hforming]
  exact ⟨rfl, le_max_left _ _, min_le_left _ _, le_max_left _ _⟩

/-- The bucket holds the row or one that is wider. -/
def Series.Widened (series : Series) (t : ℤ) (row : CandleRow) : Prop :=
  ∃ wider, series t = some wider ∧ row.WidensTo wider

theorem writeAggregate_widens {bucket t timestamp : ℤ} {time : WriteTime} {series : Series}
    {item : PricedCandle × ℤ} {row : CandleRow} (hforming : time.now < t + bucket)
    (h : series.Widened t row) :
    (writeAggregate bucket time series item timestamp).2.Widened t row := by
  obtain ⟨stored, hstored, hwider⟩ := h
  by_cases ht : t = timestamp
  · subst ht
    unfold writeAggregate
    obtain ⟨candle, newestMinute⟩ := item
    simp only [upsert_cases hstored]
    split
    · exact ⟨_, Series.set_self _ _ _, hwider.trans (mergedRow_widens hforming)⟩
    · exact ⟨stored, hstored, hwider⟩
  · exact ⟨stored, upsert_leaves hstored (fun heq => absurd heq ht), hwider⟩

theorem apply_widens {timeframe : Timeframe} {series : Series} {write : CandleWrite} {t : ℤ}
    {row : CandleRow} (hmerges : write.Merges)
    (hforming : write.time.now < t + timeframe.toSeconds) (h : series.Widened t row) :
    (write.apply timeframe series).Widened t row := by
  cases write with
  | insert => exact absurd hmerges id
  | aggregate isSeriesPool candles time =>
    exact guardedBatch_keeps (P := fun s => s.Widened t row) h
      (upsertStorable_keeps (P := fun s => s.Widened t row)
        (fun _ _ _ h => writeAggregate_widens hforming h) h)

/-- Aggregated writes leave a closed native row as it is, over any run. -/
theorem run_closed {timeframe : Timeframe} {writes : List CandleWrite} {series : Series} {t : ℤ}
    {row : CandleRow} (hrow : series t = some row) (hnative : row.source ≠ AGGREGATE_SOURCE)
    (hwrites : ∀ write ∈ writes,
      write.Aggregated ∧ t + timeframe.toSeconds ≤ write.time.now) :
    CandleWrite.run timeframe series writes t = some row := by
  induction writes generalizing series with
  | nil => exact hrow
  | cons write writes ih =>
    obtain ⟨⟨haggregated, hclosed⟩, hrest⟩ := List.forall_mem_cons.mp hwrites
    exact ih (apply_closed hrow hnative haggregated hclosed) hrest

/-- Merging writes only widen a forming row, over any run. -/
theorem run_widens {timeframe : Timeframe} {writes : List CandleWrite} {series : Series} {t : ℤ}
    {row : CandleRow} (h : series.Widened t row)
    (hwrites : ∀ write ∈ writes, write.Merges ∧ write.time.now < t + timeframe.toSeconds) :
    (CandleWrite.run timeframe series writes).Widened t row := by
  induction writes generalizing series with
  | nil => exact h
  | cons write writes ih =>
    obtain ⟨⟨hmerges, hforming⟩, hrest⟩ := List.forall_mem_cons.mp hwrites
    exact ih (apply_widens hmerges hforming h) hrest

/-- A write that leaves every stored value counts nothing and leaves the time of the row alone. -/
def Series.QuietAt (series : Series) (t : ℤ) (result : ℕ × Series) : Prop :=
  ∀ stored written, series t = some stored → result.2 t = some written →
    written.SameValues stored → result = (0, series)

/-- A forming aggregate row that covers the incoming one and differs from it. -/
def Covered (bucket : ℤ) (time : WriteTime) (series : Series) (item : PricedCandle × ℤ)
    (t : ℤ) : Prop :=
  ∃ stored, series t = some stored ∧ stored.source = AGGREGATE_SOURCE ∧ time.now < t + bucket ∧
    stored.close = item.1.close ∧ item.1.high ≤ stored.high ∧ stored.low ≤ item.1.low ∧
    item.1.volume ≤ stored.volume ∧
    (stored.opening ≠ item.1.opening ∨ stored.high ≠ item.1.high ∨ stored.low ≠ item.1.low ∨
      stored.volume ≠ item.1.volume)

section Quiet
variable {bucket t : ℤ} {time : WriteTime} {series : Series}

theorem CandleRow.sameValues_iff {row other : CandleRow} :
    row.SameValues other ↔ row.opening = other.opening ∧ row.high = other.high ∧
      row.low = other.low ∧ row.close = other.close ∧ row.volume = other.volume ∧
      row.source = other.source := by
  simp [CandleRow.SameValues]

theorem CandleRow.differs_false_iff {stored incoming : CandleRow} :
    stored.differs incoming = false ↔ stored.SameValues incoming := by
  rw [CandleRow.sameValues_iff]
  simp [CandleRow.differs]

theorem CandleRow.differs_iff {stored incoming : CandleRow} :
    stored.differs incoming = true ↔ stored.opening ≠ incoming.opening ∨
      stored.high ≠ incoming.high ∨ stored.low ≠ incoming.low ∨
      stored.close ≠ incoming.close ∨ stored.volume ≠ incoming.volume ∨
      stored.source ≠ incoming.source := by
  unfold CandleRow.differs
  exact decide_eq_true_iff

@[simp] theorem CandleRow.differs_self (row : CandleRow) : row.differs row = false :=
  CandleRow.differs_false_iff.mpr (Eq.refl _)

theorem writeInserted_stored {source : String} {candle : PricedCandle} {stored : CandleRow}
    (hstored : series t = some stored) :
    writeInserted bucket source time series candle t =
      if !(source = AGGREGATE_SOURCE ∧ stored.source ≠ AGGREGATE_SOURCE ∧
          t + bucket ≤ time.now) && stored.differs (candle.row source time.clock)
      then (1, series.set t (candle.row source time.clock)) else (0, series) := by
  unfold writeInserted
  exact upsert_cases hstored

theorem writeInserted_quiet (source : String) (candle : PricedCandle) :
    series.QuietAt t (writeInserted bucket source time series candle t) := by
  intro stored written hstored hwritten hsame
  rw [writeInserted_stored hstored] at hwritten ⊢
  split at hwritten
  · next hguard =>
    -- The statement wrote the incoming row, which its comparison found to differ.
    obtain rfl : _ = written := by simpa using hwritten
    have hdiffers := (Bool.and_eq_true_iff.mp hguard).2
    rw [CandleRow.differs_false_iff.mpr hsame.symm] at hdiffers
    exact absurd hdiffers (by simp)
  · next hguard => rw [if_neg hguard]

theorem writeAggregate_stored {candle : PricedCandle} {newestMinute : ℤ} {stored : CandleRow}
    (hstored : series t = some stored) :
    writeAggregate bucket time series (candle, newestMinute) t =
      if decide (stored.source = AGGREGATE_SOURCE ∨ time.now < t + bucket ∧
          stored.fetchedAt < newestMinute + Timeframe.minute1.toSeconds) &&
          stored.differs (candle.row AGGREGATE_SOURCE time.clock)
      then (1, series.set t (mergedRow bucket time t stored
        (candle.row AGGREGATE_SOURCE time.clock)))
      else (0, series) := by
  unfold writeAggregate
  exact upsert_cases hstored

/-- A covered row is written again with the values it has. -/
theorem writeAggregate_covered {item : PricedCandle × ℤ} (h : Covered bucket time series item t) :
    ∃ stored written, series t = some stored ∧
      writeAggregate bucket time series item t = (1, series.set t written) ∧
      written.SameValues stored := by
  obtain ⟨candle, newestMinute⟩ := item
  obtain ⟨stored, hstored, hsource, hforming, hclose, hhigh, hlow, hvolume, hdiffer⟩ := h
  refine ⟨stored, mergedRow bucket time t stored (candle.row AGGREGATE_SOURCE time.clock), hstored,
    ?_, ?_⟩
  · rw [writeAggregate_stored hstored, if_pos]
    have : stored.differs (candle.row AGGREGATE_SOURCE time.clock) = true := by
      rw [CandleRow.differs_iff]
      dsimp only [PricedCandle.row] at hdiffer ⊢
      tauto
    simp [hsource, this]
  · rw [CandleRow.sameValues_iff]
    rw [mergedRow, if_pos hforming]
    exact ⟨rfl, max_eq_left hhigh, min_eq_left hlow, hclose.symm, max_eq_left hvolume,
      hsource.symm⟩

/-- A write that leaves every value of a row it writes found it covered. -/
theorem covered_of_same {candle : PricedCandle} {newestMinute : ℤ} {stored : CandleRow}
    (hstored : series t = some stored)
    (hdiffers : stored.differs (candle.row AGGREGATE_SOURCE time.clock) = true)
    (hsame : (mergedRow bucket time t stored
      (candle.row AGGREGATE_SOURCE time.clock)).SameValues stored) :
    Covered bucket time series (candle, newestMinute) t := by
  by_cases hforming : time.now < t + bucket
  · rw [CandleRow.sameValues_iff] at hsame
    simp only [mergedRow, if_pos hforming, PricedCandle.row] at hsame
    obtain ⟨-, hhigh, hlow, hclose, hvolume, hsource⟩ := hsame
    refine ⟨stored, hstored, hsource.symm, hforming, hclose.symm, max_eq_left_iff.mp hhigh,
      min_eq_left_iff.mp hlow, max_eq_left_iff.mp hvolume, ?_⟩
    rw [CandleRow.differs_iff] at hdiffers
    dsimp only [PricedCandle.row] at hdiffers ⊢
    have hcloseStored := hclose.symm
    have hsourceStored := hsource.symm
    tauto
  · -- A closed row is replaced, so that the incoming values are the stored ones.
    rw [mergedRow, if_neg hforming] at hsame
    rw [CandleRow.differs_false_iff.mpr hsame.symm] at hdiffers
    exact absurd hdiffers (by simp)

theorem writeAggregate_quiet_iff {item : PricedCandle × ℤ} :
    series.QuietAt t (writeAggregate bucket time series item t) ↔
      ¬ Covered bucket time series item t := by
  constructor
  · intro hquiet hcovered
    obtain ⟨stored, written, hstored, hresult, hsame⟩ := writeAggregate_covered hcovered
    rw [hresult] at hquiet
    have hnone := hquiet stored written hstored (Series.set_self _ _ _) hsame
    exact absurd (congrArg Prod.fst hnone) (by simp)
  · intro hcovered stored written hstored hwritten hsame
    obtain ⟨candle, newestMinute⟩ := item
    rw [writeAggregate_stored hstored] at hwritten ⊢
    split at hwritten
    · next hguard =>
      obtain rfl : _ = written := by simpa using hwritten
      exact absurd (covered_of_same hstored (Bool.and_eq_true_iff.mp hguard).2 hsame) hcovered
    · next hguard => rw [if_neg hguard]

theorem writeInserted_again (source : String) (candle : PricedCandle) :
    (writeInserted bucket source time
      (writeInserted bucket source time series candle t).2 candle t).1 = 0 := by
  have hreplaced : ∀ series : Series, series t = some (candle.row source time.clock) →
      (writeInserted bucket source time series candle t).1 = 0 := by
    intro series hrow
    rw [writeInserted_stored hrow, CandleRow.differs_self]
    simp
  cases hstored : series t with
  | none =>
    apply hreplaced
    simp [writeInserted, Series.upsert, hstored]
  | some stored =>
    by_cases hguard : (!decide (source = AGGREGATE_SOURCE ∧ stored.source ≠ AGGREGATE_SOURCE ∧
        t + bucket ≤ time.now) && stored.differs (candle.row source time.clock)) = true
    · apply hreplaced
      rw [writeInserted_stored hstored, if_pos hguard]
      exact Series.set_self _ _ _
    · have hheld : writeInserted bucket source time series candle t = (0, series) := by
        rw [writeInserted_stored hstored, if_neg hguard]
      rw [hheld, hheld]

theorem mergedRow_again (stored incoming : CandleRow) :
    mergedRow bucket time t (mergedRow bucket time t stored incoming) incoming =
      mergedRow bucket time t stored incoming := by
  unfold mergedRow
  split
  · simp
  · rfl

theorem writeAggregate_again_iff {item : PricedCandle × ℤ} :
    (writeAggregate bucket time (writeAggregate bucket time series item t).2 item t).1 = 0 ↔
      ¬ Covered bucket time (writeAggregate bucket time series item t).2 item t := by
  constructor
  · intro hcount hcovered
    obtain ⟨stored, written, -, hresult, -⟩ := writeAggregate_covered hcovered
    rw [hresult] at hcount
    exact absurd hcount (by simp)
  · intro hcovered
    obtain ⟨candle, newestMinute⟩ := item
    by_contra hcount
    have hwritten : ∀ row, (writeAggregate bucket time series (candle, newestMinute) t).2 t =
        some row → row.differs (candle.row AGGREGATE_SOURCE time.clock) = true := by
      intro row hrow
      by_contra hdiffers
      rw [writeAggregate_stored hrow, if_neg (by simp [hdiffers])] at hcount
      exact hcount rfl
    cases hstored : series t with
    | none =>
      have hrow : (writeAggregate bucket time series (candle, newestMinute) t).2 t =
          some (candle.row AGGREGATE_SOURCE time.clock) := by
        simp [writeAggregate, Series.upsert, hstored]
      simpa [CandleRow.differs] using hwritten _ hrow
    | some stored =>
      by_cases hguard : (decide (stored.source = AGGREGATE_SOURCE ∨ time.now < t + bucket ∧
          stored.fetchedAt < newestMinute + Timeframe.minute1.toSeconds) &&
          stored.differs (candle.row AGGREGATE_SOURCE time.clock)) = true
      · have hrow : (writeAggregate bucket time series (candle, newestMinute) t).2 t =
            some (mergedRow bucket time t stored (candle.row AGGREGATE_SOURCE time.clock)) := by
          rw [writeAggregate_stored hstored, if_pos hguard]
          simp
        refine hcovered (covered_of_same hrow (hwritten _ hrow) ?_)
        rw [mergedRow_again]
        exact Eq.refl _
      · have hheld : writeAggregate bucket time series (candle, newestMinute) t = (0, series) := by
          rw [writeAggregate_stored hstored, if_neg hguard]
        rw [hheld, hheld] at hcount
        exact hcount rfl

end Quiet

theorem CandleWrite.run_append (timeframe : Timeframe) (series : Series)
    (earlier later : List CandleWrite) :
    run timeframe series (earlier ++ later) = run timeframe (run timeframe series earlier) later :=
  List.foldl_append

/-- After any run, a closed native row outlasts aggregated writes, a forming row only widens under
merging ones, and a write counts what it changes, except where an aggregate is covered. -/
theorem candle_upserts_settled (timeframe : Timeframe) (series : Series) (t : ℤ)
    (earlier : List CandleWrite) :
    (∀ later row, CandleWrite.run timeframe series earlier t = some row →
      row.source ≠ AGGREGATE_SOURCE →
      (∀ write ∈ later, write.Aggregated ∧ t + timeframe.toSeconds ≤ write.time.now) →
      CandleWrite.run timeframe series (earlier ++ later) t = some row) ∧
    (∀ later row, CandleWrite.run timeframe series earlier t = some row →
      (∀ write ∈ later, write.Merges ∧ write.time.now < t + timeframe.toSeconds) →
      (CandleWrite.run timeframe series (earlier ++ later)).Widened t row) ∧
    (∀ reached time, CandleWrite.run timeframe series earlier = reached →
      (∀ source candle,
        reached.QuietAt t (writeInserted timeframe.toSeconds source time reached candle t) ∧
        (writeInserted timeframe.toSeconds source time
          (writeInserted timeframe.toSeconds source time reached candle t).2 candle t).1 = 0) ∧
      ∀ item,
        (reached.QuietAt t (writeAggregate timeframe.toSeconds time reached item t) ↔
          ¬ Covered timeframe.toSeconds time reached item t) ∧
        ((writeAggregate timeframe.toSeconds time
            (writeAggregate timeframe.toSeconds time reached item t).2 item t).1 = 0 ↔
          ¬ Covered timeframe.toSeconds time
            (writeAggregate timeframe.toSeconds time reached item t).2 item t)) := by
  refine ⟨?_, ?_, ?_⟩
  · intro later row hrow hnative hlater
    rw [CandleWrite.run_append]
    exact run_closed hrow hnative hlater
  · intro later row hrow hlater
    rw [CandleWrite.run_append]
    exact run_widens ⟨row, hrow, CandleRow.WidensTo.rfl⟩ hlater
  · rintro reached time rfl
    constructor
    · intro source candle
      exact ⟨writeInserted_quiet source candle, writeInserted_again source candle⟩
    · intro item
      exact ⟨writeAggregate_quiet_iff, writeAggregate_again_iff⟩

/-- An hour read natively at ten minutes past, opened at two. -/
def formingHour : Series :=
  fun t => if t = 0 then some ⟨2, 3, 1, 2, 10, NATIVE_SOURCE, 600⟩ else none

/-- The hour as its stored minutes have it, from the first of them on. -/
def minutesOfHour : PricedCandle × ℤ := (⟨⟨0, 5⟩, 3, 3, 2, 2⟩, 660)

/-- Written twice, it counts twice: the second time it changes the time of the row only. -/
theorem covered_aggregate_counts_again :
    let first := upsertAggregateCandles .hour1 true [minutesOfHour] ⟨720, 720⟩ formingHour
    let second := upsertAggregateCandles .hour1 true [minutesOfHour] ⟨780, 780⟩ first.2
    first.1 = .ok 1 ∧ first.2 0 = some ⟨2, 3, 1, 2, 10, AGGREGATE_SOURCE, 720⟩ ∧
      second.1 = .ok 1 ∧ second.2 0 = some ⟨2, 3, 1, 2, 10, AGGREGATE_SOURCE, 780⟩ := by
  decide

end ScreenerBot.Ohlcvs
