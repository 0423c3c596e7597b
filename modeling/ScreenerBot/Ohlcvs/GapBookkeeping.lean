import ScreenerBot.Library.Run
import ScreenerBot.Ohlcvs.GapSpans

/-! Gap bookkeeping over whole runs: what is marked filled was answered, what was not answered is
open. -/
namespace ScreenerBot.Ohlcvs
open Library

namespace GapTable

/-- The table holds a row of the key, marked `filled` or not. -/
def HasRow (table : GapTable) (filled : Bool) (key : RowKey) : Prop :=
  ∃ row, table.lookup key = some row ∧ row.filled = filled

variable {table : GapTable} {timeframe : Timeframe} {start stop attemptedAt : ℤ} {filled : Bool}
  {key : RowKey}

theorem hasRow_updateInside {f : GapRow → GapRow} :
    (table.updateInside timeframe start stop f).HasRow filled key ↔
      ∃ row, table.lookup key = some row ∧
        (if !row.filled && decide (key.Inside timeframe start stop) then f row else row).filled =
          filled := by
  simp only [HasRow, updateInside, lookup_mapWithKey, Option.map_eq_some_iff]
  constructor
  · rintro ⟨-, ⟨row, hrow, rfl⟩, hfilled⟩
    exact ⟨row, hrow, hfilled⟩
  · rintro ⟨row, hrow, hfilled⟩
    exact ⟨_, ⟨row, hrow, rfl⟩, hfilled⟩

theorem hasRow_recordGapAttempt {error : String} :
    (table.recordGapAttempt timeframe start stop attemptedAt error).HasRow filled key ↔
      table.HasRow filled key := by
  rw [recordGapAttempt, hasRow_updateInside]
  simp only [HasRow]
  refine exists_congr fun row => and_congr_right fun _ => ?_
  split <;> rfl

theorem hasRow_closeRows :
    (table.closeRows timeframe start stop attemptedAt).HasRow filled key ↔
      if filled then table.HasRow true key ∨
        (table.HasRow false key ∧ key.Inside timeframe start stop)
      else table.HasRow false key ∧ ¬key.Inside timeframe start stop := by
  rw [closeRows, hasRow_updateInside]
  simp only [HasRow]
  cases hlookup : table.lookup key with
  | none => cases filled <;> simp
  | some row =>
    by_cases hinside : key.Inside timeframe start stop <;> cases hrow : row.filled <;>
      cases filled <;> simp [hinside, hrow]

theorem hasRow_upsertRow {mark : Bool} {attempts : ℕ} {error : Option String} :
    (table.upsertRow timeframe start stop mark attempts attemptedAt error).HasRow filled key ↔
      (key = ⟨timeframe, start, stop⟩ ∧ mark = filled) ∨
        (key ≠ ⟨timeframe, start, stop⟩ ∧ table.HasRow filled key) := by
  simp only [HasRow, upsertRow]
  by_cases hkey : key = ⟨timeframe, start, stop⟩
  · subst hkey
    simp [AList.lookup_insert]
  · simp [AList.lookup_insert_ne hkey, hkey]

/-- A resolved span keeps no open row inside it. -/
theorem hasRow_resolveGapSpan :
    (table.resolveGapSpan timeframe start stop attemptedAt).HasRow filled key ↔
      if filled then table.HasRow true key ∨
        (table.HasRow false key ∧ key.Inside timeframe start stop) ∨
        key = ⟨timeframe, start, stop⟩
      else table.HasRow false key ∧ ¬key.Inside timeframe start stop := by
  rw [resolveGapSpan, hasRow_upsertRow, hasRow_closeRows]
  have hself : key = ⟨timeframe, start, stop⟩ → key.Inside timeframe start stop := by
    rintro rfl
    exact ⟨rfl, le_refl _, le_refl _⟩
  cases filled
  · simp only [Bool.true_eq_false, and_false, false_or, Bool.false_eq_true, if_false]
    constructor
    · exact fun h => h.2
    · exact fun h => ⟨fun he => h.2 (hself he), h⟩
  · simp only [if_true, and_true]
    tauto

/-- A split span keeps the remainder as its only open row. -/
theorem hasRow_splitGapSpan {coveredStart remainderEnd : ℤ} {attempts : ℕ}
    (hcovered : start < coveredStart) :
    (table.splitGapSpan timeframe start stop coveredStart remainderEnd attempts attemptedAt).HasRow
      filled key ↔
      if filled then key ≠ ⟨timeframe, start, remainderEnd⟩ ∧ (table.HasRow true key ∨
        (table.HasRow false key ∧ key.Inside timeframe start stop) ∨
          key = ⟨timeframe, coveredStart, stop⟩)
      else key = ⟨timeframe, start, remainderEnd⟩ ∨
        (table.HasRow false key ∧ ¬key.Inside timeframe start stop) := by
  rw [splitGapSpan, hasRow_upsertRow, hasRow_upsertRow, hasRow_closeRows]
  have hself : key = ⟨timeframe, coveredStart, stop⟩ → key.Inside timeframe start stop := by
    rintro rfl
    exact ⟨rfl, hcovered.le, le_refl _⟩
  cases filled
  · simp only [Bool.true_eq_false, and_false, and_true, false_or, Bool.false_eq_true, if_false]
    tauto
  · simp only [if_true, and_true, Bool.false_eq_true, and_false, false_or]
    tauto

theorem insertGap_cases (table : GapTable) (timeframe : Timeframe) (start stop : ℤ) :
    (table.insertGap timeframe start stop = table ∧
      ∃ filled key, table.HasRow filled key ∧ key.timeframe = timeframe ∧ key.start ≤ start ∧
        stop ≤ key.stop) ∨
    (table.lookup ⟨timeframe, start, stop⟩ = none ∧
      table.insertGap timeframe start stop = table.insert ⟨timeframe, start, stop⟩ {}) := by
  simp only [insertGap]
  split
  · rename_i hresolved
    obtain ⟨⟨key, row⟩, hentry, hrow⟩ := List.any_eq_true.mp hresolved
    simp only [Bool.and_eq_true, decide_eq_true_eq] at hrow
    exact .inl ⟨rfl, true, key, ⟨row, AList.mem_lookup_iff.mpr hentry, hrow.1⟩, hrow.2⟩
  · split
    · rename_i hsome
      obtain ⟨row, hrow⟩ := Option.isSome_iff_exists.mp hsome
      exact .inl ⟨rfl, row.filled, _, ⟨row, hrow, rfl⟩, rfl, le_refl _, le_refl _⟩
    · rename_i hnone
      exact .inr ⟨Option.not_isSome_iff_eq_none.mp hnone, rfl⟩

/-- A row of the open set is an open row. -/
theorem hasRow_of_getOpenGaps {since : ℤ} {maxAttempts : ℕ} {record : GapRecord}
    (h : record ∈ table.getOpenGaps since maxAttempts) :
    table.HasRow false ⟨record.timeframe, record.start, record.stop⟩ := by
  simp only [getOpenGaps, List.mem_map, List.mem_filter, Bool.and_eq_true, Bool.not_eq_true',
    decide_eq_true_eq] at h
  obtain ⟨⟨key, row⟩, ⟨hentry, ⟨hopen, -⟩, -⟩, rfl⟩ := h
  exact ⟨row, AList.mem_lookup_iff.mpr hentry, hopen⟩

end GapTable

/-- A source's answer to a span. -/
structure Answer where
  span : GapSpan
  candles : List Candle
  serverRefreshing : Bool
  deriving DecidableEq

/-- The answer reaches back to `b`, within its span. -/
def Answer.Covers (answer : Answer) (timeframe : Timeframe) (b : ℤ) : Prop :=
  answer.span.timeframe = timeframe ∧ answer.serverRefreshing = false ∧
    (∃ oldest ∈ answeredBuckets answer.span answer.candles, oldest ≤ b) ∧ b ≤ answer.span.stop

/-- The gap rows of one pool, the spans its gap cycle has still to fill, and what the run has seen:
the gaps registered and the answers. -/
structure GapState where
  table : GapTable := ∅
  due : List GapSpan := []
  registered : List RowKey := []
  answers : List Answer := []

/-- Detection over a stored series, given by the numbers of its buckets; a scan for due spans; the
answer to the next span, or its failure; the end of a cycle. -/
inductive GapEvent where
  | detected (timeframe : Timeframe) (series : List ℤ)
  | scanned (now since : ℤ) (budget : ℕ)
  | answered (candles : List Candle) (serverRefreshing : Bool) (now : ℤ)
  | failed (reason : String) (now : ℤ)
  | stopped

def register (timeframe : Timeframe) (s : GapState) (gap : ℤ × ℤ) : GapState :=
  { s with
    table := s.table.insertGap timeframe gap.1 gap.2
    registered := s.registered ++ [⟨timeframe, gap.1, gap.2⟩] }

def step (s : GapState) : GapEvent → GapState
  | .detected timeframe series =>
    (detectGaps (series.map (· * timeframe.toSeconds)) timeframe).foldl (register timeframe) s
  | .scanned now since budget => { s with due := dueSpans s.table now since budget }
  | .answered candles serverRefreshing now =>
    match s.due with
    | [] => s
    | span :: rest =>
      { s with
        table := applyAnswer s.table span candles serverRefreshing now
        due := rest
        answers := s.answers ++ [⟨span, candles, serverRefreshing⟩] }
  | .failed reason now =>
    match s.due with
    | [] => s
    | span :: rest =>
      { s with
        table := s.table.recordGapAttempt span.timeframe span.start span.stop now reason, due :=
          rest }
  | .stopped => { s with due := [] }

namespace GapState

def Covered (s : GapState) (timeframe : Timeframe) (b : ℤ) : Prop :=
  ∃ answer ∈ s.answers, answer.Covers timeframe b

/-- The buckets that lie in an open row. -/
def openBuckets (s : GapState) (timeframe : Timeframe) : Set ℤ :=
  {b | ∃ key, s.table.HasRow false key ∧ key.timeframe = timeframe ∧ key.Bucket b}

/-- Filled rows were answered, and registered gaps are answered or open. -/
structure Bookkept (s : GapState) : Prop where
  filled : ∀ key, s.table.HasRow true key → ∀ b, key.Bucket b → s.Covered key.timeframe b
  registered : ∀ key ∈ s.registered, ∀ b, key.Bucket b →
    s.Covered key.timeframe b ∨ b ∈ s.openBuckets key.timeframe

/-- The next span and the bucket a partial answer to it covers it from. -/
def partialAnswer (s : GapState) : GapEvent → Option (GapSpan × ℤ)
  | .answered candles serverRefreshing _ =>
    match s.due with
    | [] => none
    | span :: _ =>
      match evaluateAnswer span candles serverRefreshing with
      | .partial_ coveredStart => some (span, coveredStart)
      | _ => none
  | _ => none

/-- An answer begins between two rows: each open row that meets the span is the part it does not
cover, or lies in the part it covers. -/
def BetweenRows (s : GapState) (span : GapSpan) (coveredStart : ℤ) : Prop :=
  ∀ key, s.table.HasRow false key → key.timeframe = span.timeframe → key.start ≤ span.stop →
    span.start ≤ key.stop →
    key = ⟨span.timeframe, span.start, coveredStart - span.timeframe.toSeconds⟩ ∨
      key.Inside span.timeframe coveredStart span.stop

end GapState

theorem evaluateAnswer_resolved {span : GapSpan} {candles : List Candle}
    {serverRefreshing : Bool} {n : ℕ}
    (h : evaluateAnswer span candles serverRefreshing = .resolved n) :
    serverRefreshing = false ∧ ∃ oldest ∈ answeredBuckets span candles, oldest ≤ span.start := by
  simp only [evaluateAnswer] at h
  split at h
  · cases h
  · rename_i oldest holdest
    split at h
    · cases h
    · rename_i hfresh
      split at h
      · rename_i hreached
        exact ⟨Bool.eq_false_iff.mpr hfresh, oldest, List.min?_mem holdest, hreached⟩
      · split at h <;> cases h

theorem evaluateAnswer_partial {span : GapSpan} {candles : List Candle} {serverRefreshing : Bool}
    {coveredStart : ℤ} (h : evaluateAnswer span candles serverRefreshing = .partial_ coveredStart) :
    serverRefreshing = false ∧ coveredStart ∈ answeredBuckets span candles ∧
      span.start < coveredStart ∧ coveredStart ≤ span.stop := by
  simp only [evaluateAnswer] at h
  split at h
  · cases h
  · rename_i oldest holdest
    split at h
    · cases h
    · rename_i hfresh
      split at h
      · cases h
      · rename_i hreached
        split at h
        · rename_i hinside
          cases h
          obtain ⟨b, hb⟩ := List.exists_mem_of_length_pos hinside
          obtain ⟨hmem, hrange⟩ := List.mem_filter.mp hb
          simp only [decide_eq_true_eq] at hrange
          have hle : coveredStart ≤ b := (List.min?_eq_some_iff.mp holdest).2 b hmem
          exact ⟨Bool.eq_false_iff.mpr hfresh, List.min?_mem holdest, not_le.mp hreached,
            hle.trans hrange.2⟩
        · cases h

theorem dvd_of_mem_answeredBuckets {span : GapSpan} {candles : List Candle} {b : ℤ}
    (h : b ∈ answeredBuckets span candles) : span.timeframe.toSeconds ∣ b := by
  simp only [answeredBuckets, List.mem_map] at h
  obtain ⟨candle, -, rfl⟩ := h
  exact dvd_bucketStart _ _

/-- The next bucket of a timeframe is its length further on. -/
theorem bucket_succ_le {timeframe : Timeframe} {a b : ℤ} (ha : timeframe.toSeconds ∣ a)
    (hb : timeframe.toSeconds ∣ b) (h : a < b) : a + timeframe.toSeconds ≤ b := by
  have hle := Int.le_of_dvd (sub_pos.mpr h) (dvd_sub hb ha)
  omega

/-- The row begins and ends with a bucket. -/
structure RowKey.Aligned (key : RowKey) : Prop where
  start : key.timeframe.toSeconds ∣ key.start
  stop : key.timeframe.toSeconds ∣ key.stop
  le : key.start ≤ key.stop

theorem aligned_of_mem_holes {timeframe : Timeframe} : ∀ {timestamps : List ℤ} {gap : ℤ × ℤ},
    (∀ t ∈ timestamps, timeframe.toSeconds ∣ t) → gap ∈ holes timeframe timestamps →
    RowKey.Aligned ⟨timeframe, gap.1, gap.2⟩
  | [], _, _, hgap => by cases hgap
  | [_], _, _, hgap => by cases hgap
  | previous :: current :: rest, gap, hdvd, hgap => by
    have hrest : ∀ t ∈ current :: rest, timeframe.toSeconds ∣ t :=
      fun t ht => hdvd t (List.mem_cons_of_mem _ ht)
    have hprevious := hdvd previous List.mem_cons_self
    have hcurrent := hrest current List.mem_cons_self
    rw [holes] at hgap
    split at hgap
    · rename_i hmissing
      rcases List.mem_cons.mp hgap with rfl | hgap
      · have hle := bucket_succ_le (dvd_add_self_right.mpr hprevious) hcurrent hmissing
        refine ⟨dvd_add_self_right.mpr hprevious, dvd_sub_self_right.mpr hcurrent, ?_⟩
        show previous + timeframe.toSeconds ≤ current - timeframe.toSeconds
        omega
      · exact aligned_of_mem_holes hrest hgap
    · exact aligned_of_mem_holes hrest hgap

theorem aligned_of_mem_detectGaps {timeframe : Timeframe} {series : List ℤ} {gap : ℤ × ℤ}
    (h : gap ∈ detectGaps (series.map (· * timeframe.toSeconds)) timeframe) :
    RowKey.Aligned ⟨timeframe, gap.1, gap.2⟩ := by
  refine aligned_of_mem_holes (fun t ht => ?_) h
  obtain ⟨n, -, rfl⟩ := List.mem_map.mp ((mem_sortBy _ _ _).mp ht)
  exact Dvd.intro_left n rfl

namespace GapState

/-- The rows a span was grouped from are open still: the first and the last of them. -/
structure Fresh (s : GapState) (span : GapSpan) : Prop where
  first : ∃ key, s.table.HasRow false key ∧ key.timeframe = span.timeframe ∧
    key.start = span.start ∧
    key.stop ≤ span.stop
  last : ∃ key, s.table.HasRow false key ∧ key.timeframe = span.timeframe ∧ span.start ≤ key.start ∧
    key.stop = span.stop

structure Sound (s : GapState) : Prop where
  aligned : ∀ filled key, s.table.HasRow filled key → key.Aligned
  fresh : ∀ span ∈ s.due, s.Fresh span
  apart : s.due.Pairwise GapSpan.Apart
  held : ∀ filled key, s.table.HasRow filled key → ∀ b, key.Bucket b →
    s.Covered key.timeframe b ∨ b ∈ s.openBuckets key.timeframe
  registered : ∀ key ∈ s.registered, ∀ b, key.Bucket b →
    s.Covered key.timeframe b ∨ b ∈ s.openBuckets key.timeframe

variable {s : GapState}

theorem sound_start : Sound {} := by
  constructor
  · rintro filled key ⟨row, hrow, -⟩
    cases hrow
  · intro span hspan
    cases hspan
  · exact List.Pairwise.nil
  · rintro filled key ⟨row, hrow, -⟩
    cases hrow
  · intro key hkey
    cases hkey

theorem Covered.mono {s' : GapState} (h : ∀ answer ∈ s.answers, answer ∈ s'.answers)
    {timeframe : Timeframe} {b : ℤ} : s.Covered timeframe b → s'.Covered timeframe b :=
  fun ⟨answer, hanswer, hcovers⟩ => ⟨answer, h answer hanswer, hcovers⟩

/-- A step that leaves the rows and their marks leaves a sound state sound, under fresh spans
apart. -/
theorem Sound.of_same_rows {s' : GapState} (h : s.Sound)
    (hrows : ∀ filled key, s'.table.HasRow filled key ↔ s.table.HasRow filled key)
    (hregistered : s'.registered = s.registered)
    (hanswers : ∀ answer ∈ s.answers, answer ∈ s'.answers)
    (hfresh : ∀ span ∈ s'.due, s.Fresh span) (hapart : s'.due.Pairwise GapSpan.Apart) :
      s'.Sound := by
  have hopen (timeframe : Timeframe) : s'.openBuckets timeframe = s.openBuckets timeframe := by
    ext b
    simp only [openBuckets, hrows]
  constructor
  · exact fun filled key hrow => h.aligned filled key ((hrows filled key).mp hrow)
  · intro span hspan
    obtain ⟨⟨first, hfirst, hrestfirst⟩, ⟨last, hlast, hrestlast⟩⟩ := hfresh span hspan
    exact ⟨⟨first, (hrows false first).mpr hfirst, hrestfirst⟩,
      ⟨last, (hrows false last).mpr hlast, hrestlast⟩⟩
  · exact hapart
  · intro filled key hrow b hb
    rw [hopen]
    exact (h.held filled key ((hrows filled key).mp hrow) b hb).imp_left (.mono hanswers)
  · intro key hkey b hb
    rw [hopen]
    rw [hregistered] at hkey
    exact (h.registered key hkey b hb).imp_left (.mono hanswers)

theorem fresh_of_mem_dueSpans {now since : ℤ} {budget : ℕ} {span : GapSpan}
    (h : span ∈ dueSpans s.table now since budget) : s.Fresh span := by
  obtain ⟨⟨first, hfirst, htf, hstart, hstop⟩, ⟨last, hlast, htf', hstart', hstop'⟩⟩ :=
    (dueSpans_spec s.table now since budget).1 span h
  exact ⟨⟨_, GapTable.hasRow_of_getOpenGaps hfirst, htf, hstart, hstop⟩,
    ⟨_, GapTable.hasRow_of_getOpenGaps hlast, htf', hstart', hstop'⟩⟩

/-- Registering a gap keeps every row and holds the gap. -/
theorem sound_register (h : s.Sound) {timeframe : Timeframe} {gap : ℤ × ℤ}
    (haligned : RowKey.Aligned ⟨timeframe, gap.1, gap.2⟩) : (register timeframe s gap).Sound := by
  have hrows : ∀ {filled key}, s.table.HasRow filled key →
      (register timeframe s gap).table.HasRow filled key := by
    rintro filled key ⟨row, hrow, hfilled⟩
    rcases GapTable.insertGap_cases s.table timeframe gap.1 gap.2 with ⟨hsame, -⟩ | ⟨hnone, hinsert⟩
    · exact ⟨row, (congrArg (AList.lookup key) hsame).trans hrow, hfilled⟩
    · have hne : key ≠ ⟨timeframe, gap.1, gap.2⟩ := by
        rintro rfl
        rw [hnone] at hrow
        cases hrow
      refine ⟨row, ?_, hfilled⟩
      show (s.table.insertGap timeframe gap.1 gap.2).lookup key = some row
      rw [hinsert, AList.lookup_insert_ne hne]
      exact hrow
  have hback : ∀ {filled key}, (register timeframe s gap).table.HasRow filled key →
      s.table.HasRow filled key ∨ (key = ⟨timeframe, gap.1, gap.2⟩ ∧ filled = false) := by
    rintro filled key ⟨row, hrow, hfilled⟩
    replace hrow : (s.table.insertGap timeframe gap.1 gap.2).lookup key = some row := hrow
    rcases GapTable.insertGap_cases s.table timeframe gap.1 gap.2 with ⟨hsame, -⟩ | ⟨-, hinsert⟩
    · rw [hsame] at hrow
      exact .inl ⟨row, hrow, hfilled⟩
    · rw [hinsert] at hrow
      rcases lookup_insert_cases hrow with ⟨rfl, rfl⟩ | ⟨-, hrow⟩
      · exact .inr ⟨rfl, hfilled.symm⟩
      · exact .inl ⟨row, hrow, hfilled⟩
  have hopen : ∀ {timeframe' b}, b ∈ s.openBuckets timeframe' →
      b ∈ (register timeframe s gap).openBuckets timeframe' :=
    fun ⟨key, hrow, hrest⟩ => ⟨key, hrows hrow, hrest⟩
  have hheld : ∀ filled key, s.table.HasRow filled key → ∀ b, key.Bucket b →
      (register timeframe s gap).Covered key.timeframe b ∨
        b ∈ (register timeframe s gap).openBuckets key.timeframe :=
    fun filled key hrow b hb => (h.held filled key hrow b hb).imp_right hopen
  -- the gap is a row of its own, or lies in a row that was there
  have hgap : ∀ b, RowKey.Bucket ⟨timeframe, gap.1, gap.2⟩ b →
      (register timeframe s gap).Covered timeframe b ∨
        b ∈ (register timeframe s gap).openBuckets timeframe := by
    intro b hb
    rcases GapTable.insertGap_cases s.table timeframe gap.1 gap.2 with
      ⟨-, filled, key, hrow, rfl, hstart, hstop⟩ | ⟨-, hinsert⟩
    · exact hheld filled key hrow b ⟨hb.1, hstart.trans hb.2.1, hb.2.2.trans hstop⟩
    · refine .inr ⟨_, ⟨{}, ?_, rfl⟩, rfl, hb⟩
      exact (congrArg (AList.lookup _) hinsert).trans (AList.lookup_insert _)
  constructor
  · intro filled key hrow
    rcases hback hrow with hrow | ⟨rfl, -⟩
    · exact h.aligned filled key hrow
    · exact haligned
  · intro span hspan
    obtain ⟨⟨first, hfirst, hrestfirst⟩, ⟨last, hlast, hrestlast⟩⟩ := h.fresh span hspan
    exact ⟨⟨first, hrows hfirst, hrestfirst⟩, ⟨last, hrows hlast, hrestlast⟩⟩
  · exact h.apart
  · intro filled key hrow b hb
    rcases hback hrow with hrow | ⟨rfl, -⟩
    · exact hheld filled key hrow b hb
    · exact hgap b hb
  · intro key hkey b hb
    rcases List.mem_append.mp hkey with hkey | hkey
    · exact (h.registered key hkey b hb).imp_right hopen
    · rw [List.mem_singleton.mp hkey] at hb ⊢
      exact hgap b hb

/-- The rows of a span lie outside the spans apart from it. -/
theorem not_inside_of_apart {span other : GapSpan} (hapart : span.Apart other) {key : RowKey}
    (haligned : key.Aligned) (htf : key.timeframe = other.timeframe)
    (hstart : other.start ≤ key.start)
    (hstop : key.stop ≤ other.stop) : ¬key.Inside span.timeframe span.start span.stop := by
  rintro ⟨hsame, hinside, hinside'⟩
  have hle := haligned.le
  rcases hapart (hsame.symm.trans htf) with h | h <;> omega

theorem Fresh.aligned {span : GapSpan} (hfresh : s.Fresh span) (h : s.Sound) :
    RowKey.Aligned ⟨span.timeframe, span.start, span.stop⟩ := by
  obtain ⟨⟨first, hfirst, htf, hstart, hstop⟩, ⟨last, hlast, htf', hstart', hstop'⟩⟩ := hfresh
  have hfirst := h.aligned _ _ hfirst
  have hlast := h.aligned _ _ hlast
  constructor
  · show span.timeframe.toSeconds ∣ span.start
    rw [← htf, ← hstart]
    exact hfirst.start
  · show span.timeframe.toSeconds ∣ span.stop
    rw [← htf', ← hstop']
    exact hlast.stop
  · show span.start ≤ span.stop
    have hle := hfirst.le
    omega

/-- A step that writes inside the next span only leaves a sound state sound, where what it writes
and what the span held is covered or open after it. -/
theorem Sound.of_answered {s' : GapState} {span : GapSpan} {rest : List GapSpan} (h : s.Sound)
    (hspans : s.due = span :: rest) (hdue : s'.due = rest)
    (hregistered : s'.registered = s.registered)
    (hanswers : ∀ answer ∈ s.answers, answer ∈ s'.answers)
    (hkeeps : ∀ key, s.table.HasRow false key → ¬key.Inside span.timeframe span.start span.stop →
      s'.table.HasRow false key)
    (hwrites : ∀ filled key, s'.table.HasRow filled key → (∃ filled', s.table.HasRow filled' key) ∨
      (key.Aligned ∧ key.Inside span.timeframe span.start span.stop))
    (hspan : ∀ b, RowKey.Bucket ⟨span.timeframe, span.start, span.stop⟩ b →
      s'.Covered span.timeframe b ∨ b ∈ s'.openBuckets span.timeframe) : s'.Sound := by
  have hopen : ∀ {timeframe b}, b ∈ s.openBuckets timeframe →
      s'.Covered timeframe b ∨ b ∈ s'.openBuckets timeframe := by
    rintro timeframe b ⟨key, hrow, rfl, hb⟩
    by_cases hinside : key.Inside span.timeframe span.start span.stop
    · obtain ⟨htf, hstart, hstop⟩ := hinside
      rw [htf]
      refine hspan b ⟨?_, hstart.trans hb.2.1, hb.2.2.trans hstop⟩
      rw [← htf]
      exact hb.1
    · exact .inr ⟨key, hkeeps key hrow hinside, rfl, hb⟩
  have hheld : ∀ {timeframe b}, s.Covered timeframe b ∨ b ∈ s.openBuckets timeframe →
      s'.Covered timeframe b ∨ b ∈ s'.openBuckets timeframe := by
    rintro timeframe b (hcovered | hb)
    · exact .inl (hcovered.mono hanswers)
    · exact hopen hb
  have hapart := h.apart
  have hfresh := h.fresh
  rw [hspans] at hapart hfresh
  constructor
  · intro filled key hrow
    rcases hwrites filled key hrow with ⟨filled', hrow⟩ | ⟨haligned, -⟩
    · exact h.aligned filled' key hrow
    · exact haligned
  · rw [hdue]
    intro other hother
    have hother' := (List.pairwise_cons.mp hapart).1 other hother
    obtain ⟨⟨first, hfirst, htf, hstart, hstop⟩, ⟨last, hlast, htf', hstart', hstop'⟩⟩ :=
      hfresh other (List.mem_cons_of_mem _ hother)
    constructor
    · refine ⟨first, hkeeps first hfirst ?_, htf, hstart, hstop⟩
      exact not_inside_of_apart hother' (h.aligned _ _ hfirst) htf hstart.ge hstop
    · refine ⟨last, hkeeps last hlast ?_, htf', hstart', hstop'⟩
      exact not_inside_of_apart hother' (h.aligned _ _ hlast) htf' hstart' hstop'.le
  · rw [hdue]
    exact hapart.of_cons
  · intro filled key hrow b hb
    rcases hwrites filled key hrow with ⟨filled', hrow⟩ | ⟨-, htf, hstart, hstop⟩
    · exact hheld (h.held filled' key hrow b hb)
    · rw [htf]
      refine hspan b ⟨?_, hstart.trans hb.2.1, hb.2.2.trans hstop⟩
      rw [← htf]
      exact hb.1
  · intro key hkey b hb
    rw [hregistered] at hkey
    exact hheld (h.registered key hkey b hb)

theorem sound_answered (h : s.Sound) (candles : List Candle) (serverRefreshing : Bool) (now : ℤ) :
    (step s (.answered candles serverRefreshing now)).Sound := by
  cases hdue : s.due with
  | nil =>
    simp only [step, hdue]
    exact h
  | cons span rest =>
    have hfresh : s.Fresh span := h.fresh span (by rw [hdue]; exact List.mem_cons_self)
    have haligned := hfresh.aligned h
    simp only [step, hdue, applyAnswer]
    cases houtcome : evaluateAnswer span candles serverRefreshing with
    | inconclusive reason =>
      refine h.of_same_rows ?_ rfl (fun answer hanswer => List.mem_append_left _ hanswer) ?_ ?_
      · exact fun filled key => GapTable.hasRow_recordGapAttempt
      · exact fun other hother => h.fresh other (by rw [hdue]; exact List.mem_cons_of_mem _ hother)
      · have hapart := h.apart
        rw [hdue] at hapart
        exact hapart.of_cons
    | resolved n =>
      obtain ⟨hrefreshing, oldest, holdest, hreached⟩ := evaluateAnswer_resolved houtcome
      refine h.of_answered hdue rfl rfl
        (fun answer hanswer => List.mem_append_left _ hanswer) ?_ ?_ ?_
      · exact fun key hrow hinside => GapTable.hasRow_resolveGapSpan.mpr ⟨hrow, hinside⟩
      · intro filled key hrow
        have hrow := GapTable.hasRow_resolveGapSpan.mp hrow
        cases filled with
        | false => exact .inl ⟨false, hrow.1⟩
        | true =>
          rcases hrow with hrow | ⟨hrow, -⟩ | rfl
          · exact .inl ⟨true, hrow⟩
          · exact .inl ⟨false, hrow⟩
          · exact .inr ⟨haligned, rfl, le_refl _, le_refl _⟩
      · intro b hb
        exact .inl ⟨_, List.mem_append_right _ List.mem_cons_self, rfl, hrefreshing,
          ⟨oldest, holdest, hreached.trans hb.2.1⟩, hb.2.2⟩
    | partial_ coveredStart =>
      obtain ⟨hrefreshing, holdest, hstart, hstop⟩ := evaluateAnswer_partial houtcome
      have hdvd := dvd_of_mem_answeredBuckets holdest
      have hremainder := bucket_succ_le haligned.start hdvd hstart
      refine h.of_answered hdue rfl rfl
        (fun answer hanswer => List.mem_append_left _ hanswer) ?_ ?_ ?_
      · exact fun key hrow hinside =>
          (GapTable.hasRow_splitGapSpan hstart).mpr (.inr ⟨hrow, hinside⟩)
      · intro filled key hrow
        have hrow := (GapTable.hasRow_splitGapSpan hstart).mp hrow
        have hinside : RowKey.Inside ⟨span.timeframe, span.start,
            coveredStart - span.timeframe.toSeconds⟩ span.timeframe span.start span.stop := by
          have hpos := span.timeframe.toSeconds_pos
          refine ⟨rfl, le_refl _, ?_⟩
          show coveredStart - span.timeframe.toSeconds ≤ span.stop
          omega
        cases filled with
        | false =>
          rcases hrow with rfl | ⟨hrow, -⟩
          · refine .inr ⟨⟨haligned.start, dvd_sub_self_right.mpr hdvd, ?_⟩, hinside⟩
            show span.start ≤ coveredStart - span.timeframe.toSeconds
            have hle : span.start + span.timeframe.toSeconds ≤ coveredStart := hremainder
            omega
          · exact .inl ⟨false, hrow⟩
        | true =>
          rcases hrow.2 with hrow | ⟨hrow, -⟩ | rfl
          · exact .inl ⟨true, hrow⟩
          · exact .inl ⟨false, hrow⟩
          · exact .inr ⟨⟨hdvd, haligned.stop, hstop⟩, rfl, hstart.le, le_refl _⟩
      · intro b hb
        by_cases hcovered : coveredStart ≤ b
        · exact .inl ⟨_, List.mem_append_right _ List.mem_cons_self, rfl, hrefreshing,
            ⟨coveredStart, holdest, hcovered⟩, hb.2.2⟩
        · have hle := bucket_succ_le hb.1 hdvd (not_le.mp hcovered)
          refine .inr ⟨_, (GapTable.hasRow_splitGapSpan hstart).mpr (.inl rfl), rfl,
            hb.1, hb.2.1, ?_⟩
          show b ≤ coveredStart - span.timeframe.toSeconds
          have hle : b + span.timeframe.toSeconds ≤ coveredStart := hle
          omega

theorem sound_step (h : s.Sound) (event : GapEvent) : (step s event).Sound := by
  cases event with
  | detected timeframe series =>
    refine List.foldlRecOn (motive := Sound) _ _ h fun s hs gap hgap => ?_
    exact sound_register hs (aligned_of_mem_detectGaps hgap)
  | scanned now since budget =>
    exact h.of_same_rows (fun _ _ => Iff.rfl) rfl (fun _ hanswer => hanswer)
      (fun _ hspan => fresh_of_mem_dueSpans hspan) (dueSpans_spec s.table now since budget).2
  | answered candles serverRefreshing now => exact sound_answered h candles serverRefreshing now
  | failed reason now =>
    cases hdue : s.due with
    | nil =>
      simp only [step, hdue]
      exact h
    | cons span rest =>
      simp only [step, hdue]
      refine h.of_same_rows ?_ rfl (fun _ hanswer => hanswer) ?_ ?_
      · exact fun filled key => GapTable.hasRow_recordGapAttempt
      · exact fun other hother => h.fresh other (by rw [hdue]; exact List.mem_cons_of_mem _ hother)
      · have hapart := h.apart
        rw [hdue] at hapart
        exact hapart.of_cons
  | stopped =>
    refine h.of_same_rows (fun _ _ => Iff.rfl) rfl (fun _ hanswer => hanswer) ?_ List.Pairwise.nil
    intro span hspan
    cases hspan

/-- Whatever the answers, a registered gap is answered or open. -/
theorem run_sound (events : List GapEvent) : (events.foldl step {}).Sound :=
  List.foldlRecOn (motive := Sound) events step sound_start fun _ h event _ => sound_step h event

/-- Every filled row was answered. -/
def Answered (s : GapState) : Prop :=
  ∀ key, s.table.HasRow true key → ∀ b, key.Bucket b → s.Covered key.timeframe b

theorem partialAnswer_eq_some {event : GapEvent} {span : GapSpan} {coveredStart : ℤ}
    (h : s.partialAnswer event = some (span, coveredStart)) :
    ∃ candles serverRefreshing now rest, event = .answered candles serverRefreshing now ∧
      s.due = span :: rest ∧
        evaluateAnswer span candles serverRefreshing = .partial_ coveredStart := by
  cases event with
  | answered candles serverRefreshing now =>
    simp only [partialAnswer] at h
    split at h
    · cases h
    · rename_i span' rest hdue
      split at h
      · rename_i houtcome
        cases h
        exact ⟨candles, serverRefreshing, now, rest, rfl, hdue, houtcome⟩
      · cases h
  | detected | scanned | failed | stopped => cases h

theorem answered_register (h : s.Answered) (timeframe : Timeframe) (gap : ℤ × ℤ) :
    (register timeframe s gap).Answered := by
  rintro key ⟨row, hrow, hfilled⟩ b hb
  replace hrow : (s.table.insertGap timeframe gap.1 gap.2).lookup key = some row := hrow
  rcases GapTable.insertGap_cases s.table timeframe gap.1 gap.2 with ⟨hsame, -⟩ | ⟨-, hinsert⟩
  · rw [hsame] at hrow
    exact h key ⟨row, hrow, hfilled⟩ b hb
  · rw [hinsert] at hrow
    rcases lookup_insert_cases hrow with ⟨-, rfl⟩ | ⟨-, hrow⟩
    · cases hfilled
    · exact h key ⟨row, hrow, hfilled⟩ b hb

theorem answered_step (hsound : s.Sound) (h : s.Answered) (event : GapEvent)
    (hbetween : ∀ span coveredStart, s.partialAnswer event = some (span, coveredStart) →
      s.BetweenRows span coveredStart) : (step s event).Answered := by
  cases event with
  | detected timeframe series =>
    exact List.foldlRecOn (motive := Answered) _ _ h fun s hs gap _ =>
      answered_register hs timeframe gap
  | scanned | stopped => exact h
  | failed reason now =>
    cases hdue : s.due with
    | nil =>
      simp only [step, hdue]
      exact h
    | cons span rest =>
      simp only [step, hdue]
      exact fun key hrow => h key (GapTable.hasRow_recordGapAttempt.mp hrow)
  | answered candles serverRefreshing now =>
    cases hdue : s.due with
    | nil =>
      simp only [step, hdue]
      exact h
    | cons span rest =>
      simp only [partialAnswer, hdue] at hbetween
      simp only [step, hdue, applyAnswer]
      have hold : ∀ key, s.table.HasRow true key → ∀ b, key.Bucket b →
          ∃ answer ∈ s.answers ++ [⟨span, candles, serverRefreshing⟩],
            answer.Covers key.timeframe b := by
        intro key hrow b hb
        obtain ⟨answer, hanswer, hcovers⟩ := h key hrow b hb
        exact ⟨answer, List.mem_append_left _ hanswer, hcovers⟩
      cases houtcome : evaluateAnswer span candles serverRefreshing with
      | inconclusive reason =>
        exact fun key hrow => hold key (GapTable.hasRow_recordGapAttempt.mp hrow)
      | resolved n =>
        obtain ⟨hrefreshing, oldest, holdest, hreached⟩ := evaluateAnswer_resolved houtcome
        intro key hrow b hb
        rcases GapTable.hasRow_resolveGapSpan.mp hrow with hrow | ⟨-, htf, hstart, hstop⟩ | rfl
        · exact hold key hrow b hb
        · exact ⟨_, List.mem_append_right _ List.mem_cons_self, htf.symm, hrefreshing,
            ⟨oldest, holdest, (hreached.trans hstart).trans hb.2.1⟩, hb.2.2.trans hstop⟩
        · exact ⟨_, List.mem_append_right _ List.mem_cons_self, rfl, hrefreshing,
            ⟨oldest, holdest, hreached.trans hb.2.1⟩, hb.2.2⟩
      | partial_ coveredStart =>
        obtain ⟨hrefreshing, holdest, hstart, hstop⟩ := evaluateAnswer_partial houtcome
        have hbetween := hbetween span coveredStart (by rw [houtcome])
        intro key hrow b hb
        obtain ⟨hne, hrow⟩ := (GapTable.hasRow_splitGapSpan hstart).mp hrow
        rcases hrow with hrow | ⟨hrow, htf, hkeystart, hkeystop⟩ | rfl
        · exact hold key hrow b hb
        · have hle := (hsound.aligned _ _ hrow).le
          rcases hbetween key hrow htf (hle.trans hkeystop)
            (hkeystart.trans hle) with he | ⟨-, hin, hin'⟩
          · exact absurd he hne
          · exact ⟨_, List.mem_append_right _ List.mem_cons_self, htf.symm, hrefreshing,
              ⟨coveredStart, holdest, hin.trans hb.2.1⟩, hb.2.2.trans hin'⟩
        · exact ⟨_, List.mem_append_right _ List.mem_cons_self, rfl, hrefreshing,
            ⟨coveredStart, holdest, hb.2.1⟩, hb.2.2⟩

/-- A partial answer between rows leaves less open than it found. -/
theorem openBuckets_ssubset (h : s.Sound) {event : GapEvent} {span : GapSpan} {coveredStart : ℤ}
    (hpart : s.partialAnswer event = some (span, coveredStart))
    (hbetween : s.BetweenRows span coveredStart) :
    (step s event).openBuckets span.timeframe ⊂ s.openBuckets span.timeframe := by
  obtain ⟨candles, serverRefreshing, now, rest, rfl, hdue, houtcome⟩ := partialAnswer_eq_some hpart
  obtain ⟨-, -, hstart, hstop⟩ := evaluateAnswer_partial houtcome
  obtain ⟨⟨first, hfirst, hfirsttf, hfirststart, hfirststop⟩,
      ⟨last, hlast, hlasttf, hlaststart, hlaststop⟩⟩ :=
    h.fresh span (by rw [hdue]; exact List.mem_cons_self)
  have hopen : ∀ key, (step s (.answered candles serverRefreshing now)).table.HasRow false key ↔
      key = ⟨span.timeframe, span.start, coveredStart - span.timeframe.toSeconds⟩ ∨
        (s.table.HasRow false key ∧ ¬key.Inside span.timeframe span.start span.stop) := by
    intro key
    simp only [step, hdue, applyAnswer, houtcome]
    exact GapTable.hasRow_splitGapSpan hstart
  have hpos := span.timeframe.toSeconds_pos
  have hlastle := (h.aligned _ _ hlast).le
  constructor
  · rintro b ⟨key, hrow, htf, hb⟩
    rcases (hopen key).mp hrow with rfl | ⟨hrow, -⟩
    · -- the first row of the span is the remainder
      have hfirstle := (h.aligned _ _ hfirst).le
      rcases hbetween first hfirst hfirsttf (by omega) (by omega) with rfl | ⟨-, hin, -⟩
      · exact ⟨_, hfirst, rfl, hb⟩
      · omega
    · exact ⟨key, hrow, htf, hb⟩
  · intro hsubset
    have hbucket : span.stop ∈ s.openBuckets span.timeframe := by
      refine ⟨last, hlast, hlasttf, ?_, hlaststop ▸ hlastle, hlaststop.ge⟩
      rw [← hlaststop]
      exact (h.aligned _ _ hlast).stop
    obtain ⟨key, hrow, htf, -, hkeystart, hkeystop⟩ := hsubset hbucket
    rcases (hopen key).mp hrow with rfl | ⟨hrow, houtside⟩
    · replace hkeystop : span.stop ≤ coveredStart - span.timeframe.toSeconds := hkeystop
      omega
    · rcases hbetween key hrow htf hkeystart (by omega) with rfl | ⟨hin, hin', hin''⟩
      · replace hkeystop : span.stop ≤ coveredStart - span.timeframe.toSeconds := hkeystop
        omega
      · exact houtside ⟨hin, hstart.le.trans hin', hin''⟩

/-- In a run whose partial answers begin between rows, filled rows were answered, registered gaps
are answered or open, and each partial answer leaves less open. -/
theorem gaps_bookkept {events : List GapEvent}
    (hbetween : ∀ p ∈ visited step {} events, ∀ span coveredStart,
      p.1.partialAnswer p.2 = some (span, coveredStart) → p.1.BetweenRows span coveredStart) :
    (∀ before, before <+: events → (before.foldl step {}).Bookkept) ∧
      ∀ p ∈ visited step {} events, ∀ span coveredStart,
        p.1.partialAnswer p.2 = some (span, coveredStart) →
          (step p.1 p.2).openBuckets span.timeframe ⊂ p.1.openBuckets span.timeframe := by
  have hstart : Sound {} ∧ Answered {} := by
    refine ⟨sound_start, ?_⟩
    rintro key ⟨row, hrow, -⟩
    cases hrow
  have hstep : ∀ p ∈ visited step {} events, (p.1.Sound ∧ p.1.Answered) →
      (step p.1 p.2).Sound ∧ (step p.1 p.2).Answered :=
    fun p hp h => ⟨sound_step h.1 p.2, answered_step h.1 h.2 p.2 (hbetween p hp)⟩
  constructor
  · intro before hbefore
    obtain ⟨hsound, hanswered⟩ :=
      reached_invariant step (fun s => s.Sound ∧ s.Answered) hstart hstep before hbefore
    exact ⟨hanswered, hsound.registered⟩
  · intro p hp span coveredStart hpart
    obtain ⟨hsound, -⟩ :=
      visited_invariant step (fun s => s.Sound ∧ s.Answered) events {} hstart hstep p hp
    exact openBuckets_ssubset hsound hpart (hbetween p hp span coveredStart hpart)

theorem betweenRows_of_entries {span : GapSpan} {coveredStart : ℤ}
    (h : ∀ e ∈ s.table.entries, e.2.filled = false →
      e.1 = ⟨span.timeframe, span.start, coveredStart - span.timeframe.toSeconds⟩ ∨
        e.1.Inside span.timeframe coveredStart span.stop) : s.BetweenRows span coveredStart := by
  rintro key ⟨row, hrow, hopen⟩ - - -
  exact h ⟨key, row⟩ (AList.mem_lookup_iff.mp hrow) hopen

/-- Minutes one and three are missing; the answer reaches back to minute two. -/
def betweenTwoHoles : List GapEvent :=
  [.detected .minute1 [0, 2, 4], .scanned 1000 0 24, .answered [⟨120, 1⟩, ⟨180, 1⟩] false 1000]

theorem two_holes_bookkept :
    (∀ before, before <+: betweenTwoHoles → (before.foldl step {}).Bookkept) ∧
      ∀ p ∈ visited step {} betweenTwoHoles, ∀ span coveredStart,
        p.1.partialAnswer p.2 = some (span, coveredStart) →
          (step p.1 p.2).openBuckets span.timeframe ⊂ p.1.openBuckets span.timeframe := by
  refine gaps_bookkept fun p hp span coveredStart hpart => ?_
  simp only [betweenTwoHoles, visited, List.mem_cons, List.not_mem_nil, or_false] at hp
  rcases hp with rfl | rfl | rfl
  · cases hpart
  · cases hpart
  · have hanswer : (span, coveredStart) = (⟨.minute1, 60, 180, 0, none⟩, 120) :=
      Option.some.inj (hpart.symm.trans (by decide +kernel))
    cases hanswer
    exact betweenRows_of_entries (by decide +kernel)

/-- Eleven minutes are missing in one row; the answer reaches back to the tenth. -/
def insideOneHole : List GapEvent :=
  [.detected .minute1 [0, 12], .scanned 1000 0 24, .answered [⟨600, 1⟩] false 1000]

/-- The row is marked filled, though no answer covers its first minute. -/
theorem unanswered_row_filled : ¬(insideOneHole.foldl step {}).Bookkept := by
  intro h
  have hrow : (insideOneHole.foldl step {}).table.lookup ⟨.minute1, 60, 660⟩ =
      some ⟨1, some 1000, true, none⟩ := by decide +kernel
  have hanswers : (insideOneHole.foldl step {}).answers =
      [⟨⟨.minute1, 60, 660, 0, none⟩, [⟨600, 1⟩], false⟩] := by decide +kernel
  obtain ⟨answer, hanswer, -, -, ⟨oldest, holdest, hle⟩, -⟩ :=
    h.filled _ ⟨_, hrow, rfl⟩ 60 ⟨by decide, by decide, by decide⟩
  rw [hanswers, List.mem_singleton] at hanswer
  subst hanswer
  have hbuckets : answeredBuckets ⟨.minute1, 60, 660, 0, none⟩ [⟨600, 1⟩] = [600] := by
    decide +kernel
  rw [hbuckets, List.mem_singleton] at holdest
  omega

end GapState

end ScreenerBot.Ohlcvs
