import ScreenerBot.Library.Grouping
import ScreenerBot.Ohlcvs.CandleUpserts

/-!
Finer candle series combined into coarser ones, and the gaps of a series.

A series is first cut to one candle per timestamp. Its buckets are the classes of a key that grows
with the timestamp, so that what holds of a series cut into classes holds of its aggregate.
-/
namespace ScreenerBot.Ohlcvs
open Library

/-- A request for candles finer than the source. -/
structure InvalidTimeframe where
  message : String
  deriving DecidableEq

def Timeframe.asStr : Timeframe → String
  | minute1 => "1m"
  | minute5 => "5m"
  | minute15 => "15m"
  | hour1 => "1h"
  | hour4 => "4h"
  | hour12 => "12h"
  | day1 => "1d"

/-- One step of the loop: a candle of the last timestamp replaces the last one. -/
def keepLatest (unique : List PricedCandle) (candle : PricedCandle) : List PricedCandle :=
  match unique.getLast? with
  | some last =>
    if last.timestamp = candle.timestamp then unique.dropLast ++ [candle] else unique ++ [candle]
  | none => unique ++ [candle]

def oneCandlePerTimestamp (data : List PricedCandle) : List PricedCandle :=
  (sortBy (fun candle : PricedCandle => candle.timestamp) data).foldl keepLatest []

def aggregateBucket (timestamp : ℤ) (points : List PricedCandle) : Option PricedCandle := do
  let first ← points.head?
  let last ← points.getLast?
  let high ← (points.map PricedCandle.high).max?
  let low ← (points.map PricedCandle.low).min?
  some
    { timestamp, opening := first.opening, high, low, close := last.close
      volume := (points.map fun point => point.volume).sum }

def aggregate (data : List PricedCandle) (fromTimeframe toTimeframe : Timeframe) :
    Except InvalidTimeframe (List PricedCandle) :=
  if toTimeframe.toSeconds < fromTimeframe.toSeconds then
    .error ⟨s!"cannot aggregate {fromTimeframe.asStr} candles into finer " ++
      s!"{toTimeframe.asStr} candles"⟩
  else if data.isEmpty then .ok []
  else if fromTimeframe = toTimeframe then .ok (oneCandlePerTimestamp data)
  else
    let points := oneCandlePerTimestamp data
    let bucketOf (point : PricedCandle) := bucketStart point.timestamp toTimeframe
    .ok (sortBy (fun candle : PricedCandle => candle.timestamp)
      ((keysOf bucketOf points).filterMap fun timestamp =>
        aggregateBucket timestamp (classOf bucketOf points timestamp)))

/-- Strictly ascending timestamps. -/
def Ascending (candles : List PricedCandle) : Prop :=
  candles.Pairwise fun a b => a.timestamp < b.timestamp

/-- What the loop has kept of the candles seen. -/
structure Keeps (seen unique : List PricedCandle) : Prop where
  ascending : Ascending unique
  newest : unique.getLast?.map (·.timestamp) = seen.getLast?.map (·.timestamp)
  mem : ∀ candle, candle ∈ unique ↔
    (seen.filter (·.timestamp = candle.timestamp)).getLast? = some candle

theorem keepLatest_append (front : List PricedCandle) (last candle : PricedCandle) :
    keepLatest (front ++ [last]) candle =
      if last.timestamp = candle.timestamp then front ++ [candle] else front ++ [last] ++
        [candle] := by
  unfold keepLatest
  simp

/-- The candle ends the list, after candles of earlier timestamps. -/
theorem keepLatest_split {unique : List PricedCandle} {candle : PricedCandle}
    (hascending : Ascending unique)
    (hlast : ∀ last, unique.getLast? = some last → last.timestamp ≤ candle.timestamp) :
    ∃ kept, keepLatest unique candle = kept ++ [candle] ∧ Ascending kept ∧
      (∀ other ∈ kept, other.timestamp < candle.timestamp) ∧
      ∀ other, other.timestamp ≠ candle.timestamp → (other ∈ kept ↔ other ∈ unique) := by
  rcases List.eq_nil_or_concat' unique with rfl | ⟨front, last, rfl⟩
  · exact ⟨[], rfl, hascending, by simp, by simp⟩
  · obtain ⟨hfront, -, hbelow⟩ := List.pairwise_append.mp hascending
    have hle : last.timestamp ≤ candle.timestamp := hlast last (by simp)
    rw [keepLatest_append]
    split_ifs with htime
    · refine ⟨front, rfl, hfront, ?_, ?_⟩
      · intro other hother
        exact htime ▸ hbelow other hother last List.mem_cons_self
      · intro other hother
        have hold : other ≠ last := by
          rintro rfl
          exact hother htime
        simp [hold]
    · refine ⟨front ++ [last], rfl, hascending, ?_, fun _ _ => Iff.rfl⟩
      intro other hother
      have hlt : last.timestamp < candle.timestamp := lt_of_le_of_ne hle htime
      rcases List.mem_append.mp hother with hin | hin
      · exact (hbelow other hin last List.mem_cons_self).trans hlt
      · exact List.mem_singleton.mp hin ▸ hlt

theorem keepLatest_keeps {seen unique : List PricedCandle} {candle : PricedCandle}
    (hseen : ∀ earlier ∈ seen, earlier.timestamp ≤ candle.timestamp) (h : Keeps seen unique) :
    Keeps (seen ++ [candle]) (keepLatest unique candle) := by
  obtain ⟨hascending, hnewest, hmem⟩ := h
  have hlast : ∀ last, unique.getLast? = some last → last.timestamp ≤ candle.timestamp := by
    intro last hlast
    obtain ⟨newest, hseenLast, heq⟩ : ∃ newest, seen.getLast? = some newest ∧
        newest.timestamp = last.timestamp := by simpa [hlast, eq_comm] using hnewest
    exact heq ▸ hseen newest (List.mem_of_getLast? hseenLast)
  obtain ⟨kept, heq, hkept, hearlier, hothers⟩ := keepLatest_split hascending hlast
  rw [heq]
  constructor
  · refine List.pairwise_append.mpr ⟨hkept, List.pairwise_singleton _ _, ?_⟩
    simpa using hearlier
  · simp
  · intro other
    rw [List.mem_append, List.mem_singleton, List.filter_append]
    by_cases hother : other.timestamp = candle.timestamp
    · have hnot : other ∉ kept := fun hin => (hearlier other hin).ne hother
      simp [hother, hnot, eq_comm]
    · have hnew : other ≠ candle := by
        rintro rfl
        exact hother rfl
      rw [hothers other hother, hmem]
      simp [hnew, Ne.symm hother]

theorem foldl_keepLatest_keeps {seen : List PricedCandle}
    (hseen : seen.Pairwise fun a b => a.timestamp ≤ b.timestamp) :
    Keeps seen (seen.foldl keepLatest []) := by
  induction seen using List.reverseRecOn with
  | nil => exact ⟨List.Pairwise.nil, rfl, by simp⟩
  | append_singleton seen candle ih =>
    obtain ⟨hearlier, -, hbelow⟩ := List.pairwise_append.mp hseen
    rw [List.foldl_append]
    refine keepLatest_keeps ?_ (ih hearlier)
    exact fun earlier hin => hbelow earlier hin candle List.mem_cons_self

theorem oneCandlePerTimestamp_keeps (data : List PricedCandle) :
    Keeps (sortBy (fun candle : PricedCandle => candle.timestamp) data)
      (oneCandlePerTimestamp data) :=
  foldl_keepLatest_keeps (sortBy_sorted _ data)

theorem oneCandlePerTimestamp_ascending (data : List PricedCandle) :
    Ascending (oneCandlePerTimestamp data) := (oneCandlePerTimestamp_keeps data).ascending

/-- Of a timestamp the last candle written is kept. -/
theorem mem_oneCandlePerTimestamp (data : List PricedCandle) (candle : PricedCandle) :
    candle ∈ oneCandlePerTimestamp data ↔
      (data.filter (·.timestamp = candle.timestamp)).getLast? = some candle := by
  rw [(oneCandlePerTimestamp_keeps data).mem, filter_sortBy]

/-- Kept candles stay as they are. -/
theorem oneCandlePerTimestamp_of_ascending {candles : List PricedCandle} (h : Ascending candles) :
    oneCandlePerTimestamp candles = candles := by
  have hkeys : (candles.map fun candle => candle.timestamp).Nodup :=
    (List.pairwise_map.mpr h).imp ne_of_lt
  have hirrefl : Std.Asymm fun a b : PricedCandle => a.timestamp < b.timestamp :=
    ⟨fun _ _ => lt_asymm⟩
  refine (oneCandlePerTimestamp_ascending candles).eq_of_mem_iff h ?_
  intro candle
  rw [mem_oneCandlePerTimestamp]
  constructor
  · intro hlast
    exact List.mem_of_mem_filter (List.mem_of_getLast? hlast)
  · intro hin
    rw [filter_key_of_mem (fun candle : PricedCandle => candle.timestamp) hkeys hin]
    rfl

/-- Two candles of one period as one. -/
def joined (first second : PricedCandle) : PricedCandle where
  timestamp := first.timestamp
  volume := first.volume + second.volume
  opening := first.opening
  high := max first.high second.high
  low := min first.low second.low
  close := second.close

@[simp] theorem aggregateBucket_nil (timestamp : ℤ) : aggregateBucket timestamp [] = none := rfl

/-- A bucket that has a point has a candle. -/
theorem aggregateBucket_cons (timestamp : ℤ) (first : PricedCandle) (rest : List PricedCandle) :
    aggregateBucket timestamp (first :: rest) = some
      { timestamp
        volume := first.volume + (rest.map (·.volume)).sum
        opening := first.opening
        high := (rest.map PricedCandle.high).foldl max first.high
        low := (rest.map PricedCandle.low).foldl min first.low
        close := (rest.getLast?.getD first).close } := by
  simp only [aggregateBucket, List.head?_cons, List.getLast?_cons, List.map_cons, List.max?_cons',
    List.min?_cons', List.sum_cons, Option.bind_eq_bind, Option.bind_some]

theorem aggregateBucket_timestamp {timestamp : ℤ} {points : List PricedCandle}
    {candle : PricedCandle} (h : aggregateBucket timestamp points = some candle) :
    candle.timestamp = timestamp := by
  cases points with
  | nil => cases h
  | cons first rest =>
    rw [aggregateBucket_cons, Option.some_inj] at h
    rw [← h]

theorem aggregateBucket_volume {timestamp : ℤ} {points : List PricedCandle} {candle : PricedCandle}
    (h : aggregateBucket timestamp points = some candle) :
    candle.volume = (points.map (·.volume)).sum := by
  cases points with
  | nil => cases h
  | cons first rest =>
    rw [aggregateBucket_cons, Option.some_inj] at h
    rw [← h, List.map_cons, List.sum_cons]

theorem aggregateBucket_snoc (timestamp : ℤ) (points : List PricedCandle) (point : PricedCandle) :
    aggregateBucket timestamp (points ++ [point]) =
      (aggregateBucket timestamp points).merge joined (aggregateBucket timestamp [point]) := by
  cases points with
  | nil => simp
  | cons first rest =>
    simp [aggregateBucket_cons, joined, add_assoc]

instance : Std.Associative joined where
  assoc first second third := by simp [joined, max_assoc, min_assoc, add_assoc]

theorem aggregateBucket_append (timestamp : ℤ) (front back : List PricedCandle) :
    aggregateBucket timestamp (front ++ back) =
      (aggregateBucket timestamp front).merge joined (aggregateBucket timestamp back) := by
  induction back using List.reverseRecOn with
  | nil => simp [aggregateBucket_nil]
  | append_singleton back point ih =>
    rw [← List.append_assoc, aggregateBucket_snoc, ih, aggregateBucket_snoc timestamp back]
    exact Std.Associative.assoc _ _ _

/-- A bucket's own candle stands for its points. -/
theorem aggregateBucket_restamp {inner : ℤ} {points : List PricedCandle} {candle : PricedCandle}
    (outer : ℤ) (h : aggregateBucket inner points = some candle) :
    aggregateBucket outer [candle] = aggregateBucket outer points := by
  cases points with
  | nil => cases h
  | cons first rest =>
    rw [aggregateBucket_cons, Option.some_inj] at h
    subst h
    simp [aggregateBucket_cons]

/-- The bucket of finer buckets is the bucket of their points. -/
theorem aggregateBucket_filterMap {κ : Type*} (outer : ℤ) (inner : κ → ℤ)
    (points : κ → List PricedCandle) (keys : List κ) :
    aggregateBucket outer (keys.filterMap fun key => aggregateBucket (inner key) (points key)) =
      aggregateBucket outer (keys.flatMap points) := by
  induction keys with
  | nil => rfl
  | cons key keys ih =>
    rw [List.flatMap_cons, aggregateBucket_append, ← ih]
    cases hpoints : points key with
    | nil => simp [hpoints]
    | cons first rest =>
      obtain ⟨candle, hcandle⟩ : ∃ candle, aggregateBucket (inner key) (points key) = some candle :=
        ⟨_, hpoints ▸ aggregateBucket_cons (inner key) first rest⟩
      rw [List.filterMap_cons, hcandle, ← hpoints, ← aggregateBucket_restamp outer hcandle]
      exact aggregateBucket_append outer [candle] _

section Combine
variable (timeframe : Timeframe)

def bucketOf (point : PricedCandle) : ℤ := bucketStart point.timestamp timeframe

/-- The candles of the buckets of a series, in the order of their buckets. -/
def combine (points : List PricedCandle) : List PricedCandle :=
  (keysOf (bucketOf timeframe) points).filterMap fun timestamp =>
    aggregateBucket timestamp (classOf (bucketOf timeframe) points timestamp)

theorem bucketStart_mono : Monotone fun timestamp => bucketStart timestamp timeframe := by
  intro a b h
  exact Int.mul_le_mul_of_nonneg_right (Int.tdiv_le_tdiv timeframe.toSeconds_pos h)
    timeframe.toSeconds_pos.le

variable {timeframe} {points : List PricedCandle}

theorem bucketOf_sorted (timeframe : Timeframe) (h : Ascending points) :
    points.Pairwise fun a b => bucketOf timeframe a ≤ bucketOf timeframe b :=
  h.imp fun hlt => bucketStart_mono timeframe hlt.le

theorem combine_timestamps :
    (combine timeframe points).map (·.timestamp) = keysOf (bucketOf timeframe) points := by
  unfold combine
  rw [List.map_filterMap]
  conv_rhs => rw [← List.filterMap_some (l := keysOf (bucketOf timeframe) points)]
  apply List.filterMap_congr
  intro timestamp hkey
  cases hclass : classOf (bucketOf timeframe) points timestamp with
  | nil => exact absurd hclass (classOf_ne_nil hkey)
  | cons first rest => simp [aggregateBucket_cons]

theorem combine_ascending (h : Ascending points) : Ascending (combine timeframe points) := by
  refine List.pairwise_map.mp ?_
  rw [combine_timestamps]
  exact keysOf_sorted (bucketOf_sorted timeframe h)

theorem combine_volumes (h : Ascending points) :
    ((combine timeframe points).map (·.volume)).sum = (points.map (·.volume)).sum := by
  have hparts (keys : List ℤ) :
      (((keys.filterMap fun timestamp => aggregateBucket timestamp
        (classOf (bucketOf timeframe) points timestamp))).map (·.volume)).sum =
      ((keys.flatMap (classOf (bucketOf timeframe) points)).map (·.volume)).sum := by
    induction keys with
    | nil => rfl
    | cons timestamp keys ih =>
      cases hcandle : aggregateBucket timestamp (classOf (bucketOf timeframe) points timestamp) with
      | none =>
        have hempty : classOf (bucketOf timeframe) points timestamp = [] := by
          cases hclass : classOf (bucketOf timeframe) points timestamp with
          | nil => rfl
          | cons first rest => simp [hclass, aggregateBucket_cons] at hcandle
        simp [hempty, ih]
      | some candle =>
        simp [hcandle, aggregateBucket_volume hcandle, ih]
  rw [combine, hparts, flatMap_classOf (bucketOf_sorted timeframe h)]

end Combine

section Nested
variable {finer coarser : Timeframe}

/-- Truncation by a product is truncation by its factors in turn. -/
theorem tdiv_tdiv (a : ℤ) (b c : ℕ) : (a.tdiv b).tdiv c = a.tdiv (b * c) := by
  obtain ⟨n, rfl | rfl⟩ := Int.eq_nat_or_neg a
  · rw [← Int.ofNat_tdiv, ← Int.ofNat_tdiv, ← Int.natCast_mul, ← Int.ofNat_tdiv,
      Nat.div_div_eq_div_mul]
  · rw [Int.neg_tdiv, Int.neg_tdiv, Int.neg_tdiv, ← Int.ofNat_tdiv, ← Int.ofNat_tdiv,
      ← Int.natCast_mul, ← Int.ofNat_tdiv, Nat.div_div_eq_div_mul]

/-- The coarse bucket of a fine bucket's start is that of its timestamps. -/
theorem bucketStart_bucketStart (hdvd : finer.toSeconds ∣ coarser.toSeconds) (timestamp : ℤ) :
    bucketStart (bucketStart timestamp finer) coarser = bucketStart timestamp coarser := by
  obtain ⟨factor, hfactor⟩ := hdvd
  have hfiner := finer.toSeconds_pos
  have hcoarser := coarser.toSeconds_pos
  have hpos : 0 < factor := pos_of_mul_pos_right (hfactor ▸ hcoarser) hfiner.le
  have hparts := tdiv_tdiv timestamp finer.toSeconds.toNat factor.toNat
  rw [Int.toNat_of_nonneg hfiner.le, Int.toNat_of_nonneg hpos.le] at hparts
  unfold bucketStart
  rw [hfactor, ← hparts, Int.mul_comm finer.toSeconds factor,
    Int.mul_tdiv_mul_of_pos_left _ _ hfiner]

/-- Combining in two steps is combining in one. -/
theorem combine_combine (hdvd : finer.toSeconds ∣ coarser.toSeconds) {points : List PricedCandle}
    (h : Ascending points) :
    combine coarser (combine finer points) = combine coarser points := by
  have hcomp : (fun timestamp => bucketStart timestamp coarser) ∘ bucketOf finer =
      bucketOf coarser := funext fun point => bucketStart_bucketStart hdvd point.timestamp
  have hsorted := bucketOf_sorted finer h
  have hkeys : keysOf (bucketOf coarser) (combine finer points) =
      keysOf (bucketOf coarser) points := by
    rw [← hcomp, ← keysOf_coarsen (bucketStart_mono coarser) hsorted, ← combine_timestamps]
    unfold keysOf
    rw [List.map_map, hcomp]
    rfl
  have hclass (timestamp : ℤ) :
      (classOf (fun fine => bucketStart fine coarser)
        (keysOf (bucketOf finer) points) timestamp).flatMap
        (classOf (bucketOf finer) points) = classOf (bucketOf coarser) points timestamp := by
    rw [classOf_keysOf (fun fine => bucketStart fine coarser) hsorted, hcomp]
    have hinside : ∀ fine ∈ keysOf (bucketOf finer) (classOf (bucketOf coarser) points timestamp),
        classOf (bucketOf finer) points fine =
          classOf (bucketOf finer) (classOf (bucketOf coarser) points timestamp) fine := by
      intro fine hfine
      obtain ⟨point, hpoint, rfl⟩ := mem_keysOf.mp hfine
      have hcoarse := (mem_classOf.mp hpoint).2
      rw [← hcomp] at hcoarse ⊢
      exact (classOf_classOf_coarse (fun fine => bucketStart fine coarser) hcoarse).symm
    rw [List.flatMap_congr hinside]
    exact flatMap_classOf (hsorted.sublist List.filter_sublist)
  unfold combine at hkeys ⊢
  rw [hkeys]
  apply List.filterMap_congr
  intro timestamp _
  rw [← hclass, ← aggregateBucket_filterMap timestamp (fun fine => fine)]
  congr 1
  apply filter_filterMap_of_key
  intro fine _ candle hcandle
  rw [bucketOf, aggregateBucket_timestamp hcandle]

end Nested

/-- No order of the buckets is visible in the aggregate. -/
theorem aggregate_eq (data : List PricedCandle) {fromTimeframe toTimeframe : Timeframe}
    (h : fromTimeframe.toSeconds ≤ toTimeframe.toSeconds) :
    aggregate data fromTimeframe toTimeframe = .ok
      (if fromTimeframe = toTimeframe then oneCandlePerTimestamp data
        else combine toTimeframe (oneCandlePerTimestamp data)) := by
  unfold aggregate
  rw [if_neg (not_lt.mpr h)]
  cases data with
  | nil => split_ifs <;> rfl
  | cons candle rest =>
    rw [if_neg (by simp)]
    split_ifs with heq
    · rfl
    · exact congrArg Except.ok
        (sortBy_of_sorted ((combine_ascending (oneCandlePerTimestamp_ascending _)).imp le_of_lt))

/-- The gap `[g.1, g.2]` holds the moment. -/
def Covers (gap : ℤ × ℤ) (moment : ℤ) : Prop := gap.1 ≤ moment ∧ moment ≤ gap.2

/-- Stored buckets and gaps tile the span from the first to the last bucket. -/
structure Tiled (timeframe : Timeframe) (stored : List ℤ) (gaps : List (ℤ × ℤ)) : Prop where
  ordered : gaps.Pairwise fun a b => a.2 < b.1
  bounds : ∀ gap ∈ gaps,
    gap.1 ≤ gap.2 ∧ timeframe.toSeconds ∣ gap.1 ∧ timeframe.toSeconds ∣ gap.2
  tiles : ∀ bucket, timeframe.toSeconds ∣ bucket →
    ((∃ first ∈ stored.head?, ∃ last ∈ stored.getLast?, first ≤ bucket ∧ bucket ≤ last) ↔
      Xor (bucket ∈ stored) (∃ gap ∈ gaps, Covers gap bucket))

/-- Multiples of a step are a step apart. -/
theorem add_le_of_dvd_of_lt {step a b : ℤ} (ha : step ∣ a) (hb : step ∣ b) (h : a < b) :
    a + step ≤ b := by
  have := Int.le_of_dvd (sub_pos.mpr h) (dvd_sub hb ha)
  omega

theorem covered_holes_cons {timeframe : Timeframe} {first second bucket : ℤ} {rest : List ℤ} :
    (∃ gap ∈ holes timeframe (first :: second :: rest), Covers gap bucket) ↔
      Covers (first + timeframe.toSeconds, second - timeframe.toSeconds) bucket ∨
        ∃ gap ∈ holes timeframe (second :: rest), Covers gap bucket := by
  have hpos := timeframe.toSeconds_pos
  rw [holes]
  split_ifs with hgap
  · simp
  · constructor
    · exact .inr
    · rintro (⟨hlow, hhigh⟩ | hlater)
      · simp only at hlow hhigh
        omega
      · exact hlater

theorem holes_above {timeframe : Timeframe} {first : ℤ} {rest : List ℤ}
    (h : (first :: rest).Pairwise (· < ·)) :
    ∀ gap ∈ holes timeframe (first :: rest), first < gap.1 := by
  have hpos := timeframe.toSeconds_pos
  induction rest generalizing first with
  | nil => simp [holes]
  | cons second rest ih =>
    obtain ⟨hfirst, hrest⟩ := List.pairwise_cons.mp h
    have hsecond : first < second := hfirst second List.mem_cons_self
    have hlater : ∀ gap ∈ holes timeframe (second :: rest), first < gap.1 :=
      fun gap hgap => hsecond.trans (ih hrest gap hgap)
    rw [holes]
    split_ifs
    · simpa [hpos] using hlater
    · exact hlater

theorem holes_tiled {timeframe : Timeframe} {stored : List ℤ} (h : stored.Pairwise (· < ·))
    (haligned : ∀ bucket ∈ stored, timeframe.toSeconds ∣ bucket) :
    Tiled timeframe stored (holes timeframe stored) := by
  have hpos := timeframe.toSeconds_pos
  induction stored with
  | nil => exact ⟨List.Pairwise.nil, by simp [holes], by simp [holes, Xor]⟩
  | cons first rest ih =>
    cases rest with
    | nil =>
      refine ⟨List.Pairwise.nil, by simp [holes], ?_⟩
      intro bucket _
      simp [holes, Xor]
      omega
    | cons second rest =>
      obtain ⟨hfirst, hrest⟩ := List.pairwise_cons.mp h
      have hsecond : first < second := hfirst second List.mem_cons_self
      have habove := @holes_above timeframe _ _ hrest
      have hdvdFirst := haligned first List.mem_cons_self
      have hdvdSecond := haligned second (List.mem_cons_of_mem first List.mem_cons_self)
      obtain ⟨hordered, hbounds, htiles⟩ :=
        ih hrest fun bucket hbucket => haligned bucket (List.mem_cons_of_mem first hbucket)
      constructor
      · rw [holes]
        split_ifs
        · refine List.pairwise_cons.mpr ⟨?_, hordered⟩
          intro gap hgap
          have := habove gap hgap
          simp only
          omega
        · exact hordered
      · rw [holes]
        split_ifs with hgap
        · have hdvdNext : timeframe.toSeconds ∣ first + timeframe.toSeconds :=
            dvd_add_self_right.mpr hdvdFirst
          refine List.forall_mem_cons.mpr ⟨⟨?_, hdvdNext, ?_⟩, hbounds⟩
          · have := add_le_of_dvd_of_lt hdvdNext hdvdSecond hgap
            simp only
            omega
          · exact dvd_sub_self_right.mpr hdvdSecond
        · exact hbounds
      · intro bucket hbucket
        have hlater := htiles bucket hbucket
        rw [covered_holes_cons]
        by_cases hside : second ≤ bucket
        -- Buckets from the second on are tiled by what follows the first.
        · have hnotFirst : bucket ≠ first := by omega
          have hnotGap : ¬ Covers (first + timeframe.toSeconds, second - timeframe.toSeconds)
              bucket := by
            rintro ⟨-, hhigh⟩
            simp only at hhigh
            omega
          rw [List.mem_cons, or_iff_right hnotFirst, or_iff_right hnotGap, ← hlater]
          have hfrom : first ≤ bucket := by omega
          simp [hside, hfrom]
        · have hbefore : bucket + timeframe.toSeconds ≤ second :=
            add_le_of_dvd_of_lt hbucket hdvdSecond (not_le.mp hside)
          have hnotStored : bucket ∉ second :: rest := by
            intro hin
            rcases List.mem_cons.mp hin with heq | hin
            · omega
            · have := (List.pairwise_cons.mp hrest).1 bucket hin
              omega
          have hnotLater : ¬ ∃ gap ∈ holes timeframe (second :: rest), Covers gap bucket := by
            rintro ⟨gap, hgap, hlow, -⟩
            have := habove gap hgap
            omega
          obtain ⟨last, hlast⟩ : ∃ last, (second :: rest).getLast? = some last :=
            ⟨_, List.getLast?_cons⟩
          have hspan : second ≤ last := by
            rcases List.mem_cons.mp (List.mem_of_getLast? hlast) with rfl | hin
            · exact le_rfl
            · exact ((List.pairwise_cons.mp hrest).1 last hin).le
          rw [List.mem_cons, or_iff_left hnotStored, or_iff_left hnotLater, List.head?_cons,
            List.getLast?_cons_cons, hlast]
          simp only [Option.mem_some_iff, exists_eq_left']
          have hnext (hlt : first < bucket) : first + timeframe.toSeconds ≤ bucket :=
            add_le_of_dvd_of_lt hdvdFirst hbucket hlt
          unfold Xor Covers
          simp only
          omega

/-- Combining minutes to a finer and then to a coarser timeframe is combining them to the coarser
one; the candles kept carry its volume, and its gaps tile what its buckets leave out. -/
theorem aggregation_settled (data : List PricedCandle) {finer coarser : Timeframe}
    (hdvd : finer.toSeconds ∣ coarser.toSeconds) :
    ∃ fine coarse,
      aggregate data .minute1 finer = .ok fine ∧
      aggregate data .minute1 coarser = .ok coarse ∧
      aggregate fine finer coarser = .ok coarse ∧
      (coarse.map (·.volume)).sum = ((oneCandlePerTimestamp data).map (·.volume)).sum ∧
      (∀ candle, candle ∈ oneCandlePerTimestamp data ↔
        (data.filter (·.timestamp = candle.timestamp)).getLast? = some candle) ∧
      (coarser ≠ .minute1 →
        Tiled coarser (coarse.map (·.timestamp))
          (detectGaps (coarse.map (·.timestamp)) coarser)) := by
  have hminute (timeframe : Timeframe) : Timeframe.minute1.toSeconds ≤ timeframe.toSeconds := by
    cases timeframe <;> decide
  have hkept := oneCandlePerTimestamp_ascending data
  have hfiner := aggregate_eq data (hminute finer)
  have hcoarser := aggregate_eq data (hminute coarser)
  refine ⟨_, _, hfiner, hcoarser, ?_, ?_, mem_oneCandlePerTimestamp data, ?_⟩
  · rw [aggregate_eq _ (Int.le_of_dvd coarser.toSeconds_pos hdvd)]
    congr 1
    by_cases hfine : Timeframe.minute1 = finer
    · subst hfine
      rw [if_pos rfl, oneCandlePerTimestamp_of_ascending hkept]
    · have hcombined := @combine_ascending finer _ hkept
      rw [if_neg hfine, oneCandlePerTimestamp_of_ascending hcombined, combine_combine hdvd hkept]
      by_cases heq : finer = coarser
      · subst heq
        rw [if_pos rfl, if_neg hfine]
      · have hcoarse : Timeframe.minute1 ≠ coarser := by
          rintro rfl
          have hle := Int.le_of_dvd Timeframe.minute1.toSeconds_pos hdvd
          exact hfine (Timeframe.toSeconds_injective (le_antisymm (hminute finer) hle))
        rw [if_neg heq, if_neg hcoarse]
  · split_ifs
    · rfl
    · exact combine_volumes hkept
  · intro hcoarse
    rw [if_neg (Ne.symm hcoarse)]
    have hascending := List.pairwise_map.mpr (@combine_ascending coarser _ hkept)
    have hsorted := @sortBy_of_sorted _ _ _ id _ (hascending.imp le_of_lt)
    rw [detectGaps, hsorted]
    apply holes_tiled hascending
    intro bucket hbucket
    rw [combine_timestamps] at hbucket
    obtain ⟨point, -, rfl⟩ := mem_keysOf.mp hbucket
    exact dvd_bucketStart point.timestamp coarser

/-- A minute written twice and one of the next hour. -/
def twoHours : List PricedCandle :=
  [⟨⟨7260, 5⟩, 2, 3, 1, 2⟩, ⟨⟨60, 1⟩, 1, 1, 1, 1⟩, ⟨⟨60, 2⟩, 1, 2, 1, 2⟩]

theorem aggregation_of_two_hours :
    Timeframe.minute5.toSeconds ∣ Timeframe.hour1.toSeconds ∧ ∃ fine coarse,
      aggregate twoHours .minute1 .minute5 = .ok fine ∧
      aggregate twoHours .minute1 .hour1 = .ok coarse ∧
        aggregate fine .minute5 .hour1 = .ok coarse ∧
      Tiled .hour1 (coarse.map (·.timestamp)) (detectGaps (coarse.map (·.timestamp)) .hour1) := by
  have hdvd : Timeframe.minute5.toSeconds ∣ Timeframe.hour1.toSeconds := by decide
  obtain ⟨fine, coarse, hfine, hcoarse, htwice, -, -, htiled⟩ := aggregation_settled twoHours hdvd
  exact ⟨hdvd, fine, coarse, hfine, hcoarse, htwice, htiled (by decide)⟩

end ScreenerBot.Ohlcvs
