import ScreenerBot.Library.Grouping
import ScreenerBot.Trader.Stats

/-!
The realized figures agree with one another, whatever order the rounds arrive in.

The running P&L and the buckets are kept in one pass; the totals and the gross figures are summed
apart from it, over the same counted rounds.
-/
namespace ScreenerBot.Trader
open Library

theorem exitOrder_nodup {rounds : List ClosedRound} (h : (rounds.map ClosedRound.id).Nodup) :
    (rounds.map exitOrder).Nodup := by
  rw [List.Nodup, List.pairwise_map] at *
  refine h.imp ?_
  intro a b hne heq
  apply hne
  have hlex := congrArg (fun key => OrderDual.ofDual (ofLex key).2) heq
  exact hlex

theorem exitOrder_sorted_eq {rounds rounds' : List ClosedRound} (hperm : rounds'.Perm rounds)
    (h : (rounds.map ClosedRound.id).Nodup) : sortBy exitOrder rounds' = sortBy exitOrder rounds :=
  (sortBy_eq_of_perm exitOrder hperm.symm (exitOrder_nodup h)).symm

/-- The order a hash map lists its keys in does not show. -/
theorem exitBreakdown_mapOrder {T : Type} (texts : ReasonTexts T)
    {mapOrder mapOrder' : List String → List String} (h : ∀ keys, (mapOrder keys).Perm keys)
    (h' : ∀ keys, (mapOrder' keys).Perm keys) (closed : List ClosedRound) :
    exitBreakdown texts mapOrder closed = exitBreakdown texts mapOrder' closed := by
  unfold exitBreakdown
  apply sortBy_eq_of_perm
  · exact ((h _).trans (h' _).symm).map _
  · rw [List.map_map, List.Nodup, List.pairwise_map]
    have hnodup := (h (closed.map fun round => closedReasonKey round.closedReason).dedup).symm.nodup
      (List.nodup_dedup _)
    refine hnodup.imp ?_
    intro a b hne heq
    exact hne (congrArg (fun key => (ofLex key).2) heq)

theorem min?_perm {exits exits' : List ℤ} (h : exits'.Perm exits) : exits'.min? = exits.min? := by
  cases hmin : exits.min? with
  | none =>
    rw [List.min?_eq_none_iff] at hmin ⊢
    rw [hmin] at h
    exact h.eq_nil
  | some least =>
    rw [List.min?_eq_some_iff] at hmin ⊢
    exact ⟨h.mem_iff.mpr hmin.1, fun exit hexit => hmin.2 exit (h.mem_iff.mp hexit)⟩

theorem windowStart_perm {rounds rounds' : List ClosedRound} (hperm : rounds'.Perm rounds)
    (window : StatsWindow) (now : Moment) :
    windowStart window rounds' now = windowStart window rounds now := by
  cases window with
  | days n => rfl
  | all => exact congrArg some (min?_perm ((hperm.filterMap ClosedRound.exitTime).map Moment.nanos))

theorem mem_bucketWalk {step today : ℤ} (hstep : 0 < step) {fuel : ℕ} {start x : ℤ} :
    x ∈ bucketWalk step today fuel start ↔
      ∃ i : ℕ, i < fuel ∧ x = start + step * i ∧ x ≤ today := by
  induction fuel generalizing start with
  | zero => simp [bucketWalk]
  | succ fuel ih =>
    rw [bucketWalk]
    split
    next hle =>
      rw [List.mem_cons, ih]
      constructor
      · rintro (rfl | ⟨i, hi, rfl, hx⟩)
        · exact ⟨0, by omega, by simp, hle⟩
        · exact ⟨i + 1, by omega, by push_cast; ring, hx⟩
      · rintro ⟨i, hi, rfl, hx⟩
        cases i with
        | zero => exact .inl (by simp)
        | succ i => exact .inr ⟨i, by omega, by push_cast; ring, hx⟩
    next hlate =>
      simp only [List.not_mem_nil, false_iff, not_exists, not_and]
      rintro i - rfl hx
      have : 0 ≤ step * i := by positivity
      omega

theorem bucketWalk_increasing {step today : ℤ} (hstep : 0 < step) (fuel : ℕ) (start : ℤ) :
    (bucketWalk step today fuel start).Pairwise (· < ·) := by
  induction fuel generalizing start with
  | zero => exact .nil
  | succ fuel ih =>
    rw [bucketWalk]
    split
    · refine List.pairwise_cons.mpr ⟨fun x hx => ?_, ih _⟩
      obtain ⟨i, -, rfl, -⟩ := (mem_bucketWalk hstep).mp hx
      have : 0 ≤ step * i := by positivity
      omega
    · exact .nil

theorem bucketStep_pos (bucket : PnlBucket) : 0 < bucketStep bucket := by
  cases bucket <;> decide

theorem bucketStart_mono (bucket : PnlBucket) {a b : ℤ} (h : a ≤ b) :
    bucketStart bucket a ≤ bucketStart bucket b := by
  cases bucket with
  | day => exact h
  | week =>
    simp only [bucketStart, daysFromMonday]
    omega

/-- The walk meets the buckets of the days from the first one to today, and no other. -/
theorem mem_bucketStarts {bucket : PnlBucket} {first today x : ℤ} (h : first ≤ today) :
    x ∈ bucketStarts bucket (some first) today ↔
      ∃ day, first ≤ day ∧ day ≤ today ∧ bucketStart bucket day = x := by
  rw [bucketStarts, mem_bucketWalk (bucketStep_pos bucket)]
  cases bucket with
  | day =>
    simp only [bucketStep, bucketStart]
    constructor
    · rintro ⟨i, -, rfl, hx⟩
      exact ⟨first + 1 * i, by omega, hx, rfl⟩
    · rintro ⟨day, hfirst, hday, rfl⟩
      exact ⟨(day - first).toNat, by omega, by omega, hday⟩
  | week =>
    simp only [bucketStep, bucketStart, daysFromMonday]
    constructor
    · rintro ⟨i, -, rfl, hx⟩
      -- The first bucket holds the first day; every later one starts in the window.
      cases i with
      | zero => exact ⟨first, le_rfl, h, by simp⟩
      | succ i => exact ⟨_, by push_cast; omega, hx, by push_cast; omega⟩
    · rintro ⟨day, hfirst, hday, rfl⟩
      exact ⟨((day - (day + 3) % 7 - (first - (first + 3) % 7)) / 7).toNat, by omega, by omega,
        by omega⟩

theorem bucketStarts_increasing (bucket : PnlBucket) (firstDay : Option ℤ) (today : ℤ) :
    (bucketStarts bucket firstDay today).Pairwise (· < ·) := by
  cases firstDay with
  | none => exact .nil
  | some first => exact bucketWalk_increasing (bucketStep_pos bucket) _ _

/-- What the pass gathers in a bucket is what the rounds of the bucket sum up to. -/
theorem seriesFold {bucket : PnlBucket} {key : ClosedRound → ℤ} {rounds : List ClosedRound}
    (hexits : ∀ round ∈ rounds, ∃ exit, round.exitTime = some exit ∧
      bucketStart bucket (dayOf exit.nanos) = key round)
    (s : Drawdown ℚ × (ℤ → ℚ × ℕ)) :
    (rounds.foldl (seriesStep bucket) s).1 =
        (rounds.map fun round => round.pnl.getD 0).foldl Drawdown.add s.1 ∧
      ∀ k, (rounds.foldl (seriesStep bucket) s).2 k =
        ((s.2 k).1 + ((rounds.filter (key · = k)).map fun round => round.pnl.getD 0).sum,
          (s.2 k).2 + ((rounds.filter (key · = k)).map fun _ => 1).sum) := by
  induction rounds generalizing s with
  | nil => simp
  | cons round rest ih =>
    obtain ⟨⟨exit, hexit, hkey⟩, hrest⟩ := List.forall_mem_cons.mp hexits
    obtain ⟨hrun, hgathered⟩ := ih hrest (seriesStep bucket s round)
    constructor
    · rw [List.foldl_cons, hrun]
      rfl
    · intro k
      rw [List.foldl_cons, hgathered k]
      simp only [seriesStep, hexit, hkey, addToBucket]
      by_cases hk : key round = k
      · subst hk
        simp only [Function.update_self, List.filter_cons, decide_true, if_true, List.map_cons,
          List.sum_cons]
        exact Prod.ext (by ring) (by ring)
      · rw [Function.update_of_ne (Ne.symm hk)]
        simp [hk]

/-- The first day of the bucket a round exits in. -/
def exitBucket (bucket : PnlBucket) (round : ClosedRound) : ℤ :=
  bucketStart bucket (dayOf ((round.exitTime.map Moment.nanos).getD 0))

/-- The rounds lie in the window, and its buckets in the calendar: a window that begins before the
calendar's first day, where the source panics, is left out. -/
structure InWindow (window : StatsWindow) (rounds : List ClosedRound) (now : Moment)
    (start : Option ℤ) : Prop where
  distinct : (rounds.map ClosedRound.id).Nodup
  starts : windowStart window rounds now = some start
  exits : ∀ round ∈ rounds, ∃ exit, round.exitTime = some exit ∧ exit.nanos ≤ now.nanos ∧
    ∃ first ∈ start, first ≤ exit.nanos
  calendar : ∀ first ∈ start, first ≤ now.nanos ∧
    minDay ≤ bucketStart (bucketFor (start.map dayOf) (dayOf now.nanos)) (dayOf first)

theorem dayOf_mono {a b : ℤ} (h : a ≤ b) : dayOf a ≤ dayOf b :=
  Int.ediv_le_ediv (by norm_num [dayNanos]) h

section Series

variable {closed : List ClosedRound} {now : Moment} {start : Option ℤ}

/-- What the series and the drawdown are of the counted rounds of a window. -/
theorem pnlSeries_spec
    (hexits : ∀ round ∈ closed, ∃ exit, round.exitTime = some exit ∧ exit.nanos ≤ now.nanos ∧
      ∃ first ∈ start, first ≤ exit.nanos)
    (hcalendar : ∀ first ∈ start, first ≤ now.nanos ∧
      minDay ≤ bucketStart (bucketFor (start.map dayOf) (dayOf now.nanos)) (dayOf first)) :
    ∃ points, pnlSeries closed start now =
        some (points, (Drawdown.run (closed.reverse.map fun round => round.pnl.getD 0)).fall) ∧
      points.map DailyPnlPoint.date = bucketStarts (bucketFor (start.map dayOf) (dayOf now.nanos))
        (start.map dayOf) (dayOf now.nanos) ∧
      (∀ point ∈ points, point.bucket = bucketFor (start.map dayOf) (dayOf now.nanos)) ∧
      (points.map DailyPnlPoint.netPnlNative).sum = (closed.map fun round => round.pnl.getD 0).sum ∧
      (points.map DailyPnlPoint.trades).sum = closed.length := by
  unfold pnlSeries
  simp only
  set bucket := bucketFor (start.map dayOf) (dayOf now.nanos) with hbucket
  have hdays : ¬ (bucketDays closed (start.map dayOf)).any
      (fun day => bucketStart bucket day < minDay) = true := by
    simp only [bucketDays, List.any_eq_true, List.mem_append, Option.mem_toList,
      Option.map_eq_some_iff, List.mem_map, List.mem_filterMap, decide_eq_true_eq, not_exists,
      not_and, not_lt]
    rintro day (⟨first, hfirst, rfl⟩ | ⟨exit, ⟨round, hround, hexit⟩, rfl⟩)
    · exact (hcalendar first hfirst).2
    · obtain ⟨exit', hexit', -, first, hfirst, hle⟩ := hexits round hround
      rw [hexit] at hexit'
      cases hexit'
      exact (hcalendar first hfirst).2.trans (bucketStart_mono bucket (dayOf_mono hle))
  rw [if_neg hdays]
  have hkeys : ∀ round ∈ closed.reverse, ∃ exit, round.exitTime = some exit ∧
      bucketStart bucket (dayOf exit.nanos) = exitBucket bucket round := by
    intro round hround
    obtain ⟨exit, hexit, -⟩ := hexits round (List.mem_reverse.mp hround)
    exact ⟨exit, hexit, by simp [exitBucket, hexit]⟩
  obtain ⟨hrun, hgathered⟩ := seriesFold hkeys (Drawdown.start, fun _ => (0, 0))
  have hcover : ∀ round ∈ closed.reverse, exitBucket bucket round ∈
      bucketStarts bucket (start.map dayOf) (dayOf now.nanos) := by
    intro round hround
    obtain ⟨exit, hexit, hnow, first, hfirst, hle⟩ := hexits round (List.mem_reverse.mp hround)
    rw [Option.mem_def] at hfirst
    rw [hfirst, Option.map_some, mem_bucketStarts (dayOf_mono (hcalendar first hfirst).1)]
    exact ⟨dayOf exit.nanos, dayOf_mono hle, dayOf_mono hnow, by simp [exitBucket, hexit]⟩
  have hnodup : (bucketStarts bucket (start.map dayOf) (dayOf now.nanos)).Nodup :=
    (bucketStarts_increasing _ _ _).imp ne_of_lt
  refine ⟨_, by rw [hrun]; rfl, by simp [Function.comp_def], by simp, ?_, ?_⟩
  · simp only [List.map_map, Function.comp_def, hgathered, zero_add]
    rw [sum_classOf _ hnodup hcover, List.map_reverse, List.sum_reverse]
  · simp only [List.map_map, Function.comp_def, hgathered, zero_add]
    rw [sum_classOf _ hnodup hcover]
    simp

end Series

/-- Profits less losses are what all of them sum up to. -/
theorem gross_difference (changes : List ℚ) :
    (changes.filter (0 < ·)).sum - ((changes.filter (· < 0)).map fun change => |change|).sum =
      changes.sum := by
  induction changes with
  | nil => simp
  | cons change rest ih =>
    rcases lt_trichotomy change 0 with hneg | rfl | hpos
    · simp [hneg, hneg.not_gt, abs_of_neg hneg]
      linarith
    · simpa using ih
    · simp [hpos, hpos.not_gt]
      linarith

/-- An unknown P&L changes no total. -/
theorem sum_filterMap_pnl (closed : List ClosedRound) :
    (closed.filterMap ClosedRound.pnl).sum = (closed.map fun round => round.pnl.getD 0).sum := by
  induction closed with
  | nil => rfl
  | cons round rest ih =>
    cases hpnl : round.pnl with
    | none => simp [hpnl, ih]
    | some pnl => simp [hpnl, ih]

/-- The P&L of the counted rounds, in exit order. -/
def realizedChanges (rounds : List ClosedRound) : List ℚ :=
  ((countedRounds (sortBy exitOrder rounds)).1.reverse).map fun round => round.pnl.getD 0

theorem of_reordered {T : Type} (texts : ReasonTexts T)
    {mapOrder mapOrder' : List String → List String}
    (h : ∀ keys, (mapOrder keys).Perm keys) (h' : ∀ keys, (mapOrder' keys).Perm keys)
    {rounds rounds' : List ClosedRound} (hperm : rounds'.Perm rounds)
    (hdistinct : (rounds.map ClosedRound.id).Nodup) (window : StatsWindow) (now : Moment) :
    RealizedStats.of texts mapOrder' window rounds' now =
      RealizedStats.of texts mapOrder window rounds now := by
  unfold RealizedStats.of
  simp only [exitOrder_sorted_eq hperm hdistinct, exitBreakdown_mapOrder texts h h']

/-- The figures of a window are the same for every order of its rounds and of the hash map that
groups them. The series has one point for each bucket of the window's days, in order; its points sum
up to the totals, gross profit less gross loss is the total, and the drawdown is the largest fall of
the running P&L, taken after each counted round in exit order, below an earlier one or below
zero. -/
theorem realized_figures_agree {T : Type} (texts : ReasonTexts T)
    (mapOrder : List String → List String) (hmap : ∀ keys, (mapOrder keys).Perm keys)
    (window : StatsWindow) (rounds : List ClosedRound) (now : Moment) (start : Option ℤ)
    (h : InWindow window rounds now start) :
    ∃ stats, RealizedStats.of texts mapOrder window rounds now = some stats ∧
      (∀ (mapOrder' : List String → List String) (rounds' : List ClosedRound),
        (∀ keys, (mapOrder' keys).Perm keys) → rounds'.Perm rounds →
          RealizedStats.of texts mapOrder' window rounds' now = some stats) ∧
      (stats.dailyPnl.map DailyPnlPoint.date).Pairwise (· < ·) ∧
      (∀ first ∈ start, ∀ date, date ∈ stats.dailyPnl.map DailyPnlPoint.date ↔
        ∃ day, dayOf first ≤ day ∧ day ≤ dayOf now.nanos ∧
          bucketStart (bucketFor (some (dayOf first)) (dayOf now.nanos)) day = date) ∧
      (stats.dailyPnl.map DailyPnlPoint.netPnlNative).sum = stats.totals.realizedNative ∧
      (stats.dailyPnl.map DailyPnlPoint.trades).sum = stats.totals.closed ∧
      stats.grossProfitNative - stats.grossLossNative = stats.totals.realizedNative ∧
      IsGreatest {fall : ℚ | ∃ i j, i ≤ j ∧ j ≤ (realizedChanges rounds).length ∧
        fall = ((realizedChanges rounds).take i).sum - ((realizedChanges rounds).take j).sum}
        stats.maxDrawdownNative := by
  have hperm := sortBy_perm exitOrder rounds
  have hstart : windowStart window (sortBy exitOrder rounds) now = some start :=
    (windowStart_perm hperm window now).trans h.starts
  have hexits : ∀ round ∈ (countedRounds (sortBy exitOrder rounds)).1, ∃ exit,
      round.exitTime = some exit ∧ exit.nanos ≤ now.nanos ∧ ∃ first ∈ start,
        first ≤ exit.nanos := by
    intro round hround
    have hmem := List.mem_of_mem_filter (List.mem_of_mem_filter hround)
    exact h.exits round (hperm.mem_iff.mp hmem)
  obtain ⟨points, hseries, hdates, -, hsum, htrades⟩ := pnlSeries_spec hexits h.calendar
  obtain ⟨hbound, i, j, hij, hj, hreached⟩ := Drawdown.run_fall (realizedChanges rounds)
  obtain ⟨stats, hstats, hdaily, htotals, hprofit, hloss, hfall⟩ : ∃ stats,
      RealizedStats.of texts mapOrder window rounds now = some stats ∧ stats.dailyPnl = points ∧
      stats.totals = RoundTotals.of (countedRounds (sortBy exitOrder rounds)).1
        (countedRounds (sortBy exitOrder rounds)).2 ∧
      stats.grossProfitNative = (((countedRounds (sortBy exitOrder rounds)).1.filterMap
        ClosedRound.pnl).filter (0 < ·)).sum ∧
      stats.grossLossNative = ((((countedRounds (sortBy exitOrder rounds)).1.filterMap
        ClosedRound.pnl).filter (· < 0)).map fun pnl => |pnl|).sum ∧
      stats.maxDrawdownNative = (Drawdown.run (realizedChanges rounds)).fall := by
    unfold RealizedStats.of
    simp only [hstart, Option.bind_eq_bind, Option.bind_some, hseries]
    exact ⟨_, rfl, rfl, rfl, rfl, rfl, rfl⟩
  refine ⟨stats, hstats, ?_, ?_, ?_, ?_, ?_, ?_, ?_⟩
  · intro mapOrder' rounds' hmap' hperm'
    rw [of_reordered texts hmap hmap' hperm' h.distinct, hstats]
  · rw [hdaily, hdates]
    exact bucketStarts_increasing _ _ _
  · intro first hfirst date
    have hle := (h.calendar first hfirst).1
    rw [Option.mem_def] at hfirst
    rw [hdaily, hdates, hfirst, Option.map_some]
    exact mem_bucketStarts (dayOf_mono hle)
  · rw [hdaily, htotals, hsum]
    exact (sum_filterMap_pnl _).symm
  · rw [hdaily, htotals, htrades]
    rfl
  · rw [hprofit, hloss, htotals]
    exact gross_difference _
  · rw [hfall]
    constructor
    · exact ⟨i, j, hij, hj, hreached.symm⟩
    · rintro fall ⟨i, j, hij, hj, rfl⟩
      exact hbound i j hij hj

/-- A win of three on one day and a loss of five on the next, in a window of a week. -/
theorem realized_figures_agree_two_days :
    let now : Moment := ⟨9 * dayNanos, by decide, by decide⟩
    let win : ClosedRound := ⟨some 1, "m", "A", "a", .manual, ⟨0, by decide, by decide⟩,
      some ⟨7 * dayNanos, by decide, by decide⟩, some "TakeProfit", some 3, some 30,
        none, none, true,
      true⟩
    let loss : ClosedRound := { win with
      id := some 2
      exitTime := some ⟨8 * dayNanos, by decide, by decide⟩
      pnl := some (-5)
      pnlPercent := some (-50) }
    ∃ stats, RealizedStats.of (⟨fun _ => (), fun _ => (), ()⟩ : ReasonTexts Unit) id (.days 7)
        [win, loss] now = some stats ∧
      (stats.dailyPnl.map DailyPnlPoint.trades).sum = stats.totals.closed ∧
      (5 : ℚ) ≤ stats.maxDrawdownNative := by
  intro now win loss
  have hwindow : InWindow (.days 7) [win, loss] now (some (2 * dayNanos)) := by
    constructor
    · simp [win, loss]
    · decide
    · simp only [List.forall_mem_cons, List.not_mem_nil, false_implies, implies_true, and_true]
      exact ⟨⟨_, rfl, by decide, _, rfl, by decide⟩, ⟨_, rfl, by decide, _, rfl, by decide⟩⟩
    · simp only [Option.mem_def, Option.some.injEq, forall_eq']
      exact ⟨by decide, by decide⟩
  obtain ⟨stats, hstats, -, -, -, -, htrades, -, hfall⟩ := realized_figures_agree
    (⟨fun _ => (), fun _ => (), ()⟩ : ReasonTexts Unit) id (fun _ => .refl _) _ _ _ _ hwindow
  have hchanges : realizedChanges [win, loss] = [3, -5] := by decide +kernel
  refine ⟨stats, hstats, htrades, hfall.2 ⟨1, 2, by decide, ?_, ?_⟩⟩
  · rw [hchanges]
    decide
  · rw [hchanges]
    norm_num

end ScreenerBot.Trader
