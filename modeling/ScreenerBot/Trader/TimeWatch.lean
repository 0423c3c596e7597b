import ScreenerBot.Positions.Position
import ScreenerBot.Trader.ExitRules

/-!
The time exits of a holding, as the exit monitor fires them and as the watch foretells them.

The watch asks each rule about the first whole second its duration allows, and reports the moment
that second is over; the monitor asks at the moment it runs.
-/
namespace ScreenerBot.Trader
open Positions (PositionManagement)

def i64Max : ℤ := 2 ^ 63 - 1

/-- The first moment a UTC timestamp holds, in nanoseconds of Unix time. -/
def minNanos : ℤ := -8334601228800 * 10 ^ 9

/-- The last moment a UTC timestamp holds. -/
def maxNanos : ℤ := 8210266876799 * 10 ^ 9 + 999999999

/-- A moment a timestamp can hold. -/
structure Moment where
  nanos : ℤ
  low : minNanos ≤ nanos
  high : nanos ≤ maxNanos

namespace Moment

/-- Whole seconds of Unix time, rounded down. -/
def timestamp (t : Moment) : ℤ := t.nanos / 10 ^ 9

def WholeSecond (t : Moment) : Prop := (10 : ℤ) ^ 9 ∣ t.nanos

/-- Whole seconds between two moments, rounded toward zero. -/
def secondsSince (t start : Moment) : ℤ := (t.nanos - start.nanos).tdiv (10 ^ 9)

/-- A span holds its milliseconds in 64 bits, and a timestamp has its limits. -/
def plusSeconds (t : Moment) (seconds : ℤ) : Option Moment :=
  if -(i64Max / 1000) ≤ seconds ∧ seconds ≤ i64Max / 1000 then
    if h : minNanos ≤ t.nanos + seconds * 10 ^ 9 ∧ t.nanos + seconds * 10 ^ 9 ≤ maxNanos then
      some ⟨t.nanos + seconds * 10 ^ 9, h.1, h.2⟩
    else none
  else none

/-- A positive span has been held from the moment it is over. -/
theorem le_secondsSince_iff {t start : Moment} {seconds : ℤ} (hpos : 0 < seconds) :
    seconds ≤ t.secondsSince start ↔ start.nanos + seconds * 10 ^ 9 ≤ t.nanos := by
  unfold secondsSince
  by_cases h : 0 ≤ t.nanos - start.nanos
  · rw [Int.tdiv_eq_ediv_of_nonneg h]
    omega
  · have hneg : (t.nanos - start.nanos).tdiv (10 ^ 9) ≤ 0 := by
      rw [← neg_nonneg, ← Int.neg_tdiv]
      exact Int.tdiv_nonneg (by omega) (by norm_num)
    omega

theorem secondsSince_le (t start : Moment) : t.secondsSince start ≤ i64Max := by
  by_contra h
  have hpos : 0 < i64Max := by norm_num [i64Max]
  have hheld := (le_secondsSince_iff hpos).mp (not_le.mp h).le
  have hlow := start.low
  have hhigh := t.high
  norm_num [minNanos, maxNanos, i64Max] at *
  omega

/-- A span that ends past the last timestamp ends nowhere; one before ends on its second. -/
theorem plusSeconds_timestamp {t : Moment} {seconds second : ℤ} (hpos : 0 < seconds) :
    (t.plusSeconds seconds).map timestamp = some second ↔
      t.nanos + seconds * 10 ^ 9 ≤ maxNanos ∧ second = (t.nanos + seconds * 10 ^ 9) / 10 ^ 9 := by
  have hlow := t.low
  unfold plusSeconds
  split_ifs with hspan hrange
  · simp only [Option.map_some, timestamp, Option.some.injEq, hrange.2, true_and]
    exact eq_comm
  · simp only [Option.map_none, reduceCtorEq, false_iff, not_and]
    intro hend
    omega
  · simp only [Option.map_none, reduceCtorEq, false_iff, not_and]
    intro hend
    norm_num [minNanos, maxNanos, i64Max] at *
    omega

end Moment

/-- A position, as far as the time exits read it. -/
structure WatchedPosition where
  management : PositionManagement
  averageEntryPrice : ℚ
  currentPrice : Option ℚ
  basisPeakPrice : ℚ
  entryTime : Moment
  partialExitCount : ℕ
  takeProfitLevel : ℕ

inductive TimeExitRule where
  | timeLoss
  | timeStagnation
  deriving DecidableEq

inductive TimeExitWatch where
  | notManaged (management : PositionManagement)
  | off
  | unpriced
  | clear
  | due (rule : TimeExitRule) (dueAt : ℤ) (pnlPct : ℚ)
  deriving DecidableEq

/-- Whose exits a policy decides. -/
def allowsPolicyExits : PositionManagement → Bool
  | .autoTrader | .hybrid => true
  | .userOnly | .copyTask => false

/-- The first whole second of holding at which a rule with this duration acts. -/
def holdingSeconds (durationSeconds : ℚ) : Option ℤ :=
  if 0 < durationSeconds then some (min ⌈durationSeconds⌉ i64Max) else none

/-- A rule that cannot act does not fire. -/
def fires (fired : Except RuleError Bool) : Bool := fired.toOption.getD false

/-- The second a rule is due at, if it fires once its duration is over. -/
def dueTime (entryTime : Moment) (held : ℤ) (durationSeconds : ℚ)
    (triggered : ℤ → Except RuleError Bool) : Option ℤ :=
  ((holdingSeconds durationSeconds).filter fun due => fires (triggered (max held due))).bind
    fun due => (entryTime.plusSeconds due).map Moment.timestamp

/-- The rules that will act, each with the second it is due at. -/
def dueTimes (position : WatchedPosition) (policy : ExitPolicy) (current : ℚ) (held : ℤ) :
    List (TimeExitRule × ℤ) :=
  [(.timeLoss, dueTime position.entryTime held policy.time.durationSeconds fun due =>
      timeOverrideTriggered position.averageEntryPrice current due policy.time),
    (.timeStagnation, dueTime position.entryTime held policy.timeStagnation.durationSeconds
      fun due => stagnationTriggered position.averageEntryPrice current due
        policy.timeStagnation)].filterMap
    fun (rule, due) => due.map fun seconds => (rule, seconds)

/-- The first of the earliest: the loss rule wins a tie. -/
def earliest : List (TimeExitRule × ℤ) → Option (TimeExitRule × ℤ)
  | [] => none
  | first :: rest =>
    match earliest rest with
    | none => some first
    | some later => if later.2 < first.2 then some later else some first

/-- The time exit that applies to a position under a policy, as of now. -/
def timeExitWatch (position : WatchedPosition) (policy : ExitPolicy) (now : Moment) :
    TimeExitWatch :=
  if !allowsPolicyExits position.management then .notManaged position.management
  else if !policy.time.enabled && !policy.timeStagnation.enabled then .off
  else
    match position.currentPrice.filter (0 < ·) with
    | none => .unpriced
    | some current =>
      if position.averageEntryPrice ≤ 0 then .unpriced
      else
        match earliest (dueTimes position policy current
          (now.secondsSince position.entryTime)) with
        | none => .clear
        | some (rule, dueAt) => .due rule dueAt (profitPct position.averageEntryPrice current)

def positionExitInputs (position : WatchedPosition) (currentPrice : ℚ) (now : Moment) :
    ExitInputs where
  averageEntryPrice := position.averageEntryPrice
  currentPrice := currentPrice
  basisPeakPrice := position.basisPeakPrice
  heldSeconds := now.secondsSince position.entryTime
  partialExitsTaken := 0 < position.partialExitCount
  takeProfitLevelsTaken := position.takeProfitLevel

/-- A policy whose price rules are switched off. -/
def ExitPolicy.timeOnly (policy : ExitPolicy) : ExitPolicy :=
  { policy with
    stopLoss.enabled := false
    trailing.enabled := false
    breakEven.enabled := false
    takeProfit.enabled := false }

/-- The rule the monitor fires at a moment, on the price the position has now and with the price
rules off. -/
def firedAt (position : WatchedPosition) (policy : ExitPolicy) (t : Moment) : Option ExitRule :=
  position.currentPrice.bind fun price =>
    (policy.timeOnly.decide (positionExitInputs position price t)).outcome.map RuleOutcome.rule

def TimeExitRule.exitRule : TimeExitRule → ExitRule
  | .timeLoss => .timeLoss
  | .timeStagnation => .timeStagnation

/-- What the loss rule asks of a holding besides its age. -/
def LossStands (entryPrice currentPrice : ℚ) (policy : TimePolicy) : Prop :=
  policy.enabled = true ∧ policy.validate = .ok () ∧ 0 < entryPrice ∧
    (currentPrice - entryPrice) / entryPrice * 100 ≤ policy.lossThresholdPct

/-- What the stagnation rule asks of a holding besides its age. -/
def FlatStands (entryPrice currentPrice : ℚ) (policy : TimeStagnationPolicy) : Prop :=
  policy.enabled = true ∧ 0 < policy.durationSeconds ∧ 0 < policy.bandPct ∧ 0 < entryPrice ∧
    0 < currentPrice ∧ entryPrice * (1 - policy.bandPct / 100) ≤ currentPrice ∧
    currentPrice ≤ entryPrice * (1 + policy.bandPct / 100)

theorem LossStands.duration_pos {entryPrice currentPrice : ℚ} {policy : TimePolicy}
    (h : LossStands entryPrice currentPrice policy) : 0 < policy.durationSeconds := by
  obtain ⟨hon, hvalid, -⟩ := h
  unfold TimePolicy.validate at hvalid
  simp only [hon, Bool.not_true, Bool.false_eq_true, if_false] at hvalid
  split_ifs at hvalid with hduration
  exact not_le.mp hduration

theorem timeOverride_fires (entryPrice currentPrice : ℚ) (policy : TimePolicy) (held : ℤ) :
    fires (timeOverrideTriggered entryPrice currentPrice held policy) = true ↔
      LossStands entryPrice currentPrice policy ∧ ⌈policy.durationSeconds⌉ ≤ held := by
  unfold timeOverrideTriggered LossStands fires
  rw [Int.ceil_le]
  cases hon : policy.enabled with
  | false => simp [Except.toOption]
  | true =>
    cases hvalid : policy.validate with
    | error fault => simp [Except.toOption]
    | ok =>
      simp only [Bool.not_true, Bool.false_eq_true, if_false, true_and]
      split_ifs with h
      · simp only [Except.toOption, Option.getD_some, Bool.false_eq_true, false_iff]
        rintro ⟨⟨hentry, -⟩, hheld⟩
        exact h.elim (not_lt.mpr hheld) (not_le.mpr hentry)
      · rw [not_or, not_lt, not_le] at h
        simp [Except.toOption, h.1, h.2]

theorem stagnation_fires (entryPrice currentPrice : ℚ) (policy : TimeStagnationPolicy) (held : ℤ) :
    fires (stagnationTriggered entryPrice currentPrice held policy) = true ↔
      FlatStands entryPrice currentPrice policy ∧ ⌈policy.durationSeconds⌉ ≤ held := by
  unfold stagnationTriggered FlatStands fires
  rw [Int.ceil_le]
  split_ifs with hoff hduration hband hprices hheld
  · simp only [Except.toOption, Option.getD_some, Bool.false_eq_true, false_iff]
    simp_all
  · simp [Except.toOption, not_lt.mpr hduration]
  · simp [Except.toOption, not_lt.mpr hband]
  · simp only [Except.toOption, Option.getD_some, Bool.false_eq_true, false_iff]
    rintro ⟨⟨-, hpos, -, hentry, hcurrent, -⟩, hheld⟩
    have hage : (0 : ℚ) < held := hpos.trans_le hheld
    rcases hprices with hage' | hentry' | hcurrent'
    · exact absurd (Int.cast_pos.mp hage) (by omega)
    · exact absurd hentry (not_lt.mpr hentry')
    · exact absurd hcurrent (not_lt.mpr hcurrent')
  · simp [Except.toOption, not_le.mpr hheld]
  · rw [not_or, not_or, not_lt, not_le, not_le] at hprices
    simp only [Except.toOption, Option.getD_some, decide_eq_true_eq]
    simp_all

/-- The moment a rule's holding time is over, in nanoseconds of Unix time. -/
def deadline (entryTime : Moment) (durationSeconds : ℚ) : ℤ :=
  entryTime.nanos + ⌈durationSeconds⌉ * 10 ^ 9

section Rule

variable {durationSeconds : ℚ} {stands : Prop}
  {triggered : ℤ → Except RuleError Bool}

/-- From its deadline on a rule that stands fires. -/
theorem fires_iff_deadline (entryTime t : Moment) (hpos : stands → 0 < durationSeconds)
    (hfires : ∀ held, fires (triggered held) = true ↔ stands ∧ ⌈durationSeconds⌉ ≤ held) :
    fires (triggered (t.secondsSince entryTime)) = true ↔
      stands ∧ deadline entryTime durationSeconds ≤ t.nanos := by
  rw [hfires]
  apply and_congr_right
  intro hstands
  exact Moment.le_secondsSince_iff (Int.ceil_pos.mpr (hpos hstands))

/-- The watch sees the deadlines a timestamp holds. -/
theorem dueTime_eq_some (entryTime now : Moment) (dueAt : ℤ) (hpos : stands → 0 < durationSeconds)
    (hfires : ∀ held, fires (triggered held) = true ↔ stands ∧ ⌈durationSeconds⌉ ≤ held) :
    dueTime entryTime (now.secondsSince entryTime) durationSeconds triggered = some dueAt ↔
      stands ∧ deadline entryTime durationSeconds ≤ maxNanos ∧
        dueAt = deadline entryTime durationSeconds / 10 ^ 9 := by
  have hheld := now.secondsSince_le entryTime
  have hlow := entryTime.low
  unfold dueTime holdingSeconds
  split_ifs with hduration
  · have hceil := Int.ceil_pos.mpr hduration
    by_cases hbig : ⌈durationSeconds⌉ ≤ i64Max
    · rw [min_eq_left hbig, Option.filter_some]
      by_cases hstands : stands
      · rw [if_pos ((hfires _).mpr ⟨hstands, le_max_right ..⟩), Option.bind_some,
          Moment.plusSeconds_timestamp hceil]
        simp [hstands, deadline]
      · rw [if_neg fun h => hstands ((hfires _).mp h).1]
        simp [hstands]
    · rw [min_eq_right (not_le.mp hbig).le, Option.filter_some, max_eq_right hheld,
        if_neg fun h => hbig ((hfires _).mp h).2]
      simp only [Option.bind_none, reduceCtorEq, false_iff, not_and]
      intro _ hend
      norm_num [deadline, minNanos, maxNanos, i64Max] at *
      omega
  · simp only [Option.filter_none, Option.bind_none, reduceCtorEq, false_iff, not_and]
    intro hstands
    exact absurd (hpos hstands) hduration

end Rule

section Agreement

variable {position : WatchedPosition} {policy : ExitPolicy} {price : ℚ}

/-- What rules could not act does not decide which rule fires. -/
theorem checkRules_outcome_congr {admitOutcome : RuleOutcome → Bool} {decision decision' : Decision}
    {checks : List (ExitRule × Except RuleError (Option (Option ℚ)))}
    (h : decision.outcome = decision'.outcome) :
    (checkRules admitOutcome decision checks).outcome =
      (checkRules admitOutcome decision' checks).outcome := by
  induction checks generalizing decision decision' with
  | nil => exact h
  | cons check rest ih =>
    obtain ⟨rule, fired⟩ := check
    cases fired with
    | error e => exact ih h
    | ok outcome =>
      cases outcome with
      | none => exact ih h
      | some share =>
        simp only [checkRules]
        split
        · rfl
        · exact ih h

theorem checkRules_sellsAll {decision : Decision} {rule : ExitRule}
    {fired : Except RuleError Bool}
    {rest : List (ExitRule × Except RuleError (Option (Option ℚ)))} :
    (checkRules (fun _ => true) decision ((rule, sellsAll fired) :: rest)).outcome =
      if fires fired then some ⟨rule, none⟩
      else (checkRules (fun _ => true) decision rest).outcome := by
  cases fired with
  | error e =>
    change (checkRules (fun _ => true)
      { decision with ruleErrors := decision.ruleErrors ++ [(rule, e)] } rest).outcome = _
    rw [if_neg (by simp [fires, Except.toOption])]
    exact checkRules_outcome_congr rfl
  | ok triggered => cases triggered <;> rfl

/-- Switched off, a price rule asks nothing. -/
theorem ruleChecks_timeOnly (inputs : ExitInputs) :
    ruleChecks inputs policy.timeOnly =
      [(.stopLoss, .ok none), (.trailing, .ok none), (.breakEven, .ok none),
        (.takeProfit (min (inputs.takeProfitLevelsTaken + 1) (2 ^ 32 - 1)), .ok none),
        (.timeLoss, sellsAll (timeOverrideTriggered inputs.averageEntryPrice inputs.currentPrice
          inputs.heldSeconds policy.time)),
        (.timeStagnation, sellsAll (stagnationTriggered inputs.averageEntryPrice
          inputs.currentPrice inputs.heldSeconds policy.timeStagnation))] := by
  have htrailing : trailingStopTriggered inputs.averageEntryPrice inputs.basisPeakPrice
      inputs.currentPrice policy.timeOnly.trailing = .ok false := by
    simp [trailingStopTriggered, ExitPolicy.timeOnly]
  unfold ruleChecks
  rw [htrailing]
  simp [stopLossExit, breakEvenTriggered, takeProfitStep, ExitPolicy.timeOnly, sellsAll,
    Except.map]

/-- With the price rules off the loss rule is asked first, and stagnation after it. -/
theorem decide_timeOnly (inputs : ExitInputs) (hpos : 0 < inputs.currentPrice) :
    (policy.timeOnly.decide inputs).outcome.map RuleOutcome.rule =
      if fires (timeOverrideTriggered inputs.averageEntryPrice inputs.currentPrice
          inputs.heldSeconds policy.time) then some .timeLoss
      else if fires (stagnationTriggered inputs.averageEntryPrice inputs.currentPrice
          inputs.heldSeconds policy.timeStagnation) then some .timeStagnation
      else none := by
  unfold ExitPolicy.decide ExitPolicy.decideAdmitting
  rw [if_neg (not_le.mpr hpos), ruleChecks_timeOnly]
  have hskip : ∀ rule rest, checkRules (fun _ => true) {} ((rule, .ok none) :: rest) =
      checkRules (fun _ => true) {} rest := fun _ _ => rfl
  rw [hskip, hskip, hskip, hskip, checkRules_sellsAll, checkRules_sellsAll]
  split
  · rfl
  · split <;> rfl

theorem firedAt_eq (hprice : position.currentPrice = some price) (hpos : 0 < price) (t : Moment) :
    firedAt position policy t =
      if fires (timeOverrideTriggered position.averageEntryPrice price
          (t.secondsSince position.entryTime) policy.time) then some .timeLoss
      else if fires (stagnationTriggered position.averageEntryPrice price
          (t.secondsSince position.entryTime) policy.timeStagnation) then some .timeStagnation
      else none := by
  unfold firedAt
  rw [hprice]
  exact decide_timeOnly (positionExitInputs position price t) hpos

theorem firedAt_unpriced (h : ∀ price ∈ position.currentPrice, price ≤ 0) (t : Moment) :
    firedAt position policy t = none := by
  unfold firedAt
  cases hprice : position.currentPrice with
  | none => rfl
  | some price =>
    simp [ExitPolicy.decide, ExitPolicy.decideAdmitting, positionExitInputs, h price hprice]

/-- What the monitor does on the price the watch saw, and from which deadlines. -/
theorem firedAt_deadlines (policy : ExitPolicy) (hprice : position.currentPrice = some price)
    (hpos : 0 < price)
    (t : Moment) :
    (LossStands position.averageEntryPrice price policy.time ∧
        deadline position.entryTime policy.time.durationSeconds ≤ t.nanos ∧
        firedAt position policy t = some .timeLoss) ∨
      ¬ (LossStands position.averageEntryPrice price policy.time ∧
        deadline position.entryTime policy.time.durationSeconds ≤ t.nanos) ∧
        (FlatStands position.averageEntryPrice price policy.timeStagnation ∧
          deadline position.entryTime policy.timeStagnation.durationSeconds ≤ t.nanos ∧
          firedAt position policy t = some .timeStagnation ∨
        ¬ (FlatStands position.averageEntryPrice price policy.timeStagnation ∧
          deadline position.entryTime policy.timeStagnation.durationSeconds ≤ t.nanos) ∧
          firedAt position policy t = none) := by
  have hloss := fires_iff_deadline position.entryTime t LossStands.duration_pos
    (timeOverride_fires position.averageEntryPrice price policy.time)
  have hflat := fires_iff_deadline position.entryTime t
    (fun h : FlatStands position.averageEntryPrice price policy.timeStagnation => h.2.1)
    (stagnation_fires position.averageEntryPrice price policy.timeStagnation)
  rw [firedAt_eq hprice hpos t]
  split_ifs with h h'
  · exact .inl ⟨(hloss.mp h).1, (hloss.mp h).2, rfl⟩
  · exact .inr ⟨fun hc => h (hloss.mpr hc), .inl ⟨(hflat.mp h').1, (hflat.mp h').2, rfl⟩⟩
  · exact .inr ⟨fun hc => h (hloss.mpr hc), .inr ⟨fun hc => h' (hflat.mpr hc), rfl⟩⟩

/-- What a due time says of the monitor, at whole seconds of the clock. -/
structure Foretold (position : WatchedPosition) (policy : ExitPolicy) (rule : TimeExitRule)
    (dueAt : ℤ) : Prop where
  before : ∀ t : Moment, t.WholeSecond → t.timestamp < dueAt → firedAt position policy t = none
  later : ∀ t : Moment, t.WholeSecond → dueAt < t.timestamp →
    ∃ fired : TimeExitRule, firedAt position policy t = some fired.exitRule
  first : ∀ t : Moment, t.WholeSecond → firedAt position policy t ≠ none →
    (∀ earlier : Moment, earlier.WholeSecond → earlier.timestamp < t.timestamp →
      firedAt position policy earlier = none) →
    firedAt position policy t = some rule.exitRule

/-- A deadline from which on a rule fires, the same one for its first second, is foretold by its
second. -/
theorem foretold_of_deadline {rule : TimeExitRule} {finish : ℤ} (hlow : minNanos + 10 ^ 9 ≤ finish)
    (htime : ∀ t, firedAt position policy t = none ∨
      ∃ fired : TimeExitRule, firedAt position policy t = some fired.exitRule)
    (hfires : ∀ t : Moment, firedAt position policy t = none ↔ t.nanos < finish)
    (hfirst : ∀ t : Moment, finish ≤ t.nanos → t.nanos < finish + 10 ^ 9 →
      firedAt position policy t = some rule.exitRule) :
    Foretold position policy rule (finish / 10 ^ 9) where
  before t hwhole hbefore := by
    rw [hfires]
    simp only [Moment.WholeSecond, Moment.timestamp] at hwhole hbefore
    omega
  later t hwhole hlater := by
    refine (htime t).resolve_left ?_
    rw [hfires]
    simp only [Moment.WholeSecond, Moment.timestamp] at hwhole hlater
    omega
  first t hwhole hfired hearlier := by
    rw [Ne, hfires, not_lt] at hfired
    refine hfirst t hfired ?_
    -- One second earlier nothing fired yet.
    have hhigh := t.high
    have hprevious := hearlier ⟨t.nanos - 10 ^ 9, by omega, by omega⟩
      (by simp only [Moment.WholeSecond] at *; omega) (by simp only [Moment.timestamp]; omega)
    rw [hfires] at hprevious
    simp only at hprevious
    omega

theorem firedAt_time (hprice : position.currentPrice = some price) (hpos : 0 < price)
    (t : Moment) : firedAt position policy t = none ∨
    ∃ fired : TimeExitRule, firedAt position policy t = some fired.exitRule := by
  rcases firedAt_deadlines policy hprice hpos t with
    ⟨-, -, h⟩ | ⟨-, ⟨-, -, h⟩ | ⟨-, h⟩⟩
  · exact .inr ⟨.timeLoss, h⟩
  · exact .inr ⟨.timeStagnation, h⟩
  · exact .inl h

theorem foretold_timeLoss (hprice : position.currentPrice = some price) (hpos : 0 < price)
    (hloss : LossStands position.averageEntryPrice price policy.time)
    (hflat : FlatStands position.averageEntryPrice price policy.timeStagnation →
      deadline position.entryTime policy.time.durationSeconds ≤
        deadline position.entryTime policy.timeStagnation.durationSeconds ∨
      maxNanos < deadline position.entryTime policy.timeStagnation.durationSeconds) :
    Foretold position policy .timeLoss
      (deadline position.entryTime policy.time.durationSeconds / 10 ^ 9) := by
  have hceil := Int.ceil_pos.mpr hloss.duration_pos
  have hentry := position.entryTime.low
  apply foretold_of_deadline
  · unfold deadline
    omega
  · exact firedAt_time hprice hpos
  · intro t
    have hhigh := t.high
    rcases firedAt_deadlines policy hprice hpos t with
      ⟨-, hend, h⟩ | ⟨hnot, ⟨hstands, hend, h⟩ | ⟨-, h⟩⟩
    · simp only [h, reduceCtorEq, false_iff, not_lt, hend]
    · simp only [h, reduceCtorEq, false_iff, not_lt]
      have := hflat hstands
      omega
    · simp only [h, true_iff]
      exact not_le.mp fun hend => hnot ⟨hloss, hend⟩
  · intro t hend _
    rcases firedAt_deadlines policy hprice hpos t with ⟨-, -, h⟩ | ⟨hnot, -⟩
    · exact h
    · exact absurd ⟨hloss, hend⟩ hnot

theorem foretold_timeStagnation (hprice : position.currentPrice = some price) (hpos : 0 < price)
    (hflat : FlatStands position.averageEntryPrice price policy.timeStagnation)
    (hloss : LossStands position.averageEntryPrice price policy.time →
      deadline position.entryTime policy.timeStagnation.durationSeconds + 10 ^ 9 ≤
        deadline position.entryTime policy.time.durationSeconds ∨
      maxNanos < deadline position.entryTime policy.time.durationSeconds) :
    Foretold position policy .timeStagnation
      (deadline position.entryTime policy.timeStagnation.durationSeconds / 10 ^ 9) := by
  have hceil := Int.ceil_pos.mpr hflat.2.1
  have hentry := position.entryTime.low
  apply foretold_of_deadline
  · unfold deadline
    omega
  · exact firedAt_time hprice hpos
  · intro t
    have hhigh := t.high
    rcases firedAt_deadlines policy hprice hpos t with
      ⟨hstands, hend, h⟩ | ⟨-, ⟨-, hend, h⟩ | ⟨hnot, h⟩⟩
    · simp only [h, reduceCtorEq, false_iff, not_lt]
      have := hloss hstands
      omega
    · simp only [h, reduceCtorEq, false_iff, not_lt, hend]
    · simp only [h, true_iff]
      exact not_le.mp fun hend => hnot ⟨hflat, hend⟩
  · intro t hend hsecond
    have hhigh := t.high
    rcases firedAt_deadlines policy hprice hpos t with
      ⟨hstands, hlate, -⟩ | ⟨-, ⟨-, -, h⟩ | ⟨hnot, -⟩⟩
    · have := hloss hstands
      omega
    · exact h
    · exact absurd ⟨hflat, hend⟩ hnot

theorem firedAt_off (hoff : (!policy.time.enabled && !policy.timeStagnation.enabled) = true)
    (t : Moment) : firedAt position policy t = none := by
  rw [Bool.and_eq_true, Bool.not_eq_true', Bool.not_eq_true'] at hoff
  by_cases hprice : ∀ price ∈ position.currentPrice, price ≤ 0
  · exact firedAt_unpriced hprice t
  · push Not at hprice
    obtain ⟨price, hprice, hpos⟩ := hprice
    rw [firedAt_eq hprice hpos]
    simp [timeOverrideTriggered, stagnationTriggered, hoff.1, hoff.2, fires, Except.toOption]

theorem firedAt_no_entry (hprice : position.currentPrice = some price) (hpos : 0 < price)
    (hentry : position.averageEntryPrice ≤ 0) (t : Moment) :
    firedAt position policy t = none := by
  rcases firedAt_deadlines policy hprice hpos t with
    ⟨hstands, -⟩ | ⟨-, ⟨hstands, -⟩ | ⟨-, h⟩⟩
  · exact absurd hentry (not_le.mpr hstands.2.2.1)
  · exact absurd hentry (not_le.mpr hstands.2.2.2.1)
  · exact h

/-- On a usable price and entry the earliest deadline is the one the monitor meets. -/
theorem earliest_foretells (policy : ExitPolicy) (hprice : position.currentPrice = some price)
    (hpos : 0 < price)
    (now : Moment) :
    match earliest (dueTimes position policy price (now.secondsSince position.entryTime)) with
    | none => ∀ t, firedAt position policy t = none
    | some (rule, dueAt) => Foretold position policy rule dueAt := by
  have hloss := fun dueAt => dueTime_eq_some position.entryTime now dueAt LossStands.duration_pos
    (timeOverride_fires position.averageEntryPrice price policy.time)
  have hflat := fun dueAt => dueTime_eq_some position.entryTime now dueAt
    (fun h : FlatStands position.averageEntryPrice price policy.timeStagnation => h.2.1)
    (stagnation_fires position.averageEntryPrice price policy.timeStagnation)
  have hnone : ∀ {due : Option ℤ} {stands : Prop} {finish : ℤ},
      (∀ dueAt, due = some dueAt ↔ stands ∧ finish ≤ maxNanos ∧ dueAt = finish / 10 ^ 9) →
      due = none → stands → maxNanos < finish := by
    intro due stands finish h hdue hstands
    by_contra hend
    exact absurd ((h _).mpr ⟨hstands, not_lt.mp hend, rfl⟩) (by simp [hdue])
  unfold dueTimes
  cases hl : dueTime position.entryTime (now.secondsSince position.entryTime)
      policy.time.durationSeconds (fun due => timeOverrideTriggered position.averageEntryPrice
        price due policy.time) with
  | none =>
    have hlate := hnone hloss hl
    cases hf : dueTime position.entryTime (now.secondsSince position.entryTime)
        policy.timeStagnation.durationSeconds (fun due => stagnationTriggered
          position.averageEntryPrice price due policy.timeStagnation) with
    | none =>
      have hlate' := hnone hflat hf
      intro t
      have hhigh := t.high
      rcases firedAt_deadlines policy hprice hpos t with
        ⟨hstands, hend, -⟩ | ⟨-, ⟨hstands, hend, -⟩ | ⟨-, h⟩⟩
      · have := hlate hstands
        omega
      · have := hlate' hstands
        omega
      · exact h
    | some flat =>
      obtain ⟨hstands, -, rfl⟩ := (hflat flat).mp hf
      exact foretold_timeStagnation hprice hpos hstands fun h => .inr (hlate h)
  | some loss =>
    obtain ⟨hstands, -, rfl⟩ := (hloss loss).mp hl
    cases hf : dueTime position.entryTime (now.secondsSince position.entryTime)
        policy.timeStagnation.durationSeconds (fun due => stagnationTriggered
          position.averageEntryPrice price due policy.timeStagnation) with
    | none => exact foretold_timeLoss hprice hpos hstands fun h => .inr (hnone hflat hf h)
    | some flat =>
      obtain ⟨hstands', -, rfl⟩ := (hflat flat).mp hf
      -- Both deadlines are whole seconds after the entry.
      by_cases hfirst : deadline position.entryTime policy.timeStagnation.durationSeconds / 10 ^ 9 <
          deadline position.entryTime policy.time.durationSeconds / 10 ^ 9
      · simp only [earliest, List.filterMap_cons, List.filterMap_nil, Option.map_some, hfirst,
          if_true]
        apply foretold_timeStagnation hprice hpos hstands'
        unfold deadline at *
        omega
      · simp only [earliest, List.filterMap_cons, List.filterMap_nil, Option.map_some, hfirst,
          if_false]
        apply foretold_timeLoss hprice hpos hstands
        unfold deadline at *
        omega

/-- For a managed position the watch foretells the monitor: the seconds a rule fires at, and the
rule that fires first, or that none ever fires. -/
theorem time_watch_foretells (position : WatchedPosition) (policy : ExitPolicy) (now : Moment)
    (hmanaged : allowsPolicyExits position.management = true) :
    match timeExitWatch position policy now with
    | .notManaged _ => False
    | .due rule dueAt _ => Foretold position policy rule dueAt
    | .off | .unpriced | .clear => ∀ t, firedAt position policy t = none := by
  unfold timeExitWatch
  rw [if_neg (by simp [hmanaged])]
  by_cases hoff : (!policy.time.enabled && !policy.timeStagnation.enabled) = true
  · rw [if_pos hoff]
    exact firedAt_off hoff
  · rw [if_neg hoff]
    cases hprice : position.currentPrice with
    | none => exact firedAt_unpriced (by simp [hprice])
    | some price =>
      by_cases hpos : 0 < price
      · simp only [Option.filter_some, decide_eq_true_eq, hpos, if_true]
        by_cases hentry : position.averageEntryPrice ≤ 0
        · rw [if_pos hentry]
          exact firedAt_no_entry hprice hpos hentry
        · rw [if_neg hentry]
          have h := earliest_foretells policy hprice hpos now
          cases hearliest : earliest (dueTimes position policy price
              (now.secondsSince position.entryTime)) with
          | none => simpa only [hearliest] using h
          | some due => simpa only [hearliest] using h
      · simp only [Option.filter_some, decide_eq_true_eq, hpos, if_false]
        exact firedAt_unpriced (by simpa [hprice] using hpos)

/-- Bought half a second after the epoch and down by half, against a limit of ninety and a half
seconds: due at the ninety-first second, first met at the ninety-second. -/
theorem time_watch_foretells_half_second :
    let position : WatchedPosition :=
      ⟨.autoTrader, 2, some 1, 2, ⟨5 * 10 ^ 8, by decide, by decide⟩,
      0, 0⟩
    let policy : ExitPolicy := ⟨⟨false, 0, 0, false, 0⟩, ⟨false, 0, 0, []⟩, ⟨false, 0, 0⟩,
      ⟨false, []⟩, ⟨true, -40, 181 / 2⟩, ⟨true, 0, 1⟩⟩
    timeExitWatch position policy position.entryTime = .due .timeLoss 91 (-50) ∧
      Foretold position policy .timeLoss 91 := by
  intro position policy
  have hwatch : timeExitWatch position policy position.entryTime = .due .timeLoss 91 (-50) := by
    decide +kernel
  have h := time_watch_foretells position policy position.entryTime rfl
  rw [hwatch] at h
  exact ⟨hwatch, h⟩

end Agreement

end ScreenerBot.Trader
