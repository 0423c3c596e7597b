import ScreenerBot.Trader.ExitRules

/-!
The trailing stop: the distance in force at a peak, and whether its stop keeps a profit.

Validation compares distances with thresholds as percentages; the stop is a product of the two.
-/
namespace ScreenerBot.Trader

namespace TrailingPolicy
variable {policy : TrailingPolicy}

/-- What validation says of the bands: thresholds ascend from a floor, and no distance reaches its
threshold. -/
theorem validateBandsFrom_eq_ok {floor : ℚ} {bands : List TrailingStopBand}
    (h : validateBandsFrom floor bands = .ok ()) :
    bands.Pairwise (fun a b => a.profitPct < b.profitPct) ∧
      ∀ band ∈ bands, floor < band.profitPct ∧ 0 < band.distancePct ∧
        band.distancePct < band.profitPct := by
  induction bands generalizing floor with
  | nil => simp
  | cons band rest ih =>
    rw [validateBandsFrom] at h
    split_ifs at h with horder hdistance
    obtain ⟨hascending, hrest⟩ := ih h
    rw [not_or, not_le, not_le] at hdistance
    have hfloor := not_le.mp horder
    constructor
    · exact List.pairwise_cons.mpr ⟨fun later hlater => (hrest later hlater).1, hascending⟩
    · refine List.forall_mem_cons.mpr ⟨⟨hfloor, hdistance⟩, ?_⟩
      intro later hlater
      obtain ⟨hlow, hlaterDistance⟩ := hrest later hlater
      exact ⟨hfloor.trans hlow, hlaterDistance⟩

/-- What validation says of a trail that is on. -/
structure Accepted (policy : TrailingPolicy) : Prop where
  activation : 0 < policy.activationPct ∧ policy.activationPct ≤ 100
  distance : 0 < policy.distancePct ∧ policy.distancePct < policy.activationPct
  ascending : policy.bands.Pairwise fun a b => a.profitPct < b.profitPct
  bands : ∀ band ∈ policy.bands, policy.activationPct < band.profitPct ∧ 0 < band.distancePct ∧
    band.distancePct < band.profitPct

theorem accepted_of_validate (hon : policy.enabled = true) (h : policy.validate = .ok ()) :
    policy.Accepted := by
  unfold validate at h
  rw [hon] at h
  simp only [Bool.not_true, Bool.false_eq_true, if_false, percentInRange, Bool.not_eq_true',
    decide_eq_false_iff_not] at h
  split_ifs at h with hactivation hdistance hbelow
  unfold validateBands at h
  split_ifs at h with hcount
  obtain ⟨hascending, hbands⟩ := validateBandsFrom_eq_ok h
  exact ⟨hactivation, ⟨hdistance.1, not_le.mp hbelow⟩, hascending, hbands⟩

/-- The distances a trail follows, each with the profit from which on it does. -/
def stages (policy : TrailingPolicy) : List TrailingStopBand :=
  ⟨policy.activationPct, policy.distancePct⟩ :: policy.bands

/-- Past its activation a trail follows the distance of a stage the peak has reached. -/
theorem exists_stage {peak : ℚ} (hpeak : policy.activationPct ≤ peak) :
    ∃ stage ∈ policy.stages, stage.profitPct ≤ peak ∧
      policy.distanceInForce peak = stage.distancePct := by
  unfold distanceInForce
  split
  next band hband =>
    obtain ⟨hmem, hreached⟩ := List.mem_filter.mp (List.mem_reverse.mp (List.argmax_mem hband))
    exact ⟨band, List.mem_cons_of_mem _ hmem, by simpa using hreached, rfl⟩
  next => exact ⟨_, List.mem_cons_self, hpeak, rfl⟩

/-- A stage's own threshold is a peak its distance is in force at. -/
theorem distanceInForce_stage (haccepted : policy.Accepted) {stage : TrailingStopBand}
    (hstage : stage ∈ policy.stages) :
    policy.distanceInForce stage.profitPct = stage.distancePct := by
  unfold distanceInForce
  rcases List.mem_cons.mp hstage with rfl | hband
  · have hnone : policy.bands.filter (·.profitPct ≤ policy.activationPct) = [] := by
      rw [List.filter_eq_nil_iff]
      intro band hband
      have := (haccepted.bands band hband).1
      simpa using this
    rw [hnone]
    rfl
  · have hkeys : (policy.bands.map (·.profitPct)).Nodup :=
      (List.pairwise_map.mpr haccepted.ascending).imp ne_of_lt
    have hmem : stage ∈ (policy.bands.filter (·.profitPct ≤ stage.profitPct)).reverse :=
      List.mem_reverse.mpr (List.mem_filter.mpr ⟨hband, decide_eq_true le_rfl⟩)
    split
    next found hfound =>
      have hge := List.le_of_mem_argmax hmem hfound
      obtain ⟨hfoundMem, hle⟩ :=
        List.mem_filter.mp (List.mem_reverse.mp (List.argmax_mem hfound))
      have heq : found.profitPct = stage.profitPct := le_antisymm (of_decide_eq_true hle) hge
      rw [List.inj_on_of_nodup_map hkeys hfoundMem hband heq]
    next hnone =>
      rw [List.argmax_eq_none] at hnone
      rw [hnone] at hmem
      cases hmem

/-- The distance of a stage leaves a profit at the stage's own threshold. -/
def StageInProfit (stage : TrailingStopBand) : Prop :=
  stage.distancePct * (100 + stage.profitPct) < 100 * stage.profitPct

/-- A stage in profit at its threshold is in profit at every peak past it. -/
theorem entry_lt_of_stageInProfit {stage : TrailingStopBand} {entry peak : ℚ} (hentry : 0 < entry)
    (hthreshold : 0 < stage.profitPct) (hstage : StageInProfit stage)
    (hpeak : stage.profitPct ≤ profitPct entry peak) :
    entry < peak * (1 - stage.distancePct / 100) := by
  unfold StageInProfit at hstage
  unfold profitPct at hpeak
  have hroom : stage.distancePct < 100 := by
    by_contra hge
    nlinarith [not_lt.mp hge]
  have hprice : entry * (100 + stage.profitPct) ≤ 100 * peak := by
    have hratio : 1 + stage.profitPct / 100 ≤ peak / entry := by linarith
    have := (le_div_iff₀ hentry).mp hratio
    linarith
  have hproduct := mul_le_mul_of_nonneg_right hprice (sub_nonneg.mpr hroom.le)
  have hgain : entry * 10000 < entry * ((100 + stage.profitPct) * (100 - stage.distancePct)) :=
    mul_lt_mul_of_pos_left (by linarith) hentry
  linarith

end TrailingPolicy

/-- The basis peak after a sequence of prices. -/
def basisPeak (entryPrice : ℚ) (prices : List ℚ) : ℚ := prices.foldl max entryPrice

/-- A stop loss that passed its validation does not fire in profit. -/
theorem stopLossExit_of_profit {policy : StopLossPolicy} (hvalid : policy.validate = .ok ())
    {entry price : ℚ} (hentry : 0 < entry) (hprice : entry < price) (heldSeconds : ℤ)
    (exited : Bool) : stopLossExit entry price heldSeconds exited policy = none := by
  unfold stopLossExit
  split_ifs with hoff hhold hloss
  · rfl
  · rfl
  · rfl
  · exfalso
    unfold StopLossPolicy.validate at hvalid
    split_ifs at hvalid with hthreshold
    have hon : policy.enabled = true := by
      by_contra hne
      simp [hne] at hoff
    have hpositive : 0 < policy.thresholdPct := by
      have hrange : percentInRange policy.thresholdPct = true := by
        by_contra hne
        exact hthreshold ⟨hon, hne⟩
      exact (of_decide_eq_true hrange).1
    have hnegative : (entry - price) / entry * 100 < 0 := by
      have := div_neg_of_neg_of_pos (sub_neg.mpr hprice) hentry
      linarith
    linarith

/-- A price at or below the stop and above the entry sells everything. -/
theorem decide_trailing {policy : ExitPolicy} {inputs : ExitInputs}
    (hon : policy.trailing.enabled = true) (hvalid : policy.trailing.validate = .ok ())
    (hstop : policy.stopLoss.validate = .ok ()) (hentry : 0 < inputs.averageEntryPrice)
    (hpeak : 0 < inputs.basisPeakPrice)
    (harmed : policy.trailing.activationPct ≤
      profitPct inputs.averageEntryPrice inputs.basisPeakPrice)
    (habove : inputs.averageEntryPrice < inputs.currentPrice)
    (hbelow : inputs.currentPrice ≤
      policy.trailing.stopPrice inputs.averageEntryPrice inputs.basisPeakPrice) :
    (policy.decide inputs).outcome = some ⟨.trailing, none⟩ := by
  have hprofit : 0 < profitPct inputs.averageEntryPrice inputs.currentPrice := by
    have := (one_lt_div hentry).mpr habove
    unfold profitPct
    linarith
  have htriggered : trailingStopTriggered inputs.averageEntryPrice inputs.basisPeakPrice
      inputs.currentPrice policy.trailing = .ok true := by
    unfold trailingStopTriggered
    rw [if_neg (by simp [hon, hpeak]), hvalid]
    simp only
    rw [if_neg (not_le.mpr hentry), if_neg (not_lt.mpr harmed)]
    simp [hbelow, hprofit]
  have hcurrent : ¬ inputs.currentPrice ≤ 0 := not_le.mpr (hentry.trans habove)
  unfold ExitPolicy.decide ExitPolicy.decideAdmitting ruleChecks
  rw [if_neg hcurrent, stopLossExit_of_profit hstop hentry habove, htriggered]
  simp [checkRules, sellsAll, Except.map]

/-- Once the peak has reached the activation, the stop lies above the entry, and a price between the
two sells everything. -/
def TrailProtects (policy : ExitPolicy) : Prop :=
  ∀ (inputs : ExitInputs) (prices : List ℚ), 0 < inputs.averageEntryPrice →
    inputs.basisPeakPrice = basisPeak inputs.averageEntryPrice prices →
    policy.trailing.activationPct ≤ profitPct inputs.averageEntryPrice inputs.basisPeakPrice →
    inputs.averageEntryPrice <
        policy.trailing.stopPrice inputs.averageEntryPrice inputs.basisPeakPrice ∧
      (inputs.averageEntryPrice < inputs.currentPrice →
        inputs.currentPrice ≤
          policy.trailing.stopPrice inputs.averageEntryPrice inputs.basisPeakPrice →
        (policy.decide inputs).outcome = some ⟨.trailing, none⟩)

/-- An accepted trail protects a profit exactly where each of its distances leaves one at the profit
from which on it is in force. -/
theorem trail_protects_iff {policy : ExitPolicy} (hon : policy.trailing.enabled = true)
    (hvalid : policy.trailing.validate = .ok ()) (hstop : policy.stopLoss.validate = .ok ()) :
    TrailProtects policy ↔
      ∀ stage ∈ policy.trailing.stages, TrailingPolicy.StageInProfit stage := by
  have haccepted := TrailingPolicy.accepted_of_validate hon hvalid
  have hthreshold : ∀ stage ∈ policy.trailing.stages,
      policy.trailing.activationPct ≤ stage.profitPct := by
    intro stage hstage
    rcases List.mem_cons.mp hstage with rfl | hband
    · exact le_rfl
    · exact (haccepted.bands stage hband).1.le
  constructor
  · intro hprotects stage hstage
    have hstagePos : 0 < stage.profitPct :=
      haccepted.activation.1.trans_le (hthreshold stage hstage)
    have hpeak : profitPct 1 (1 + stage.profitPct / 100) = stage.profitPct := by
      unfold profitPct
      ring
    -- A holding bought at one that has peaked at the stage's own threshold.
    let inputs : ExitInputs := ⟨1, 1, 1 + stage.profitPct / 100, 0, false, 0⟩
    have hbasis : inputs.basisPeakPrice = basisPeak 1 [1 + stage.profitPct / 100] := by
      have : (1 : ℚ) ≤ 1 + stage.profitPct / 100 := by
        have := div_pos hstagePos (show (0 : ℚ) < 100 by norm_num)
        linarith
      exact (max_eq_right this).symm
    obtain ⟨habove, -⟩ :=
      hprotects inputs _ one_pos hbasis (by rw [hpeak]; exact hthreshold stage hstage)
    unfold TrailingPolicy.stopPrice at habove
    rw [hpeak, TrailingPolicy.distanceInForce_stage haccepted hstage] at habove
    unfold TrailingPolicy.StageInProfit
    change 1 < (1 + stage.profitPct / 100) * (1 - stage.distancePct / 100) at habove
    linarith
  · intro hstages inputs prices hentry hbasis harmed
    obtain ⟨stage, hstage, hreached, hforce⟩ := TrailingPolicy.exists_stage harmed
    have hstagePos : 0 < stage.profitPct :=
      haccepted.activation.1.trans_le (hthreshold stage hstage)
    have hpeak : 0 < inputs.basisPeakPrice := by
      have hprofit := haccepted.activation.1.trans_le harmed
      unfold profitPct at hprofit
      have : 1 < inputs.basisPeakPrice / inputs.averageEntryPrice := by linarith
      exact hentry.trans ((one_lt_div hentry).mp this)
    constructor
    · unfold TrailingPolicy.stopPrice
      rw [hforce]
      exact TrailingPolicy.entry_lt_of_stageInProfit hentry hstagePos
        (hstages stage hstage) hreached
    · intro habove hbelow
      exact decide_trailing hon hvalid hstop hentry hpeak harmed habove hbelow

/-- Armed at twenty percent and trailing by nineteen. -/
def wideTrail : ExitPolicy where
  stopLoss := ⟨false, 50, 0, false, 50⟩
  trailing := ⟨true, 20, 19, []⟩
  breakEven := ⟨false, 15, 1⟩
  takeProfit := ⟨false, []⟩
  time := ⟨false, -40, 3600⟩
  timeStagnation := ⟨false, 3600, 5⟩

/-- A holding at its peak of twenty percent. -/
def atActivation : ExitInputs := ⟨1, 1, 6 / 5, 0, false, 0⟩

/-- The accepted trail arms at a stop of 0.972 below an entry of 1. -/
theorem wide_trail_stops_below_entry :
    wideTrail.trailing.validate = .ok () ∧ wideTrail.stopLoss.validate = .ok () ∧
      ¬ TrailProtects wideTrail := by
  refine ⟨rfl, rfl, ?_⟩
  intro hprotects
  obtain ⟨habove, -⟩ := hprotects atActivation [6 / 5] (by decide) (by decide +kernel)
    (by decide +kernel)
  revert habove
  decide +kernel

/-- Armed at twenty percent and trailing by ten. -/
theorem trail_protects_ten_below_twenty :
    TrailProtects { wideTrail with trailing := ⟨true, 20, 10, []⟩ } :=
  (trail_protects_iff rfl rfl rfl).mpr (by
    intro stage hstage
    obtain rfl := List.mem_singleton.mp hstage
    unfold TrailingPolicy.StageInProfit
    norm_num)

end ScreenerBot.Trader
