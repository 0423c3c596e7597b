import Mathlib.Algebra.Order.Field.Rat
import Mathlib.Data.List.MinMax
import Mathlib.Tactic
import ScreenerBot.Library.MachineInt

/-!
The built-in exit rules of a holding and the one order they are checked in.

Prices and percentages, `f64` in the source, are exact rationals, so every one of them is finite.
-/
namespace ScreenerBot.Trader
open Library

structure StopLossPolicy where
  enabled : Bool
  thresholdPct : ℚ
  minHoldSeconds : ℕ
  allowPartial : Bool
  partialExitDefaultPct : ℚ

structure TrailingStopBand where
  profitPct : ℚ
  distancePct : ℚ
  deriving DecidableEq

structure TrailingPolicy where
  enabled : Bool
  activationPct : ℚ
  distancePct : ℚ
  bands : List TrailingStopBand

structure BreakEvenPolicy where
  enabled : Bool
  triggerPct : ℚ
  offsetPct : ℚ

structure TakeProfitLevel where
  profitPct : ℚ
  sellPct : ℚ
  deriving DecidableEq

structure TakeProfitPolicy where
  enabled : Bool
  levels : List TakeProfitLevel

structure TimePolicy where
  enabled : Bool
  lossThresholdPct : ℚ
  durationSeconds : ℚ

structure TimeStagnationPolicy where
  enabled : Bool
  durationSeconds : ℚ
  bandPct : ℚ

structure ExitPolicy where
  stopLoss : StopLossPolicy
  trailing : TrailingPolicy
  breakEven : BreakEvenPolicy
  takeProfit : TakeProfitPolicy
  time : TimePolicy
  timeStagnation : TimeStagnationPolicy

inductive ExitPolicyFault where
  | stopLossThreshold (value : ℚ)
  | trailingActivation (value : ℚ)
  | trailingDistance (value : ℚ)
  | trailingDistanceNotBelowActivation (distance activation : ℚ)
  | trailingBandCount (count : ℕ)
  | trailingBandOrder (profit floor : ℚ)
  | trailingBandDistance (profit distance : ℚ)
  | timeDuration (seconds : ℚ)
  | timeLossThreshold (value : ℚ)
  deriving DecidableEq

/-- An impossible configuration, with the figures its text shows. -/
inductive RuleError where
  | fault (fault : ExitPolicyFault)
  | breakEvenConfig (offsetPct triggerPct : ℚ)
  | takeProfitLadder (step : ℕ) (sellPct leftPct : ℚ)
  | stagnationDuration (seconds : ℚ)
  | stagnationBand (bandPct : ℚ)
  deriving DecidableEq

def percentInRange (value : ℚ) : Bool := 0 < value ∧ value ≤ 100

def StopLossPolicy.validate (policy : StopLossPolicy) : Except ExitPolicyFault Unit :=
  if policy.enabled ∧ ¬ percentInRange policy.thresholdPct then
    .error (.stopLossThreshold policy.thresholdPct)
  else .ok ()

namespace TrailingPolicy

def maxBands : ℕ := 3

/-- The distance in force below a peak: that of the highest band it has reached, else the base
distance. -/
def distanceInForce (policy : TrailingPolicy) (peakProfitPct : ℚ) : ℚ :=
  match (policy.bands.filter (·.profitPct ≤ peakProfitPct)).reverse.argmax (·.profitPct) with
  | some band => band.distancePct
  | none => policy.distancePct

/-- The loop over the bands, each above the threshold before it. -/
def validateBandsFrom (floor : ℚ) : List TrailingStopBand → Except ExitPolicyFault Unit
  | [] => .ok ()
  | band :: rest =>
    if band.profitPct ≤ floor then .error (.trailingBandOrder band.profitPct floor)
    else if band.distancePct ≤ 0 ∨ band.profitPct ≤ band.distancePct then
      .error (.trailingBandDistance band.profitPct band.distancePct)
    else validateBandsFrom band.profitPct rest

def validateBands (policy : TrailingPolicy) : Except ExitPolicyFault Unit :=
  if maxBands < policy.bands.length then .error (.trailingBandCount policy.bands.length)
  else validateBandsFrom policy.activationPct policy.bands

def validate (policy : TrailingPolicy) : Except ExitPolicyFault Unit :=
  if !policy.enabled then .ok ()
  else if !percentInRange policy.activationPct then .error
    (.trailingActivation policy.activationPct)
  else if !percentInRange policy.distancePct then .error (.trailingDistance policy.distancePct)
  else if policy.activationPct ≤ policy.distancePct then
    .error (.trailingDistanceNotBelowActivation policy.distancePct policy.activationPct)
  else policy.validateBands

end TrailingPolicy

def TimePolicy.validate (policy : TimePolicy) : Except ExitPolicyFault Unit :=
  if !policy.enabled then .ok ()
  else if policy.durationSeconds ≤ 0 then .error (.timeDuration policy.durationSeconds)
  else if policy.lossThresholdPct < -100 ∨ 0 < policy.lossThresholdPct then
    .error (.timeLossThreshold policy.lossThresholdPct)
  else .ok ()

/-- The one owner of the rules of a policy. -/
def ExitPolicy.validate (policy : ExitPolicy) : Except ExitPolicyFault Unit := do
  policy.stopLoss.validate
  policy.trailing.validate
  policy.time.validate

/-- The share a fired stop loss sells; the inner `none` is a full exit. -/
def stopLossExit (entryPrice currentPrice : ℚ) (heldSeconds : ℤ) (alreadyPartiallyExited : Bool)
    (policy : StopLossPolicy) : Option (Option ℚ) :=
  if !policy.enabled ∨ entryPrice ≤ 0 then none
  else if 0 < policy.minHoldSeconds ∧ heldSeconds < wrapSigned 64 policy.minHoldSeconds then none
  else if (entryPrice - currentPrice) / entryPrice * 100 < policy.thresholdPct then none
  else some (if policy.allowPartial &&
    !alreadyPartiallyExited then some policy.partialExitDefaultPct
    else none)

/-- Profit at a price, in percent of the entry. -/
def profitPct (entryPrice price : ℚ) : ℚ := (price / entryPrice - 1) * 100

/-- The price the trail sells at, below a peak. -/
def TrailingPolicy.stopPrice (policy : TrailingPolicy) (entryPrice peakPrice : ℚ) : ℚ :=
  peakPrice * (1 - policy.distanceInForce (profitPct entryPrice peakPrice) / 100)

def trailingStopTriggered (entryPrice peakPrice currentPrice : ℚ) (policy : TrailingPolicy) :
    Except RuleError Bool :=
  if peakPrice ≤ 0 ∨ !policy.enabled then .ok false
  else
    match policy.validate with
    | .error fault => .error (.fault fault)
    | .ok () =>
      if entryPrice ≤ 0 then .ok false
      else if profitPct entryPrice peakPrice < policy.activationPct then .ok false
      else .ok (currentPrice ≤ policy.stopPrice entryPrice peakPrice ∧
        0 < profitPct entryPrice currentPrice)

def breakEvenTriggered (entryPrice peakPrice currentPrice : ℚ) (policy : BreakEvenPolicy) :
    Except RuleError Bool :=
  if !policy.enabled then .ok false
  else if policy.triggerPct ≤ 0 ∨ policy.offsetPct < 0 ∨ policy.triggerPct ≤ policy.offsetPct then
    .error (.breakEvenConfig policy.offsetPct policy.triggerPct)
  else if entryPrice ≤ 0 ∨ peakPrice ≤ 0 ∨ currentPrice ≤ 0 then .ok false
  else if peakPrice < entryPrice * (1 + policy.triggerPct / 100) then .ok false
  else .ok (currentPrice ≤ entryPrice * (1 + policy.offsetPct / 100))

def fullExitTolerancePct : ℚ := 1 / 10 ^ 6

def takeProfitShareSumTolerancePct : ℚ := 1 / 10 ^ 9

def profitLevelTolerancePct : ℚ := 1 / 10 ^ 9

/-- The step at index `stepsTaken`, as a share of what the holding still holds. -/
def takeProfitStep (entryPrice currentPrice : ℚ) (stepsTaken : ℕ) (policy : TakeProfitPolicy) :
    Except RuleError (Option (Option ℚ)) :=
  if !policy.enabled ∨ entryPrice ≤ 0 ∨ currentPrice ≤ 0 then .ok none
  else
    match policy.levels[stepsTaken]? with
    | none => .ok none
    | some step =>
      if profitPct entryPrice currentPrice + profitLevelTolerancePct < step.profitPct then .ok none
      else
        let soldBefore := ((policy.levels.take stepsTaken).map TakeProfitLevel.sellPct).sum
        let leftPct := 100 - soldBefore
        if leftPct ≤ 0 ∨ step.sellPct ≤ 0 then
          .error (.takeProfitLadder (stepsTaken + 1) step.sellPct leftPct)
        else
          let shareOfLeft := step.sellPct / leftPct * 100
          .ok (some (if shareOfLeft < 100 - fullExitTolerancePct then some shareOfLeft else none))

def timeOverrideTriggered (entryPrice currentPrice : ℚ) (heldSeconds : ℤ) (policy : TimePolicy) :
    Except RuleError Bool :=
  if !policy.enabled then .ok false
  else
    match policy.validate with
    | .error fault => .error (.fault fault)
    | .ok () =>
      if heldSeconds < policy.durationSeconds ∨ entryPrice ≤ 0 then .ok false
      else .ok ((currentPrice - entryPrice) / entryPrice * 100 ≤ policy.lossThresholdPct)

def stagnationTriggered (entryPrice currentPrice : ℚ) (heldSeconds : ℤ)
    (policy : TimeStagnationPolicy) : Except RuleError Bool :=
  if !policy.enabled then .ok false
  else if policy.durationSeconds ≤ 0 then .error (.stagnationDuration policy.durationSeconds)
  else if policy.bandPct ≤ 0 then .error (.stagnationBand policy.bandPct)
  else if heldSeconds < 0 ∨ entryPrice ≤ 0 ∨ currentPrice ≤ 0 then .ok false
  else if heldSeconds < policy.durationSeconds then .ok false
  else .ok (entryPrice * (1 - policy.bandPct / 100) ≤ currentPrice ∧
    currentPrice ≤ entryPrice * (1 + policy.bandPct / 100))

structure ExitInputs where
  averageEntryPrice : ℚ
  currentPrice : ℚ
  basisPeakPrice : ℚ
  heldSeconds : ℤ
  partialExitsTaken : Bool
  takeProfitLevelsTaken : ℕ

inductive ExitRule where
  | stopLoss
  | trailing
  | breakEven
  | takeProfit (level : ℕ)
  | timeLoss
  | timeStagnation
  deriving DecidableEq

/-- The rule that fired, and the share of the holding it sells; `none` sells everything. -/
structure RuleOutcome where
  rule : ExitRule
  exitPercentage : Option ℚ
  deriving DecidableEq

structure Decision where
  outcome : Option RuleOutcome := none
  ruleErrors : List (ExitRule × RuleError) := []
  deriving DecidableEq

/-- A rule that sells everything when it fires. -/
def sellsAll (fired : Except RuleError Bool) : Except RuleError (Option (Option ℚ)) :=
  fired.map fun triggered => if triggered then some none else none

/-- Each rule on its own, in the order they are checked. -/
def ruleChecks (inputs : ExitInputs) (policy : ExitPolicy) :
    List (ExitRule × Except RuleError (Option (Option ℚ))) :=
  [(.stopLoss, .ok (stopLossExit inputs.averageEntryPrice inputs.currentPrice inputs.heldSeconds
      inputs.partialExitsTaken policy.stopLoss)),
    (.trailing, sellsAll (trailingStopTriggered inputs.averageEntryPrice inputs.basisPeakPrice
      inputs.currentPrice policy.trailing)),
    (.breakEven, sellsAll (breakEvenTriggered inputs.averageEntryPrice inputs.basisPeakPrice
      inputs.currentPrice policy.breakEven)),
    (.takeProfit (min (inputs.takeProfitLevelsTaken + 1) (2 ^ 32 - 1)),
      takeProfitStep inputs.averageEntryPrice inputs.currentPrice inputs.takeProfitLevelsTaken
        policy.takeProfit),
    (.timeLoss, sellsAll (timeOverrideTriggered inputs.averageEntryPrice inputs.currentPrice
      inputs.heldSeconds policy.time)),
    (.timeStagnation, sellsAll (stagnationTriggered inputs.averageEntryPrice inputs.currentPrice
      inputs.heldSeconds policy.timeStagnation))]

/-- The first admitted rule that fires ends the checks; one that cannot act is reported. -/
def checkRules (admitOutcome : RuleOutcome → Bool) (decision : Decision) :
    List (ExitRule × Except RuleError (Option (Option ℚ))) → Decision
  | [] => decision
  | (rule, fired) :: rest =>
    match fired with
    | .ok (some exitPercentage) =>
      if admitOutcome ⟨rule, exitPercentage⟩ then
        { decision with outcome := some ⟨rule, exitPercentage⟩ }
      else checkRules admitOutcome decision rest
    | .ok none => checkRules admitOutcome decision rest
    | .error e =>
      checkRules admitOutcome
        { decision with ruleErrors := decision.ruleErrors ++ [(rule, e)] } rest

namespace ExitPolicy

def decideAdmitting (policy : ExitPolicy) (inputs : ExitInputs)
    (admitOutcome : RuleOutcome → Bool) : Decision :=
  if inputs.currentPrice ≤ 0 then {}
  else checkRules admitOutcome {} (ruleChecks inputs policy)

/-- The first rule that fires. -/
def decide (policy : ExitPolicy) (inputs : ExitInputs) : Decision :=
  policy.decideAdmitting inputs fun _ => true

end ExitPolicy

end ScreenerBot.Trader
