import ScreenerBot.Trader.ExitRules
import ScreenerBot.Library.Fallible

/-!
The take-profit ladder and the DCA ladder of the trader configuration, and what validation asks of
them.

Each ladder is two lists read in step. Values are exact rationals, so every one of them is finite.
-/
namespace ScreenerBot.Trader
open Library

inductive DcaMeasureFrom where
  | average
  | firstEntry
  deriving DecidableEq, Repr

/-- The fields of the trader configuration that describe its ladders. -/
structure TraderConfig where
  takeProfitEnabled : Bool := true
  takeProfitLevelsPct : List ℚ := [20]
  takeProfitSellPct : List ℚ := [100]
  dcaEnabled : Bool := false
  dcaLevelsPct : List ℚ := [-10, -10]
  dcaSizeMultipliers : List ℚ := [1 / 2, 1 / 2]
  dcaMeasureFrom : DcaMeasureFrom := .average
  deriving DecidableEq

def takeProfitMaxSteps : ℕ := 4

def dcaMaxSteps : ℕ := 5

def inRange (value low high : ℚ) : Bool := low ≤ value ∧ value ≤ high

/-- Each value of a list with the one after it. -/
def windows (values : List ℚ) : List (ℚ × ℚ) := values.zip values.tail

namespace TraderConfig

/-- The take-profit part of `validate`. -/
def validateTakeProfit (config : TraderConfig) : Except String Unit :=
  let steps := config.takeProfitLevelsPct.length
  if ¬ (1 ≤ steps ∧ steps ≤ takeProfitMaxSteps) then
    .error "trader.take_profit_levels_pct must hold between 1 and 4 steps"
  else if config.takeProfitSellPct.length ≠ steps then
    .error "trader.take_profit_sell_pct must hold one share per take-profit level"
  else if ¬ config.takeProfitLevelsPct.all (inRange · 1 1000) then
    .error "trader.take_profit_levels_pct values must be between 1 and 1000"
  else if ¬ config.takeProfitSellPct.all (inRange · 5 100) then
    .error "trader.take_profit_sell_pct values must be between 5 and 100"
  else if (windows config.takeProfitLevelsPct).any fun pair => pair.2 ≤ pair.1 then
    .error "trader.take_profit_levels_pct must be strictly ascending"
  else if config.takeProfitSellPct.sum > 100 + takeProfitShareSumTolerancePct then
    .error "trader.take_profit_sell_pct shares must add up to at most 100"
  else .ok ()

/-- The ladder part of `validate_dca`. -/
def validateDca (config : TraderConfig) : Except String Unit :=
  let steps := config.dcaLevelsPct.length
  if ¬ (1 ≤ steps ∧ steps ≤ dcaMaxSteps) then
    .error "trader.dca_levels_pct must hold between 1 and 5 steps"
  else if config.dcaSizeMultipliers.length ≠ steps then
    .error "trader.dca_size_multipliers must hold one size per DCA level"
  else if ¬ config.dcaLevelsPct.all (inRange · (-95) (-1)) then
    .error "trader.dca_levels_pct values must be between -95 and -1"
  else if ¬ config.dcaSizeMultipliers.all (inRange · (1 / 10) 5) then
    .error "trader.dca_size_multipliers values must be between 0.1 and 5"
  else if config.dcaMeasureFrom = .firstEntry ∧
      (windows config.dcaLevelsPct).any fun pair => pair.1 ≤ pair.2 then
    .error ("trader.dca_levels_pct must reach a deeper drop at every step when measured from " ++
      "the first entry")
  else .ok ()

/-- The take-profit ladder, one step per level. -/
def takeProfitLevels (config : TraderConfig) : List TakeProfitLevel :=
  (config.takeProfitLevelsPct.zip config.takeProfitSellPct).map fun step => ⟨step.1, step.2⟩

def takeProfit (config : TraderConfig) : TakeProfitPolicy :=
  ⟨config.takeProfitEnabled, config.takeProfitLevels⟩

/-- What validation says of the shares of a take-profit ladder. -/
structure LadderAccepted (config : TraderConfig) : Prop where
  paired : config.takeProfitSellPct.length = config.takeProfitLevelsPct.length
  shares : ∀ share ∈ config.takeProfitSellPct, 5 ≤ share ∧ share ≤ 100
  sum : config.takeProfitSellPct.sum ≤ 100 + takeProfitShareSumTolerancePct

theorem ladderAccepted_of_validate {config : TraderConfig}
    (h : config.validateTakeProfit = .ok ()) : config.LadderAccepted := by
  unfold validateTakeProfit at h
  simp only at h
  split_ifs at h with hsteps hpaired hlevels hshares horder hsum
  constructor
  · exact not_not.mp hpaired
  · simpa [inRange] using hshares
  · exact not_lt.mp hsum

theorem takeProfitLevels_sellPct {config : TraderConfig} (h : config.LadderAccepted) :
    config.takeProfitLevels.map TakeProfitLevel.sellPct = config.takeProfitSellPct := by
  unfold takeProfitLevels
  rw [List.map_map]
  exact List.map_snd_zip h.paired.le

end TraderConfig

end ScreenerBot.Trader
