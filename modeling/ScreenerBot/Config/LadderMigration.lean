import ScreenerBot.Trader.Ladders

/-!
The retired ladder keys of the trader section, and the rows that move them into the two ladders.

A document is what each key of the section holds; the rows of other sections touch none of these
keys. Numbers are exact rationals.
-/
namespace ScreenerBot.Config
open Trader

inductive Node where
  | number (value : ℚ)
  | switch (on : Bool)
  | text (value : String)
  | list (items : List Node)
  | table

/-- The keys of the trader section that the ladders are built from. -/
inductive Key where
  | roiExitEnabled | roiTargetPercent | dcaThresholdPct | dcaSizePercentage | dcaMaxCount
  | takeProfitEnabled | takeProfitLevelsPct | takeProfitSellPct
  | dcaEnabled | dcaLevelsPct | dcaSizeMultipliers | dcaMeasureFrom
  deriving DecidableEq

def Key.path : Key → String
  | .roiExitEnabled => "trader.roi_exit_enabled"
  | .roiTargetPercent => "trader.roi_target_percent"
  | .dcaThresholdPct => "trader.dca_threshold_pct"
  | .dcaSizePercentage => "trader.dca_size_percentage"
  | .dcaMaxCount => "trader.dca_max_count"
  | .takeProfitEnabled => "trader.take_profit_enabled"
  | .takeProfitLevelsPct => "trader.take_profit_levels_pct"
  | .takeProfitSellPct => "trader.take_profit_sell_pct"
  | .dcaEnabled => "trader.dca_enabled"
  | .dcaLevelsPct => "trader.dca_levels_pct"
  | .dcaSizeMultipliers => "trader.dca_size_multipliers"
  | .dcaMeasureFrom => "trader.dca_measure_from"

abbrev Document := Key → Option Node

namespace Node

def asF64 : Node → Option ℚ
  | number value => some value
  | _ => none

def listLen : Node → Option ℕ
  | list items => some items.length
  | _ => none

def isTable : Node → Bool
  | table => true
  | _ => false

end Node

def legacyDcaCountDefault : ℕ := 2

def legacyDcaThresholdDefault : ℚ := -10

def legacyDcaSizePercentageDefault : ℚ := 50

/-- A retired threshold as a ladder drop of its magnitude. -/
def legacyDcaDrop (thresholdPct : ℚ) : ℚ := -|thresholdPct|

def dcaDropAddsMore (thresholdPct dropPct : ℚ) : Bool := thresholdPct < dropPct

/-- A retired size, a percent of the first buy, as a ladder multiple of it. -/
def legacyDcaMultiple (sizePercentage : ℚ) : ℚ := sizePercentage / 100

def dcaMultipleAddsMore (sizePercentage multiple : ℚ) : Bool :=
  legacyDcaMultiple sizePercentage < multiple

/-- The number of steps the count leaf holds, cut to the most a ladder has. -/
def legacyCount (doc : Document) (count : Key) (absent maxItems : ℕ) : Except String ℕ :=
  match doc count with
  | none => .ok (min absent maxItems)
  | some node =>
    match node.asF64 with
    | some value =>
      if 0 ≤ value ∧ value.den = 1 then .ok (min value.num.toNat maxItems)
      else .error s!"legacy {count.path} must be a whole number of steps"
    | none => .error s!"legacy {count.path} must be a whole number of steps"

/-- A value that is not a number is left for the typed load to refuse. -/
def converted (value : Node) (convert : ℚ → ℚ) : Node :=
  match value.asF64 with
  | some number => .number (convert number)
  | none => value

def clampedInto (value : Node) (low high : ℚ) : Node :=
  match value.asF64 with
  | some number => if low ≤ number ∧
      number ≤ high then value else .number (max low (min number high))
  | none => value

inductive RelocationNode where
  | leaf
  | listOfOne (companion : Key) (item low high : ℚ)
  | repeated (count : Key) (absentCount : ℕ) (absentValue : ℚ) (convert : ℚ → ℚ) (low high : ℚ)
      (maxItems : ℕ) (pair switch : Key) (addsMore : ℚ → ℚ → Bool)

structure Relocation where
  source : Key
  target : Option Key
  node : RelocationNode

/-- A document that holds the count but not the value ran with the default. -/
def impliedValue (doc : Document) : RelocationNode → Option Node
  | .repeated count _ absentValue _ _ _ _ _ _ _ => (doc count).map fun _ => .number absentValue
  | .leaf | .listOfOne .. => none

def relocations : List Relocation :=
  [⟨.roiExitEnabled, some .takeProfitEnabled, .leaf⟩,
    ⟨.roiTargetPercent, some .takeProfitLevelsPct, .listOfOne .takeProfitSellPct 100 1 1000⟩,
    ⟨.dcaThresholdPct, some .dcaLevelsPct,
      .repeated .dcaMaxCount legacyDcaCountDefault legacyDcaThresholdDefault
        legacyDcaDrop (-95) (-1)
        dcaMaxSteps .dcaSizeMultipliers .dcaEnabled dcaDropAddsMore⟩,
    ⟨.dcaSizePercentage, some .dcaSizeMultipliers,
      .repeated .dcaMaxCount legacyDcaCountDefault legacyDcaSizePercentageDefault legacyDcaMultiple
        (1 / 10) 5 dcaMaxSteps .dcaLevelsPct .dcaEnabled dcaMultipleAddsMore⟩,
    ⟨.dcaMaxCount, none, .leaf⟩]

/-- A leaf written where the document lacks it. -/
def insertMissing (doc : Document) (key : Key) (value : Node) : Document :=
  if (doc key).isNone then Function.update doc key (some value) else doc

/-- Whether the migrated value adds sooner or buys more than the stored one. -/
def raised (legacy item : Node) (addsMore : ℚ → ℚ → Bool) : Bool :=
  match legacy.asF64, item.asF64 with
  | some stored, some migrated => addsMore stored migrated
  | _, _ => false

/-- One row moves its legacy node, when the document has it or implies it. -/
def relocateRow (doc : Document) (row : Relocation) : Except String Document :=
  match (doc row.source).or (impliedValue doc row.node) with
  | none => .ok doc
  | some legacy =>
    let working := Function.update doc row.source none
    if legacy.isTable then .error s!"legacy {row.source.path} must be a value, not a table"
    else
      match row.node with
      | .leaf =>
        match row.target with
        | some leaf => .ok (insertMissing working leaf legacy)
        | none => .ok working
      | .listOfOne companion item low high =>
        match row.target with
        | some leaf =>
          if (working leaf).isNone then
            let written := Function.update working leaf (some (.list [clampedInto legacy low high]))
            .ok (insertMissing written companion (.list [.number item]))
          else .ok working
        | none => .ok working
      | .repeated count absentCount _ convert low high maxItems pair switch addsMore =>
        (legacyCount working count absentCount maxItems).map fun steps =>
          -- The list read in step with this one sets the length when it is stored.
          let items := (((working pair).bind Node.listLen).filter (0 < ·)).getD (max steps 1)
          match row.target with
          | some leaf =>
            if (working leaf).isNone then
              let item := clampedInto (converted legacy convert) low high
              let written := Function.update working leaf (some (.list (List.replicate items item)))
              if steps = 0 ∨ raised legacy item addsMore then
                Function.update written switch (some (.switch false))
              else written
            else working
          | none => working

def basisOfName (name : String) : Option DcaMeasureFrom :=
  if name.toLower = "average" then some .average
  else if name.toLower = "first_entry" then some .firstEntry
  else none

def basisName : DcaMeasureFrom → String
  | .average => "average"
  | .firstEntry => "first_entry"

/-- A stored basis under its canonical name; a name that matches nothing is the average. -/
def canonicalStrictNames (doc : Document) : Document :=
  match doc .dcaMeasureFrom with
  | some (.text name) =>
    Function.update doc .dcaMeasureFrom
      (some (.text (basisName ((basisOfName name).getD .average))))
  | _ => doc

def relocateLegacyLayout (doc : Document) : Except String Document :=
  (relocations.foldlM relocateRow doc).map canonicalStrictNames

def loadNumbers (default : List ℚ) : Option Node → Option (List ℚ)
  | none => some default
  | some (.list items) => items.mapM Node.asF64
  | some _ => none

def loadSwitch (default : Bool) : Option Node → Option Bool
  | none => some default
  | some (.switch on) => some on
  | some _ => none

def loadBasis : Option Node → Option DcaMeasureFrom
  | none => some .average
  | some (.text name) => basisOfName name
  | some _ => none

/-- The ladders of a document; an absent key takes the default of the schema. -/
def loadLadders (doc : Document) : Option TraderConfig := do
  let defaults : TraderConfig := {}
  let takeProfitEnabled ← loadSwitch defaults.takeProfitEnabled (doc .takeProfitEnabled)
  let takeProfitLevelsPct ← loadNumbers defaults.takeProfitLevelsPct (doc .takeProfitLevelsPct)
  let takeProfitSellPct ← loadNumbers defaults.takeProfitSellPct (doc .takeProfitSellPct)
  let dcaEnabled ← loadSwitch defaults.dcaEnabled (doc .dcaEnabled)
  let dcaLevelsPct ← loadNumbers defaults.dcaLevelsPct (doc .dcaLevelsPct)
  let dcaSizeMultipliers ← loadNumbers defaults.dcaSizeMultipliers (doc .dcaSizeMultipliers)
  let dcaMeasureFrom ← loadBasis (doc .dcaMeasureFrom)
  return { takeProfitEnabled, takeProfitLevelsPct, takeProfitSellPct, dcaEnabled, dcaLevelsPct,
           dcaSizeMultipliers, dcaMeasureFrom }

end ScreenerBot.Config
