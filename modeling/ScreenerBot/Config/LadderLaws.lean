import ScreenerBot.Config.LadderMigration

/-!
What a migrated document loads as: when its ladders pass validation, and how much they may buy.

A document whose ladder keys have their own types is a record, and each row is a step on it.
-/
namespace ScreenerBot.Config
open Trader

/-- The ladder keys of a document, each of the type its readers expect. -/
structure StoredLadders where
  roiExitEnabled : Option Bool := none
  roiTargetPercent : Option ℚ := none
  dcaThresholdPct : Option ℚ := none
  dcaSizePercentage : Option ℚ := none
  dcaMaxCount : Option ℚ := none
  takeProfitEnabled : Option Bool := none
  takeProfitLevelsPct : Option (List ℚ) := none
  takeProfitSellPct : Option (List ℚ) := none
  dcaEnabled : Option Bool := none
  dcaLevelsPct : Option (List ℚ) := none
  dcaSizeMultipliers : Option (List ℚ) := none
  dcaMeasureFrom : Option String := none

def numbers (values : List ℚ) : Node := .list (values.map .number)

namespace StoredLadders

def doc (l : StoredLadders) : Document
  | .roiExitEnabled => l.roiExitEnabled.map .switch
  | .roiTargetPercent => l.roiTargetPercent.map .number
  | .dcaThresholdPct => l.dcaThresholdPct.map .number
  | .dcaSizePercentage => l.dcaSizePercentage.map .number
  | .dcaMaxCount => l.dcaMaxCount.map .number
  | .takeProfitEnabled => l.takeProfitEnabled.map .switch
  | .takeProfitLevelsPct => l.takeProfitLevelsPct.map numbers
  | .takeProfitSellPct => l.takeProfitSellPct.map numbers
  | .dcaEnabled => l.dcaEnabled.map .switch
  | .dcaLevelsPct => l.dcaLevelsPct.map numbers
  | .dcaSizeMultipliers => l.dcaSizeMultipliers.map numbers
  | .dcaMeasureFrom => l.dcaMeasureFrom.map .text

end StoredLadders

def clamp (value low high : ℚ) : ℚ := max low (min value high)

theorem clampedInto_number (value low high : ℚ) :
    clampedInto (.number value) low high = .number (clamp value low high) := by
  unfold clampedInto clamp
  simp only [Node.asF64]
  split
  next hin => rw [min_eq_left hin.2, max_eq_right hin.1]
  next => rfl

theorem clamp_mem {low high : ℚ} (value : ℚ) (h : low ≤ high) :
    low ≤ clamp value low high ∧ clamp value low high ≤ high :=
  ⟨le_max_left _ _, max_le h (min_le_right _ _)⟩

namespace StoredLadders

/-- The steps the count holds. -/
def steps (l : StoredLadders) : Except String ℕ := legacyCount l.doc .dcaMaxCount 2 dcaMaxSteps

/-- The length of a list that is written beside another one. -/
def itemsBeside (pair : Option (List ℚ)) (steps : ℕ) : ℕ :=
  ((pair.map List.length).filter (0 < ·)).getD (max steps 1)

def exitRow (l : StoredLadders) : StoredLadders :=
  { l with roiExitEnabled := none, takeProfitEnabled := l.takeProfitEnabled.or l.roiExitEnabled }

def targetRow (l : StoredLadders) : StoredLadders :=
  match l.roiTargetPercent with
  | none => l
  | some target =>
    if l.takeProfitLevelsPct.isNone then
      { l with
        roiTargetPercent := none
        takeProfitLevelsPct := some [clamp target 1 1000]
        takeProfitSellPct := some (l.takeProfitSellPct.getD [100]) }
    else { l with roiTargetPercent := none }

def dropRow (l : StoredLadders) : Except String StoredLadders :=
  match l.dcaThresholdPct.or (l.dcaMaxCount.map fun _ => legacyDcaThresholdDefault) with
  | none => .ok l
  | some threshold => l.steps.map fun steps =>
    if l.dcaLevelsPct.isNone then
      let item := clamp (legacyDcaDrop threshold) (-95) (-1)
      { l with
        dcaThresholdPct := none
        dcaLevelsPct := some (List.replicate (itemsBeside l.dcaSizeMultipliers steps) item)
        dcaEnabled := if steps = 0 ∨ dcaDropAddsMore threshold item then some false
          else l.dcaEnabled }
    else { l with dcaThresholdPct := none }

def sizeRow (l : StoredLadders) : Except String StoredLadders :=
  match l.dcaSizePercentage.or (l.dcaMaxCount.map fun _ => legacyDcaSizePercentageDefault) with
  | none => .ok l
  | some size => l.steps.map fun steps =>
    if l.dcaSizeMultipliers.isNone then
      let item := clamp (legacyDcaMultiple size) (1 / 10) 5
      { l with
        dcaSizePercentage := none
        dcaSizeMultipliers := some (List.replicate (itemsBeside l.dcaLevelsPct steps) item)
        dcaEnabled := if steps = 0 ∨ dcaMultipleAddsMore size item then some false
          else l.dcaEnabled }
    else { l with dcaSizePercentage := none }

section Updates

variable (l : StoredLadders)

theorem update_roiExitEnabled : Function.update l.doc .roiExitEnabled none =
    { l with roiExitEnabled := none }.doc := by
  funext key
  cases key <;> rfl

theorem update_takeProfitEnabled (on : Bool) :
    Function.update l.doc .takeProfitEnabled (some (.switch on)) =
      { l with takeProfitEnabled := some on }.doc := by
  funext key
  cases key <;> rfl

theorem update_roiTargetPercent : Function.update l.doc .roiTargetPercent none =
    { l with roiTargetPercent := none }.doc := by
  funext key
  cases key <;> rfl

theorem update_takeProfitLevelsPct (values : List ℚ) :
    Function.update l.doc .takeProfitLevelsPct (some (numbers values)) =
      { l with takeProfitLevelsPct := some values }.doc := by
  funext key
  cases key <;> rfl

theorem update_takeProfitSellPct (values : List ℚ) :
    Function.update l.doc .takeProfitSellPct (some (numbers values)) =
      { l with takeProfitSellPct := some values }.doc := by
  funext key
  cases key <;> rfl

theorem update_dcaThresholdPct : Function.update l.doc .dcaThresholdPct none =
    { l with dcaThresholdPct := none }.doc := by
  funext key
  cases key <;> rfl

theorem update_dcaLevelsPct (values : List ℚ) :
    Function.update l.doc .dcaLevelsPct (some (numbers values)) =
      { l with dcaLevelsPct := some values }.doc := by
  funext key
  cases key <;> rfl

theorem update_dcaSizePercentage : Function.update l.doc .dcaSizePercentage none =
    { l with dcaSizePercentage := none }.doc := by
  funext key
  cases key <;> rfl

theorem update_dcaSizeMultipliers (values : List ℚ) :
    Function.update l.doc .dcaSizeMultipliers (some (numbers values)) =
      { l with dcaSizeMultipliers := some values }.doc := by
  funext key
  cases key <;> rfl

theorem update_dcaEnabled (on : Bool) : Function.update l.doc .dcaEnabled (some (.switch on)) =
    { l with dcaEnabled := some on }.doc := by
  funext key
  cases key <;> rfl

theorem update_dcaMaxCount : Function.update l.doc .dcaMaxCount none =
    { l with dcaMaxCount := none }.doc := by
  funext key
  cases key <;> rfl

theorem update_dcaMeasureFrom (name : String) :
    Function.update l.doc .dcaMeasureFrom (some (.text name)) =
      { l with dcaMeasureFrom := some name }.doc := by
  funext key
  cases key <;> rfl

end Updates

theorem relocate_exitRow (l : StoredLadders) :
    relocateRow l.doc ⟨.roiExitEnabled, some .takeProfitEnabled, .leaf⟩ = .ok l.exitRow.doc := by
  unfold relocateRow exitRow
  cases hexit : l.roiExitEnabled with
  | none =>
    have hdoc : l.doc .roiExitEnabled = none := by simp [doc, hexit]
    simp only [hdoc, impliedValue, Option.or_none]
    rw [← hexit]
  | some on =>
    have hdoc : l.doc .roiExitEnabled = some (.switch on) := by simp [doc, hexit]
    simp only [hdoc, Option.some_or, Node.isTable, Bool.false_eq_true, if_false,
      update_roiExitEnabled, insertMissing]
    cases henabled : l.takeProfitEnabled with
    | none =>
      rw [if_pos (by simp [doc]), update_takeProfitEnabled]
      rfl
    | some stored =>
      rw [if_neg (by simp [doc]), Option.some_or, ← henabled]

theorem relocate_targetRow (l : StoredLadders) :
    relocateRow l.doc ⟨.roiTargetPercent, some .takeProfitLevelsPct,
      .listOfOne .takeProfitSellPct 100 1 1000⟩ = .ok l.targetRow.doc := by
  unfold relocateRow targetRow
  cases htarget : l.roiTargetPercent with
  | none =>
    have hdoc : l.doc .roiTargetPercent = none := by simp [doc, htarget]
    simp only [hdoc, impliedValue, Option.or_none]
  | some target =>
    have hdoc : l.doc .roiTargetPercent = some (.number target) := by simp [doc, htarget]
    simp only [hdoc, Option.some_or, Node.isTable, Bool.false_eq_true, if_false,
      update_roiTargetPercent, clampedInto_number]
    have hlevels : ({ l with roiTargetPercent := none }.doc .takeProfitLevelsPct).isNone =
        l.takeProfitLevelsPct.isNone := by simp [doc]
    rw [hlevels]
    split
    · have hwritten := update_takeProfitLevelsPct { l with roiTargetPercent := none }
        [clamp target 1 1000]
      simp only [numbers, List.map_cons, List.map_nil] at hwritten
      rw [hwritten]
      unfold insertMissing
      cases hsell : l.takeProfitSellPct with
      | none =>
        rw [if_pos (by simp [doc])]
        exact congrArg Except.ok (update_takeProfitSellPct _ [100])
      | some shares =>
        rw [if_neg (by simp [doc]), Option.getD_some, ← hsell]
    · rfl

/-- The length of a list beside another one, as the document holds it. -/
theorem items_doc (pair : Option (List ℚ)) (steps : ℕ) :
    (((pair.map numbers).bind Node.listLen).filter (0 < ·)).getD (max steps 1) =
      itemsBeside pair steps := by
  unfold itemsBeside
  cases pair with
  | none => rfl
  | some values => simp [numbers, Node.listLen]

theorem relocate_dropRow (l : StoredLadders) :
    relocateRow l.doc ⟨.dcaThresholdPct, some .dcaLevelsPct,
      .repeated .dcaMaxCount legacyDcaCountDefault legacyDcaThresholdDefault
        legacyDcaDrop (-95) (-1)
        dcaMaxSteps .dcaSizeMultipliers .dcaEnabled dcaDropAddsMore⟩ = l.dropRow.map doc := by
  have hlegacy : (l.doc .dcaThresholdPct).or (impliedValue l.doc (.repeated .dcaMaxCount
      legacyDcaCountDefault legacyDcaThresholdDefault legacyDcaDrop (-95) (-1) dcaMaxSteps
      .dcaSizeMultipliers .dcaEnabled dcaDropAddsMore)) =
      (l.dcaThresholdPct.or (l.dcaMaxCount.map fun _ => legacyDcaThresholdDefault)).map
        .number := by
    cases h : l.dcaThresholdPct <;> cases h' : l.dcaMaxCount <;> simp [doc, impliedValue, h, h']
  unfold relocateRow dropRow
  simp only [hlegacy]
  cases l.dcaThresholdPct.or (l.dcaMaxCount.map fun _ => legacyDcaThresholdDefault) with
  | none => rfl
  | some threshold =>
    have hsteps : legacyCount { l with dcaThresholdPct := none }.doc .dcaMaxCount
        legacyDcaCountDefault dcaMaxSteps = l.steps := rfl
    have hpair : { l with dcaThresholdPct := none }.doc .dcaSizeMultipliers =
        l.dcaSizeMultipliers.map numbers := rfl
    have hlevels : ({ l with dcaThresholdPct := none }.doc .dcaLevelsPct).isNone =
        l.dcaLevelsPct.isNone := by simp [doc]
    simp only [Option.map_some, Node.isTable, Bool.false_eq_true, if_false, update_dcaThresholdPct,
      hsteps, hpair, items_doc, hlevels, converted, Node.asF64,
      clampedInto_number]
    cases l.steps with
    | error e => rfl
    | ok steps =>
      simp only [Except.map]
      congr 1
      split
      · have hwritten := update_dcaLevelsPct { l with dcaThresholdPct := none }
          (List.replicate (itemsBeside l.dcaSizeMultipliers steps)
            (clamp (legacyDcaDrop threshold) (-95) (-1)))
        simp only [numbers, List.map_replicate] at hwritten
        rw [hwritten, update_dcaEnabled]
        rw [show raised (.number threshold) (.number _) dcaDropAddsMore = dcaDropAddsMore threshold
          (clamp (legacyDcaDrop threshold) (-95) (-1)) from rfl]
        split_ifs <;> rfl
      · rfl

theorem relocate_sizeRow (l : StoredLadders) :
    relocateRow l.doc ⟨.dcaSizePercentage, some .dcaSizeMultipliers,
      .repeated .dcaMaxCount legacyDcaCountDefault legacyDcaSizePercentageDefault legacyDcaMultiple
        (1 / 10) 5 dcaMaxSteps .dcaLevelsPct .dcaEnabled dcaMultipleAddsMore⟩ =
      l.sizeRow.map doc := by
  have hlegacy : (l.doc .dcaSizePercentage).or (impliedValue l.doc (.repeated .dcaMaxCount
      legacyDcaCountDefault legacyDcaSizePercentageDefault legacyDcaMultiple (1 / 10) 5 dcaMaxSteps
      .dcaLevelsPct .dcaEnabled dcaMultipleAddsMore)) =
      (l.dcaSizePercentage.or (l.dcaMaxCount.map fun _ => legacyDcaSizePercentageDefault)).map
        .number := by
    cases h : l.dcaSizePercentage <;> cases h' : l.dcaMaxCount <;> simp [doc, impliedValue, h, h']
  unfold relocateRow sizeRow
  simp only [hlegacy]
  cases l.dcaSizePercentage.or (l.dcaMaxCount.map fun _ => legacyDcaSizePercentageDefault) with
  | none => rfl
  | some size =>
    have hsteps : legacyCount { l with dcaSizePercentage := none }.doc .dcaMaxCount
        legacyDcaCountDefault dcaMaxSteps = l.steps := rfl
    have hpair : { l with dcaSizePercentage := none }.doc .dcaLevelsPct =
        l.dcaLevelsPct.map numbers := rfl
    have hsizes : ({ l with dcaSizePercentage := none }.doc .dcaSizeMultipliers).isNone =
        l.dcaSizeMultipliers.isNone := by simp [doc]
    simp only [Option.map_some, Node.isTable, Bool.false_eq_true, if_false,
      update_dcaSizePercentage, hsteps, hpair, items_doc, hsizes, converted, Node.asF64,
      clampedInto_number]
    cases l.steps with
    | error e => rfl
    | ok steps =>
      simp only [Except.map]
      congr 1
      split
      · have hwritten := update_dcaSizeMultipliers { l with dcaSizePercentage := none }
          (List.replicate (itemsBeside l.dcaLevelsPct steps)
            (clamp (legacyDcaMultiple size) (1 / 10) 5))
        simp only [numbers, List.map_replicate] at hwritten
        rw [hwritten, update_dcaEnabled]
        rw [show raised (.number size) (.number _) dcaMultipleAddsMore = dcaMultipleAddsMore size
          (clamp (legacyDcaMultiple size) (1 / 10) 5) from rfl]
        split_ifs <;> rfl
      · rfl

/-- The basis a stored name stands for. -/
def basis (l : StoredLadders) : DcaMeasureFrom := (l.dcaMeasureFrom.bind basisOfName).getD .average

def relocated (l : StoredLadders) : Except String StoredLadders :=
  l.exitRow.targetRow.dropRow.bind fun dropped => dropped.sizeRow.map fun sized =>
    { sized with
      dcaMaxCount := none
      dcaMeasureFrom := sized.dcaMeasureFrom.map fun _ => basisName sized.basis }

theorem relocate_countRow (l : StoredLadders) :
    relocateRow l.doc ⟨.dcaMaxCount, none, .leaf⟩ = .ok { l with dcaMaxCount := none }.doc := by
  unfold relocateRow
  cases hcount : l.dcaMaxCount with
  | none =>
    have hdoc : l.doc .dcaMaxCount = none := by simp [doc, hcount]
    simp only [hdoc, impliedValue, Option.or_none]
    rw [← hcount]
  | some count =>
    have hdoc : l.doc .dcaMaxCount = some (.number count) := by simp [doc, hcount]
    simp only [hdoc, Option.some_or, Node.isTable, Bool.false_eq_true, if_false,
      update_dcaMaxCount]

theorem canonicalStrictNames_doc (l : StoredLadders) : canonicalStrictNames l.doc =
    { l with dcaMeasureFrom := l.dcaMeasureFrom.map fun _ => basisName l.basis }.doc := by
  unfold canonicalStrictNames
  cases hbasis : l.dcaMeasureFrom with
  | none =>
    have hdoc : l.doc .dcaMeasureFrom = none := by simp [doc, hbasis]
    simp only [hdoc, Option.map_none]
    rw [← hbasis]
  | some name =>
    have hdoc : l.doc .dcaMeasureFrom = some (.text name) := by simp [doc, hbasis]
    simp only [hdoc, update_dcaMeasureFrom, basis, hbasis, Option.bind_some, Option.map_some]

/-- The rows of a document with typed keys are the steps on its record. -/
theorem relocate_doc (l : StoredLadders) :
    relocateLegacyLayout l.doc = l.relocated.map doc := by
  unfold relocateLegacyLayout relocations relocated
  simp only [List.foldlM_cons, List.foldlM_nil, relocate_exitRow, relocate_targetRow, bind,
    Except.bind, relocate_dropRow]
  cases l.exitRow.targetRow.dropRow with
  | error e => rfl
  | ok dropped =>
    simp only [Except.map, relocate_sizeRow]
    cases dropped.sizeRow with
    | error e => rfl
    | ok sized =>
      simp only [relocate_countRow, pure, Except.pure, canonicalStrictNames_doc]
      rfl

/-- What a document with typed keys loads as. -/
def config (l : StoredLadders) : TraderConfig where
  takeProfitEnabled := l.takeProfitEnabled.getD true
  takeProfitLevelsPct := l.takeProfitLevelsPct.getD [20]
  takeProfitSellPct := l.takeProfitSellPct.getD [100]
  dcaEnabled := l.dcaEnabled.getD false
  dcaLevelsPct := l.dcaLevelsPct.getD [-10, -10]
  dcaSizeMultipliers := l.dcaSizeMultipliers.getD [1 / 2, 1 / 2]
  dcaMeasureFrom := l.basis

theorem loadNumbers_map (default : List ℚ) (stored : Option (List ℚ)) :
    loadNumbers default (stored.map numbers) = some (stored.getD default) := by
  cases stored with
  | none => rfl
  | some values =>
    simp only [Option.map_some, numbers, loadNumbers, Option.getD_some]
    induction values with
    | nil => rfl
    | cons value rest ih => simp [List.mapM_cons, Node.asF64, ih]

theorem loadSwitch_map (default : Bool) (stored : Option Bool) :
    loadSwitch default (stored.map .switch) = some (stored.getD default) := by
  cases stored <;> rfl

theorem loadLadders_doc {l : StoredLadders}
    (hbasis : l.dcaMeasureFrom = l.dcaMeasureFrom.map fun _ => basisName l.basis) :
    loadLadders l.doc = some l.config := by
  have hload : loadBasis (l.doc .dcaMeasureFrom) = some l.basis := by
    cases hname : l.dcaMeasureFrom with
    | none => simp [doc, loadBasis, basis, hname]
    | some name =>
      rw [hname, Option.map_some, Option.some.injEq] at hbasis
      have hdoc : l.doc .dcaMeasureFrom = some (.text name) := by simp [doc, hname]
      rw [hdoc]
      simp only [loadBasis]
      rw [hbasis]
      cases l.basis <;> decide +kernel
  unfold loadLadders
  simp only [doc] at hload ⊢
  simp only [loadSwitch_map, loadNumbers_map, hload, Option.bind_eq_bind, Option.bind_some]
  rfl

/-- Whether the document has what the drops of the ladder are built from. -/
def dropBuilt (l : StoredLadders) : Prop := l.dcaThresholdPct.isSome ∨ l.dcaMaxCount.isSome

def sizeBuilt (l : StoredLadders) : Prop := l.dcaSizePercentage.isSome ∨ l.dcaMaxCount.isSome

/-- The retired rule as the document ran it. -/
def legacyThreshold (l : StoredLadders) : ℚ := l.dcaThresholdPct.getD legacyDcaThresholdDefault

def legacySize (l : StoredLadders) : ℚ := l.dcaSizePercentage.getD legacyDcaSizePercentageDefault

def legacyAdds (l : StoredLadders) : ℚ := l.dcaMaxCount.getD legacyDcaCountDefault

/-- The drop that the retired threshold becomes. -/
def migratedDrop (l : StoredLadders) : ℚ := clamp (legacyDcaDrop l.legacyThreshold) (-95) (-1)

def migratedSize (l : StoredLadders) : ℚ := clamp (legacyDcaMultiple l.legacySize) (1 / 10) 5

theorem steps_spec {l : StoredLadders} {steps : ℕ} (h : l.steps = .ok steps) :
    steps ≤ dcaMaxSteps ∧ (steps : ℚ) ≤ l.legacyAdds ∧ (l.dcaMaxCount = none → steps = 2) := by
  unfold StoredLadders.steps legacyCount at h
  unfold legacyAdds
  cases hcount : l.dcaMaxCount with
  | none =>
    simp only [doc, hcount, Option.map_none, Except.ok.injEq] at h
    subst h
    simp [dcaMaxSteps, legacyDcaCountDefault]
  | some count =>
    simp only [doc, hcount, Option.map_some, Node.asF64] at h
    split at h
    next hwhole =>
      obtain rfl := Except.ok.inj h
      refine ⟨min_le_right _ _, ?_, nofun⟩
      have hnum : (0 : ℤ) ≤ count.num := Rat.num_nonneg.mpr hwhole.1
      have hvalue : ((count.num.toNat : ℕ) : ℚ) = count := by
        rw [← Int.cast_natCast, Int.toNat_of_nonneg hnum]
        exact Rat.coe_int_num_of_den_eq_one hwhole.2
      calc ((min count.num.toNat dcaMaxSteps : ℕ) : ℚ) ≤ count.num.toNat := by
            exact_mod_cast min_le_left _ _
        _ = count := hvalue
    next => exact absurd h nofun

theorem itemsBeside_some {values : List ℚ} (h : 0 < values.length) (steps : ℕ) :
    itemsBeside (some values) steps = values.length := by
  rw [itemsBeside, Option.map_some, Option.filter_some, if_pos (by simpa using h)]
  rfl

theorem itemsBeside_none (steps : ℕ) : itemsBeside none steps = max steps 1 := rfl

/-- What the row of the drops leaves as it was. -/
structure DropFrame (l d : StoredLadders) : Prop where
  size : d.dcaSizePercentage = l.dcaSizePercentage
  count : d.dcaMaxCount = l.dcaMaxCount
  sizes : d.dcaSizeMultipliers = l.dcaSizeMultipliers
  basis : d.dcaMeasureFrom = l.dcaMeasureFrom
  levels : d.takeProfitLevelsPct = l.takeProfitLevelsPct
  shares : d.takeProfitSellPct = l.takeProfitSellPct

theorem dropRow_spec {l d : StoredLadders} (h : l.dropRow = .ok d) :
    DropFrame l d ∧
      (∀ levels, l.dcaLevelsPct = some levels →
        d.dcaLevelsPct = some levels ∧ d.dcaEnabled = l.dcaEnabled) ∧
      (l.dcaLevelsPct = none → ¬ l.dropBuilt →
        d.dcaLevelsPct = none ∧ d.dcaEnabled = l.dcaEnabled) ∧
      (l.dcaLevelsPct = none → l.dropBuilt → ∃ steps, l.steps = .ok steps ∧
        d.dcaLevelsPct =
          some (List.replicate (itemsBeside l.dcaSizeMultipliers steps) l.migratedDrop) ∧
        d.dcaEnabled = if steps = 0 ∨ dcaDropAddsMore l.legacyThreshold l.migratedDrop
          then some false else l.dcaEnabled) := by
  unfold dropRow at h
  have hlegacy : l.dropBuilt →
      l.dcaThresholdPct.or (l.dcaMaxCount.map fun _ => legacyDcaThresholdDefault) =
        some l.legacyThreshold := by
    unfold dropBuilt legacyThreshold
    cases l.dcaThresholdPct <;> cases l.dcaMaxCount <;> simp
  by_cases hbuilt : l.dropBuilt
  · rw [hlegacy hbuilt] at h
    obtain ⟨steps, hsteps, hd⟩ := Library.map_eq_ok.mp h
    cases hlevels : l.dcaLevelsPct with
    | some levels =>
      simp only [hlevels, Option.isNone_some, Bool.false_eq_true, if_false] at hd
      subst hd
      exact ⟨by constructor <;> rfl, by simp, nofun, nofun⟩
    | none =>
      simp only [hlevels, Option.isNone_none, if_true] at hd
      subst hd
      exact ⟨by constructor <;> rfl, nofun, fun _ hnot => absurd hbuilt hnot,
        fun _ _ => ⟨steps, hsteps, rfl, rfl⟩⟩
  · have hnone : l.dcaThresholdPct = none ∧ l.dcaMaxCount = none := by
      unfold dropBuilt at hbuilt
      simpa using hbuilt
    simp only [hnone.1, hnone.2, Option.map_none, Option.or_none, Except.ok.injEq] at h
    subst h
    exact ⟨by constructor <;> rfl, fun levels hlevels => ⟨hlevels, rfl⟩,
      fun hlevels _ => ⟨hlevels, rfl⟩, fun _ hbuilt' => absurd hbuilt' hbuilt⟩

/-- What the row of the sizes leaves as it was. -/
structure SizeFrame (l s : StoredLadders) : Prop where
  drops : s.dcaLevelsPct = l.dcaLevelsPct
  basis : s.dcaMeasureFrom = l.dcaMeasureFrom
  levels : s.takeProfitLevelsPct = l.takeProfitLevelsPct
  shares : s.takeProfitSellPct = l.takeProfitSellPct

theorem sizeRow_spec {l s : StoredLadders} (h : l.sizeRow = .ok s) :
    SizeFrame l s ∧
      (∀ sizes, l.dcaSizeMultipliers = some sizes →
        s.dcaSizeMultipliers = some sizes ∧ s.dcaEnabled = l.dcaEnabled) ∧
      (l.dcaSizeMultipliers = none → ¬ l.sizeBuilt →
        s.dcaSizeMultipliers = none ∧ s.dcaEnabled = l.dcaEnabled) ∧
      (l.dcaSizeMultipliers = none → l.sizeBuilt → ∃ steps, l.steps = .ok steps ∧
        s.dcaSizeMultipliers =
          some (List.replicate (itemsBeside l.dcaLevelsPct steps) l.migratedSize) ∧
        s.dcaEnabled = if steps = 0 ∨ dcaMultipleAddsMore l.legacySize l.migratedSize
          then some false else l.dcaEnabled) := by
  unfold sizeRow at h
  have hlegacy : l.sizeBuilt →
      l.dcaSizePercentage.or (l.dcaMaxCount.map fun _ => legacyDcaSizePercentageDefault) =
        some l.legacySize := by
    unfold sizeBuilt legacySize
    cases l.dcaSizePercentage <;> cases l.dcaMaxCount <;> simp
  by_cases hbuilt : l.sizeBuilt
  · rw [hlegacy hbuilt] at h
    obtain ⟨steps, hsteps, hs⟩ := Library.map_eq_ok.mp h
    cases hsizes : l.dcaSizeMultipliers with
    | some sizes =>
      simp only [hsizes, Option.isNone_some, Bool.false_eq_true, if_false] at hs
      subst hs
      exact ⟨by constructor <;> rfl, by simp, nofun, nofun⟩
    | none =>
      simp only [hsizes, Option.isNone_none, if_true] at hs
      subst hs
      exact ⟨by constructor <;> rfl, nofun, fun _ hnot => absurd hbuilt hnot,
        fun _ _ => ⟨steps, hsteps, rfl, rfl⟩⟩
  · have hnone : l.dcaSizePercentage = none ∧ l.dcaMaxCount = none := by
      unfold sizeBuilt at hbuilt
      simpa using hbuilt
    simp only [hnone.1, hnone.2, Option.map_none, Option.or_none, Except.ok.injEq] at h
    subst h
    exact ⟨by constructor <;> rfl, fun sizes hsizes => ⟨hsizes, rfl⟩,
      fun hsizes _ => ⟨hsizes, rfl⟩, fun _ hbuilt' => absurd hbuilt' hbuilt⟩

end StoredLadders

end ScreenerBot.Config
