import ScreenerBot.Config.LadderLaws

/-!
When the ladders of a migrated document pass validation, and what the retired rule bounds in them.
-/
namespace ScreenerBot.Config
open Trader

/-- A list of drops that a ladder may have, on a basis. -/
structure DropsValid (basis : DcaMeasureFrom) (drops : List ℚ) : Prop where
  nonempty : 0 < drops.length
  short : drops.length ≤ dcaMaxSteps
  inside : ∀ drop ∈ drops, -95 ≤ drop ∧ drop ≤ -1
  deeper : basis = .firstEntry → ¬ (windows drops).any fun pair => pair.1 ≤ pair.2

structure SizesValid (sizes : List ℚ) : Prop where
  nonempty : 0 < sizes.length
  short : sizes.length ≤ dcaMaxSteps
  inside : ∀ size ∈ sizes, 1 / 10 ≤ size ∧ size ≤ 5

structure LevelsValid (levels : List ℚ) : Prop where
  nonempty : 0 < levels.length
  short : levels.length ≤ takeProfitMaxSteps
  inside : ∀ level ∈ levels, 1 ≤ level ∧ level ≤ 1000
  ascending : ¬ (windows levels).any fun pair => pair.2 ≤ pair.1

structure SharesValid (shares : List ℚ) : Prop where
  inside : ∀ share ∈ shares, 5 ≤ share ∧ share ≤ 100
  sum : shares.sum ≤ 100 + takeProfitShareSumTolerancePct

theorem validateTakeProfit_ok {config : TraderConfig}
    (hlevels : LevelsValid config.takeProfitLevelsPct)
    (hshares : SharesValid config.takeProfitSellPct)
    (hpaired : config.takeProfitSellPct.length = config.takeProfitLevelsPct.length) :
    config.validateTakeProfit = .ok () := by
  unfold TraderConfig.validateTakeProfit
  simp only
  rw [if_neg (not_not.mpr ⟨hlevels.nonempty, hlevels.short⟩), if_neg (not_not.mpr hpaired),
    if_neg (not_not.mpr (by simpa [inRange] using hlevels.inside)),
    if_neg (not_not.mpr (by simpa [inRange] using hshares.inside)), if_neg hlevels.ascending,
    if_neg (not_lt.mpr hshares.sum)]

theorem validateDca_ok {config : TraderConfig}
    (hdrops : DropsValid config.dcaMeasureFrom config.dcaLevelsPct)
    (hsizes : SizesValid config.dcaSizeMultipliers)
    (hpaired : config.dcaSizeMultipliers.length = config.dcaLevelsPct.length) :
    config.validateDca = .ok () := by
  unfold TraderConfig.validateDca
  simp only
  rw [if_neg (not_not.mpr ⟨hdrops.nonempty, hdrops.short⟩), if_neg (not_not.mpr hpaired),
    if_neg (not_not.mpr (by simpa [inRange] using hdrops.inside)),
    if_neg (not_not.mpr (by simpa [inRange] using hsizes.inside)),
    if_neg fun h => hdrops.deeper h.1 h.2]

namespace StoredLadders

/-- Each list that a document holds is one that a ladder may have. -/
structure ListsValid (l : StoredLadders) : Prop where
  levels : ∀ levels ∈ l.takeProfitLevelsPct, LevelsValid levels
  shares : ∀ shares ∈ l.takeProfitSellPct, SharesValid shares
  drops : ∀ drops ∈ l.dcaLevelsPct, DropsValid l.basis drops
  sizes : ∀ sizes ∈ l.dcaSizeMultipliers, SizesValid sizes

/-- The two take-profit lists are of one length, an absent one counting as one item. -/
def TakeProfitPaired (l : StoredLadders) : Prop :=
  (l.takeProfitSellPct.map List.length).getD 1 = (l.takeProfitLevelsPct.map List.length).getD 1

/-- The two lists of adds get one length: both are stored so, one is built beside the other, or one
stands beside the default of two items. -/
def DcaPaired (l : StoredLadders) : Prop :=
  match l.dcaLevelsPct, l.dcaSizeMultipliers with
  | some drops, some sizes => sizes.length = drops.length
  | some drops, none => l.sizeBuilt ∨ drops.length = 2
  | none, some sizes => l.dropBuilt ∨ sizes.length = 2
  | none, none => True

/-- Drops that are measured from the first entry are stored, or built as a single step. -/
def BasisAllows (l : StoredLadders) : Prop :=
  l.basis = .firstEntry → l.dcaLevelsPct = none → l.dropBuilt ∧
    match l.dcaSizeMultipliers with
    | some sizes => sizes.length = 1
    | none => l.legacyAdds ≤ 1

end StoredLadders

section Migrated

variable {l r : StoredLadders}

theorem migratedDrop_mem (l : StoredLadders) : -95 ≤ l.migratedDrop ∧ l.migratedDrop ≤ -1 :=
  clamp_mem _ (by norm_num)

theorem migratedSize_mem (l : StoredLadders) : 1 / 10 ≤ l.migratedSize ∧ l.migratedSize ≤ 5 :=
  clamp_mem _ (by norm_num)

theorem replicate_dropsValid {n : ℕ} {drop : ℚ} {basis : DcaMeasureFrom} (hpos : 0 < n)
    (hshort : n ≤ dcaMaxSteps) (hdrop : -95 ≤ drop ∧ drop ≤ -1)
    (hbasis : basis = .firstEntry → n = 1) :
    DropsValid basis (List.replicate n drop) := by
  constructor
  · simpa using hpos
  · simpa using hshort
  · intro value hvalue
    obtain ⟨-, rfl⟩ := List.mem_replicate.mp hvalue
    exact hdrop
  · intro hfirst
    rw [hbasis hfirst]
    simp [windows]

theorem replicate_sizesValid {n : ℕ} {size : ℚ} (hpos : 0 < n) (hshort : n ≤ dcaMaxSteps)
    (hsize : 1 / 10 ≤ size ∧ size ≤ 5) : SizesValid (List.replicate n size) := by
  constructor
  · simpa using hpos
  · simpa using hshort
  · intro value hvalue
    obtain ⟨-, rfl⟩ := List.mem_replicate.mp hvalue
    exact hsize

/-- A document after the rows, by what it held before them. -/
structure Migrated (l r : StoredLadders) : Prop where
  levels : r.takeProfitLevelsPct =
    l.takeProfitLevelsPct.or (l.roiTargetPercent.map fun target => [clamp target 1 1000])
  shares : r.takeProfitSellPct = l.takeProfitSellPct ∨
    l.takeProfitSellPct = none ∧ r.takeProfitSellPct = some [100]
  dropsStored : ∀ drops, l.dcaLevelsPct = some drops → r.dcaLevelsPct = some drops
  dropsAbsent : l.dcaLevelsPct = none → ¬ l.dropBuilt → r.dcaLevelsPct = none
  dropsBuilt : l.dcaLevelsPct = none → l.dropBuilt → ∃ steps, l.steps = .ok steps ∧
    r.dcaLevelsPct = some (List.replicate (StoredLadders.itemsBeside l.dcaSizeMultipliers steps)
      l.migratedDrop) ∧
    (r.dcaEnabled = some true → steps ≠ 0 ∧ l.migratedDrop ≤ l.legacyThreshold)
  sizesStored : ∀ sizes, l.dcaSizeMultipliers = some sizes → r.dcaSizeMultipliers = some sizes
  sizesAbsent : l.dcaSizeMultipliers = none → ¬ l.sizeBuilt → r.dcaSizeMultipliers = none
  sizesBuilt : l.dcaSizeMultipliers = none → l.sizeBuilt → ∃ steps, l.steps = .ok steps ∧
    r.dcaSizeMultipliers = some (List.replicate (StoredLadders.itemsBeside r.dcaLevelsPct steps)
      l.migratedSize) ∧
    (r.dcaEnabled = some true → steps ≠ 0 ∧ l.migratedSize ≤ legacyDcaMultiple l.legacySize)
  basis : r.dcaMeasureFrom = l.dcaMeasureFrom.map fun _ => basisName l.basis

/-- The rows of the take-profit keys leave those of the adds. -/
theorem targetRow_frame (l : StoredLadders) :
    l.exitRow.targetRow.dcaThresholdPct = l.dcaThresholdPct ∧
      l.exitRow.targetRow.dcaSizePercentage = l.dcaSizePercentage ∧
      l.exitRow.targetRow.dcaMaxCount = l.dcaMaxCount ∧
      l.exitRow.targetRow.dcaEnabled = l.dcaEnabled ∧
      l.exitRow.targetRow.dcaLevelsPct = l.dcaLevelsPct ∧
      l.exitRow.targetRow.dcaSizeMultipliers = l.dcaSizeMultipliers ∧
      l.exitRow.targetRow.dcaMeasureFrom = l.dcaMeasureFrom := by
  unfold StoredLadders.targetRow StoredLadders.exitRow
  cases l.roiTargetPercent with
  | none => simp
  | some target =>
    simp only
    split <;> simp

theorem targetRow_spec (l : StoredLadders) :
    l.exitRow.targetRow.takeProfitLevelsPct =
        l.takeProfitLevelsPct.or (l.roiTargetPercent.map fun target => [clamp target 1 1000]) ∧
      (l.exitRow.targetRow.takeProfitSellPct = l.takeProfitSellPct ∨
        l.takeProfitSellPct = none ∧ l.exitRow.targetRow.takeProfitSellPct = some [100]) := by
  unfold StoredLadders.targetRow StoredLadders.exitRow
  cases l.roiTargetPercent with
  | none => simp
  | some target =>
    cases hlevels : l.takeProfitLevelsPct with
    | some levels => simp
    | none => cases hshares : l.takeProfitSellPct <;> simp

/-- A switch that a row turned off does not stand on. -/
theorem of_switch_on {c : Prop} [Decidable c] {stored : Option Bool}
    (h : (if c then some false else stored) = some true) : ¬ c ∧ stored = some true := by
  split at h
  next => simp at h
  next hc => exact ⟨hc, h⟩

theorem migrated_of_relocated (h : l.relocated = .ok r) : Migrated l r := by
  unfold StoredLadders.relocated at h
  obtain ⟨d, hd, hrest⟩ := Library.bind_eq_ok.mp h
  obtain ⟨s, hs, rfl⟩ := Library.map_eq_ok.mp hrest
  obtain ⟨hthreshold, hsize, hcount, henabled, hdrops, hsizes, hbasis⟩ := targetRow_frame l
  obtain ⟨hlevels, hshares⟩ := targetRow_spec l
  set m := l.exitRow.targetRow with hm
  obtain ⟨hframe, hdstored, hdabsent, hdbuilt⟩ := StoredLadders.dropRow_spec hd
  obtain ⟨hsframe, hsstored, hsabsent, hsbuilt⟩ := StoredLadders.sizeRow_spec hs
  -- The rows read the record as it was before them.
  have hdropBuilt : m.dropBuilt ↔ l.dropBuilt := by
    simp only [StoredLadders.dropBuilt, hthreshold, hcount]
  have hsizeBuilt : d.sizeBuilt ↔ l.sizeBuilt := by
    simp only [StoredLadders.sizeBuilt, hframe.size, hframe.count, hsize, hcount]
  have hlegacyDrop : m.legacyThreshold = l.legacyThreshold := by
    simp only [StoredLadders.legacyThreshold, hthreshold]
  have hmigratedDrop : m.migratedDrop = l.migratedDrop := by
    simp only [StoredLadders.migratedDrop, hlegacyDrop]
  have hlegacySize : d.legacySize = l.legacySize := by
    simp only [StoredLadders.legacySize, hframe.size, hsize]
  have hmigratedSize : d.migratedSize = l.migratedSize := by
    simp only [StoredLadders.migratedSize, hlegacySize]
  have hsteps : m.steps = l.steps := by
    simp only [StoredLadders.steps, legacyCount, StoredLadders.doc, hcount]
  have hsteps' : d.steps = l.steps := by
    simp only [StoredLadders.steps, legacyCount, StoredLadders.doc, hframe.count, hcount]
  have hon : s.dcaEnabled = some true → d.dcaEnabled = some true := by
    intro hon
    cases hstored : d.dcaSizeMultipliers with
    | some sizes => rw [← (hsstored sizes hstored).2, hon]
    | none =>
      by_cases hbuilt : d.sizeBuilt
      · obtain ⟨steps, -, -, hswitch⟩ := hsbuilt hstored hbuilt
        exact (of_switch_on (hswitch ▸ hon)).2
      · rw [← (hsabsent hstored hbuilt).2, hon]
  constructor
  · exact hsframe.levels.trans (hframe.levels.trans hlevels)
  · simp only [hsframe.shares, hframe.shares]
    exact hshares
  · intro drops hstored
    exact hsframe.drops.trans (hdstored drops (hdrops.trans hstored)).1
  · intro hnone hbuilt
    exact hsframe.drops.trans (hdabsent (hdrops.trans hnone) (hdropBuilt.not.mpr hbuilt)).1
  · intro hnone hbuilt
    obtain ⟨steps, hsome, hlist, hswitch⟩ := hdbuilt (hdrops.trans hnone) (hdropBuilt.mpr hbuilt)
    rw [hsizes, hmigratedDrop] at hlist
    refine ⟨steps, hsteps ▸ hsome, hsframe.drops.trans hlist, fun henabled' => ?_⟩
    have hoff := (of_switch_on (hswitch ▸ hon henabled')).1
    simp only [dcaDropAddsMore, decide_eq_true_eq, not_or, not_lt, hlegacyDrop,
      hmigratedDrop] at hoff
    exact hoff
  · intro sizes hstored
    exact (hsstored sizes (hframe.sizes.trans (hsizes.trans hstored))).1
  · intro hnone hbuilt
    exact (hsabsent (hframe.sizes.trans (hsizes.trans hnone)) (hsizeBuilt.not.mpr hbuilt)).1
  · intro hnone hbuilt
    obtain ⟨steps, hsome, hlist, hswitch⟩ := hsbuilt (hframe.sizes.trans (hsizes.trans hnone))
      (hsizeBuilt.mpr hbuilt)
    rw [← hsframe.drops, hmigratedSize] at hlist
    refine ⟨steps, hsteps' ▸ hsome, hlist, fun henabled' => ?_⟩
    have hoff := (of_switch_on (hswitch ▸ henabled')).1
    simp only [dcaMultipleAddsMore, decide_eq_true_eq, not_or, not_lt, hlegacySize,
      hmigratedSize] at hoff
    exact hoff
  · have hname : s.dcaMeasureFrom = l.dcaMeasureFrom := by
      rw [hsframe.basis, hframe.basis, hbasis]
    simp only [StoredLadders.basis, hname]

/-- A list built beside another one is as long as it, or has a step for each add. -/
theorem itemsBeside_bounds {pair : Option (List ℚ)} {steps : ℕ} (hsteps : steps ≤ dcaMaxSteps)
    (hpair : ∀ values ∈ pair, 0 < values.length ∧ values.length ≤ dcaMaxSteps) :
    0 < StoredLadders.itemsBeside pair steps ∧
      StoredLadders.itemsBeside pair steps ≤ dcaMaxSteps := by
  cases pair with
  | none =>
    rw [StoredLadders.itemsBeside_none]
    exact ⟨by omega, max_le hsteps (by decide)⟩
  | some values =>
    obtain ⟨hpos, hshort⟩ := hpair values rfl
    rw [StoredLadders.itemsBeside_some hpos]
    exact ⟨hpos, hshort⟩

theorem migrated_drops_valid (h : Migrated l r) (hvalid : l.ListsValid) (hbasis : l.BasisAllows) :
    DropsValid l.basis (r.dcaLevelsPct.getD [-10, -10]) := by
  cases hstored : l.dcaLevelsPct with
  | some drops =>
    rw [h.dropsStored drops hstored]
    exact hvalid.drops drops hstored
  | none =>
    by_cases hbuilt : l.dropBuilt
    · obtain ⟨steps, hsteps, hlist, -⟩ := h.dropsBuilt hstored hbuilt
      obtain ⟨hshort, hadds, -⟩ := StoredLadders.steps_spec hsteps
      obtain ⟨hpos, hmax⟩ := itemsBeside_bounds hshort fun sizes hsizes =>
        ⟨(hvalid.sizes sizes hsizes).nonempty, (hvalid.sizes sizes hsizes).short⟩
      rw [hlist, Option.getD_some]
      apply replicate_dropsValid hpos hmax (migratedDrop_mem l)
      intro hfirst
      have hsingle := (hbasis hfirst hstored).2
      cases hsizes : l.dcaSizeMultipliers with
      | some sizes =>
        simp only [hsizes] at hsingle
        rw [StoredLadders.itemsBeside_some (by omega), hsingle]
      | none =>
        simp only [hsizes] at hsingle
        have hone : steps ≤ 1 := by exact_mod_cast hadds.trans hsingle
        rw [StoredLadders.itemsBeside_none]
        omega
    · rw [h.dropsAbsent hstored hbuilt]
      have haverage : l.basis ≠ .firstEntry := fun hfirst => hbuilt (hbasis hfirst hstored).1
      exact replicate_dropsValid (n := 2) (by decide) (by decide) (by norm_num)
        fun hfirst => absurd hfirst haverage

theorem migrated_drops_length (h : Migrated l r) (hvalid : l.ListsValid) :
    ∀ drops ∈ r.dcaLevelsPct, 0 < drops.length ∧ drops.length ≤ dcaMaxSteps := by
  intro drops hdrops
  cases hstored : l.dcaLevelsPct with
  | some stored =>
    rw [h.dropsStored stored hstored] at hdrops
    obtain rfl := Option.some.inj hdrops
    exact ⟨(hvalid.drops stored hstored).nonempty, (hvalid.drops stored hstored).short⟩
  | none =>
    by_cases hbuilt : l.dropBuilt
    · obtain ⟨steps, hsteps, hlist, -⟩ := h.dropsBuilt hstored hbuilt
      rw [hlist] at hdrops
      obtain rfl := Option.some.inj hdrops
      rw [List.length_replicate]
      exact itemsBeside_bounds (StoredLadders.steps_spec hsteps).1 fun sizes hsizes =>
        ⟨(hvalid.sizes sizes hsizes).nonempty, (hvalid.sizes sizes hsizes).short⟩
    · rw [h.dropsAbsent hstored hbuilt] at hdrops
      exact absurd hdrops nofun

theorem migrated_sizes_valid (h : Migrated l r) (hvalid : l.ListsValid) :
    SizesValid (r.dcaSizeMultipliers.getD [1 / 2, 1 / 2]) := by
  cases hstored : l.dcaSizeMultipliers with
  | some sizes =>
    rw [h.sizesStored sizes hstored]
    exact hvalid.sizes sizes hstored
  | none =>
    by_cases hbuilt : l.sizeBuilt
    · obtain ⟨steps, hsteps, hlist, -⟩ := h.sizesBuilt hstored hbuilt
      obtain ⟨hpos, hmax⟩ := itemsBeside_bounds (StoredLadders.steps_spec hsteps).1
        (migrated_drops_length h hvalid)
      rw [hlist, Option.getD_some]
      exact replicate_sizesValid hpos hmax (migratedSize_mem l)
    · rw [h.sizesAbsent hstored hbuilt]
      exact replicate_sizesValid (n := 2) (by decide) (by decide) (by norm_num)

/-- The two lists of adds come out equally long. -/
theorem migrated_dca_paired (h : Migrated l r) (hvalid : l.ListsValid) (hpaired : l.DcaPaired) :
    (r.dcaSizeMultipliers.getD [1 / 2, 1 / 2]).length =
      (r.dcaLevelsPct.getD [-10, -10]).length := by
  unfold StoredLadders.DcaPaired at hpaired
  cases hdrops : l.dcaLevelsPct with
  | some drops =>
    rw [h.dropsStored drops hdrops, Option.getD_some]
    cases hsizes : l.dcaSizeMultipliers with
    | some sizes =>
      rw [h.sizesStored sizes hsizes, Option.getD_some]
      simpa only [hdrops, hsizes] using hpaired
    | none =>
      simp only [hdrops, hsizes] at hpaired
      by_cases hbuilt : l.sizeBuilt
      · obtain ⟨steps, -, hlist, -⟩ := h.sizesBuilt hsizes hbuilt
        rw [hlist, h.dropsStored drops hdrops, Option.getD_some, List.length_replicate,
          StoredLadders.itemsBeside_some (hvalid.drops drops hdrops).nonempty]
      · rw [h.sizesAbsent hsizes hbuilt, hpaired.resolve_left hbuilt]
        rfl
  | none =>
    by_cases hdropBuilt : l.dropBuilt
    · obtain ⟨steps, hsteps, hdropList, -⟩ := h.dropsBuilt hdrops hdropBuilt
      cases hsizes : l.dcaSizeMultipliers with
      | some sizes =>
        rw [hdropList, h.sizesStored sizes hsizes, hsizes, Option.getD_some, Option.getD_some,
          List.length_replicate,
          StoredLadders.itemsBeside_some (hvalid.sizes sizes hsizes).nonempty]
      | none =>
        rw [hsizes, StoredLadders.itemsBeside_none] at hdropList
        by_cases hbuilt : l.sizeBuilt
        · obtain ⟨steps', -, hlist, -⟩ := h.sizesBuilt hsizes hbuilt
          rw [hlist, hdropList, Option.getD_some, Option.getD_some, List.length_replicate,
            StoredLadders.itemsBeside_some (by rw [List.length_replicate]; omega)]
        · have hcount : l.dcaMaxCount = none := by
            unfold StoredLadders.sizeBuilt at hbuilt
            simpa using (not_or.mp hbuilt).2
          rw [h.sizesAbsent hsizes hbuilt, hdropList,
            (StoredLadders.steps_spec hsteps).2.2 hcount]
          rfl
    · have hcount : l.dcaMaxCount = none := by
        unfold StoredLadders.dropBuilt at hdropBuilt
        simpa using (not_or.mp hdropBuilt).2
      rw [h.dropsAbsent hdrops hdropBuilt]
      cases hsizes : l.dcaSizeMultipliers with
      | some sizes =>
        simp only [hdrops, hsizes] at hpaired
        rw [h.sizesStored sizes hsizes, Option.getD_some, hpaired.resolve_left hdropBuilt]
        rfl
      | none =>
        by_cases hbuilt : l.sizeBuilt
        · obtain ⟨steps, hsteps, hlist, -⟩ := h.sizesBuilt hsizes hbuilt
          rw [h.dropsAbsent hdrops hdropBuilt, StoredLadders.itemsBeside_none,
            (StoredLadders.steps_spec hsteps).2.2 hcount] at hlist
          rw [hlist]
          rfl
        · rw [h.sizesAbsent hsizes hbuilt]
          rfl

theorem migrated_takeProfit_valid (h : Migrated l r) (hvalid : l.ListsValid)
    (hpaired : l.TakeProfitPaired) : r.config.validateTakeProfit = .ok () := by
  unfold StoredLadders.TakeProfitPaired at hpaired
  have hsingle : ∀ level : ℚ, 1 ≤ level → level ≤ 1000 → LevelsValid [level] := by
    intro level hlow hhigh
    exact ⟨by simp, by simp [takeProfitMaxSteps], by simp [hlow, hhigh], by simp [windows]⟩
  have hlevels : LevelsValid r.config.takeProfitLevelsPct ∧
      r.config.takeProfitLevelsPct.length = (l.takeProfitLevelsPct.map List.length).getD 1 := by
    simp only [StoredLadders.config, h.levels]
    cases hstored : l.takeProfitLevelsPct with
    | some levels => exact ⟨hvalid.levels levels hstored, rfl⟩
    | none =>
      cases l.roiTargetPercent with
      | none => exact ⟨hsingle 20 (by norm_num) (by norm_num), rfl⟩
      | some target =>
        obtain ⟨hlow, hhigh⟩ := clamp_mem target (by norm_num : (1 : ℚ) ≤ 1000)
        exact ⟨hsingle _ hlow hhigh, rfl⟩
  have hwhole : SharesValid [100] :=
    ⟨by norm_num, by norm_num [takeProfitShareSumTolerancePct]⟩
  have hshares : SharesValid r.config.takeProfitSellPct ∧
      r.config.takeProfitSellPct.length = (l.takeProfitSellPct.map List.length).getD 1 := by
    simp only [StoredLadders.config]
    rcases h.shares with heq | ⟨hnone, hsome⟩
    · rw [heq]
      cases hstored : l.takeProfitSellPct with
      | some shares => exact ⟨hvalid.shares shares hstored, rfl⟩
      | none => exact ⟨hwhole, rfl⟩
    · rw [hsome, hnone]
      exact ⟨hwhole, rfl⟩
  exact validateTakeProfit_ok hlevels.1 hshares.1 (by rw [hshares.2, hlevels.2, hpaired])

/-- Built from the retired rule, and left on, the ladder adds no sooner, no more and no more often
than it did. -/
theorem migrated_spends_no_more (h : Migrated l r) (hon : r.config.dcaEnabled = true) :
    (l.dcaLevelsPct = none → ∀ drop ∈ r.config.dcaLevelsPct, drop ≤ l.legacyThreshold) ∧
      (l.dcaSizeMultipliers = none →
        ∀ size ∈ r.config.dcaSizeMultipliers, size ≤ legacyDcaMultiple l.legacySize) ∧
      (l.dcaLevelsPct = none → l.dcaSizeMultipliers = none →
        (r.config.dcaLevelsPct.length : ℚ) ≤ l.legacyAdds) := by
  have henabled : r.dcaEnabled = some true := by
    simp only [StoredLadders.config] at hon
    cases hstored : r.dcaEnabled with
    | none => simp [hstored] at hon
    | some on => simpa [hstored] using hon
  simp only [StoredLadders.config]
  refine ⟨fun hdrops => ?_, fun hsizes => ?_, fun hdrops hsizes => ?_⟩
  · by_cases hbuilt : l.dropBuilt
    · obtain ⟨steps, -, hlist, hswitch⟩ := h.dropsBuilt hdrops hbuilt
      rw [hlist, Option.getD_some]
      intro drop hdrop
      obtain ⟨-, rfl⟩ := List.mem_replicate.mp hdrop
      exact (hswitch henabled).2
    · have hthreshold : l.legacyThreshold = -10 := by
        unfold StoredLadders.dropBuilt at hbuilt
        have hnone : l.dcaThresholdPct = none := by simpa using (not_or.mp hbuilt).1
        simp [StoredLadders.legacyThreshold, hnone, legacyDcaThresholdDefault]
      rw [h.dropsAbsent hdrops hbuilt, hthreshold]
      simp
  · by_cases hbuilt : l.sizeBuilt
    · obtain ⟨steps, -, hlist, hswitch⟩ := h.sizesBuilt hsizes hbuilt
      rw [hlist, Option.getD_some]
      intro size hsize
      obtain ⟨-, rfl⟩ := List.mem_replicate.mp hsize
      exact (hswitch henabled).2
    · have hsize : legacyDcaMultiple l.legacySize = 1 / 2 := by
        unfold StoredLadders.sizeBuilt at hbuilt
        have hnone : l.dcaSizePercentage = none := by simpa using (not_or.mp hbuilt).1
        norm_num [StoredLadders.legacySize, hnone, legacyDcaSizePercentageDefault,
          legacyDcaMultiple]
      rw [h.sizesAbsent hsizes hbuilt, hsize]
      simp
  · by_cases hbuilt : l.dropBuilt
    · obtain ⟨steps, hsteps, hlist, hswitch⟩ := h.dropsBuilt hdrops hbuilt
      have hsome := (hswitch henabled).1
      rw [hlist, hsizes, StoredLadders.itemsBeside_none, Option.getD_some, List.length_replicate,
        max_eq_left (by omega)]
      exact (StoredLadders.steps_spec hsteps).2.1
    · have hcount : l.dcaMaxCount = none := by
        unfold StoredLadders.dropBuilt at hbuilt
        simpa using (not_or.mp hbuilt).2
      rw [h.dropsAbsent hdrops hbuilt]
      simp [StoredLadders.legacyAdds, hcount, legacyDcaCountDefault]

end Migrated

theorem basisOfName_basisName (basis : DcaMeasureFrom) :
    basisOfName (basisName basis) = some basis := by
  cases basis <;> decide +kernel

/-- The ladders that a document loads as, once migrated. -/
def migratedConfig (doc : Document) : Option TraderConfig :=
  (relocateLegacyLayout doc).toOption.bind loadLadders

/-- Lists that are valid by themselves, beside the retired keys: shares of another length than the
one level built, equal drops measured from the first entry, and a step for each stored size where
the retired rule added once. -/
theorem migrated_ladders_clash :
    let sharesBesideOneLevel : StoredLadders :=
      { roiTargetPercent := some 15, takeProfitSellPct := some [30, 30, 40] }
    let equalDropsFromFirstEntry : StoredLadders :=
      { dcaThresholdPct := some (-10), dcaMeasureFrom := some "first_entry" }
    let sizesBesideOneAdd : StoredLadders :=
      { dcaThresholdPct := some (-10), dcaMaxCount := some 1, dcaEnabled := some true,
        dcaSizeMultipliers := some [1, 1, 1] }
    (migratedConfig sharesBesideOneLevel.doc).map TraderConfig.validateTakeProfit =
        some (.error "trader.take_profit_sell_pct must hold one share per take-profit level") ∧
      (migratedConfig equalDropsFromFirstEntry.doc).map TraderConfig.validateDca =
        some (.error ("trader.dca_levels_pct must reach a deeper drop at every step when measured "
          ++
          "from the first entry")) ∧
      (migratedConfig sizesBesideOneAdd.doc).map (fun config =>
        (config.dcaEnabled, config.dcaLevelsPct)) = some (true, [-10, -10, -10]) := by
  decide +kernel

/-- A document whose ladder lists are valid by themselves loads, once migrated, as ladders that pass
validation: where the lists of a ladder are stored in pairs, built beside one another or stand
beside a default of their length, and where drops measured from the first entry are stored or a
single step. Unless automatic adds are off, built drops are no higher than the retired threshold,
built sizes no larger than the retired size, and a ladder of both has no more steps than the retired
count. -/
theorem migrated_ladders_valid {l : StoredLadders} (hvalid : l.ListsValid) {doc : Document}
    (hrun : relocateLegacyLayout l.doc = .ok doc) :
    ∃ config, loadLadders doc = some config ∧
      (l.TakeProfitPaired → config.validateTakeProfit = .ok ()) ∧
      (l.DcaPaired → l.BasisAllows → config.validateDca = .ok ()) ∧
      (config.dcaEnabled = true →
        (l.dcaLevelsPct = none → ∀ drop ∈ config.dcaLevelsPct, drop ≤ l.legacyThreshold) ∧
        (l.dcaSizeMultipliers = none →
          ∀ size ∈ config.dcaSizeMultipliers, size ≤ legacyDcaMultiple l.legacySize) ∧
        (l.dcaLevelsPct = none → l.dcaSizeMultipliers = none →
          (config.dcaLevelsPct.length : ℚ) ≤ l.legacyAdds)) := by
  rw [StoredLadders.relocate_doc] at hrun
  obtain ⟨r, hr, rfl⟩ := Library.map_eq_ok.mp hrun
  have h := migrated_of_relocated hr
  have hbasis : r.basis = l.basis := by
    change (r.dcaMeasureFrom.bind basisOfName).getD .average = l.basis
    rw [h.basis]
    cases hname : l.dcaMeasureFrom with
    | none => simp [StoredLadders.basis, hname]
    | some name => rw [Option.map_some, Option.bind_some, basisOfName_basisName, Option.getD_some]
  refine ⟨r.config, StoredLadders.loadLadders_doc ?_, migrated_takeProfit_valid h hvalid, ?_,
    migrated_spends_no_more h⟩
  · rw [hbasis, h.basis, Option.map_map]
    rfl
  · intro hpaired hallows
    apply validateDca_ok
    · simp only [StoredLadders.config, hbasis]
      exact migrated_drops_valid h hvalid hallows
    · exact migrated_sizes_valid h hvalid
    · exact migrated_dca_paired h hvalid hpaired

/-- The retired defaults, with a threshold of twelve percent and three adds, which stay on. -/
theorem migrated_ladders_valid_three_adds :
    let l : StoredLadders :=
      { dcaThresholdPct := some (-12), dcaMaxCount := some 3, dcaEnabled := some true }
    ∃ doc config, relocateLegacyLayout l.doc = .ok doc ∧ loadLadders doc = some config ∧
      config.validateTakeProfit = .ok () ∧ config.validateDca = .ok () ∧
      config.dcaEnabled = true ∧ (∀ drop ∈ config.dcaLevelsPct, drop ≤ l.legacyThreshold) ∧
      (∀ size ∈ config.dcaSizeMultipliers, size ≤ legacyDcaMultiple l.legacySize) ∧
      (config.dcaLevelsPct.length : ℚ) ≤ l.legacyAdds := by
  intro l
  have hvalid : l.ListsValid := by
    constructor <;> simp [l]
  have henabled : ((relocateLegacyLayout l.doc).toOption.bind loadLadders).map
      (·.dcaEnabled) = some true := by decide +kernel
  cases hrun : relocateLegacyLayout l.doc with
  | error e => simp [hrun, Except.toOption] at henabled
  | ok doc =>
    obtain ⟨config, hconfig, htakeProfit, hdca, hspends⟩ := migrated_ladders_valid hvalid hrun
    have hon : config.dcaEnabled = true := by
      simpa [hrun, Except.toOption, hconfig] using henabled
    obtain ⟨hdrops, hsizes, hadds⟩ := hspends hon
    refine ⟨doc, config, rfl, hconfig, htakeProfit rfl, hdca trivial ?_, hon, hdrops rfl,
      hsizes rfl, hadds rfl rfl⟩
    intro hfirst
    simp [StoredLadders.basis, l] at hfirst

end ScreenerBot.Config
