import ScreenerBot.Trader.Ladders

/-!
A take-profit ladder sold step by step, each sale sized on what the sale before it left.

`held - total * left / 100` is what truncation has kept back so far: no step lowers it below zero,
and each raises it by less than one unit.
-/
namespace ScreenerBot.Trader

/-- `calculate_partial_amount` over exact rationals: the share, truncated to whole units. -/
def exactPartialAmount (totalAmount : ℕ) (percentage : ℚ) : ℕ :=
  if totalAmount = 0 ∨ percentage ≤ 0 then 0
  else if 100 ≤ percentage then totalAmount
  else min ⌊totalAmount * percentage / 100⌋₊ totalAmount

/-- A position that only its ladder sells. -/
structure LadderHolding where
  held : ℕ
  taken : ℕ
  closed : Bool
  sales : List (ℕ × ℕ)
  deriving DecidableEq

namespace LadderHolding

def opened (amount : ℕ) : LadderHolding := ⟨amount, 0, false, []⟩

def sold (s : LadderHolding) : ℕ := (s.sales.map Prod.snd).sum

/-- The sale of the step due: a share of what is held, or all of it. -/
def sell (s : LadderHolding) : Option ℚ → LadderHolding
  | some share =>
    let amount := exactPartialAmount s.held share
    { s with held := s.held - amount, taken := s.taken + 1, sales := s.sales ++
      [(s.taken, amount)] }
  | none => ⟨0, s.taken + 1, true, s.sales ++ [(s.taken, s.held)]⟩

/-- One evaluation of the ladder, at a mark. -/
def evaluate (policy : TakeProfitPolicy) (entryPrice : ℚ) (s : LadderHolding) (mark : ℚ) :
    Except RuleError LadderHolding :=
  if s.closed then .ok s
  else (takeProfitStep entryPrice mark s.taken policy).map fun due => (due.map s.sell).getD s

end LadderHolding

/-- The share of the opened position that the first steps of a ladder sell. -/
def soldShare (shares : List ℚ) (steps : ℕ) : ℚ := (shares.take steps).sum

/-- What keeps of a ladder while it is sold. -/
structure SoldInStep (shares : List ℚ) (amount : ℕ) (s : LadderHolding) : Prop where
  taken : s.taken ≤ shares.length
  steps : s.sales.map Prod.fst = List.range s.taken
  accounted : s.held + s.sold = amount
  left : s.closed = false → 0 < 100 - soldShare shares s.taken
  keptBack : s.closed = false →
    0 ≤ (s.held : ℚ) - amount * (100 - soldShare shares s.taken) / 100 ∧
      (s.held : ℚ) - amount * (100 - soldShare shares s.taken) / 100 ≤ s.taken
  ended : s.closed = true → s.held = 0 ∧ s.taken = shares.length ∧
    100 - soldShare shares s.taken ≤
      fullExitTolerancePct / 100 * (100 - soldShare shares (s.taken - 1))

section Shares

variable {shares : List ℚ}

theorem soldShare_succ {steps : ℕ} {share : ℚ} (h : shares[steps]? = some share) :
    soldShare shares (steps + 1) = soldShare shares steps + share := by
  unfold soldShare
  rw [List.take_add_one, h]
  simp

theorem soldShare_le_sum (hpos : ∀ share ∈ shares, 5 ≤ share) (steps : ℕ) :
    soldShare shares steps ≤ shares.sum := by
  have hrest : 0 ≤ (shares.drop steps).sum := by
    apply List.sum_nonneg
    intro share hshare
    linarith [hpos share (List.mem_of_mem_drop hshare)]
  have hsum := List.sum_take_add_sum_drop shares steps
  unfold soldShare
  linarith

theorem soldShare_nonneg (hpos : ∀ share ∈ shares, 5 ≤ share) (steps : ℕ) :
    0 ≤ soldShare shares steps := by
  apply List.sum_nonneg
  intro share hshare
  linarith [hpos share (List.mem_of_mem_take hshare)]

/-- Only the last step can come near everything that is left. -/
theorem last_of_near_all (hpos : ∀ share ∈ shares, 5 ≤ share)
    (hsum : shares.sum ≤ 100 + takeProfitShareSumTolerancePct) {steps : ℕ} {share : ℚ}
    (hshare : shares[steps]? = some share)
    (hnear : 100 - soldShare shares (steps + 1) ≤
      fullExitTolerancePct / 100 * (100 - soldShare shares steps)) :
    steps + 1 = shares.length := by
  obtain ⟨hlt, -⟩ := List.getElem?_eq_some_iff.mp hshare
  by_contra hlast
  have hmore : steps + 1 < shares.length := by omega
  have hnext : shares[steps + 1]? = some shares[steps + 1] := List.getElem?_eq_getElem hmore
  have hfive := hpos _ (List.getElem_mem hmore)
  have htwo := soldShare_succ hnext
  have hall := soldShare_le_sum hpos (steps + 1 + 1)
  have hnonneg := soldShare_nonneg hpos steps
  norm_num [takeProfitShareSumTolerancePct, fullExitTolerancePct] at hsum hnear
  linarith

/-- A step that is due finds something left to sell. -/
theorem left_pos (hpos : ∀ share ∈ shares, 5 ≤ share)
    (hsum : shares.sum ≤ 100 + takeProfitShareSumTolerancePct) {steps : ℕ} {share : ℚ}
    (hshare : shares[steps]? = some share) : 0 < 100 - soldShare shares steps := by
  have hfive := hpos share (List.mem_of_getElem? hshare)
  have hnext := soldShare_succ hshare
  have hall := soldShare_le_sum hpos (steps + 1)
  norm_num [takeProfitShareSumTolerancePct] at hsum
  linarith

end Shares

/-- A ladder whose step finds something left waits, or asks for its share of what is left. -/
theorem takeProfitStep_cases {policy : TakeProfitPolicy} {shares : List ℚ}
    (hshares : policy.levels.map TakeProfitLevel.sellPct = shares)
    (hpos : ∀ share ∈ shares, 5 ≤ share)
    (hsum : shares.sum ≤ 100 + takeProfitShareSumTolerancePct) (entryPrice mark : ℚ) (taken : ℕ) :
    takeProfitStep entryPrice mark taken policy = .ok none ∨
      ∃ share, shares[taken]? = some share ∧
        takeProfitStep entryPrice mark taken policy =
          .ok (some (if share / (100 - soldShare shares taken) * 100 < 100 - fullExitTolerancePct
            then some (share / (100 - soldShare shares taken) * 100) else none)) := by
  unfold takeProfitStep
  split
  · exact .inl rfl
  · cases hstep : policy.levels[taken]? with
    | none => exact .inl rfl
    | some step =>
      have hshare : shares[taken]? = some step.sellPct := by
        rw [← hshares, List.getElem?_map, hstep]
        rfl
      have hleft := left_pos hpos hsum hshare
      have hfive := hpos _ (List.mem_of_getElem? hshare)
      simp only
      split
      · exact .inl rfl
      · refine .inr ⟨step.sellPct, hshare, ?_⟩
        rw [List.map_take, hshares, ← soldShare, if_neg]
        rw [not_or, not_le, not_le]
        exact ⟨hleft, by linarith⟩

theorem exactPartialAmount_spec (totalAmount : ℕ) {percentage : ℚ} (hpos : 0 < percentage)
    (hpart : percentage < 100) :
    (exactPartialAmount totalAmount percentage : ℚ) ≤ totalAmount * percentage / 100 ∧
      (totalAmount : ℚ) * percentage / 100 < exactPartialAmount totalAmount percentage + 1 ∧
      exactPartialAmount totalAmount percentage ≤ totalAmount := by
  unfold exactPartialAmount
  by_cases hzero : totalAmount = 0
  · simp [hzero]
  · have hexact : (0 : ℚ) ≤ totalAmount * percentage / 100 := by positivity
    have hle : (totalAmount : ℚ) * percentage / 100 ≤ totalAmount := by
      rw [div_le_iff₀ (by norm_num)]
      exact mul_le_mul_of_nonneg_left hpart.le (by positivity)
    have hfloor : ⌊(totalAmount : ℚ) * percentage / 100⌋₊ ≤ totalAmount :=
      Nat.floor_le_of_le hle
    rw [if_neg (by simp [hzero, hpos]), if_neg (not_le.mpr hpart), min_eq_left hfloor]
    exact ⟨Nat.floor_le hexact, Nat.lt_floor_add_one _, hfloor⟩

theorem opened_soldInStep (shares : List ℚ) (amount : ℕ) :
    SoldInStep shares amount (.opened amount) := by
  constructor <;> simp [LadderHolding.opened, LadderHolding.sold, soldShare]

section Sale

variable {shares : List ℚ} {amount : ℕ} {s : LadderHolding} {share : ℚ}

/-- A partial sale keeps back at most one unit more. -/
theorem SoldInStep.sellPart (h : SoldInStep shares amount s) (hopen : s.closed = false)
    (hshare : shares[s.taken]? = some share) (hfive : 5 ≤ share)
    (hpart : share / (100 - soldShare shares s.taken) * 100 < 100 - fullExitTolerancePct) :
    SoldInStep shares amount (s.sell (some (share / (100 - soldShare shares s.taken) * 100))) := by
  have hleft := h.left hopen
  obtain ⟨hkeptLow, hkeptHigh⟩ := h.keptBack hopen
  set left := 100 - soldShare shares s.taken with hleftDef
  obtain ⟨hlt, -⟩ := List.getElem?_eq_some_iff.mp hshare
  have hnext : 100 - soldShare shares (s.taken + 1) = left - share := by
    rw [soldShare_succ hshare, hleftDef]
    ring
  have hratio : 0 < share / left := by positivity
  have hratioLt : share / left < 1 := by
    norm_num [fullExitTolerancePct] at hpart
    linarith
  have hbelow : share < left := (div_lt_one hleft).mp hratioLt
  have hpercentage : 0 < share / left * 100 := by positivity
  obtain ⟨hsoldLe, hsoldGt, hsoldHeld⟩ := exactPartialAmount_spec s.held hpercentage
    (hpart.trans (by norm_num [fullExitTolerancePct]))
  set part := exactPartialAmount s.held (share / left * 100) with hpartDef
  have hcast : ((s.held - part : ℕ) : ℚ) = s.held - part := Nat.cast_sub hsoldHeld
  -- The part is the share of the opened amount, and of what was kept back.
  have hsplit : (s.held : ℚ) * (share / left * 100) / 100 =
      amount * share / 100 + (s.held - amount * left / 100) * (share / left) := by
    field_simp
    ring
  have hkeptShare : (s.held - amount * left / 100 : ℚ) * (share / left) ≤
      s.held - amount * left / 100 := mul_le_of_le_one_right hkeptLow hratioLt.le
  have hkeptNonneg : 0 ≤ (s.held - amount * left / 100 : ℚ) * (share / left) :=
    mul_nonneg hkeptLow hratio.le
  rw [hsplit] at hsoldLe hsoldGt
  constructor
  · exact hlt
  · simp [LadderHolding.sell, h.steps, List.range_succ]
  · have := h.accounted
    simp only [LadderHolding.sold, LadderHolding.sell, List.map_append, List.map_cons,
      List.map_nil, List.sum_append, List.sum_cons, List.sum_nil] at this ⊢
    omega
  · intro _
    simp only [LadderHolding.sell, hnext]
    linarith
  · intro _
    simp only [LadderHolding.sell, ← hpartDef, hcast, hnext]
    push_cast
    constructor
    · linarith
    · linarith
  · intro hclosed
    simp [LadderHolding.sell, hopen] at hclosed

/-- A step near everything that is left is the last one, and sells all that is held. -/
theorem SoldInStep.sellAll (h : SoldInStep shares amount s) (hopen : s.closed = false)
    (hpos : ∀ share ∈ shares, 5 ≤ share)
    (hsum : shares.sum ≤ 100 + takeProfitShareSumTolerancePct)
    (hshare : shares[s.taken]? = some share)
    (hall : ¬ share / (100 - soldShare shares s.taken) * 100 < 100 - fullExitTolerancePct) :
    SoldInStep shares amount (s.sell none) := by
  have hleft := h.left hopen
  have hnear : 100 - soldShare shares (s.taken + 1) ≤
      fullExitTolerancePct / 100 * (100 - soldShare shares s.taken) := by
    rw [soldShare_succ hshare]
    rw [not_lt, div_mul_eq_mul_div, le_div_iff₀ hleft] at hall
    linarith
  have hlast := last_of_near_all hpos hsum hshare hnear
  constructor
  · exact hlast.le
  · simp [LadderHolding.sell, h.steps, List.range_succ]
  · have := h.accounted
    simp only [LadderHolding.sold, LadderHolding.sell, List.map_append, List.map_cons,
      List.map_nil, List.sum_append, List.sum_cons, List.sum_nil] at this ⊢
    omega
  · intro hclosed
    simp [LadderHolding.sell] at hclosed
  · intro hclosed
    simp [LadderHolding.sell] at hclosed
  · intro _
    exact ⟨rfl, hlast, by simpa [LadderHolding.sell] using hnear⟩

theorem SoldInStep.evaluate {policy : TakeProfitPolicy} (h : SoldInStep shares amount s)
    (hshares : policy.levels.map TakeProfitLevel.sellPct = shares)
    (hpos : ∀ share ∈ shares, 5 ≤ share)
    (hsum : shares.sum ≤ 100 + takeProfitShareSumTolerancePct) (entryPrice mark : ℚ) :
    ∃ s', s.evaluate policy entryPrice mark = .ok s' ∧ SoldInStep shares amount s' := by
  unfold LadderHolding.evaluate
  cases hopen : s.closed with
  | true => exact ⟨s, rfl, h⟩
  | false =>
    rcases takeProfitStep_cases hshares hpos hsum entryPrice mark s.taken with
      hwait | ⟨share, hshare, hdue⟩
    · exact ⟨s, by simp [hwait, Except.map], h⟩
    · rw [hdue]
      by_cases hpart : share / (100 - soldShare shares s.taken) * 100 < 100 - fullExitTolerancePct
      · refine ⟨_, by simp only [hpart, if_true, Bool.false_eq_true, if_false, Except.map]; rfl, ?_⟩
        exact h.sellPart hopen hshare (hpos share (List.mem_of_getElem? hshare)) hpart
      · refine ⟨_, by simp only [hpart, Bool.false_eq_true, if_false, Except.map]; rfl, ?_⟩
        exact h.sellAll hopen hpos hsum hshare hpart

theorem SoldInStep.run (policy : TakeProfitPolicy) (h : SoldInStep shares amount s)
    (hshares : policy.levels.map TakeProfitLevel.sellPct = shares)
    (hpos : ∀ share ∈ shares, 5 ≤ share)
    (hsum : shares.sum ≤ 100 + takeProfitShareSumTolerancePct) (entryPrice : ℚ)
    (marks : List ℚ) :
    ∃ s', marks.foldlM (LadderHolding.evaluate policy entryPrice) s = .ok s' ∧
      SoldInStep shares amount s' := by
  induction marks generalizing s with
  | nil => exact ⟨s, rfl, h⟩
  | cons mark rest ih =>
    obtain ⟨next, hnext, hkept⟩ := h.evaluate hshares hpos hsum entryPrice mark
    obtain ⟨last, hlast, hkeptLast⟩ := ih hkept
    refine ⟨last, ?_, hkeptLast⟩
    rw [List.foldlM_cons, hnext]
    exact hlast

end Sale

/-- A validated ladder, evaluated at any marks. -/
def ladderRun (config : TraderConfig) (entryPrice : ℚ) (amount : ℕ) (marks : List ℚ) :
    Except RuleError LadderHolding :=
  marks.foldlM (LadderHolding.evaluate config.takeProfit entryPrice) (.opened amount)

/-- A last step that is not all that is left, but near enough to it, sells more than its share; and
shares that pass the whole within the tolerance sell less than they add up to. -/
theorem tolerances_leave_the_shares :
    (¬ ∀ (config : TraderConfig) (entryPrice : ℚ) (amount : ℕ) (marks : List ℚ)
      (s : LadderHolding), config.validateTakeProfit = .ok () →
      ladderRun config entryPrice amount marks = .ok s →
      (s.sold : ℚ) ≤ amount * soldShare config.takeProfitSellPct s.taken / 100) ∧
    ¬ ∀ (config : TraderConfig) (entryPrice : ℚ) (amount : ℕ) (marks : List ℚ)
      (s : LadderHolding), config.validateTakeProfit = .ok () →
      ladderRun config entryPrice amount marks = .ok s →
      (amount * soldShare config.takeProfitSellPct s.taken / 100 - s.taken : ℚ) ≤ s.sold := by
  constructor
  · intro h
    have hsold := h { takeProfitSellPct := [999999999 / 10 ^ 7] } 1 10 [2] ⟨0, 1, true, [(0, 10)]⟩
      (by decide +kernel) (by decide +kernel)
    revert hsold
    decide +kernel
  · intro h
    have hsold := h { takeProfitLevelsPct := [20, 50], takeProfitSellPct := [50,
      50 + 1 / 10 ^ 9] } 1
      (10 ^ 12) [2, 2] ⟨0, 2, true, [(0, 5 * 10 ^ 11), (1, 5 * 10 ^ 11)]⟩
      (by decide +kernel) (by decide +kernel)
    revert hsold
    decide +kernel

/-- A validated ladder never fails and sells each step once, in order. After each of its sales the
units sold are the shares of the opened amount, less at most one unit a step and never more: except
that shares past the whole count as the whole, and that a last step which comes near everything that
is left sells it. A ladder of the whole ends with nothing. -/
theorem ladder_sells_its_shares (config : TraderConfig)
    (hvalid : config.validateTakeProfit = .ok ())
    (entryPrice : ℚ) (amount : ℕ) (marks : List ℚ) :
    ∃ s, ladderRun config entryPrice amount marks = .ok s ∧
      s.sales.map Prod.fst = List.range s.taken ∧
      s.taken ≤ config.takeProfitLevelsPct.length ∧
      s.held + s.sold = amount ∧
      (amount * min (soldShare config.takeProfitSellPct s.taken) 100 / 100 - s.taken : ℚ) ≤ s.sold ∧
      ((s.sold : ℚ) ≤ amount * soldShare config.takeProfitSellPct s.taken / 100 ∨
        s.sold = amount ∧ s.taken = config.takeProfitLevelsPct.length ∧
          100 - soldShare config.takeProfitSellPct s.taken ≤
            fullExitTolerancePct / 100 *
              (100 - soldShare config.takeProfitSellPct (s.taken - 1))) ∧
      (100 ≤ config.takeProfitSellPct.sum → s.taken = config.takeProfitLevelsPct.length →
        s.held = 0) := by
  have haccepted := TraderConfig.ladderAccepted_of_validate hvalid
  have hfive : ∀ share ∈ config.takeProfitSellPct, 5 ≤ share :=
    fun share hshare => (haccepted.shares share hshare).1
  obtain ⟨s, hrun, h⟩ := SoldInStep.run config.takeProfit
    (opened_soldInStep config.takeProfitSellPct amount)
    (TraderConfig.takeProfitLevels_sellPct haccepted) hfive
    haccepted.sum entryPrice marks
  have hlength := haccepted.paired
  have hcast : (s.held : ℚ) + s.sold = amount := by exact_mod_cast h.accounted
  refine ⟨s, hrun, h.steps, hlength ▸ h.taken, h.accounted, ?_⟩
  cases hclosed : s.closed with
  | true =>
    obtain ⟨hheld, htaken, hnear⟩ := h.ended hclosed
    have hsold : s.sold = amount := by
      have := h.accounted
      omega
    refine ⟨?_, .inr ⟨hsold, htaken.trans hlength, hnear⟩, fun _ _ => hheld⟩
    have hmin : (amount : ℚ) * min (soldShare config.takeProfitSellPct s.taken) 100 ≤
        amount * 100 := mul_le_mul_of_nonneg_left (min_le_right _ _) (by positivity)
    rw [hsold]
    linarith [(by positivity : (0 : ℚ) ≤ s.taken)]
  | false =>
    have hleft := h.left hclosed
    obtain ⟨hlow, hhigh⟩ := h.keptBack hclosed
    rw [min_eq_left (by linarith)]
    refine ⟨by linarith, .inl (by linarith), fun hwhole htaken => ?_⟩
    -- All of a ladder of the whole is sold only by closing.
    rw [htaken, ← hlength, soldShare, List.take_length] at hleft
    linarith

/-- A ladder of 30, 30 and 40, on 1001 units. -/
theorem ladder_sells_its_shares_of_1001 :
    let config : TraderConfig :=
      { takeProfitLevelsPct := [20, 50, 100], takeProfitSellPct := [30, 30, 40] }
    ladderRun config 1 1001 [2, 2] = .ok ⟨401, 2, false, [(0, 300), (1, 300)]⟩ ∧
      ∃ s, ladderRun config 1 1001 [2, 2, 2] = .ok s ∧
        (100 ≤ config.takeProfitSellPct.sum → s.taken = 3 → s.held = 0) := by
  intro config
  constructor
  · decide +kernel
  · obtain ⟨s, hrun, -, -, -, -, -, hempty⟩ :=
      ladder_sells_its_shares config (by decide +kernel) 1 1001 [2, 2, 2]
    exact ⟨s, hrun, hempty⟩

end ScreenerBot.Trader
