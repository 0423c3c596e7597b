import ScreenerBot.Ledger.Lifecycle

/-! What sales consumed of a round's basis, and the deltas that leave it consumed without one. -/
namespace ScreenerBot.Ledger
open Library

namespace Round

/-- Whether a leg can join the SOL basis of a round. -/
def takesQuote (r : Round) (quote : Option QuoteLeg) : Bool :=
  quote.any (·.asset == .sol) && r.quoteAsset != some .usd

/-- Whether a complete basis survives a delta: the balances before and after it are the ones
carried and computed, every sum is in range, tokens acquired are paid for in SOL, and tokens
disposed of were held. -/
def keepsBasis (r : Round) (group : List SubjectAssetDelta) (d : SubjectAssetDelta) : Bool :=
  d.before == some r.balance &&
  match checkedI128 (max r.balance 0 + d.deltaRaw), checkedI128 (-d.deltaRaw) with
  | some moved, some _ =>
    d.after == some (max moved 0) &&
    if 0 < d.deltaRaw then
      d.kind == .trade && (checkedI128 (r.totalAcquired + d.deltaRaw)).isSome &&
        r.takesQuote (quoteFor group d.mint true)
    else
      decide (0 < max r.balance 0) &&
        (checkedI128 (r.totalDisposed + disposedRaw d (max r.balance 0))).isSome
  | _, _ => false

/-- Whether a delta is a sale for SOL that consumes some of the cost held. -/
def takesCost (r : Round) (group : List SubjectAssetDelta) (d : SubjectAssetDelta) : Bool :=
  let before := max (d.before.getD r.balance) 0
  (checkedI128 (before + d.deltaRaw)).isSome && (checkedI128 (-d.deltaRaw)).isSome &&
    decide (d.deltaRaw < 0) && d.kind == .trade && r.takesQuote (quoteFor group d.mint false) &&
    decide (0 < before) && decide (r.heldCost.cost ≠ 0)

/-- Cost was consumed by the round's sales, the delta's own included, and the basis is not complete
or does not survive the delta. -/
def StrandsCost (r : Round) (group : List SubjectAssetDelta) (d : SubjectAssetDelta) : Prop :=
  (r.realizedCost ≠ 0 ∨ r.takesCost group d = true) ∧
    ¬(r.basisComplete = true ∧ r.keepsBasis group d = true)

instance (r : Round) (group : List SubjectAssetDelta) (d : SubjectAssetDelta) :
    Decidable (r.StrandsCost group d) :=
  inferInstanceAs (Decidable (_ ∧ ¬_))

section Basis

variable {r : Round} {group : List SubjectAssetDelta} {d : SubjectAssetDelta}

theorem acceptQuote_basisComplete (leg : QuoteLeg) : (r.acceptQuote leg).1.basisComplete =
    (r.basisComplete && r.takesQuote (some leg)) := by
  obtain ⟨asset, amount⟩ := leg
  cases hq : r.quoteAsset with
  | none => cases asset <;> simp [acceptQuote, acceptSol, takesQuote, hq]
  | some existing =>
    cases existing <;> cases asset <;> simp [acceptQuote, acceptSol, takesQuote, hq]

theorem priceAcquisition_basisComplete {quote : Option QuoteLeg} {amount : ℚ} {after : ℤ} :
    (r.priceAcquisition quote true amount after).1.basisComplete =
      (r.basisComplete && r.takesQuote quote) := by
  cases quote with
  | none => simp [priceAcquisition, takesQuote]
  | some leg =>
    rw [← acceptQuote_basisComplete]
    unfold priceAcquisition
    dsimp only
    split <;> rfl

theorem applyAcquisition_basisComplete {before after : ℤ} :
    (r.applyAcquisition group d before after).basisComplete = (r.basisComplete &&
      (d.kind == .trade && (checkedI128 (r.totalAcquired + d.deltaRaw)).isSome &&
        r.takesQuote (quoteFor group d.mint true))) := by
  cases htraded : d.kind == .trade with
  | false =>
    have hlost : ∀ r' : Round, r'.basisComplete = false → ∀ amount : ℚ,
        (r'.priceAcquisition none false amount after).1.basisComplete = false := fun r' h _ => h
    have hcounted : (((r.countEntry false).addAcquired d.deltaRaw).stampEntry d
        (acquisitionKind d before) before).basisComplete = false := by
      simp only [countEntry, addAcquired, stampEntry, Bool.false_eq_true, if_false]
      split <;> rfl
    simp only [applyAcquisition, htraded, Bool.false_eq_true, if_false, record,
      Bool.false_and, Bool.and_false]
    exact hlost _ hcounted _
  | true =>
    simp only [applyAcquisition, htraded, if_true, record, Bool.true_and]
    rw [priceAcquisition_basisComplete]
    cases hsum : checkedI128 (r.totalAcquired + d.deltaRaw) with
    | none => simp [countEntry, addAcquired, stampEntry, hsum, markHole]
    | some total => simp [countEntry, addAcquired, stampEntry, hsum, takesQuote]

theorem applyDisposal_basisComplete {before after : ℤ} :
    (r.applyDisposal group d before after).basisComplete = (r.basisComplete &&
      (decide (0 < before) && (checkedI128 (r.totalDisposed + disposedRaw d before)).isSome)) := by
  have hpriced : ∀ (r' : Round) (quote : Option QuoteLeg) (traded : Bool) (amount released : ℚ),
      (r'.priceDisposal quote traded amount released).1.basisComplete = r'.basisComplete := by
    intro r' quote traded amount released
    unfold priceDisposal
    split
    · split
      · split <;> rfl
      · rfl
    · rfl
  have hreleased : ∀ r' : Round, (r'.releaseBasis (disposedRaw d before) before).1.basisComplete =
      (r'.basisComplete && decide (0 < before)) := by
    intro r'
    unfold releaseBasis
    split
    next h => simp [h]
    next h => simp [h, markHole]
  have hdisposed : (((r.countExit (d.kind == .trade)).addDisposed
    (disposedRaw d before)).stampExit d
      (decide (after ≤ 0)) (d.kind == .trade)).basisComplete =
      (r.basisComplete && (checkedI128 (r.totalDisposed + disposedRaw d before)).isSome) := by
    have hcount : (r.countExit (d.kind == .trade)).basisComplete = r.basisComplete ∧
        (r.countExit (d.kind == .trade)).totalDisposed = r.totalDisposed := by
      unfold countExit
      split <;> exact ⟨rfl, rfl⟩
    simp only [stampExit, addDisposed, hcount.2]
    cases checkedI128 (r.totalDisposed + disposedRaw d before) with
    | none => simp [markHole]
    | some total => simpa using hcount.1
  simp only [applyDisposal, clearWhen, record]
  rw [hpriced, hreleased, hdisposed, Bool.and_assoc, Bool.and_comm (checkedI128 _).isSome]

/-- What folding a delta leaves of a complete basis. -/
theorem apply_basisComplete :
    (r.apply group d).basisComplete = (r.basisComplete && r.keepsBasis group d) := by
  have hlearned : (r.learnDecimals d).balance = r.balance ∧
      (r.learnDecimals d).basisComplete = r.basisComplete ∧
      (r.learnDecimals d).totalAcquired = r.totalAcquired ∧
      (r.learnDecimals d).totalDisposed = r.totalDisposed ∧
      (r.learnDecimals d).quoteAsset = r.quoteAsset := by
    unfold learnDecimals
    split <;> exact ⟨rfl, rfl, rfl, rfl, rfl⟩
  obtain ⟨hbalance, hbasis, hacquired, hdisposed, hquote⟩ := hlearned
  by_cases hbefore : d.before = some r.balance
  · -- the balance is the one carried
    have hreconciled : (r.learnDecimals d).reconcileBefore d = r.learnDecimals d := by
      simp [reconcileBefore, hbefore, hbalance]
    simp only [apply, hreconciled, hbalance, keepsBasis, hbefore, beq_self_eq_true, Bool.true_and]
    cases checkedI128 (max r.balance 0 + d.deltaRaw) with
    | none => simp [markHole]
    | some moved =>
      cases checkedI128 (-d.deltaRaw) with
      | none => simp [markHole]
      | some negated =>
        have hconfirmed : ((r.learnDecimals d).confirmAfter d (max moved 0)).basisComplete =
            (r.basisComplete && d.after == some (max moved 0)) := by
          by_cases hafter : d.after = some (max moved 0)
          · simp [confirmAfter, hafter, hbasis]
          · simp [confirmAfter, hafter, markHole]
        have hkept : ((r.learnDecimals d).confirmAfter d (max moved 0)).totalAcquired =
              r.totalAcquired ∧
            ((r.learnDecimals d).confirmAfter d (max moved 0)).totalDisposed = r.totalDisposed ∧
            ((r.learnDecimals d).confirmAfter d (max moved 0)).quoteAsset = r.quoteAsset := by
          unfold confirmAfter
          split <;> exact ⟨hacquired, hdisposed, hquote⟩
        simp only [settle, move]
        split
        · rw [applyAcquisition_basisComplete, hconfirmed, hkept.1]
          simp only [takesQuote, hkept.2.2, Bool.and_assoc]
        · rw [applyDisposal_basisComplete, hconfirmed, hkept.2.1]
          simp only [Bool.and_assoc]
  · -- a balance that was not carried is a hole
    have hlost : ((r.learnDecimals d).reconcileBefore d).basisComplete = false := by
      unfold reconcileBefore
      split
      · rfl
      next before hsome =>
        have hne : before ≠ r.balance := fun heq => hbefore (heq ▸ hsome)
        rw [hbalance, if_pos hne]
        rfl
    have hno : r.keepsBasis group d = false := by
      simp [keepsBasis, hbefore]
    rw [hno, Bool.and_false]
    unfold apply
    dsimp only
    split
    next =>
      have hconfirmed : ∀ computed : ℤ,
          (((r.learnDecimals d).reconcileBefore d).confirmAfter d computed).basisComplete =
            false := by
        intro computed
        unfold confirmAfter
        split
        · rfl
        · exact hlost
      simp only [settle, move]
      split
      · rw [applyAcquisition_basisComplete, hconfirmed, Bool.false_and]
      · rw [applyDisposal_basisComplete, hconfirmed, Bool.false_and]
    next => rfl

end Basis

section Cost

variable {r : Round} {group : List SubjectAssetDelta} {d : SubjectAssetDelta}

/-- What a round holds and consumed of its cost, and what priced it. -/
def costSide (r : Round) : HeldCost × ℚ × Option QuoteAsset × ℕ :=
  (r.heldCost, r.realizedCost, r.quoteAsset, r.entryCount)

theorem learnDecimals_costSide : (r.learnDecimals d).costSide = r.costSide := by
  unfold learnDecimals
  split <;> rfl

theorem reconcileBefore_costSide : (r.reconcileBefore d).costSide = r.costSide := by
  unfold reconcileBefore
  split
  · rfl
  · split <;> rfl

theorem confirmAfter_costSide {computed : ℤ} :
    (r.confirmAfter d computed).costSide = r.costSide := by
  unfold confirmAfter
  split <;> rfl

theorem countedExit_costSide {amountRaw : ℤ} {closing traded : Bool} :
    (((r.countExit traded).addDisposed amountRaw).stampExit d closing traded).costSide =
      r.costSide := by
  unfold countExit addDisposed
  cases traded with
  | false => simp only [Bool.false_eq_true, if_false]; split <;> rfl
  | true => simp only [if_true]; split <;> rfl

/-- What a round holds or consumed a cost of was bought for SOL. -/
def Priced (r : Round) : Prop :=
  (r.heldCost.cost ≠ 0 ∨ r.realizedCost ≠ 0) → r.quoteAsset = some .sol ∧ 0 < r.entryCount

theorem Priced.established (h : r.Priced) (hcost : r.realizedCost ≠ 0)
    (hb : r.basisComplete = true) :
    r.basisEstablished = true := by
  obtain ⟨hsol, hentry⟩ := h (.inr hcost)
  simp [basisEstablished, hb, hsol, hentry]

theorem Priced.of_costSide {r' : Round} (h : r.Priced) (hside : r'.costSide = r.costSide) :
    r'.Priced := by
  simp only [costSide, Prod.mk.injEq] at hside
  obtain ⟨hheld, hrealized, hquote, hentry⟩ := hside
  unfold Priced
  rw [hheld, hrealized, hquote, hentry]
  exact h

theorem acceptQuote_keeps (leg : QuoteLeg) :
    (r.acceptQuote leg).1.costSide =
      (r.heldCost, r.realizedCost, r.quoteAsset.or (some leg.asset), r.entryCount) ∧
    ((r.acceptQuote leg).2 = true → r.quoteAsset.or (some leg.asset) = some .sol) := by
  obtain ⟨asset, amount⟩ := leg
  cases hq : r.quoteAsset with
  | none => cases asset <;> simp [acceptQuote, acceptSol, costSide, hq]
  | some existing =>
    cases existing <;> cases asset <;> simp [acceptQuote, acceptSol, costSide, hq]

theorem Priced.priceAcquisition (h : r.Priced) (quote : Option QuoteLeg) (amount : ℚ) (after : ℤ)
    (hentry : 0 < r.entryCount) : (r.priceAcquisition quote true amount after).1.Priced ∧
      (r.priceAcquisition quote true amount after).1.realizedCost = r.realizedCost := by
  cases quote with
  | none => exact ⟨h, rfl⟩
  | some leg =>
    obtain ⟨hside, hsol⟩ := @acceptQuote_keeps r leg
    simp only [costSide, Prod.mk.injEq] at hside
    obtain ⟨hheld, hrealized, hquote, hcount⟩ := hside
    unfold Round.priceAcquisition
    dsimp only
    split
    next haccepted =>
      rw [Bool.and_eq_true] at haccepted
      exact ⟨fun _ => ⟨hquote.trans (hsol haccepted.1), hcount ▸ hentry⟩, hrealized⟩
    next =>
      refine ⟨fun hcost => ?_, hrealized⟩
      rw [hheld, hrealized] at hcost
      rw [hquote, (h hcost).1, hcount]
      exact ⟨rfl, hentry⟩

theorem Priced.applyAcquisition {before after : ℤ} (h : r.Priced) :
    (r.applyAcquisition group d before after).Priced ∧
      (r.applyAcquisition group d before after).realizedCost = r.realizedCost := by
  have hadded : ∀ r' : Round, (r'.addAcquired d.deltaRaw).costSide = r'.costSide := by
    intro r'
    unfold addAcquired
    split <;> rfl
  cases htraded : d.kind == .trade with
  | false =>
    have hcounted := hadded (r.countEntry false)
    simp only [Round.applyAcquisition, htraded, Bool.false_eq_true, if_false]
    exact ⟨h.of_costSide hcounted, congrArg (·.2.1) hcounted⟩
  | true =>
    have hcounted := hadded (r.countEntry true)
    simp only [Round.applyAcquisition, htraded, if_true]
    generalize hr' : ((r.countEntry true).addAcquired d.deltaRaw).stampEntry d
      (acquisitionKind d before) before = r'
    have hside : r'.costSide = (r.countEntry true).costSide := by
      rw [← hr']
      exact hcounted
    simp only [costSide, countEntry, if_true, Prod.mk.injEq] at hside
    obtain ⟨hheld, hrealized, hquote, hentry⟩ := hside
    have hpositive : 0 < r'.entryCount := by
      rw [hentry, saturatingAddU32]
      simp [u32Max]
    have hpriced : r'.Priced := by
      intro hcost
      rw [hheld, hrealized] at hcost
      exact ⟨hquote ▸ (h hcost).1, hpositive⟩
    obtain ⟨hpriced, hkept⟩ := hpriced.priceAcquisition (quoteFor group d.mint true)
      (toWholeUnits d.deltaRaw.natAbs r'.decimals) after hpositive
    exact ⟨hpriced, hkept.trans hrealized⟩

/-- What a disposal adds to the cost consumed: nothing, or some of a cost that is held. -/
theorem applyDisposal_realizedCost {before after : ℤ} (hheld : 0 ≤ r.heldCost.cost)
    (hdelta : d.deltaRaw < 0) :
    r.realizedCost ≤ (r.applyDisposal group d before after).realizedCost ∧
      ((r.applyDisposal group d before after).realizedCost ≠ r.realizedCost ↔
        (d.kind == .trade) = true ∧ r.takesQuote (quoteFor group d.mint false) = true ∧
          0 < before ∧ r.heldCost.cost ≠ 0) := by
  have hside := @countedExit_costSide r d (disposedRaw d before) (decide (after ≤ 0))
    (d.kind == .trade)
  simp only [applyDisposal, clearWhen, record]
  generalize ((r.countExit (d.kind == .trade)).addDisposed (disposedRaw d before)).stampExit d
    (decide (after ≤ 0)) (d.kind == .trade) = r' at hside ⊢
  simp only [costSide, Prod.mk.injEq] at hside
  obtain ⟨hcost, hrealized, hquote, -⟩ := hside
  have hreleased : 0 ≤ (r'.releaseBasis (disposedRaw d before) before).2 ∧
      ((r'.releaseBasis (disposedRaw d before) before).2 ≠ 0 ↔ 0 < before ∧
        r.heldCost.cost ≠ 0) := by
    unfold releaseBasis
    split
    next hpos =>
      have hfraction : (0 : ℚ) < max 0 (min ((disposedRaw d before : ℤ) / before : ℚ) 1) := by
        refine lt_max_of_lt_right (lt_min (div_pos ?_ (by exact_mod_cast hpos)) one_pos)
        rw [disposedRaw, if_pos hpos]
        exact_mod_cast lt_min (neg_pos.mpr hdelta) hpos
      simp only [HeldCost.release, hcost]
      refine ⟨mul_nonneg hheld hfraction.le, ?_⟩
      simp [hfraction.ne', hpos]
    next hpos => simp [hpos]
  have hpriced : ∀ (r'' : Round) (amount released : ℚ), r''.realizedCost = r.realizedCost →
      r''.quoteAsset = r.quoteAsset →
      (r''.priceDisposal (if d.kind == .trade then quoteFor group d.mint false else none)
        (d.kind == .trade) amount released).1.realizedCost = r.realizedCost +
        if (d.kind == .trade) = true ∧ r.takesQuote (quoteFor group d.mint false) = true then
          released else 0 := by
    intro r'' amount released hrealized hquote
    cases htraded : d.kind == .trade with
    | false => simp [priceDisposal, hrealized]
    | true =>
      simp only [priceDisposal, if_true, true_and]
      cases quoteFor group d.mint false with
      | none => simp [takesQuote, hrealized]
      | some leg =>
        by_cases htakes : leg.asset = .sol ∧ r.quoteAsset ≠ some .usd
        · simp [takesQuote, hquote, hrealized, htakes]
        · have hno : r.takesQuote (some leg) = false := by
            rw [not_and_or, not_not] at htakes
            rcases htakes with hasset | hasset <;> simp [takesQuote, hasset]
          simp [hno, hquote, hrealized, htakes]
  have hkept : (r'.releaseBasis (disposedRaw d before) before).1.realizedCost = r.realizedCost ∧
      (r'.releaseBasis (disposedRaw d before) before).1.quoteAsset = r.quoteAsset := by
    unfold releaseBasis
    split <;> exact ⟨hrealized, hquote⟩
  rw [hpriced _ _ _ hkept.1 hkept.2]
  split
  next htakes =>
    refine ⟨le_add_of_nonneg_right hreleased.1, ?_⟩
    rw [ne_eq, add_eq_left, ← ne_eq, hreleased.2]
    tauto
  next htakes =>
    refine ⟨by rw [add_zero], ?_⟩
    rw [add_zero]
    tauto

theorem Priced.applyDisposal {before after : ℤ} (h : r.Priced) (hheld : 0 ≤ r.heldCost.cost)
    (hdelta : d.deltaRaw < 0) : (r.applyDisposal group d before after).Priced := by
  have hrealized := (@applyDisposal_realizedCost r group d before after hheld hdelta).2
  have hside := @countedExit_costSide r d (disposedRaw d before) (decide (after ≤ 0))
    (d.kind == .trade)
  have hkept : (r.applyDisposal group d before after).quoteAsset = r.quoteAsset ∧
      (r.applyDisposal group d before after).entryCount = r.entryCount ∧
      (r.heldCost.cost = 0 → (r.applyDisposal group d before after).heldCost.cost = 0) := by
    simp only [Round.applyDisposal, clearWhen, record]
    generalize ((r.countExit (d.kind == .trade)).addDisposed (disposedRaw d before)).stampExit d
      (decide (after ≤ 0)) (d.kind == .trade) = r' at hside ⊢
    simp only [costSide, Prod.mk.injEq] at hside
    obtain ⟨hcost, -, hquote, hentry⟩ := hside
    have hreleased : (r'.releaseBasis (disposedRaw d before) before).1.quoteAsset = r.quoteAsset ∧
        (r'.releaseBasis (disposedRaw d before) before).1.entryCount = r.entryCount ∧
        (r.heldCost.cost = 0 →
          (r'.releaseBasis (disposedRaw d before) before).1.heldCost.cost = 0) := by
      unfold releaseBasis
      split
      · refine ⟨hquote, hentry, fun hzero => ?_⟩
        simp [HeldCost.release, hcost, hzero]
      · exact ⟨hquote, hentry, fun hzero => by rw [← hzero, ← hcost]; rfl⟩
    have hpriced : ∀ (r'' : Round) (quote : Option QuoteLeg) (traded : Bool) (amount released : ℚ),
        (r''.priceDisposal quote traded amount released).1.quoteAsset = r''.quoteAsset ∧
        (r''.priceDisposal quote traded amount released).1.entryCount = r''.entryCount ∧
        (r''.priceDisposal quote traded amount released).1.heldCost = r''.heldCost := by
      intro r'' quote traded amount released
      unfold priceDisposal
      split
      · split
        · split <;> exact ⟨rfl, rfl, rfl⟩
        · exact ⟨rfl, rfl, rfl⟩
      · exact ⟨rfl, rfl, rfl⟩
    refine ⟨(hpriced _ _ _ _ _).1.trans hreleased.1, (hpriced _ _ _ _ _).2.1.trans hreleased.2.1,
      fun hzero => ?_⟩
    split
    · rfl
    · rw [(hpriced _ _ _ _ _).2.2]
      exact hreleased.2.2 hzero
  intro hcost
  rw [hkept.1, hkept.2.1]
  by_contra hnot
  have hfree : r.heldCost.cost = 0 ∧ r.realizedCost = 0 := by
    by_contra hsome
    rw [not_and_or] at hsome
    exact hnot (h hsome)
  rcases hcost with hcost | hcost
  · exact hcost (hkept.2.2 hfree.1)
  · rw [← hfree.2] at hcost
    exact (hrealized.mp hcost).2.2.2 hfree.1

/-- A delta only ever adds to the cost consumed, and does where it is such a sale. -/
theorem Priced.apply (h : r.Priced) (hheld : 0 ≤ r.heldCost.cost) (hdelta : d.deltaRaw ≠ 0) :
    (r.apply group d).Priced ∧ r.realizedCost ≤ (r.apply group d).realizedCost ∧
      ((r.apply group d).realizedCost ≠ r.realizedCost ↔ r.takesCost group d = true) := by
  have hlearned := @learnDecimals_costSide r d
  have hreconciled := (@reconcileBefore_costSide (r.learnDecimals d) d).trans hlearned
  have hbalance : ((r.learnDecimals d).reconcileBefore d).balance = d.before.getD r.balance := by
    have hlearned : (r.learnDecimals d).balance = r.balance := by
      unfold learnDecimals
      split <;> rfl
    unfold reconcileBefore
    split
    next hnone => rw [hnone]; exact hlearned
    next before hsome =>
      rw [hsome]
      split
      · rfl
      next heq => exact (not_not.mp heq).symm
  unfold Round.apply takesCost
  dsimp only
  rw [hbalance]
  cases hmoved : checkedI128 (max (d.before.getD r.balance) 0 + d.deltaRaw) with
  | none =>
    have hmarked : ((r.learnDecimals d).reconcileBefore d).markHole.costSide = r.costSide :=
      hreconciled
    have hsame : ((r.learnDecimals d).reconcileBefore d).markHole.realizedCost = r.realizedCost :=
      congrArg (·.2.1) hmarked
    exact ⟨h.of_costSide hmarked, hsame.ge, by simp [hsame]⟩
  | some moved =>
    cases hnegated : checkedI128 (-d.deltaRaw) with
    | none =>
      have hmarked : ((r.learnDecimals d).reconcileBefore d).markHole.costSide = r.costSide :=
        hreconciled
      have hsame : ((r.learnDecimals d).reconcileBefore d).markHole.realizedCost = r.realizedCost :=
        congrArg (·.2.1) hmarked
      exact ⟨h.of_costSide hmarked, hsame.ge, by simp [hsame]⟩
    | some negated =>
      have hconfirmed := (@confirmAfter_costSide ((r.learnDecimals d).reconcileBefore d) d
        (max moved 0)).trans hreconciled
      dsimp only
      generalize ((r.learnDecimals d).reconcileBefore d).confirmAfter d (max moved 0) = r'
        at hconfirmed ⊢
      have hpriced := h.of_costSide hconfirmed
      simp only [costSide, Prod.mk.injEq] at hconfirmed
      obtain ⟨hcost, hrealized, hquote, -⟩ := hconfirmed
      have htakes : r'.takesQuote (quoteFor group d.mint false) =
          r.takesQuote (quoteFor group d.mint false) := by
        simp only [takesQuote, hquote]
      simp only [settle, move, ← hrealized, ← hcost, ← htakes]
      rw [← hcost] at hheld
      split
      next hpos =>
        obtain ⟨hpriced', hsame⟩ := @Priced.applyAcquisition r' group d
          (max (d.before.getD r.balance) 0) (d.after.getD (max moved 0)) hpriced
        refine ⟨hpriced', hsame.ge, ?_⟩
        have hneg : ¬ d.deltaRaw < 0 := not_lt.mpr hpos.le
        simp [hsame, hneg]
      next hpos =>
        have hneg : d.deltaRaw < 0 := lt_of_le_of_ne (not_lt.mp hpos) hdelta
        obtain ⟨hle, hne⟩ := @applyDisposal_realizedCost r' group d
          (max (d.before.getD r.balance) 0) (d.after.getD (max moved 0)) hheld hneg
        refine ⟨hpriced.applyDisposal hheld hneg, hle, hne.trans ?_⟩
        simp [hneg, and_assoc]

end Cost

end Round

end ScreenerBot.Ledger
