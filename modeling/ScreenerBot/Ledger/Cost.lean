import ScreenerBot.Ledger.Consumed

/-! What a round's cost figures promise: nothing invested is lost, and nothing is shown that
was not established. -/
namespace ScreenerBot.Ledger
open Library

theorem quoteAmount_nonneg {group : List SubjectAssetDelta} {mint : String} {acquisition : Bool}
    {wanted : String → Bool} {amount : ℚ}
    (h : quoteAmount group mint acquisition wanted = some amount) : 0 ≤ amount := by
  obtain ⟨d, -, hd⟩ := List.exists_of_findSome?_eq_some h
  have hd := (Option.ite_none_right_eq_some.mp hd).2
  have hd := (Option.ite_none_right_eq_some.mp hd).2
  exact Option.some.inj hd ▸ toWholeUnits_nonneg _ _

theorem quoteFor_nonneg {group : List SubjectAssetDelta} {mint : String} {acquisition : Bool}
    {leg : QuoteLeg} (h : quoteFor group mint acquisition = some leg) : 0 ≤ leg.amount := by
  have h := (Option.ite_none_left_eq_some.mp h).2
  simp only [Option.or_eq_some_iff, Option.map_eq_some_iff, Option.map_eq_none_iff] at h
  rcases h with ⟨amount, hf | ⟨-, hf⟩, rfl⟩ | ⟨-, amount, hf, rfl⟩
  · exact quoteAmount_nonneg hf
  · exact quoteAmount_nonneg hf
  · exact quoteAmount_nonneg hf

namespace Round

/-- A step that leaves the cost side alone, and may only withdraw completeness from it. -/
structure CostUnchanged (r r' : Round) : Prop where
  invested : r'.invested = r.invested
  heldCost : r'.heldCost = r.heldCost
  realizedCost : r'.realizedCost = r.realizedCost
  basis : r'.basisComplete = true → r.basisComplete = true
  proceeds : r'.proceedsComplete = true → r.proceedsComplete = true

theorem CostUnchanged.trans {r r' r'' : Round} (h : r.CostUnchanged r')
    (h' : r'.CostUnchanged r'') :
    r.CostUnchanged r'' where
  invested := h'.invested.trans h.invested
  heldCost := h'.heldCost.trans h.heldCost
  realizedCost := h'.realizedCost.trans h.realizedCost
  basis := h.basis ∘ h'.basis
  proceeds := h.proceeds ∘ h'.proceeds

theorem CostUnchanged.rfl {r : Round} : r.CostUnchanged r :=
  ⟨Eq.refl _, Eq.refl _, Eq.refl _, id, id⟩

theorem markHole_cost (r : Round) : r.CostUnchanged r.markHole :=
  ⟨Eq.refl _, Eq.refl _, Eq.refl _, nofun, id⟩

theorem learnDecimals_cost (r : Round) (d : SubjectAssetDelta) :
    r.CostUnchanged (r.learnDecimals d) := by
  unfold learnDecimals
  split
  · exact ⟨Eq.refl _, Eq.refl _, Eq.refl _, id, id⟩
  · exact .rfl

theorem reconcileBefore_cost (r : Round) (d : SubjectAssetDelta) :
    r.CostUnchanged (r.reconcileBefore d) := by
  unfold reconcileBefore
  split
  · exact markHole_cost r
  · split
    · exact ⟨Eq.refl _, Eq.refl _, Eq.refl _, nofun, id⟩
    · exact .rfl

theorem addAcquired_cost (r : Round) (amountRaw : ℤ) :
    r.CostUnchanged (r.addAcquired amountRaw) := by
  unfold addAcquired
  split
  · exact ⟨Eq.refl _, Eq.refl _, Eq.refl _, id, id⟩
  · exact markHole_cost r

theorem addDisposed_cost (r : Round) (amountRaw : ℤ) :
    r.CostUnchanged (r.addDisposed amountRaw) := by
  unfold addDisposed
  split
  · exact ⟨Eq.refl _, Eq.refl _, Eq.refl _, id, id⟩
  · exact markHole_cost r

theorem countEntry_cost (r : Round) (traded : Bool) : r.CostUnchanged (r.countEntry traded) := by
  unfold countEntry
  split
  · exact ⟨Eq.refl _, Eq.refl _, Eq.refl _, id, id⟩
  · exact ⟨Eq.refl _, Eq.refl _, Eq.refl _, nofun, id⟩

theorem countExit_cost (r : Round) (traded : Bool) : r.CostUnchanged (r.countExit traded) := by
  unfold countExit
  split
  · exact ⟨Eq.refl _, Eq.refl _, Eq.refl _, id, id⟩
  · exact ⟨Eq.refl _, Eq.refl _, Eq.refl _, id, nofun⟩

theorem acceptQuote_cost (r : Round) (leg : QuoteLeg) : r.CostUnchanged (r.acceptQuote leg).1 := by
  have hsol (r' : Round) : r'.CostUnchanged (r'.acceptSol leg).1 := by
    unfold acceptSol
    split
    · exact ⟨Eq.refl _, Eq.refl _, Eq.refl _, nofun, id⟩
    · exact .rfl
  unfold acceptQuote
  split
  · split
    · exact ⟨Eq.refl _, Eq.refl _, Eq.refl _, nofun, nofun⟩
    · exact hsol r
  · have hasset : r.CostUnchanged { r with quoteAsset := some leg.asset } :=
      ⟨Eq.refl _, Eq.refl _, Eq.refl _, id, id⟩
    exact hasset.trans (hsol _)

theorem confirmAfter_cost (r : Round) (d : SubjectAssetDelta) (computedAfter : ℤ) :
    r.CostUnchanged (r.confirmAfter d computedAfter) := by
  unfold confirmAfter
  split
  · exact markHole_cost r
  · exact .rfl

/-- While basis and proceeds are complete, what was invested is what sales consumed and what is
still held. -/
structure Costed (r : Round) : Prop where
  nonneg : 0 ≤ r.heldCost.cost
  conserved : r.basisComplete = true → r.proceedsComplete = true →
    r.invested = r.realizedCost + r.heldCost.cost

theorem Costed.of_unchanged {r r' : Round} (h : r.Costed) (hu : r.CostUnchanged r') :
    r'.Costed where
  nonneg := hu.heldCost ▸ h.nonneg
  conserved hb hp := by
    rw [hu.invested, hu.realizedCost, hu.heldCost]
    exact h.conserved (hu.basis hb) (hu.proceeds hp)

theorem Costed.priceAcquisition {r : Round} (h : r.Costed) {quote : Option QuoteLeg}
    (hquote : ∀ leg, quote = some leg → 0 ≤ leg.amount) (traded : Bool) (amount : ℚ) (after : ℤ) :
    (r.priceAcquisition quote traded amount after).1.Costed := by
  unfold Round.priceAcquisition
  split
  next leg =>
    have hleg : 0 ≤ leg.amount := hquote leg rfl
    have haccepted : (r.acceptQuote leg).1.Costed := h.of_unchanged (acceptQuote_cost r leg)
    dsimp only
    split
    next =>
      refine ⟨add_nonneg haccepted.nonneg hleg, fun hb hp => ?_⟩
      have := haccepted.conserved hb hp
      simp only [HeldCost.acquire_cost]
      rw [this, add_assoc]
    next => exact haccepted
  next =>
    split
    · exact h.of_unchanged ⟨Eq.refl _, Eq.refl _, Eq.refl _, nofun, id⟩
    · exact h

theorem priceAcquisition_basis {r : Round} {quote : Option QuoteLeg} {traded : Bool} {amount : ℚ}
    {after : ℤ} (h : (r.priceAcquisition quote traded amount after).1.basisComplete = true) :
    r.basisComplete = true := by
  unfold priceAcquisition at h
  split at h
  next leg =>
    dsimp only at h
    split at h <;> exact (acceptQuote_cost r leg).basis h
  next => split at h <;> [cases h; exact h]

theorem stampEntry_cost (r : Round) (d : SubjectAssetDelta) (kind : LedgerEventKind) (before : ℤ) :
    r.CostUnchanged (r.stampEntry d kind before) := ⟨Eq.refl _, Eq.refl _, Eq.refl _, id, id⟩

theorem countedEntry_cost (r : Round) (d : SubjectAssetDelta) (kind : LedgerEventKind)
    (before : ℤ) (traded : Bool) :
    r.CostUnchanged (((r.countEntry traded).addAcquired d.deltaRaw).stampEntry d kind before) :=
  ((countEntry_cost r traded).trans (addAcquired_cost _ _)).trans (stampEntry_cost _ _ _ _)

theorem Costed.applyAcquisition {r : Round} (h : r.Costed) (group : List SubjectAssetDelta)
    (d : SubjectAssetDelta) (before after : ℤ) :
    (r.applyAcquisition group d before after).Costed := by
  have hcounted := h.of_unchanged
    (countedEntry_cost r d (acquisitionKind d before) before (d.kind == .trade))
  have hquote : ∀ leg, (if d.kind == .trade then quoteFor group d.mint true else none) = some leg →
      0 ≤ leg.amount := fun leg hleg => quoteFor_nonneg (Option.ite_none_right_eq_some.mp hleg).2
  have hpriced (amount : ℚ) :=
    hcounted.priceAcquisition hquote (d.kind == .trade) amount after
  exact ⟨(hpriced _).nonneg, (hpriced _).conserved⟩

theorem applyAcquisition_basis {r : Round} {group : List SubjectAssetDelta} {d : SubjectAssetDelta}
    {before after : ℤ} (h : (r.applyAcquisition group d before after).basisComplete = true) :
    r.basisComplete = true :=
  (countedEntry_cost r d _ before _).basis (priceAcquisition_basis h)

/-- A round between releasing a basis and pricing the sale that released it. -/
structure Releasing (r : Round) (released : ℚ) : Prop where
  nonneg : 0 ≤ r.heldCost.cost
  conserved : r.basisComplete = true → r.proceedsComplete = true →
    r.invested = r.realizedCost + (r.heldCost.cost + released)

theorem Costed.releaseBasis {r : Round} (h : r.Costed) (amountRaw before : ℤ) :
    (r.releaseBasis amountRaw before).1.Releasing (r.releaseBasis amountRaw before).2 := by
  unfold Round.releaseBasis
  split
  next =>
    refine ⟨HeldCost.release_cost_nonneg _ _, fun hb hp => ?_⟩
    dsimp only
    rw [HeldCost.release_split _ _ h.nonneg]
    exact h.conserved hb hp
  next => exact ⟨h.nonneg, nofun⟩

theorem Releasing.priceDisposal {r : Round} {released : ℚ} (h : r.Releasing released)
    {quote : Option QuoteLeg} {traded : Bool} {amount : ℚ}
    (hsent : traded = false → r.proceedsComplete = false) :
    (r.priceDisposal quote traded amount released).1.Costed := by
  unfold Round.priceDisposal
  split
  next =>
    split
    next leg =>
      split
      next =>
        refine ⟨h.nonneg, fun hb hp => ?_⟩
        dsimp only
        rw [h.conserved hb hp]
        ring
      next => exact ⟨h.nonneg, nofun⟩
    next => exact ⟨h.nonneg, nofun⟩
  next htraded =>
    have hproceeds := hsent (Bool.eq_false_of_not_eq_true htraded)
    exact ⟨h.nonneg, fun _ hp => by simp [hproceeds] at hp⟩

theorem priceDisposal_basis {r : Round} {quote : Option QuoteLeg} {traded : Bool}
    {amount released : ℚ} :
    (r.priceDisposal quote traded amount released).1.basisComplete = r.basisComplete ∧
      (r.priceDisposal quote traded amount released).1.heldCost = r.heldCost := by
  unfold priceDisposal
  split
  · split
    · split <;> exact ⟨rfl, rfl⟩
    · exact ⟨rfl, rfl⟩
  · exact ⟨rfl, rfl⟩

theorem stampExit_cost (r : Round) (d : SubjectAssetDelta) (closing traded : Bool) :
    r.CostUnchanged (r.stampExit d closing traded) := ⟨rfl, rfl, rfl, id, id⟩

theorem countedExit_cost (r : Round) (d : SubjectAssetDelta) (amountRaw : ℤ)
    (closing traded : Bool) :
    r.CostUnchanged (((r.countExit traded).addDisposed amountRaw).stampExit d closing traded) :=
  ((countExit_cost r traded).trans (addDisposed_cost _ _)).trans (stampExit_cost _ _ _ _)

/-- Tokens sent out are not proceeds. -/
theorem countedExit_sent (r : Round) (d : SubjectAssetDelta) (amountRaw : ℤ) (closing : Bool) :
    (((r.countExit false).addDisposed amountRaw).stampExit d closing false).proceedsComplete =
      false := by
  by_contra h
  have hcount := ((addDisposed_cost (r.countExit false) amountRaw).trans
    (stampExit_cost _ d closing false)).proceeds (Bool.eq_true_of_not_eq_false h)
  simp [countExit] at hcount

theorem releaseBasis_proceeds (r : Round) (amountRaw before : ℤ) :
    (r.releaseBasis amountRaw before).1.proceedsComplete = r.proceedsComplete := by
  unfold releaseBasis; split <;> rfl

/-- A disposal whose basis survives released pro rata against a positive balance. -/
theorem releaseBasis_basis {r : Round} {amountRaw before : ℤ}
    (h : (r.releaseBasis amountRaw before).1.basisComplete = true) :
    r.basisComplete = true ∧ 0 < before ∧ (r.releaseBasis amountRaw before).1.heldCost =
      (r.heldCost.release ((amountRaw : ℚ) / before)).1 := by
  unfold releaseBasis at h ⊢
  by_cases hb : 0 < before
  · simp only [hb, if_true] at h ⊢
    exact ⟨h, trivial, trivial⟩
  · simp [hb, markHole] at h

theorem record_cost (r : Round) (d : SubjectAssetDelta) (kind : LedgerEventKind)
    (amountRaw after : ℤ) (quote : Option QuoteLeg) (priceNative : Option ℚ) :
    r.CostUnchanged (r.record d kind amountRaw after quote priceNative) := ⟨rfl, rfl, rfl, id, id⟩

/-- Clearing the cost of an emptied round drops nothing the basis covers. -/
theorem Costed.clearWhen {r : Round} (h : r.Costed) {closing : Bool}
    (hclear : closing = true → r.basisComplete = true → r.heldCost.cost = 0) :
    (r.clearWhen closing).Costed := by
  cases closing with
  | false => exact ⟨h.nonneg, h.conserved⟩
  | true =>
    refine ⟨le_of_eq rfl, fun hb hp => ?_⟩
    have := h.conserved hb hp
    rw [hclear rfl hb] at this
    exact this

/-- A disposal keeps the cost side conserved; one that empties the round must have sold all of
a balance its basis covers. -/
theorem Costed.applyDisposal {r : Round} (h : r.Costed) (group : List SubjectAssetDelta)
    (d : SubjectAssetDelta) (before after : ℤ)
    (hclose : r.basisComplete = true → after ≤ 0 → before ≤ -d.deltaRaw) :
    (r.applyDisposal group d before after).Costed := by
  have hcost := countedExit_cost r d (disposedRaw d before) (decide (after ≤ 0)) (d.kind == .trade)
  have hreleased := (h.of_unchanged hcost).releaseBasis (disposedRaw d before) before
  have hsent (ht : (d.kind == .trade) = false) :
      ((((r.countExit (d.kind == .trade)).addDisposed (disposedRaw d before)).stampExit d
        (decide (after ≤ 0)) (d.kind == .trade)).releaseBasis
          (disposedRaw d before) before).1.proceedsComplete = false := by
    rw [releaseBasis_proceeds, ht]
    exact countedExit_sent r d _ _
  have hpriced (quote : Option QuoteLeg) (amount : ℚ) :
      (Round.priceDisposal _ quote _ amount _).1.Costed := hreleased.priceDisposal hsent
  refine ((hpriced _ _).of_unchanged (record_cost _ d _ _ after _ _)).clearWhen ?_
  intro hclosing hb
  have hbasis := priceDisposal_basis.1.symm.trans hb
  obtain ⟨hb, hpos, hheld⟩ := releaseBasis_basis hbasis
  have hsold : before ≤ -d.deltaRaw := hclose (hcost.basis hb) (of_decide_eq_true hclosing)
  have hall : ((disposedRaw d before : ℤ) : ℚ) / before = 1 := by
    rw [disposedRaw, if_pos hpos, min_eq_right hsold]
    exact div_self (Int.cast_ne_zero.mpr hpos.ne')
  refine (congrArg HeldCost.cost (priceDisposal_basis.2.trans hheld)).trans ?_
  rw [hall, HeldCost.release_all]

/-- A disposal that empties the round leaves no cost held. -/
theorem applyDisposal_emptied {r : Round} {group : List SubjectAssetDelta} {d : SubjectAssetDelta}
    {before after : ℤ} (h : after ≤ 0) :
    (r.applyDisposal group d before after).heldCost.cost = 0 := by
  simp [applyDisposal, clearWhen, h]

theorem confirmAfter_basis {r : Round} {d : SubjectAssetDelta} {computedAfter : ℤ}
    (h : (r.confirmAfter d computedAfter).basisComplete = true) : d.after = some computedAfter := by
  unfold confirmAfter at h
  split at h
  · cases h
  next heq => exact not_not.mp heq

/-- Folding a delta keeps the cost side conserved, and a round it empties holds no cost. -/
theorem Costed.apply {r : Round} (h : r.Costed) (group : List SubjectAssetDelta)
    (d : SubjectAssetDelta) :
    (r.apply group d).Costed ∧ ((r.apply group d).balance ≤ 0 →
      (r.apply group d).basisComplete = true → (r.apply group d).heldCost.cost = 0) := by
  have hreconciled := (learnDecimals_cost r d).trans (reconcileBefore_cost _ d)
  unfold Round.apply
  dsimp only
  split
  next moved negated hm hn =>
    have hconfirmed := hreconciled.trans
      (confirmAfter_cost ((r.learnDecimals d).reconcileBefore d) d (max moved 0))
    have hmoved := (checkedI128_eq_some.mp hm).1
    unfold move
    split
    next hpos =>
      have hmove := (h.of_unchanged hconfirmed).applyAcquisition group d
        (max ((r.learnDecimals d).reconcileBefore d).balance 0) (d.after.getD (max moved 0))
      refine ⟨⟨hmove.nonneg, hmove.conserved⟩, fun hempty hb => ?_⟩
      -- an acquisition that reports an empty balance is a hole
      have hafter := confirmAfter_basis (applyAcquisition_basis hb)
      have hempty : d.after.getD (max moved 0) ≤ 0 := hempty
      rw [hafter, Option.getD_some] at hempty
      omega
    next hneg =>
      have hmove := (h.of_unchanged hconfirmed).applyDisposal group d
        (max ((r.learnDecimals d).reconcileBefore d).balance 0) (d.after.getD (max moved 0))
        (fun hb hempty => by
          rw [confirmAfter_basis hb, Option.getD_some] at hempty
          omega)
      exact ⟨⟨hmove.nonneg, hmove.conserved⟩, fun hempty _ => applyDisposal_emptied hempty⟩
  next => exact ⟨h.of_unchanged (hreconciled.trans (markHole_cost _)), fun _ hb => by cases hb⟩

end Round

/-- A reported round whose cost figures add up, and are shown only once established. -/
structure LedgerRound.CostConserved (r : LedgerRound) (proceedsComplete : Bool) : Prop where
  conserved : r.basisComplete = true → proceedsComplete = true →
    r.investedNative = r.realizedCostNative + r.remainingBasisNative
  pnl : r.isOpen = false → ∀ pnl, r.realizedPnlNative = some pnl →
    pnl = r.realizedProceedsNative - r.investedNative
  unestablished : r.basisComplete = false → r.realizedPnlNative = none ∧
    r.averageEntryPriceNative = none ∧ r.investedNative = 0 ∧ r.remainingBasisNative = 0 ∧
    r.realizedCostNative = 0

/-- An established basis with a figure that finishing the round reports. -/
def Round.ShowsCost (r : Round) : Prop :=
  r.basisEstablished = true ∧ (r.invested ≠ 0 ∨ r.heldCost.cost ≠ 0 ∨ r.averagePrice ≠ none ∨
    r.realizedCost ≠ 0 ∨ (r.proceedsComplete = true ∧ 0 < r.exitCount))

instance (r : Round) : Decidable r.ShowsCost :=
  inferInstanceAs (Decidable (r.basisEstablished = true ∧ (_ ∨ _ ∨ _ ∨ _ ∨ _)))

theorem Round.basisComplete_of_established {r : Round} (h : r.basisEstablished = true) :
    r.basisComplete = true := by
  simp only [basisEstablished, Bool.and_eq_true] at h
  exact h.1.1

/-- Finishing a conserved round reports conserved figures, if a closed one holds no cost and none
was consumed without a basis. -/
theorem Round.Costed.finish {r : Round} (h : r.Costed) {stillOpen : Bool}
    (hclosed : stillOpen = false → r.basisComplete = true → r.heldCost.cost = 0)
    (hconsumed : r.realizedCost ≠ 0 → r.basisEstablished = true) :
    (r.finish stillOpen).CostConserved r.proceedsComplete where
  conserved hb hp := by
    have hb : r.basisEstablished = true := hb
    simp only [Round.finish, hb, if_true]
    exact h.conserved (basisComplete_of_established hb) hp
  pnl hopen pnl hpnl := by
    simp only [Round.finish, Option.ite_none_right_eq_some, Bool.and_eq_true] at hopen hpnl ⊢
    obtain ⟨⟨⟨hb, hp⟩, -⟩, hpnl⟩ := hpnl
    have hbasis := basisComplete_of_established hb
    have hinvested := h.conserved hbasis hp
    rw [hclosed hopen hbasis, add_zero] at hinvested
    rw [if_pos hb, hinvested]
    exact (Option.some.inj hpnl).symm
  unestablished hb := by
    have hb : r.basisEstablished = false := hb
    have hnone : r.realizedCost = 0 := by
      by_contra hne
      rw [hconsumed hne] at hb
      cases hb
    simp [Round.finish, hb, hnone]

/-- A round closed because its mint started again reports no figure exactly when it had none
to show. -/
theorem closeStale_costConserved {r : Round} (hheld : 0 < r.balance)
    (hconsumed : r.realizedCost ≠ 0 → r.basisEstablished = true) :
    r.closeStale.CostConserved r.proceedsComplete ↔ ¬ r.ShowsCost := by
  have hstale : r.closeStale =
      { r.finish false with historyComplete := false, basisComplete := false } := if_pos hheld
  constructor
  · rintro h ⟨hb, hshown⟩
    obtain ⟨hpnl, haverage, hinvested, hremaining, hrealized⟩ := h.unestablished (by rw [hstale])
    simp only [hstale, Round.finish, hb, if_true, Bool.true_and] at hpnl haverage hinvested
    simp only [hstale, Round.finish, hb, if_true] at hremaining hrealized
    rcases hshown with h | h | h | h | ⟨hp, hexit⟩
    · exact h hinvested
    · exact h hremaining
    · exact h haverage
    · exact h hrealized
    · simp [hp, hexit] at hpnl
  · intro hno
    have hfigures : r.closeStale.realizedPnlNative = none ∧
        r.closeStale.averageEntryPriceNative = none ∧ r.closeStale.investedNative = 0 ∧
        r.closeStale.remainingBasisNative = 0 ∧ r.closeStale.realizedCostNative = 0 := by
      rw [hstale]
      simp only [Round.finish]
      cases hb : r.basisEstablished with
      | false =>
        have hnone : r.realizedCost = 0 := by
          by_contra hne
          rw [hconsumed hne] at hb
          cases hb
        simp [hnone]
      | true =>
        simp only [Round.ShowsCost, hb, true_and, not_or, not_not, not_and] at hno
        simp only [if_true, Bool.true_and]
        refine ⟨?_, hno.2.2.1, hno.1, hno.2.1, hno.2.2.2.1⟩
        rw [if_neg]
        simp only [Bool.and_eq_true, decide_eq_true_eq, not_and]
        exact hno.2.2.2.2
    exact ⟨fun hb => (by rw [hstale] at hb; cases hb),
      fun _ pnl hpnl => (by rw [hfigures.1] at hpnl; cases hpnl), fun _ => hfigures⟩

/-- The cost side every lifecycle keeps: conserved, and empty once the round is. -/
def Lifecycle.Conserving (l : Lifecycle) : Prop :=
  l.round.Costed ∧
    (l.round.balance ≤ 0 → l.round.basisComplete = true → l.round.heldCost.cost = 0)

theorem grounded_costed (d : SubjectAssetDelta) (roundKey : String) :
    (Round.grounded d roundKey).Costed :=
  ⟨le_refl _, fun _ _ => (add_zero (0 : ℚ)).symm⟩

theorem genesis_costed (d : SubjectAssetDelta) (roundKey : String) :
    (Round.genesis d roundKey).Costed := by
  refine ⟨?_, fun hb => ?_⟩
  · unfold Round.genesis
    dsimp only
    split <;> exact le_refl _
  · rw [Round.genesis_basisComplete] at hb
    cases hb

theorem lifecycles_conserving (deltas : List SubjectAssetDelta) :
    ∀ e ∈ lifecycles deltas, e.life.Conserving := by
  refine (lifecycles_invariant Lifecycle.Conserving ?fresh ?fold).2.2
  case fresh =>
    rintro p - h
    unfold Tracking.lifeFor
    split
    next => exact ⟨grounded_costed _ _, fun _ _ => rfl⟩
    next hz =>
      rw [h.resolve_left hz]
      refine ⟨genesis_costed _ _, fun _ hb => ?_⟩
      rw [Round.genesis_basisComplete] at hb
      cases hb
  case fold =>
    rintro p - h
    exact h.1.apply p.2.group p.2.delta

theorem grounded_priced (d : SubjectAssetDelta) (roundKey : String) :
    (Round.grounded d roundKey).Priced := fun h => absurd rfl (h.resolve_left (absurd rfl))

theorem genesis_priced (d : SubjectAssetDelta) (roundKey : String) :
    (Round.genesis d roundKey).Priced := by
  unfold Round.genesis
  dsimp only
  split <;> exact fun h => absurd rfl (h.resolve_left (absurd rfl))

/-- What a round consumed of its cost, and what it shows for it. -/
structure Lifecycle.Consuming (l : Lifecycle) : Prop where
  costed : l.round.Costed
  priced : l.round.Priced
  consumed : 0 ≤ l.round.realizedCost

theorem lifeFor_consuming {t : Tracking} {d : SubjectAssetDelta}
    (h : startsFromZero d = true ∨ t.openLives.lookup d.mint = none) : (t.lifeFor d).Consuming ∧
      (t.lifeFor d).round.realizedCost = 0 := by
  unfold Tracking.lifeFor
  split
  next => exact ⟨⟨grounded_costed _ _, grounded_priced _ _, le_rfl⟩, rfl⟩
  next hz =>
    rw [h.resolve_left hz]
    have hnone : (Round.genesis d (t.genesisKey d)).realizedCost = 0 := by
      unfold Round.genesis
      dsimp only
      split <;> rfl
    exact ⟨⟨genesis_costed _ _, genesis_priced _ _, hnone.ge⟩, hnone⟩

theorem Lifecycle.Consuming.fold {l : Lifecycle} (h : l.Consuming) (s : ReductionStep)
    (hdelta : s.delta.deltaRaw ≠ 0) : (l.fold s).Consuming := by
  obtain ⟨hpriced, hle, -⟩ :=
    @Round.Priced.apply l.round s.group s.delta h.priced h.costed.nonneg hdelta
  exact ⟨(h.costed.apply s.group s.delta).1, hpriced, h.consumed.trans hle⟩

/-- Folding a delta leaves a consumed cost without a basis exactly where the delta strands it. -/
theorem Lifecycle.Consuming.stranded {l : Lifecycle} (h : l.Consuming) (s : ReductionStep)
    (hdelta : s.delta.deltaRaw ≠ 0) : l.round.StrandsCost s.group s.delta ↔
      (l.fold s).round.realizedCost ≠ 0 ∧ (l.fold s).round.basisComplete = false := by
  obtain ⟨-, hle, hne⟩ :=
    @Round.Priced.apply l.round s.group s.delta h.priced h.costed.nonneg hdelta
  have hcost : (l.fold s).round.realizedCost ≠ 0 ↔
      l.round.realizedCost ≠ 0 ∨ l.round.takesCost s.group s.delta = true := by
    rw [← hne]
    constructor
    · intro hfolded
      by_contra hnone
      rw [not_or, not_not, not_not] at hnone
      exact hfolded (hnone.2.trans hnone.1)
    · rintro (hbefore | hadded)
      · exact ((h.consumed.lt_of_ne' hbefore).trans_le hle).ne'
      · exact ((h.consumed.trans_lt (lt_of_le_of_ne hle (Ne.symm hadded)))).ne'
  have hbasis : (l.fold s).round.basisComplete = false ↔
      ¬(l.round.basisComplete = true ∧ l.round.keepsBasis s.group s.delta = true) := by
    rw [← Bool.and_eq_true, ← Round.apply_basisComplete, Bool.not_eq_true]
    rfl
  rw [hcost, hbasis]
  rfl

theorem lifecycles_consuming (deltas : List SubjectAssetDelta) :
    (∀ p ∈ trackSteps deltas, (p.1.lifeFor p.2.delta).Consuming) ∧
    (∀ p ∈ trackSteps deltas, ∀ mint life, p.1.openLives.lookup mint = some life → life.Consuming) ∧
    ∀ e ∈ lifecycles deltas, e.life.Consuming :=
  lifecycles_invariant Lifecycle.Consuming (fun _ _ h => (lifeFor_consuming h).1) fun p hp h =>
    h.fold p.2 (trackSteps_deltaRaw hp)

/-- Where no delta strands consumed cost, what is consumed keeps its basis. -/
theorem lifecycles_backed {deltas : List SubjectAssetDelta}
    (hno : ∀ p ∈ trackSteps deltas,
      ¬(p.1.lifeFor p.2.delta).round.StrandsCost p.2.group p.2.delta) :
    (∀ p ∈ trackSteps deltas, ∀ mint life, p.1.openLives.lookup mint = some life →
      life.round.realizedCost ≠ 0 → life.round.basisComplete = true) ∧
    ∀ e ∈ lifecycles deltas, e.life.round.realizedCost ≠ 0 → e.life.round.basisComplete = true := by
  refine (lifecycles_invariant
    (fun l => l.round.realizedCost ≠ 0 → l.round.basisComplete = true) ?fresh ?fold).2
  case fresh =>
    intro p _ h hne
    exact absurd (lifeFor_consuming h).2 hne
  case fold =>
    intro p hp _ hne
    by_contra hlost
    refine hno p hp ?_
    have hconsuming := (lifecycles_consuming deltas).1 p hp
    exact (hconsuming.stranded p.2 (trackSteps_deltaRaw hp)).mpr ⟨hne, Bool.eq_false_iff.mpr hlost⟩

/-- A delta that strands consumed cost leaves a round that is reported with it. -/
theorem stranded_reported {deltas : List SubjectAssetDelta} {p : Tracking × ReductionStep}
    (hp : p ∈ trackSteps deltas)
    (h : (p.1.lifeFor p.2.delta).round.StrandsCost p.2.group p.2.delta) :
    ∃ e ∈ lifecycles deltas, ¬ e.ledgerRound.CostConserved e.life.round.proceedsComplete := by
  have hconsuming := (lifecycles_consuming deltas).1 p hp
  obtain ⟨e, he, -, hne, hlost⟩ := lifecycles_reached
    (fun l => l.Consuming ∧ l.round.realizedCost ≠ 0 ∧ l.round.basisComplete = false)
    (fun q hq life hlife => by
      have hdelta := trackSteps_deltaRaw hq
      obtain ⟨hc, hne, hlost⟩ := hlife
      refine ⟨hc.fold q.2 hdelta, (hc.stranded q.2 hdelta).mp ⟨.inl hne, fun hkept => ?_⟩⟩
      rw [hlost] at hkept
      cases hkept.1)
    hp ⟨hconsuming.fold p.2 (trackSteps_deltaRaw hp),
      (hconsuming.stranded p.2 (trackSteps_deltaRaw hp)).mp h⟩
  have hshown : e.ledgerRound.basisComplete = false ∧
      e.ledgerRound.realizedCostNative = e.life.round.realizedCost := by
    have hfinished : ∀ stillOpen, (e.life.round.finish stillOpen).basisComplete = false := by
      intro stillOpen
      simp [Round.finish, Round.basisEstablished, hlost]
    unfold Ended.ledgerRound
    split
    · exact ⟨hfinished _, rfl⟩
    · unfold Round.closeStale
      split
      · exact ⟨rfl, rfl⟩
      · exact ⟨hfinished _, rfl⟩
    · exact ⟨hfinished _, rfl⟩
  refine ⟨e, he, fun hconserved => hne ?_⟩
  rw [← hshown.2]
  exact (hconserved.unestablished hshown.1).2.2.2.2

/-- The round a delta is folded into, as the reducer's state has it. -/
theorem view_lifeFor (t : Tracking) (d : SubjectAssetDelta) :
    (openRound t.view d).openRounds.lookup d.mint = some (t.lifeFor d).round := by
  rw [Tracking.view_open]
  by_cases h : startsFromZero d = true ∨ t.openLives.lookup d.mint = none
  · simp only [h, if_true, AList.lookup_insert]
  · simp only [h, if_false]
    obtain ⟨hz, hl⟩ := not_or.mp h
    obtain ⟨life, hl⟩ := Option.ne_none_iff_exists'.mp hl
    simp [Tracking.view, lookup_mapVal, Tracking.lifeFor, hz, hl]

/-- Every reported round conserves cost and shows only established figures, exactly when no
delta that starts its mint from zero meets an open round with an established basis to show, and no
delta leaves a round whose sales consumed some of its cost without a complete basis. -/
theorem cost_conserved_iff (deltas : List SubjectAssetDelta) :
    (lifecycles deltas).map Ended.ledgerRound = reduceRounds deltas ∧
      ((∀ p ∈ visited applyStep .empty (reductionSteps deltas), ∀ round,
          (startsFromZero p.2.delta = true →
            p.1.openRounds.lookup p.2.delta.mint = some round → ¬ round.ShowsCost) ∧
          ((openRound p.1 p.2.delta).openRounds.lookup p.2.delta.mint = some round →
            ¬ round.StrandsCost p.2.group p.2.delta)) ↔
        ∀ e ∈ lifecycles deltas, e.ledgerRound.CostConserved e.life.round.proceedsComplete) := by
  refine ⟨(reduceRounds_eq_lifecycles deltas).symm, ?_⟩
  rw [trackSteps_view]
  constructor
  · intro hno e he
    have hkept : ∀ p ∈ trackSteps deltas,
        ¬(p.1.lifeFor p.2.delta).round.StrandsCost p.2.group p.2.delta := fun p hp =>
      (hno (p.1.view, p.2) (List.mem_map_of_mem hp) _).2 (view_lifeFor p.1 p.2.delta)
    obtain ⟨hopen, hbacked⟩ := lifecycles_backed hkept
    have hpriced := ((lifecycles_consuming deltas).2.2 e he).priced
    have hconsumed : e.life.round.realizedCost ≠ 0 → e.life.round.basisEstablished = true :=
      fun hne => hpriced.established hne (hbacked e he hne)
    obtain ⟨hcosted, hempty⟩ := lifecycles_conserving deltas e he
    obtain ⟨life, ending⟩ := e
    cases ending with
    | stillOpen => exact hcosted.finish (by simp) hconsumed
    | emptied =>
      have hb : life.round.balance ≤ 0 := by
        rcases lifecycles_balance he with ⟨-, hb⟩ | ⟨hne, -⟩
        · exact hb
        · exact absurd rfl hne
      exact hcosted.finish (fun _ => hempty hb) hconsumed
    | stale =>
      obtain ⟨p, hp, ⟨-, hz, hl⟩ | ⟨heq, -⟩⟩ :=
        mem_track_ended.mp ((mem_lifecycles.mp he).resolve_right (by simp))
      · have hheld := (trackSteps_openRounds p hp _ _ hl).2
        refine (closeStale_costConserved hheld hconsumed).mpr ?_
        refine (hno (p.1.view, p.2) (List.mem_map_of_mem hp) life.round).1 hz ?_
        simp [Tracking.view, lookup_mapVal, hl]
      · cases heq
  · intro hall q hq round
    obtain ⟨⟨t, s⟩, hp, rfl⟩ := List.mem_map.mp hq
    have hstrands : ¬(t.lifeFor s.delta).round.StrandsCost s.group s.delta := by
      intro h
      obtain ⟨e, he, hbad⟩ := stranded_reported hp h
      exact hbad (hall e he)
    refine ⟨fun hz hlookup hshows => ?_, fun hround => ?_⟩
    · simp only [Tracking.view, lookup_mapVal, Option.map_eq_some_iff] at hlookup
      obtain ⟨life, hl, rfl⟩ := hlookup
      have he : (⟨life, .stale⟩ : Ended) ∈ lifecycles deltas :=
        mem_lifecycles.mpr (.inl (mem_track_ended.mpr ⟨_, hp, .inl ⟨rfl, hz, hl⟩⟩))
      have hheld := (trackSteps_openRounds _ hp _ _ hl).2
      exact (closeStale_costConserved hheld fun _ => hshows.1).mp (hall _ he) hshows
    · obtain rfl := Option.some.inj ((view_lifeFor t s.delta).symm.trans hround)
      exact hstrands

/-- A priced buy of ten, a priced sale of four, and a buy that starts from zero again. -/
def missedSaleHistory : List SubjectAssetDelta :=
  let token (signature : String) (slot : ℕ) (deltaRaw : ℤ) (before after : ℕ) : SubjectAssetDelta :=
    { signature, mint := "mintA", slot := some slot, blockTime := none, txIndex := 0, deltaRaw
      beforeRaw := some before, afterRaw := some after, decimals := 0, kind := .trade
      venue := none, success := true }
  let sol (signature : String) (slot : ℕ) (deltaRaw : ℤ) : SubjectAssetDelta :=
    { token signature slot deltaRaw 0 0 with mint := nativeSolSentinel }
  [token "s1" 1 10 0 10, sol "s1" 1 (-20), token "s2" 2 (-4) 10 6, sol "s2" 2 12,
    token "s3" 3 5 0 5]

/-- A priced buy of ten, a priced sale of four, and a buy of five whose payment is not seen. -/
def unpricedAddHistory : List SubjectAssetDelta :=
  let token (signature : String) (slot : ℕ) (deltaRaw : ℤ) (before after : ℕ) : SubjectAssetDelta :=
    { signature, mint := "mintA", slot := some slot, blockTime := none, txIndex := 0, deltaRaw
      beforeRaw := some before, afterRaw := some after, decimals := 0, kind := .trade
      venue := none, success := true }
  let sol (signature : String) (slot : ℕ) (deltaRaw : ℤ) : SubjectAssetDelta :=
    { token signature slot deltaRaw 0 0 with mint := nativeSolSentinel }
  [token "s1" 1 10 0 10, sol "s1" 1 (-20), token "s2" 2 (-4) 10 6, sol "s2" 2 12,
    token "s3" 3 5 6 11]

/-- The round the missed sale closed reports a profit and an investment without a basis, and the
round with the unpriced add what its sale consumed. -/
theorem missed_sale_shows_cost :
    (¬ ∀ e ∈ lifecycles missedSaleHistory,
      e.ledgerRound.CostConserved e.life.round.proceedsComplete) ∧
    ¬ ∀ e ∈ lifecycles unpricedAddHistory,
      e.ledgerRound.CostConserved e.life.round.proceedsComplete := by
  refine ⟨fun h => ?_, fun h => ?_⟩
  · have hbad : ∃ e ∈ lifecycles missedSaleHistory, e.ledgerRound.basisComplete = false ∧
        e.ledgerRound.realizedPnlNative ≠ none := by decide +kernel
    obtain ⟨e, he, hb, hpnl⟩ := hbad
    exact hpnl ((h e he).unestablished hb).1
  · have hbad : ∃ e ∈ lifecycles unpricedAddHistory, e.ledgerRound.basisComplete = false ∧
        e.ledgerRound.realizedCostNative = 8 := by decide +kernel
    obtain ⟨e, he, hb, hcost⟩ := hbad
    have hnone := ((h e he).unestablished hb).2.2.2.2
    rw [hcost] at hnone
    exact absurd hnone (by decide)

end ScreenerBot.Ledger
