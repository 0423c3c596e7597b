import ScreenerBot.Sync.Plan

/-! What a rewrite does to the identity of a row: its id, its mint, its round key, and whether
it is open. -/
namespace ScreenerBot.Positions
open Ledger Library

/-- Only amounts of the row may have changed. -/
structure SameRow (p q : Position) : Prop where
  id : q.id = p.id
  mint : q.mint = p.mint
  roundKey : q.roundKey = p.roundKey
  exitTime : q.exitTime = p.exitTime

namespace SameRow

variable {p q r : Position}

theorem refl : SameRow p p := ⟨rfl, rfl, rfl, rfl⟩

theorem trans (hpq : SameRow p q) (hqr : SameRow q r) : SameRow p r :=
  ⟨hqr.id.trans hpq.id, hqr.mint.trans hpq.mint, hqr.roundKey.trans hpq.roundKey,
    hqr.exitTime.trans hpq.exitTime⟩

end SameRow

theorem shrinkTo_same (p : Position) (claimed observed : ℕ) :
    SameRow p (shrinkTo p claimed observed) := by
  unfold shrinkTo
  split
  · exact .refl
  split
  next q hq =>
    unfold Position.bookExit at hq
    split at hq <;> cases hq
    exact ⟨rfl, rfl, rfl, rfl⟩
  · exact ⟨rfl, rfl, rfl, rfl⟩

theorem bookOutsideProceeds_same (p : Position) (own : TraderLegs)
    (outside : Option OutsideProceeds) : SameRow p (bookOutsideProceeds p own outside) := by
  unfold bookOutsideProceeds
  split
  · exact .refl
  · split <;> exact ⟨rfl, rfl, rfl, rfl⟩

theorem adoptExternalGrowth_same (p : Position) (growth : Growth) (decimals : ℕ) :
    SameRow p (adoptExternalGrowth p growth decimals) := by
  unfold adoptExternalGrowth
  dsimp only
  split
  · exact ⟨rfl, rfl, rfl, rfl⟩
  split
  · unfold Position.moveAverageEntryPrice
    split <;> exact ⟨rfl, rfl, rfl, rfl⟩
  · exact ⟨rfl, rfl, rfl, rfl⟩

theorem followPart_same (p : Position) (share : RoundShare) (decimals : ℕ) :
    SameRow p (followPart p share decimals).1 := by
  unfold followPart
  dsimp only
  split
  · exact adoptExternalGrowth_same p _ _
  · exact .refl

theorem followWholeRound_same (p existing : Position) (round : LedgerRound)
    (a : RoundAttribution) : SameRow p (followWholeRound p existing round a).1 := by
  unfold followWholeRound
  dsimp only
  split
  · exact adoptExternalGrowth_same p _ _
  · exact .refl

/-- A row reconciled with a round is the same row, still open only while the round is. -/
structure Reconciled (round : LedgerRound) (p q : Position) : Prop where
  id : q.id = p.id
  mint : q.mint = p.mint
  roundKey : q.roundKey = p.roundKey
  exitTime : q.exitTime = none → p.exitTime = none ∧ round.isOpen = true

theorem Reconciled.of_same {round : LedgerRound} {p q r : Position} (hpq : SameRow p q)
    (hqr : Reconciled round q r) : Reconciled round p r :=
  ⟨hqr.id.trans hpq.id, hqr.mint.trans hpq.mint, hqr.roundKey.trans hpq.roundKey,
    fun h => ⟨hpq.exitTime ▸ (hqr.exitTime h).1, (hqr.exitTime h).2⟩⟩

theorem SameRow.reconciled {round : LedgerRound} {p q : Position} (h : SameRow p q)
    (hopen : round.isOpen = true) : Reconciled round p q :=
  ⟨h.id, h.mint, h.roundKey, fun he => ⟨h.exitTime ▸ he, hopen⟩⟩

theorem bookGone_same (p : Position) : SameRow p (bookGone p) := by
  unfold bookGone
  split
  next q hq =>
    unfold Position.bookRemainingAsExited at hq
    split at hq
    · cases hq
      exact .refl
    · split at hq <;> cases hq
      exact ⟨rfl, rfl, rfl, rfl⟩
  · exact ⟨rfl, rfl, rfl, rfl⟩

theorem priceClose_same (p : Position) (round : LedgerRound) (proceeds : CloseProceeds) :
    SameRow p (priceClose p round proceeds) := by
  unfold priceClose
  split
  · exact ⟨rfl, rfl, rfl, rfl⟩
  split
  · exact ⟨rfl, rfl, rfl, rfl⟩
  split
  · exact .refl
  · dsimp only
    split <;> exact ⟨rfl, rfl, rfl, rfl⟩

theorem closeOwnedPosition_reconciled (p : Position) (round : LedgerRound)
    (proceeds : CloseProceeds) (now : ℤ) :
    Reconciled round p (closeOwnedPosition p round proceeds now) := by
  have hpriced := priceClose_same (markClosed (bookGone p) round now) round proceeds
  refine .of_same (bookGone_same p) ⟨hpriced.id, hpriced.mint, hpriced.roundKey, fun he => ?_⟩
  exact absurd (hpriced.exitTime.symm.trans he) (Option.some_ne_none _)

theorem reconcilePart_reconciled (p : Position) (round : LedgerRound) (earlier : List LedgerRound)
    (a : RoundAttribution) (now : ℤ) :
    Reconciled round p (reconcilePart p round earlier a now) := by
  unfold reconcilePart
  dsimp only
  split
  · split
    next hopen => exact SameRow.refl.reconciled hopen
    · exact closeOwnedPosition_reconciled p round _ now
  next share _ =>
    refine .of_same (followPart_same p share round.decimals) ?_
    split
    next hopen =>
      refine SameRow.reconciled (SameRow.trans ?_ (bookOutsideProceeds_same _ _ _)) hopen
      split
      · exact .refl
      · exact shrinkTo_same _ _ _
    · exact closeOwnedPosition_reconciled _ round _ now

theorem reconcileWholeRound_reconciled (p existing : Position) (round : LedgerRound)
    (earlier : List LedgerRound) (a : RoundAttribution) (now : ℤ) :
    Reconciled round p (reconcileWholeRound p existing round earlier a now) := by
  unfold reconcileWholeRound
  dsimp only
  refine .of_same (followWholeRound_same p existing round a) ?_
  split
  next hopen =>
    refine SameRow.reconciled (SameRow.trans ?_ (bookOutsideProceeds_same _ _ _)) hopen
    split
    · exact .refl
    · exact shrinkTo_same _ _ _
  · exact closeOwnedPosition_reconciled _ round _ now

/-- A rewrite of a row for a round: the same row under the round's key, open only while the
round is. -/
structure Rewritten (round : LedgerRound) (current fresh : Position) : Prop where
  id : fresh.id = current.id
  mint : current.mint = round.mint → fresh.mint = round.mint
  roundKey : fresh.roundKey = some round.roundKey
  opened : fresh.exitTime = none → round.isOpen = true

theorem buildPosition_open {round : LedgerRound} {meta' : RoundMetadata}
    {existing : Option Position} {now : ℤ}
    (h : (buildPosition round meta' existing now).exitTime = none) : round.isOpen = true := by
  have h : builtExitTime round existing _ = none := h
  unfold builtExitTime at h
  by_contra hopen
  rw [if_neg hopen] at h
  simp at h

/-- Reconciling stamps the round's key; a row whose reopening overflows has it already. -/
theorem reconcileOwnedPosition_rewritten {existing : Position} {round : LedgerRound}
    {earlier : List LedgerRound} {meta' : RoundMetadata} {a : RoundAttribution} {now : ℤ} :
    Rewritten round existing (reconcileOwnedPosition existing round earlier meta' a now) := by
  have hfollow {p : Position} (hid : p.id = existing.id) (hmint : p.mint = existing.mint)
      (hkey : p.roundKey = some round.roundKey) : Rewritten round existing
        (if a.chargesPart round earlier then reconcilePart p round earlier a now
          else reconcileWholeRound p existing round earlier a now) := by
    split
    · have h := reconcilePart_reconciled p round earlier a now
      exact ⟨h.id.trans hid, fun hm => (h.mint.trans hmint).trans hm, h.roundKey.trans hkey,
        fun he => (h.exitTime he).2⟩
    · have h := reconcileWholeRound_reconciled p existing round earlier a now
      exact ⟨h.id.trans hid, fun hm => (h.mint.trans hmint).trans hm, h.roundKey.trans hkey,
        fun he => (h.exitTime he).2⟩
  unfold reconcileOwnedPosition
  dsimp only
  split
  next hclosed =>
    have hnotOpen : existing.exitTime ≠ none := Option.ne_none_iff_isSome.mpr hclosed
    split
    · exact ⟨rfl, id, rfl, fun he => absurd he hnotOpen⟩
    next hmissed =>
      split
      · have hkey : existing.roundKey = some round.roundKey := by
          simp only [closedOnMissedHolding, Bool.not_eq_true', Bool.not_eq_false,
            Bool.and_eq_true, beq_iff_eq] at hmissed
          exact hmissed.1.1.2
        exact ⟨rfl, id, hkey, fun he => absurd he hnotOpen⟩
      next reopened hreopened =>
        unfold Position.reopenMissedHolding at hreopened
        split at hreopened
        · cases hreopened
        · cases hreopened
          exact hfollow rfl rfl rfl
  · exact hfollow rfl rfl rfl

theorem rewriteRow_rewritten {current fresh : Position} {round : LedgerRound}
    {earlier : List LedgerRound} {meta' : RoundMetadata} {a : Option RoundAttribution}
    {busyMints : List String} {now : ℤ}
    (h : rewriteRow current round earlier meta' a busyMints now = some fresh) :
    Rewritten round current fresh := by
  unfold rewriteRow at h
  split at h
  · dsimp only at h
    split at h
    · cases h
      exact ⟨rfl, fun _ => rfl, rfl, buildPosition_open⟩
    · cases h
  split at h
  · cases h
  · obtain ⟨a, -, h⟩ := Option.bind_eq_some_iff.mp h
    dsimp only at h
    split at h
    · cases h
      exact reconcileOwnedPosition_rewritten
    · cases h

/-- A bot row that is not busy is rewritten when the round brings a new key. -/
theorem rewriteRow_of_newKey {current : Position} {round : LedgerRound}
    {earlier : List LedgerRound} {meta' : RoundMetadata} {a : RoundAttribution}
    {busyMints : List String} {now : ℤ} (hbot : current.isWalletDerived = false)
    (hfree : isBusy current busyMints = false) (hkey : current.roundKey ≠ some round.roundKey) :
    (rewriteRow current round earlier meta' (some a) busyMints now).isSome = true := by
  have hfresh := (@reconcileOwnedPosition_rewritten current round earlier meta' a now).roundKey
  have hdiffers : differsOwned current
      (reconcileOwnedPosition current round earlier meta' a now) = true := by
    unfold differsOwned
    rw [hfresh, bne_iff_ne.mpr hkey]
    rfl
  unfold rewriteRow
  rw [hbot, hfree, if_neg Bool.false_ne_true, if_neg Bool.false_ne_true, Option.bind_some]
  dsimp only
  rw [if_pos hdiffers]
  rfl

/-- An open bot row that is not busy is closed with its round. -/
theorem rewriteRow_of_closed {current : Position} {round : LedgerRound}
    {earlier : List LedgerRound} {meta' : RoundMetadata} {a : RoundAttribution}
    {busyMints : List String} {now : ℤ} (hbot : current.isWalletDerived = false)
    (hfree : isBusy current busyMints = false) (hopen : current.exitTime = none)
    (hclosed : round.isOpen = false) :
    (rewriteRow current round earlier meta' (some a) busyMints now).isSome = true := by
  have hfresh := (@reconcileOwnedPosition_rewritten current round earlier meta' a now).opened
  have hdiffers : differsOwned current
      (reconcileOwnedPosition current round earlier meta' a now) = true := by
    unfold differsOwned
    have hexit : (current.exitTime !=
        (reconcileOwnedPosition current round earlier meta' a now).exitTime) = true := by
      rw [bne_iff_ne, hopen]
      intro hsame
      rw [hfresh hsame.symm] at hclosed
      cases hclosed
    simp only [hexit, Bool.true_or, Bool.or_true]
  unfold rewriteRow
  rw [hbot, hfree, if_neg Bool.false_ne_true, if_neg Bool.false_ne_true, Option.bind_some]
  dsimp only
  rw [if_pos hdiffers]
  rfl

/-- A busy bot row is left alone. -/
theorem rewriteRow_of_busy {current : Position} {round : LedgerRound} {earlier : List LedgerRound}
    {meta' : RoundMetadata} {a : Option RoundAttribution} {busyMints : List String} {now : ℤ}
    (hbot : current.isWalletDerived = false) (hbusy : isBusy current busyMints = true) :
    rewriteRow current round earlier meta' a busyMints now = none := by
  unfold rewriteRow
  rw [hbot, hbusy, if_neg Bool.false_ne_true, if_pos rfl]

end ScreenerBot.Positions
