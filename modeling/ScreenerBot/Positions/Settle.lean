import ScreenerBot.Positions.Verification

/-! What the verdict of a signature means for the position of a queued item. -/
namespace ScreenerBot.Positions

/-- What one settlement read of the chain finds of a signature. -/
inductive SignatureVerdict where
  | landed
  | failedOnChain
  | pending
  | notLanded
  deriving DecidableEq, Repr

/-- What shows that a swap moved nothing. -/
inductive NotLandedEvidence where
  | failedOnChain
  | expired
  deriving DecidableEq, Repr

/-- The transitions of a swap that did not land. -/
inductive NotLandedTransition where
  | dcaFailed (positionId : ℤ) (dcaSignature reason : String)
  | removeOrphanEntry (positionId : ℤ) (signature : String) (evidence : NotLandedEvidence)
  | partialExitFailed (positionId : ℤ) (reason : String)
  | exitFailedClearForRetry (positionId : ℤ) (exitSignature : String)
  deriving DecidableEq, Repr

/-- What a signature verdict means for the verification of one queued item. -/
inductive Disposition where
  | requeue (swapConfirmed : Bool)
  | defer
  | apply (transition : NotLandedTransition)
  deriving DecidableEq, Repr

def NotLandedEvidence.reason : NotLandedEvidence → String
  | failedOnChain => "The transaction failed on chain"
  | expired => "The transaction expired without landing"

/-- The transition of an item whose swap did not land; an expired entry is removed only when the
holding attributable to it is known to be dust. -/
def notLandedDisposition (item : VerificationItem) (positionId : ℤ) (evidence : NotLandedEvidence)
    (attributableIsDust : Option Bool) : Disposition :=
  match item.kind with
  | .entry =>
    if item.isDca then .apply (.dcaFailed positionId item.signature evidence.reason)
    else if evidence = .expired ∧ attributableIsDust ≠ some true then .defer
    else .apply (.removeOrphanEntry positionId item.signature evidence)
  | .exit =>
    if item.isPartialExit then .apply (.partialExitFailed positionId evidence.reason)
    else .apply (.exitFailedClearForRetry positionId item.signature)

/-- The single owner of what a settled signature means for a position. -/
def disposition (item : VerificationItem) (verdict : SignatureVerdict)
    (attributableIsDust : Option Bool) : Disposition :=
  match item.positionId with
  | none => .requeue (item.swapConfirmed || verdict == .landed)
  | some positionId =>
    if item.swapConfirmed then .requeue true
    else match verdict with
      | .landed => .requeue true
      | .pending => .requeue false
      | .failedOnChain => notLandedDisposition item positionId .failedOnChain attributableIsDust
      | .notLanded =>
        if item.notLandedSeen then notLandedDisposition item positionId .expired attributableIsDust
        else .defer

/-- The step the settlement of a failed partial exit first returns to its position's ladder. -/
def settlementRelease (item : VerificationItem) (transition : NotLandedTransition) :
    Option (ℤ × ℕ) :=
  match item.takeProfitLevel, transition with
  | some level, .partialExitFailed positionId _ => some (positionId, level)
  | _, _ => none

/-- The dust reading an entry needs on its second consecutive not-landed read. -/
def needsDust (item : VerificationItem) (verdict : SignatureVerdict) : Bool :=
  item.kind == .entry && !item.isDca && verdict == .notLanded && item.notLandedSeen

/-- A read that found the swap moved nothing. -/
def SignatureVerdict.didNotLand : SignatureVerdict → Bool
  | failedOnChain | notLanded => true
  | landed | pending => false

/-- The evidence a read gives: a failure at once, an expiry only after an earlier such read. -/
def Shows (item : VerificationItem) (verdict : SignatureVerdict) : NotLandedEvidence → Prop
  | .failedOnChain => verdict = .failedOnChain
  | .expired => verdict = .notLanded ∧ item.notLandedSeen = true

/-- A settlement acts only on an unconfirmed item, and only on what its reads show. -/
theorem disposition_apply {item : VerificationItem} {verdict : SignatureVerdict}
    {dust : Option Bool} {transition : NotLandedTransition}
    (h : disposition item verdict dust = .apply transition) :
    item.swapConfirmed = false ∧ ∃ positionId evidence, Shows item verdict evidence ∧
      notLandedDisposition item positionId evidence dust = .apply transition := by
  unfold disposition at h
  cases hposition : item.positionId with
  | none =>
    rw [hposition] at h
    cases h
  | some positionId =>
    rw [hposition] at h
    cases hconfirmed : item.swapConfirmed with
    | true =>
      simp only [hconfirmed] at h
      cases h
    | false =>
      refine ⟨rfl, positionId, ?_⟩
      simp only [hconfirmed, Bool.false_eq_true, if_false] at h
      cases verdict with
      | landed | pending => cases h
      | failedOnChain => exact ⟨.failedOnChain, rfl, h⟩
      | notLanded =>
        cases hseen : item.notLandedSeen with
        | true =>
          simp only [hseen, if_true] at h
          exact ⟨.expired, ⟨rfl, hseen⟩, h⟩
        | false =>
          simp only [hseen] at h
          cases h

/-- A read whose disposition acts found that the swap did not land. -/
theorem Shows.didNotLand {item : VerificationItem} {verdict : SignatureVerdict}
    {evidence : NotLandedEvidence} (h : Shows item verdict evidence) :
      verdict.didNotLand = true := by
  cases evidence with
  | failedOnChain =>
    rw [show verdict = .failedOnChain from h]
    rfl
  | expired =>
    rw [h.1]
    rfl

/-- A deferral follows a not-landed read. -/
theorem disposition_defer {item : VerificationItem} {verdict : SignatureVerdict}
    {dust : Option Bool} (h : disposition item verdict dust = .defer) :
      verdict.didNotLand = true := by
  unfold disposition at h
  cases hposition : item.positionId with
  | none =>
    rw [hposition] at h
    cases h
  | some positionId =>
    rw [hposition] at h
    cases hconfirmed : item.swapConfirmed with
    | true =>
      simp only [hconfirmed] at h
      cases h
    | false =>
      simp only [hconfirmed, Bool.false_eq_true, if_false] at h
      cases verdict with
      | landed | pending => cases h
      | failedOnChain | notLanded => rfl

/-- A requeue confirms the item when its read landed or an earlier one did. -/
theorem disposition_requeue {item : VerificationItem} {verdict : SignatureVerdict}
    {dust : Option Bool} {swapConfirmed : Bool}
    (h : disposition item verdict dust = .requeue swapConfirmed) :
    swapConfirmed = (item.swapConfirmed || verdict == .landed) := by
  unfold disposition at h
  cases hposition : item.positionId with
  | none =>
    rw [hposition] at h
    exact (Disposition.requeue.inj h).symm
  | some positionId =>
    rw [hposition] at h
    cases hconfirmed : item.swapConfirmed with
    | true =>
      simp only [hconfirmed, if_true] at h
      exact (Disposition.requeue.inj h).symm
    | false =>
      simp only [hconfirmed, Bool.false_eq_true, if_false] at h
      have hacts : ∀ evidence, notLandedDisposition item positionId evidence dust ≠
          .requeue swapConfirmed := by
        intro evidence hacts
        unfold notLandedDisposition at hacts
        split at hacts <;> split at hacts
        · cases hacts
        · split at hacts <;> cases hacts
        · cases hacts
        · cases hacts
      cases verdict with
      | landed | pending => exact (Disposition.requeue.inj h).symm
      | failedOnChain => exact absurd h (hacts _)
      | notLanded =>
        cases hseen : item.notLandedSeen with
        | true =>
          simp only [hseen, if_true] at h
          exact absurd h (hacts _)
        | false =>
          simp only [hseen] at h
          cases h

/-- An entry removed as orphan is its own, and one that expired was read as dust. -/
theorem notLanded_orphan {item : VerificationItem} {owner positionId : ℤ}
    {found evidence : NotLandedEvidence} {dust : Option Bool} {signature : String}
    (h : notLandedDisposition item owner found dust =
      .apply (.removeOrphanEntry positionId signature evidence)) :
    signature = item.signature ∧ evidence = found ∧ item.kind = .entry ∧ item.isDca = false ∧
      (found = .expired → dust = some true) := by
  unfold notLandedDisposition at h
  cases hkind : item.kind with
  | exit =>
    simp only [hkind] at h
    split at h <;> cases h
  | entry =>
    simp only [hkind] at h
    cases hdca : item.isDca with
    | true =>
      simp only [hdca, if_true] at h
      cases h
    | false =>
      simp only [hdca, Bool.false_eq_true, if_false] at h
      split at h
      · cases h
      next hdust =>
        cases h
        refine ⟨rfl, rfl, rfl, rfl, fun he => ?_⟩
        by_contra hne
        exact hdust ⟨he, hne⟩

end ScreenerBot.Positions
