import Mathlib.Data.Finset.Insert
import ScreenerBot.Chain.Amount

/-! The verification queue: the items that wait for their swap to be verified, with retries. Times
are in seconds. -/
namespace ScreenerBot.Positions

inductive VerificationKind where
  | entry
  | exit
  deriving DecidableEq, Repr

/-- Maximum verification attempts before the item goes to its settlement by signature verdict. -/
def maxVerificationAttempts : ℕ := 40

def maxVerificationAgeHours : ℤ := 24

def backoffIntervalsSecs : List ℤ :=
  [5, 10, 15, 30, 60, 120, 300, 600, 900, 1800, 3600, 7200, 14400, 28800, 43200, 86400]

/-- The least wait before a settlement read may confirm a not-landed read. -/
def notLandedConfirmMinSecs : ℤ := 60

/-- The steps of `backoffIntervalsSecs` a deferral skips. -/
def notLandedStepOffset : ℕ := 4

def backoffMaxSecs : ℤ := 43200

/-- `u8::saturating_add`. -/
def saturatingAddU8 (a b : ℕ) : ℕ := min (a + b) 255

structure VerificationItem where
  signature : String
  mint : String
  positionId : Option ℤ
  kind : VerificationKind
  createdAt : ℤ
  lastAttemptAt : Option ℤ
  nextRetryAt : Option ℤ
  attempts : ℕ
  expiryHeight : Option ℕ
  isPartialExit : Bool
  expectedExitAmount : Option ℕ
  requestedExitPercentage : Option ℚ
  isDca : Bool
  /-- The swap is confirmed on chain, so the item is never settled as not landed. -/
  swapConfirmed : Bool
  /-- Consecutive settlement reads that found the swap did not land. -/
  notLandedReads : ℕ
  unbookedReported : Bool
  takeProfitLevel : Option ℕ
  deriving DecidableEq, Repr

/-- Why a verification gives up, and what becomes of an item whose transition failed to apply. -/
inductive GiveUpReason where
  | maxAttemptsReached (attempts max : ℕ)
  | maxAgeReached (ageHours max : ℤ)
  | applyRejected (error : String)
  deriving DecidableEq, Repr

inductive ApplyFailureDisposition where
  | requeue
  | giveUp (reason : GiveUpReason)
  | drop (reason : GiveUpReason)
  deriving DecidableEq, Repr

/-- Why applying a transition failed, and whether a retry may change that. -/
structure ApplyError where
  text : String
  retryable : Bool
  deriving DecidableEq, Repr

/-- When retry `step` of `signature` is due, with the jitter of the signature and the step. -/
def retryAt (jitter : String → ℕ → ℤ) (now : ℤ) (signature : String) (step : ℕ) : ℤ :=
  let backoff := backoffIntervalsSecs.getD (step - 1) backoffMaxSecs
  now + max 1 (backoff + jitter signature step)

namespace VerificationItem

def new (now : ℤ) (signature mint : String) (positionId : Option ℤ) (kind : VerificationKind)
    (expiryHeight : Option ℕ) : VerificationItem where
  signature := signature
  mint := mint
  positionId := positionId
  kind := kind
  createdAt := now
  lastAttemptAt := none
  nextRetryAt := none
  attempts := 0
  expiryHeight := expiryHeight
  isPartialExit := false
  expectedExitAmount := none
  requestedExitPercentage := none
  isDca := false
  swapConfirmed := false
  notLandedReads := 0
  unbookedReported := false
  takeProfitLevel := none

def newPartialExit (now : ℤ) (signature mint : String) (positionId : Option ℤ)
    (expectedExitAmount : ℕ) (exitPercentage : ℚ) (expiryHeight : Option ℕ) : VerificationItem :=
  { new now signature mint positionId .exit expiryHeight with
    isPartialExit := true
    expectedExitAmount := some expectedExitAmount
    requestedExitPercentage := some exitPercentage }

/-- The same item carrying the take-profit step its exit sells. -/
def withTakeProfitLevel (item : VerificationItem) (level : Option ℕ) : VerificationItem :=
  { item with takeProfitLevel := level }

def newDca (now : ℤ) (signature mint : String) (positionId : Option ℤ)
    (expiryHeight : Option ℕ) : VerificationItem :=
  { new now signature mint positionId .entry expiryHeight with isDca := true }

variable (jitter : String → ℕ → ℤ) (now : ℤ) (item : VerificationItem)

def shouldGiveUp : Option GiveUpReason :=
  if maxVerificationAttempts ≤ item.attempts then
    some (.maxAttemptsReached item.attempts maxVerificationAttempts)
  else
    let ageHours := (now - item.createdAt) / 3600
    if maxVerificationAgeHours ≤
      ageHours then some (.maxAgeReached ageHours maxVerificationAgeHours)
    else none

/-- A refusal that will not change drops the item; past the limits it goes to its settlement. -/
def applyFailureDisposition (error : ApplyError) : ApplyFailureDisposition :=
  if error.retryable then
    match item.shouldGiveUp now with
    | some reason => .giveUp reason
    | none => .requeue
  else .drop (.applyRejected error.text)

def withRetry : VerificationItem :=
  let nextAttempts := saturatingAddU8 item.attempts 1
  { item with
    lastAttemptAt := some now
    nextRetryAt := some (retryAt jitter now item.signature nextAttempts)
    attempts := nextAttempts }

/-- The item after a settlement read that could not be acted on yet. -/
def deferred : VerificationItem :=
  let reads := saturatingAddU8 item.notLandedReads 1
  let backoff := retryAt jitter now item.signature (saturatingAddU8 reads notLandedStepOffset)
  { item with
    nextRetryAt := some (max backoff (now + notLandedConfirmMinSecs))
    notLandedReads := reads }

/-- The previous settlement read already found the swap did not land. -/
def notLandedSeen : Bool := decide (0 < item.notLandedReads)

/-- Only an unconfirmed item with an expiry bound is settled by a signature verdict. -/
def awaitsSettlement : Bool := !item.swapConfirmed && item.expiryHeight.isSome

/-- The same verification started afresh, its flags, bound and confirmation kept. -/
def renewed : VerificationItem :=
  { item with createdAt := now, lastAttemptAt := none, nextRetryAt := none, attempts := 0 }

def isDue : Bool := item.nextRetryAt.all fun due => decide (due ≤ now)

end VerificationItem

structure VerificationQueue where
  items : List VerificationItem
  /-- Signatures dropped after a failed apply, refused for the rest of the session. -/
  abandoned : Finset String

namespace VerificationQueue

def new : VerificationQueue := ⟨[], ∅⟩

/-- Inserts the item unless its signature is already queued or abandoned. -/
def enqueue (queue : VerificationQueue) (item : VerificationItem) : VerificationQueue :=
  if item.signature ∈ queue.abandoned ∨ queue.items.any (·.signature == item.signature) then queue
  else { queue with items := queue.items ++ [item] }

def abandon (queue : VerificationQueue) (signature : String) : VerificationQueue :=
  { queue with abandoned := insert signature queue.abandoned }

/-- Due items first, then recent ones, then by age. -/
def pollOrder (now : ℤ) (a b : VerificationItem) : Ordering :=
  match a.isDue now, b.isDue now with
  | true, false => .lt
  | false, true => .gt
  | _, _ =>
    match decide (now - a.createdAt ≤ 60), decide (now - b.createdAt ≤ 60) with
    | true, false => .lt
    | false, true => .gt
    | _, _ => compare (now - a.createdAt) (now - b.createdAt)

/-- The first `limit` due items of a list, and the rest, each in order. -/
def drain (now : ℤ) : ℕ → List VerificationItem → List VerificationItem × List VerificationItem
  | _, [] => ([], [])
  | limit, item :: items =>
    if 0 < limit ∧ item.isDue now then
      let drained := drain now (limit - 1) items
      (item :: drained.1, drained.2)
    else
      let drained := drain now limit items
      (drained.1, item :: drained.2)

def pollBatch (queue : VerificationQueue) (now : ℤ) (limit : ℕ) :
    List VerificationItem × VerificationQueue :=
  let sorted := queue.items.mergeSort fun a b => pollOrder now a b != .gt
  let drained := drain now limit sorted
  (drained.1, { queue with items := drained.2 })

/-- Puts the item back with its next backoff. -/
def requeue (queue : VerificationQueue) (jitter : String → ℕ → ℤ) (now : ℤ)
    (item : VerificationItem) : VerificationQueue :=
  { queue with items := queue.items ++ [item.withRetry jitter now] }

/-- Removes the first item of a signature; whether there was one. -/
def remove (queue : VerificationQueue) (signature : String) : Bool × VerificationQueue :=
  (queue.items.any (·.signature == signature),
    { queue with items := queue.items.eraseP (·.signature == signature) })

def settlementCandidates (queue : VerificationQueue) (now : ℤ) : List VerificationItem :=
  queue.items.filter fun item => item.awaitsSettlement && item.isDue now

/-- Gives `bound` to the items of `signatures` that are still unconfirmed and unbounded. -/
def assignExpiryBound (queue : VerificationQueue) (bound : ℕ) (signatures : List String) :
    VerificationQueue :=
  { queue with items := queue.items.map fun item =>
      if !item.swapConfirmed && item.expiryHeight.isNone && signatures.contains item.signature then
        { item with expiryHeight := some bound }
      else item }

/-- The first item of a signature changed by `f`. -/
def updateFirst (f : VerificationItem → VerificationItem) (signature : String) :
    List VerificationItem → List VerificationItem
  | [] => []
  | item :: items =>
    if item.signature = signature then f item :: items else item :: updateFirst f signature items

def deferSettlement (queue : VerificationQueue) (jitter : String → ℕ → ℤ) (now : ℤ)
    (signature : String) : VerificationQueue :=
  { queue with items := updateFirst (·.deferred jitter now) signature queue.items }

def clearNotLanded (queue : VerificationQueue) (signature : String) : VerificationQueue :=
  { queue with items :=
      updateFirst (fun item => { item with notLandedReads := 0 }) signature queue.items }

def markSwapConfirmed (queue : VerificationQueue) (signature : String) : VerificationQueue :=
  { queue with items :=
      updateFirst (fun item => { item with swapConfirmed := true }) signature queue.items }

/-- The signatures of a list of items. -/
def signatures (items : List VerificationItem) : List String :=
  items.map VerificationItem.signature

theorem signature_mem {items : List VerificationItem} {item : VerificationItem} (h : item ∈ items) :
    item.signature ∈ signatures items := List.mem_map_of_mem h

theorem enqueue_items (queue : VerificationQueue) (item : VerificationItem) :
    (queue.enqueue item).items = queue.items ∨
      (queue.enqueue item).items = queue.items ++ [item] ∧
        item.signature ∉ signatures queue.items := by
  unfold enqueue
  split
  · exact .inl rfl
  next h =>
    refine .inr ⟨rfl, fun hmem => h (.inr ?_)⟩
    obtain ⟨queued, hqueued, hsignature⟩ := List.mem_map.mp hmem
    exact List.any_eq_true.mpr ⟨queued, hqueued, beq_iff_eq.mpr hsignature⟩

section UpdateFirst

variable {f : VerificationItem → VerificationItem} {signature : String}

theorem signatures_updateFirst (hf : ∀ item, (f item).signature = item.signature)
    (items : List VerificationItem) :
    signatures (updateFirst f signature items) = signatures items := by
  induction items with
  | nil => rfl
  | cons item items ih =>
    unfold updateFirst
    split
    · simp only [signatures, List.map_cons, hf]
    · simp only [signatures, List.map_cons] at ih ⊢
      rw [ih]

/-- Under distinct signatures the item of the signature changes, and no other. -/
theorem mem_updateFirst {items : List VerificationItem} {item found : VerificationItem}
    (hdistinct : (signatures items).Nodup) (hitem : item ∈ items)
    (hsignature : item.signature = signature) (h : found ∈ updateFirst f signature items) :
    found ∈ items ∧ found.signature ≠ signature ∨ found = f item := by
  induction items with
  | nil => cases hitem
  | cons first items ih =>
    obtain ⟨hnew, hdistinct⟩ := List.nodup_cons.mp hdistinct
    unfold updateFirst at h
    split at h
    next hfirst =>
      have hsame : item = first := by
        rcases List.mem_cons.mp hitem with rfl | hitem
        · rfl
        · have hmem := signature_mem hitem
          rw [hsignature, ← hfirst] at hmem
          exact absurd hmem hnew
      rcases List.mem_cons.mp h with rfl | h
      · exact .inr (by rw [hsame])
      · refine .inl ⟨List.mem_cons_of_mem _ h, fun hfound => hnew ?_⟩
        rw [hfirst, ← hfound]
        exact signature_mem h
    next hfirst =>
      rcases List.mem_cons.mp h with rfl | h
      · exact .inl ⟨List.mem_cons_self, hfirst⟩
      · have hitem : item ∈ items := by
          rcases List.mem_cons.mp hitem with rfl | hitem
          · exact absurd hsignature hfirst
          · exact hitem
        rcases ih hdistinct hitem h with ⟨hmem, hne⟩ | hf
        · exact .inl ⟨List.mem_cons_of_mem _ hmem, hne⟩
        · exact .inr hf

theorem mem_updateFirst_of_ne {items : List VerificationItem} {found : VerificationItem}
    (hfound : found ∈ items) (hne : found.signature ≠ signature) :
    found ∈ updateFirst f signature items := by
  induction items with
  | nil => cases hfound
  | cons first items ih =>
    unfold updateFirst
    rcases List.mem_cons.mp hfound with rfl | hfound
    · rw [if_neg hne]
      exact List.mem_cons_self
    · split
      · exact List.mem_cons_of_mem _ hfound
      · exact List.mem_cons_of_mem _ (ih hfound)

end UpdateFirst

theorem remove_sublist (queue : VerificationQueue) (signature : String) :
    (queue.remove signature).2.items.Sublist queue.items := List.eraseP_sublist

/-- Under distinct signatures nothing of a removed signature stays. -/
theorem signature_ne_of_remove {queue : VerificationQueue} {signature : String}
    (hdistinct : (signatures queue.items).Nodup) {found : VerificationItem}
    (h : found ∈ (queue.remove signature).2.items) : found.signature ≠ signature := by
  unfold remove at h
  dsimp only at h
  generalize queue.items = items at hdistinct h
  induction items with
  | nil => cases h
  | cons first items ih =>
    obtain ⟨hnew, hdistinct⟩ := List.nodup_cons.mp hdistinct
    by_cases hfirst : first.signature = signature
    · rw [List.eraseP_cons_of_pos (by simpa using hfirst)] at h
      intro hfound
      apply hnew
      rw [hfirst, ← hfound]
      exact signature_mem h
    · rw [List.eraseP_cons_of_neg (by simpa using hfirst)] at h
      rcases List.mem_cons.mp h with rfl | h
      · exact hfirst
      · exact ih hdistinct h

theorem mem_remove_of_ne {queue : VerificationQueue} {signature : String}
    {found : VerificationItem} (h : found ∈ queue.items) (hne : found.signature ≠ signature) :
    found ∈ (queue.remove signature).2.items :=
  (List.mem_eraseP_of_neg (by simpa using hne)).mpr h

theorem drain_perm (now : ℤ) (items : List VerificationItem) : ∀ limit : ℕ,
    ((drain now limit items).1 ++ (drain now limit items).2).Perm items := by
  induction items with
  | nil => intro limit; exact List.Perm.refl _
  | cons item items ih =>
    intro limit
    unfold drain
    split
    · exact (ih (limit - 1)).cons item
    · exact List.perm_middle.trans ((ih limit).cons item)

/-- A polled batch and what stays queued are the items queued before. -/
theorem pollBatch_perm (queue : VerificationQueue) (now : ℤ) (limit : ℕ) :
    ((queue.pollBatch now limit).1 ++ (queue.pollBatch now limit).2.items).Perm queue.items :=
  (drain_perm now _ limit).trans (List.mergeSort_perm ..)

end VerificationQueue

end ScreenerBot.Positions
