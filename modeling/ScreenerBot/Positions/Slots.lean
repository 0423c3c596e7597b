import Mathlib
import ScreenerBot.Library.Run

/-! The position slots: the semaphore of open permits and the registry of the positions that hold
one. -/
namespace ScreenerBot.Positions

open ScreenerBot.Library

/-- The semaphore and the slot registry, with the permits that are out. -/
structure Slots where
  /-- The capacity the semaphore was made with. A configuration that changes later is not read again
  here: a reconcile is told its own `maxOpen`. -/
  maximum : ℕ
  available : ℕ
  /-- Permits an open holds and returns when it ends early. -/
  inHand : ℕ
  /-- Opens that forgot their permit and have not registered their position yet. -/
  unregistered : ℕ
  holders : Finset ℤ
  /-- Permits forgotten and not added back. -/
  consumed : ℕ
  deriving DecidableEq

namespace Slots

/-- `init_global_position_semaphore`. -/
def initial (maximum : ℕ) : Slots := ⟨maximum, maximum, 0, 0, ∅, 0⟩

/-- `try_acquire`, the permit kept by the open; refused when none is available. -/
def acquireGlobalPositionPermit (s : Slots) : Slots :=
  if s.available = 0 then s else { s with available := s.available - 1, inHand := s.inHand + 1 }

/-- An open that ends early drops its permit. -/
def dropPermit (s : Slots) : Slots :=
  if s.inHand = 0 then s else { s with available := s.available + 1, inHand := s.inHand - 1 }

/-- An open whose position was added forgets its permit. -/
def forgetPermit (s : Slots) : Slots :=
  if s.inHand = 0 then s
  else { s with
    inHand := s.inHand - 1
    unregistered := s.unregistered + 1
    consumed := s.consumed + 1 }

/-- The open that forgot its permit registers its position. -/
def registerPositionSlot (s : Slots) (positionId : ℤ) : Slots :=
  if s.unregistered = 0 then s
  else { s with unregistered := s.unregistered - 1, holders := insert positionId s.holders }

def releaseGlobalPositionPermits (s : Slots) (count : ℕ) : Slots :=
  { s with available := s.available + count, consumed := s.consumed - count }

/-- Frees the slot held by a position, at most once. -/
def releasePositionSlot (s : Slots) (positionId : ℤ) : Slots :=
  if positionId ∈ s.holders then
    releaseGlobalPositionPermits { s with holders := s.holders.erase positionId } 1
  else s

/-- `try_acquire` and `forget`, `count` times or until none is available. -/
def consumePermits (s : Slots) (count : ℕ) : Slots :=
  { s with
    available := s.available - min count s.available
    consumed := s.consumed + min count s.available }

/-- A position re-enters active management; one that is wallet-derived, has no id or holds a slot
already consumes none. -/
def reclaimPositionSlot (s : Slots) (positionId : Option ℤ) (walletDerived : Bool) : Slots :=
  match positionId with
  | none => s
  | some id =>
    if walletDerived then s
    else if id ∈ s.holders then s
    else if s.available = 0 then s
    else { consumePermits s 1 with holders := insert id s.holders }

/-- The registry is rebuilt from the ids of the open positions. -/
def rebuildPositionSlotHolders (s : Slots) (openIds : Finset ℤ) : Slots :=
  { s with holders := openIds }

/-- Subtraction of machine words without overflow checks. -/
def wrappingSub (a b : ℕ) : ℕ := if b ≤ a then a - b else a + 2 ^ 64 - b

/-- The audit of the semaphore against `openCount` positions that consume capacity: permits that are
consumed beyond them are released, else one permit is consumed for each of them. -/
def reconcileGlobalPositionSemaphore (s : Slots) (maxOpen openCount : ℕ) : Slots :=
  let consumedBefore := wrappingSub maxOpen s.available
  if openCount < consumedBefore then releaseGlobalPositionPermits s (consumedBefore - openCount)
  else if openCount = 0 then s
  else consumePermits s openCount

end Slots

/-- The calls on the slots; what a call reads of the positions is its argument. -/
inductive SlotAction where
  | acquire
  | drop
  | forget
  | register (positionId : ℤ)
  | release (positionId : ℤ)
  | reclaim (positionId : Option ℤ) (walletDerived : Bool)
  | rebuild (openIds : Finset ℤ)
  | reconcile (maxOpen openCount : ℕ)

namespace Slots

def step (s : Slots) : SlotAction → Slots
  | .acquire => s.acquireGlobalPositionPermit
  | .drop => s.dropPermit
  | .forget => s.forgetPermit
  | .register positionId => s.registerPositionSlot positionId
  | .release positionId => s.releasePositionSlot positionId
  | .reclaim positionId walletDerived => s.reclaimPositionSlot positionId walletDerived
  | .rebuild openIds => s.rebuildPositionSlotHolders openIds
  | .reconcile maxOpen openCount => s.reconcileGlobalPositionSemaphore maxOpen openCount

/-- The registered holders that own a permit: no more of them than permits consumed. -/
def owning (s : Slots) : ℕ := min s.holders.card s.consumed

/-- No more than the maximum of open positions has a permit or can still get one. -/
def WithinMaximum (s : Slots) : Prop := s.available + s.inHand + s.owning ≤ s.maximum

/-- The start of a run whose store holds more open positions than slots: two of them close, and two
permits are free where there is one slot. -/
theorem overfull_store_frees_too_many :
    ¬ WithinMaximum ([.reconcile 1 3, .rebuild {1, 2, 3}, .release 1, .release 2].foldl step
      (initial 1)) := by
  unfold WithinMaximum
  decide

/-- Every permit is available, in hand or consumed, and each holder and each open about to register
owns a consumed one. -/
structure Owned (s : Slots) : Prop where
  balance : s.available + s.inHand + s.consumed = s.maximum
  holders : s.holders.card + s.unregistered ≤ s.consumed

theorem Owned.within {s : Slots} (h : s.Owned) : s.WithinMaximum := by
  have hbalance := h.balance
  unfold WithinMaximum owning
  omega

/-- A rebuild registers no more positions than permits are consumed for them, and a reconcile is
told no smaller a maximum than is available and releases no permit that is in hand or owned. -/
def Covers (s : Slots) : SlotAction → Prop
  | .rebuild openIds => openIds.card + s.unregistered ≤ s.consumed
  | .reconcile maxOpen openCount => s.available ≤ maxOpen ∧
      (openCount < maxOpen - s.available →
        maxOpen - openCount + s.inHand + s.holders.card + s.unregistered ≤ s.maximum)
  | _ => True

instance (s : Slots) (action : SlotAction) : Decidable (s.Covers action) := by
  cases action <;> unfold Covers <;> infer_instance

theorem initial_owned (maximum : ℕ) : (initial maximum).Owned :=
  ⟨by simp [initial], by simp [initial]⟩

theorem Owned.acquire {s : Slots} (h : s.Owned) : s.acquireGlobalPositionPermit.Owned := by
  obtain ⟨hbalance, hholders⟩ := h
  unfold acquireGlobalPositionPermit
  split
  · exact ⟨hbalance, hholders⟩
  · constructor
    · dsimp only
      omega
    · exact hholders

theorem Owned.drop {s : Slots} (h : s.Owned) : s.dropPermit.Owned := by
  obtain ⟨hbalance, hholders⟩ := h
  unfold dropPermit
  split
  · exact ⟨hbalance, hholders⟩
  · constructor
    · dsimp only
      omega
    · exact hholders

theorem Owned.forget {s : Slots} (h : s.Owned) : s.forgetPermit.Owned := by
  obtain ⟨hbalance, hholders⟩ := h
  unfold forgetPermit
  split
  · exact ⟨hbalance, hholders⟩
  · constructor
    · dsimp only
      omega
    · dsimp only
      omega

/-- The permit a registered position owns is the one its open forgot. -/
theorem Owned.register {s : Slots} (h : s.Owned) (positionId : ℤ) :
    (s.registerPositionSlot positionId).Owned := by
  obtain ⟨hbalance, hholders⟩ := h
  unfold registerPositionSlot
  split
  · exact ⟨hbalance, hholders⟩
  · have hcard := Finset.card_insert_le positionId s.holders
    constructor
    · exact hbalance
    · dsimp only
      omega

/-- A released permit is one of the consumed, and its owner is a holder no longer. -/
theorem Owned.release {s : Slots} (h : s.Owned) (positionId : ℤ) :
    (s.releasePositionSlot positionId).Owned := by
  obtain ⟨hbalance, hholders⟩ := h
  unfold releasePositionSlot
  split
  next hmem =>
    have hcard := Finset.card_erase_add_one hmem
    constructor
    · simp only [releaseGlobalPositionPermits]
      omega
    · simp only [releaseGlobalPositionPermits]
      omega
  next => exact ⟨hbalance, hholders⟩

theorem Owned.consume {s : Slots} (h : s.Owned) (count : ℕ) : (s.consumePermits count).Owned := by
  obtain ⟨hbalance, hholders⟩ := h
  constructor
  · simp only [consumePermits]
    omega
  · simp only [consumePermits]
    omega

theorem Owned.reclaim {s : Slots} (h : s.Owned) (positionId : Option ℤ) (walletDerived : Bool) :
    (s.reclaimPositionSlot positionId walletDerived).Owned := by
  cases positionId with
  | none => exact h
  | some id =>
    unfold reclaimPositionSlot
    dsimp only
    split
    · exact h
    · split
      · exact h
      · split
        · exact h
        · have hcard := Finset.card_insert_le id s.holders
          obtain ⟨hbalance, hholders⟩ := h
          constructor
          · simp only [consumePermits]
            omega
          · simp only [consumePermits]
            omega

theorem Owned.reconcile {s : Slots} (h : s.Owned) {maxOpen openCount : ℕ}
    (hcovers : s.Covers (.reconcile maxOpen openCount)) :
    (s.reconcileGlobalPositionSemaphore maxOpen openCount).Owned := by
  obtain ⟨hle, hleaked⟩ := hcovers
  unfold reconcileGlobalPositionSemaphore
  rw [wrappingSub, if_pos hle]
  dsimp only
  split
  next hlt =>
    have hspare := hleaked hlt
    obtain ⟨hbalance, hholders⟩ := h
    constructor
    · simp only [releaseGlobalPositionPermits]
      omega
    · simp only [releaseGlobalPositionPermits]
      omega
  next =>
    split
    · exact h
    · exact h.consume openCount

theorem Owned.step {s : Slots} {action : SlotAction} (h : s.Owned) (hcovers : s.Covers action) :
    (s.step action).Owned := by
  cases action with
  | acquire => exact h.acquire
  | drop => exact h.drop
  | forget => exact h.forget
  | register positionId => exact h.register positionId
  | release positionId => exact h.release positionId
  | reclaim positionId walletDerived => exact h.reclaim positionId walletDerived
  | rebuild openIds => exact ⟨h.balance, hcovers⟩
  | reconcile maxOpen openCount => exact h.reconcile hcovers

/-- In every run whose rebuilds and reconciles are covered by permits, the permits that are
available, in hand and owned stay within the maximum in every state. -/
theorem slots_within_maximum (maximum : ℕ) (actions : List SlotAction)
    (h : ∀ p ∈ visited step (initial maximum) actions, p.1.Covers p.2) :
    ∀ taken, taken <+: actions → WithinMaximum (taken.foldl step (initial maximum)) := by
  intro taken htaken
  have howned := reached_invariant step Owned (initial_owned maximum)
    (fun p hp hinv => hinv.step (h p hp)) taken htaken
  exact howned.within

/-- A restart with one open position of two, an open beside it, and the close of both. -/
theorem slots_within_maximum_restarted :
    (∀ p ∈ visited step (initial 2) [.reconcile 2 1, .rebuild {7}, .acquire, .forget, .register 8,
      .release 7, .release 8], p.1.Covers p.2) ∧
    ∀ taken, taken <+: [.reconcile 2 1, .rebuild {7}, .acquire, .forget, .register 8, .release 7,
      .release 8] → WithinMaximum (taken.foldl step (initial 2)) :=
  ⟨by decide, slots_within_maximum 2 _ (by decide)⟩

end Slots

end ScreenerBot.Positions
