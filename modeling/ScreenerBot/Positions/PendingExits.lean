import Mathlib.Logic.Function.Basic
import ScreenerBot.Chain.Amount
import ScreenerBot.Library.Keyed
import ScreenerBot.Library.Run

/-! The partial exits in flight: a count for each mint, and the details of each sent signature. -/
namespace ScreenerBot.Positions

open ScreenerBot.Library

/-- A sent partial exit that is not verified yet. -/
structure PendingPartialExit where
  signature : String
  mint : String
  positionId : ℤ
  expectedExitAmount : ℕ
  requestedExitPercentage : ℚ
  expiryHeight : Option ℕ
  takeProfitLevel : Option ℕ
  deriving DecidableEq, Repr

/-- The registry in memory, the set it last stored, and the marks of exits about to be sent. -/
structure PendingExits where
  counters : String → ℕ
  details : AList fun _ : String => PendingPartialExit
  stored : List PendingPartialExit
  /-- Marks taken before a send under the mint's lock, until the exit is registered or given up. -/
  sending : String → ℕ

namespace PendingExits

def empty : PendingExits := ⟨fun _ => 0, ∅, [], fun _ => 0⟩

/-- The partial exits of a mint in flight: registered details and marks of exits being sent. -/
def inFlight (s : PendingExits) (mint : String) : ℕ :=
  ((values s.details).map PendingPartialExit.mint).count mint + s.sending mint

def persistPendingPartialExits (s : PendingExits) (persisted : Bool) : PendingExits :=
  if persisted then { s with stored := values s.details } else s

/-- The counter of a mint grows by one. -/
def count (counters : String → ℕ) (mint : String) : String → ℕ :=
  Function.update counters mint (counters mint + 1)

/-- The counter of a mint falls by one, and is removed at zero. -/
def discount (counters : String → ℕ) (mint : String) : String → ℕ :=
  Function.update counters mint (counters mint - 1)

def clearPartialExitPending (s : PendingExits) (mint : String) : PendingExits :=
  { s with counters := discount s.counters mint }

/-- `mark_partial_exit_pending`, before the first send. -/
def markPartialExitPending (s : PendingExits) (mint : String) : PendingExits :=
  { s with
    counters := count s.counters mint
    sending := Function.update s.sending mint (s.sending mint + 1) }

/-- A marked exit that was sent is registered; memory keeps it whether or not it persists. -/
def registerPendingPartialExit (s : PendingExits) (entry : PendingPartialExit)
    (persisted : Bool) : PendingExits :=
  if s.sending entry.mint = 0 then s
  else persistPendingPartialExits { s with
    details := s.details.insert entry.signature entry
    sending := Function.update s.sending entry.mint (s.sending entry.mint - 1) } persisted

/-- A marked exit whose send failed is recorded or held, and its mark cleared. -/
def giveUpSending (s : PendingExits) (mint : String) : PendingExits :=
  if s.sending mint = 0 then s
  else clearPartialExitPending
    { s with sending := Function.update s.sending mint (s.sending mint - 1) } mint

/-- The details of a processed exit are removed, and put back when that cannot be stored; whether
it succeeded. -/
def clearPendingPartialExit (s : PendingExits) (signature : String) (persisted : Bool) :
    PendingExits × Bool :=
  match s.details.lookup signature with
  | none => (s, true)
  | some entry =>
    let removed := { s with details := s.details.erase signature }
    if persisted then (persistPendingPartialExits removed true, true)
    else ({ removed with details := removed.details.insert entry.signature entry }, false)

/-- What a verified partial exit does here, booked now or found booked already: the counter of its
mint falls once the details are gone. -/
def partialExitVerified (s : PendingExits) (mint signature : String) (persisted : Bool) :
    PendingExits :=
  let cleared := s.clearPendingPartialExit signature persisted
  if cleared.2 then clearPartialExitPending cleared.1 mint else cleared.1

/-- Drops every pending partial exit recorded for a mint. -/
def clearPendingPartialExitsForMint (s : PendingExits) (mint : String) (persisted : Bool) :
    PendingExits :=
  let removed := (values s.details).filter fun entry => entry.mint == mint
  let cleared := { s with
    details := retain (fun entry => entry.mint != mint) s.details
    counters := Function.update s.counters mint 0 }
  if removed.isEmpty then cleared else persistPendingPartialExits cleared persisted

/-- A failed partial exit clears its mint. It is settled under the mint's lock, so no exit of the
mint is being sent. -/
def partialExitFailed (s : PendingExits) (mint : String) (persisted : Bool) : PendingExits :=
  if s.sending mint ≠ 0 then s
  else clearPartialExitPending (s.clearPendingPartialExitsForMint mint persisted) mint

/-- A deleted position's exits are dropped, the counter of a mint falling once for each. -/
def clearPendingSwapsOfPosition (s : PendingExits) (positionId : ℤ) (persisted : Bool) :
    PendingExits :=
  let removed := (values s.details).filter fun entry => entry.positionId == positionId
  let cleared := { s with
    details := retain (fun entry => entry.positionId != positionId) s.details
    counters := (removed.map PendingPartialExit.mint).foldl discount s.counters }
  if removed.isEmpty then cleared else persistPendingPartialExits cleared persisted

/-- A restart loads the stored set, without the exits of deleted positions. -/
def rehydratePendingPartialExits (s : PendingExits) (readable : Bool) (deleted : ℤ → Bool)
    (persisted : Bool) : PendingExits :=
  let fresh := { empty with stored := s.stored }
  if readable then
    let entries := s.stored.filter fun entry => !deleted entry.positionId
    let loaded := { fresh with
      details := insertAll PendingPartialExit.signature entries ∅
      counters := (entries.map PendingPartialExit.mint).foldl count fresh.counters }
    if entries.length = s.stored.length then loaded else persistPendingPartialExits loaded persisted
  else fresh

end PendingExits

/-- What happens to partial exits, with whether each change of the set could be stored. -/
inductive PendingAction where
  | mark (mint : String)
  | register (entry : PendingPartialExit) (persisted : Bool)
  | giveUp (mint : String)
  | verified (mint signature : String) (persisted : Bool)
  | failed (mint signature : String) (persisted : Bool)
  | clearPosition (positionId : ℤ) (persisted : Bool)
  | restart (readable : Bool) (deleted : ℤ → Bool) (persisted : Bool)

/-- The signature an action settles. -/
def PendingAction.settles : PendingAction → Option String
  | verified _ signature _ => some signature
  | failed _ signature _ => some signature
  | _ => none

namespace PendingExits

def step (s : PendingExits) : PendingAction → PendingExits
  | .mark mint => s.markPartialExitPending mint
  | .register entry persisted => s.registerPendingPartialExit entry persisted
  | .giveUp mint => s.giveUpSending mint
  | .verified mint signature persisted => s.partialExitVerified mint signature persisted
  | .failed mint _ persisted => s.partialExitFailed mint persisted
  | .clearPosition positionId persisted => s.clearPendingSwapsOfPosition positionId persisted
  | .restart readable deleted persisted =>
    s.rehydratePendingPartialExits readable deleted persisted

/-- The counter of every mint is the number of its partial exits in flight. -/
def Balanced (s : PendingExits) : Prop := ∀ mint, s.counters mint = s.inFlight mint

/-- Nothing of the other signatures changes: their details, and what they count of each mint. -/
def LeavesOthers (s s' : PendingExits) (signature : String) : Prop :=
  (∀ other ≠ signature, s'.details.lookup other = s.details.lookup other) ∧
  ∀ mint, ((values (s'.details.erase signature)).map PendingPartialExit.mint).count mint +
      s'.sending mint =
    ((values (s.details.erase signature)).map PendingPartialExit.mint).count mint + s.sending mint

/-- A registered signature is new, a verified one is registered on the mint or nothing of the mint
is counted, and a failed one is the only registered one of its mint. -/
def Covers (s : PendingExits) : PendingAction → Prop
  | .register entry _ => s.details.lookup entry.signature = none
  | .verified mint signature persisted =>
    match s.details.lookup signature with
    | none => s.counters mint = 0
    | some entry => persisted = true → entry.mint = mint
  | .failed mint signature _ =>
    ∀ other entry, s.details.lookup other = some entry → entry.mint = mint → other = signature
  | _ => True

/-- A partial exit in flight while a close of the same position settles: the close left a residual,
so what it sold is booked as a partial exit of its own signature, and the counter of the mint falls
to nothing with the partial exit still registered. -/
theorem residual_uncounts_partial :
    ¬ Balanced ([.mark "mint",
      .register ⟨"partial-sig", "mint", 7, 500, 50, some 100, none⟩ true,
      .verified "mint" "close-sig" true].foldl step empty) := by
  intro h
  exact absurd (h "mint") (by decide)

/-- What the registry keeps: the counters are right, and its entries carry the signature they are
under, in memory and in storage. -/
structure Tracked (s : PendingExits) : Prop where
  balanced : s.Balanced
  keyed : ∀ signature entry, s.details.lookup signature = some entry → entry.signature = signature
  distinct : (s.stored.map PendingPartialExit.signature).Nodup

theorem empty_tracked : empty.Tracked where
  balanced := by intro mint; rfl
  keyed := by intro signature entry h; cases h
  distinct := List.nodup_nil

/-- Storing the set changes nothing in memory, and what is stored carries distinct signatures. -/
theorem Tracked.persist {s : PendingExits} (h : s.Tracked) (persisted : Bool) :
    (s.persistPendingPartialExits persisted).Tracked := by
  unfold persistPendingPartialExits
  split
  · refine ⟨h.balanced, h.keyed, ?_⟩
    rw [values_map_of_keyed PendingPartialExit.signature h.keyed]
    exact s.details.keys_nodup
  · exact h

@[simp] theorem persist_details (s : PendingExits) (persisted : Bool) :
    (s.persistPendingPartialExits persisted).details = s.details := by
  unfold persistPendingPartialExits
  split <;> rfl

@[simp] theorem persist_sending (s : PendingExits) (persisted : Bool) :
    (s.persistPendingPartialExits persisted).sending = s.sending := by
  unfold persistPendingPartialExits
  split <;> rfl

theorem count_apply (counters : String → ℕ) (mint other : String) :
    count counters mint other = counters other + if mint = other then 1 else 0 := by
  unfold count
  by_cases h : mint = other
  · subst h
    simp
  · rw [Function.update_of_ne (Ne.symm h), if_neg h, Nat.add_zero]

theorem discount_apply (counters : String → ℕ) (mint other : String) :
    discount counters mint other = counters other - if mint = other then 1 else 0 := by
  unfold discount
  by_cases h : mint = other
  · subst h
    simp
  · rw [Function.update_of_ne (Ne.symm h), if_neg h, Nat.sub_zero]

theorem foldl_count_apply (mints : List String) : ∀ (counters : String → ℕ) (other : String),
    mints.foldl count counters other = counters other + mints.count other := by
  induction mints with
  | nil => intro counters other; rfl
  | cons mint mints ih =>
    intro counters other
    rw [List.foldl_cons, ih, count_apply, List.count_cons]
    simp only [beq_iff_eq]
    omega

theorem foldl_discount_apply (mints : List String) : ∀ (counters : String → ℕ) (other : String),
    mints.foldl discount counters other = counters other - mints.count other := by
  induction mints with
  | nil => intro counters other; rfl
  | cons mint mints ih =>
    intro counters other
    rw [List.foldl_cons, ih, discount_apply, List.count_cons]
    simp only [beq_iff_eq]
    omega

theorem Tracked.mark {s : PendingExits} (h : s.Tracked) (mint : String) :
    (s.markPartialExitPending mint).Tracked := by
  refine ⟨?_, h.keyed, h.distinct⟩
  intro other
  have hother := h.balanced other
  simp only [markPartialExitPending, inFlight, count_apply] at hother ⊢
  by_cases he : mint = other
  · subst he
    rw [Function.update_self, if_pos rfl]
    omega
  · rw [Function.update_of_ne (Ne.symm he), if_neg he]
    omega

/-- A mark given up or turned into details is one mark less of its mint. -/
theorem sending_unmarked {s : PendingExits} {mint : String} (h : s.sending mint ≠ 0)
    (other : String) :
    Function.update s.sending mint (s.sending mint - 1) other + (if mint = other then 1 else 0) =
      s.sending other := by
  by_cases he : mint = other
  · subst he
    rw [Function.update_self, if_pos rfl]
    omega
  · rw [Function.update_of_ne (Ne.symm he), if_neg he, Nat.add_zero]

theorem Tracked.register {s : PendingExits} (h : s.Tracked) {entry : PendingPartialExit}
    (hnew : s.details.lookup entry.signature = none) (persisted : Bool) :
    (s.registerPendingPartialExit entry persisted).Tracked := by
  unfold registerPendingPartialExit
  split
  · exact h
  next hsending =>
    apply Tracked.persist
    refine ⟨?_, ?_, h.distinct⟩
    · intro other
      have hother := h.balanced other
      have hmark := sending_unmarked hsending other
      simp only [inFlight, values_insert, erase_of_lookup_none hnew, List.map_cons, List.count_cons,
        beq_iff_eq] at hother ⊢
      omega
    · intro signature found hfound
      rcases lookup_insert_cases hfound with ⟨rfl, rfl⟩ | ⟨-, hfound⟩
      · rfl
      · exact h.keyed signature found hfound

theorem Tracked.giveUp {s : PendingExits} (h : s.Tracked) (mint : String) :
    (s.giveUpSending mint).Tracked := by
  unfold giveUpSending
  split
  · exact h
  next hsending =>
    refine ⟨?_, h.keyed, h.distinct⟩
    intro other
    have hother := h.balanced other
    have hmark := sending_unmarked hsending other
    simp only [clearPartialExitPending, inFlight, discount_apply] at hother ⊢
    omega

/-- The details of a signature put back where they were. -/
theorem lookup_put_back {s : PendingExits} {signature : String} {entry : PendingPartialExit}
    (hentry : s.details.lookup signature = some entry) (hkey : entry.signature = signature)
    (other : String) :
    ((s.details.erase signature).insert entry.signature entry).lookup other =
      s.details.lookup other := by
  rw [hkey]
  by_cases he : other = signature
  · rw [he, AList.lookup_insert, hentry]
  · rw [AList.lookup_insert_ne he, AList.lookup_erase_ne he]

theorem Tracked.verified {s : PendingExits} (h : s.Tracked) {mint signature : String}
    {persisted : Bool} (hcovers : s.Covers (.verified mint signature persisted)) :
    (s.partialExitVerified mint signature persisted).Tracked := by
  unfold Covers at hcovers
  dsimp only at hcovers
  unfold partialExitVerified clearPendingPartialExit
  cases hentry : s.details.lookup signature with
  | none =>
    rw [hentry] at hcovers
    refine ⟨?_, h.keyed, h.distinct⟩
    intro other
    have hother := h.balanced other
    simp only [if_true, clearPartialExitPending, discount_apply, inFlight] at hother ⊢
    by_cases he : mint = other
    · subst he
      simp only at hcovers
      omega
    · rw [if_neg he]
      exact hother
  | some entry =>
    rw [hentry] at hcovers
    have hkey := h.keyed signature entry hentry
    cases persisted with
    | true =>
      have hmint : entry.mint = mint := hcovers rfl
      simp only [if_true, clearPartialExitPending, persistPendingPartialExits]
      refine ⟨?_, ?_, ?_⟩
      · intro other
        have hother := h.balanced other
        have hcount := count_values_of_lookup PendingPartialExit.mint hentry other
        simp only [inFlight, discount_apply] at hother ⊢
        rw [hmint] at hcount
        omega
      · intro other found hfound
        exact h.keyed other found (lookup_erase_cases hfound).2
      · rw [values_map_of_keyed PendingPartialExit.signature fun other found hfound =>
          h.keyed other found (lookup_erase_cases hfound).2]
        exact (s.details.erase signature).keys_nodup
    | false =>
      simp only [Bool.false_eq_true, if_false]
      refine ⟨?_, ?_, h.distinct⟩
      · intro other
        have hother := h.balanced other
        have hcount := count_values_of_lookup PendingPartialExit.mint hentry other
        simp only [inFlight, hkey, values_insert, erase_of_lookup_none (AList.lookup_erase
          signature s.details), List.map_cons, List.count_cons, beq_iff_eq] at hother ⊢
        omega
      · intro other found hfound
        rw [lookup_put_back hentry hkey] at hfound
        exact h.keyed other found hfound

/-- A failed exit leaves nothing of its mint, and nothing of the mint was being sent. -/
theorem Tracked.failed {s : PendingExits} (h : s.Tracked) (mint : String) (persisted : Bool) :
    (s.partialExitFailed mint persisted).Tracked := by
  unfold partialExitFailed
  split
  · exact h
  next hsending =>
    have hcleared : ({ s with
        details := retain (fun entry => entry.mint != mint) s.details
        counters := Function.update s.counters mint 0 } : PendingExits).Tracked := by
      refine ⟨?_, ?_, h.distinct⟩
      · intro other
        have hother := h.balanced other
        have hsplit := count_filter_add PendingPartialExit.mint (fun entry => entry.mint != mint)
          (values s.details) other
        simp only [inFlight, values_retain] at hother ⊢
        by_cases he : mint = other
        · subst he
          have hnone : (((values s.details).filter fun entry => entry.mint != mint).map
              PendingPartialExit.mint).count mint = 0 := by
            simp [List.count_eq_zero]
          rw [Function.update_self, hnone]
          omega
        · have hnone : (((values s.details).filter fun entry => !(entry.mint != mint)).map
              PendingPartialExit.mint).count other = 0 := by
            simp only [List.count_eq_zero, List.mem_map, List.mem_filter, not_exists]
            rintro entry ⟨⟨-, hmint⟩, rfl⟩
            simp only [bne, Bool.not_not, beq_iff_eq] at hmint
            exact he hmint.symm
          rw [Function.update_of_ne (Ne.symm he)]
          omega
      · intro signature entry hentry
        exact h.keyed signature entry (lookup_retain_eq_some.mp hentry).1
    have hpersisted : (s.clearPendingPartialExitsForMint mint persisted).Tracked := by
      unfold clearPendingPartialExitsForMint
      dsimp only
      split
      · exact hcleared
      · exact hcleared.persist persisted
    have hzero : (s.clearPendingPartialExitsForMint mint persisted).counters mint = 0 := by
      unfold clearPendingPartialExitsForMint persistPendingPartialExits
      dsimp only
      split
      · exact Function.update_self ..
      · split <;> exact Function.update_self ..
    refine ⟨?_, hpersisted.keyed, hpersisted.distinct⟩
    intro other
    have hother := hpersisted.balanced other
    simp only [clearPartialExitPending, discount_apply, inFlight] at hother ⊢
    by_cases he : mint = other
    · subst he
      omega
    · rw [if_neg he]
      exact hother

theorem Tracked.clearPosition {s : PendingExits} (h : s.Tracked) (positionId : ℤ)
    (persisted : Bool) : (s.clearPendingSwapsOfPosition positionId persisted).Tracked := by
  have hcleared : ({ s with
      details := retain (fun entry => entry.positionId != positionId) s.details
      counters := (((values s.details).filter fun entry => entry.positionId == positionId).map
        PendingPartialExit.mint).foldl discount s.counters } : PendingExits).Tracked := by
    refine ⟨?_, ?_, h.distinct⟩
    · intro other
      have hother := h.balanced other
      have hsplit := count_filter_add PendingPartialExit.mint
        (fun entry => entry.positionId == positionId) (values s.details) other
      simp only [inFlight, values_retain, foldl_discount_apply] at hother ⊢
      simp only [bne]
      omega
    · intro signature entry hentry
      exact h.keyed signature entry (lookup_retain_eq_some.mp hentry).1
  unfold clearPendingSwapsOfPosition
  dsimp only
  split
  · exact hcleared
  · exact hcleared.persist persisted

/-- After a restart nothing is being sent, and each loaded exit counts once. -/
theorem Tracked.restart {s : PendingExits} (h : s.Tracked) (readable : Bool) (deleted : ℤ → Bool)
    (persisted : Bool) : (s.rehydratePendingPartialExits readable deleted persisted).Tracked := by
  unfold rehydratePendingPartialExits
  dsimp only
  split
  · have hdistinct : ((s.stored.filter fun entry => !deleted entry.positionId).map
        PendingPartialExit.signature).Nodup :=
      h.distinct.sublist (List.filter_sublist.map _)
    have hloaded : ({ empty with
        stored := s.stored
        details := insertAll PendingPartialExit.signature
          (s.stored.filter fun entry => !deleted entry.positionId) ∅
        counters := ((s.stored.filter fun entry => !deleted entry.positionId).map
          PendingPartialExit.mint).foldl count empty.counters } : PendingExits).Tracked := by
      refine ⟨?_, ?_, h.distinct⟩
      · intro mint
        have hperm := values_insertAll PendingPartialExit.signature _ ∅ hdistinct fun _ _ => rfl
        simp only [inFlight, foldl_count_apply, (hperm.map PendingPartialExit.mint).count_eq]
        simp [empty, values]
      · intro signature entry hentry
        rcases lookup_insertAll hentry with ⟨hkey, -⟩ | hentry
        · exact hkey
        · cases hentry
    split
    · exact hloaded
    · exact hloaded.persist persisted
  · refine ⟨fun mint => rfl, ?_, h.distinct⟩
    intro signature entry hentry
    cases hentry

theorem Tracked.step {s : PendingExits} {action : PendingAction} (h : s.Tracked)
    (hcovers : s.Covers action) : (s.step action).Tracked := by
  cases action with
  | mark mint => exact h.mark mint
  | register entry persisted => exact h.register hcovers persisted
  | giveUp mint => exact h.giveUp mint
  | verified mint signature persisted => exact h.verified hcovers
  | failed mint signature persisted => exact h.failed mint persisted
  | clearPosition positionId persisted => exact h.clearPosition positionId persisted
  | restart readable deleted persisted => exact h.restart readable deleted persisted

/-- What the details of the other signatures are decides what they count. -/
theorem leavesOthers_of_lookup {s s' : PendingExits} {signature : String}
    (h : ∀ other ≠ signature, s'.details.lookup other = s.details.lookup other)
    (hsending : s'.sending = s.sending) : LeavesOthers s s' signature := by
  refine ⟨h, fun mint => ?_⟩
  have hperm : (values (s'.details.erase signature)).Perm (values (s.details.erase signature)) := by
    apply values_perm_of_lookups
    intro other
    by_cases he : other = signature
    · rw [he, AList.lookup_erase, AList.lookup_erase]
    · rw [AList.lookup_erase_ne he, AList.lookup_erase_ne he, h other he]
  rw [(hperm.map PendingPartialExit.mint).count_eq, hsending]

theorem verified_leaves_others {s : PendingExits} (h : s.Tracked) (mint signature : String)
    (persisted : Bool) :
    LeavesOthers s (s.partialExitVerified mint signature persisted) signature := by
  unfold partialExitVerified clearPendingPartialExit
  cases hentry : s.details.lookup signature with
  | none => exact leavesOthers_of_lookup (fun _ _ => rfl) rfl
  | some entry =>
    cases persisted with
    | true => exact leavesOthers_of_lookup (fun other he => AList.lookup_erase_ne he) rfl
    | false =>
      exact leavesOthers_of_lookup
        (fun other _ => lookup_put_back hentry (h.keyed signature entry hentry) other) rfl

theorem failed_leaves_others {s : PendingExits} {mint signature : String} {persisted : Bool}
    (hcovers : s.Covers (.failed mint signature persisted)) :
    LeavesOthers s (s.partialExitFailed mint persisted) signature := by
  have hretain : ∀ other ≠ signature,
      (retain (fun entry => entry.mint != mint) s.details).lookup other =
        s.details.lookup other := by
    intro other he
    ext entry
    simp only [lookup_retain_eq_some, bne_iff_ne, ne_eq, and_iff_left_iff_imp]
    intro hentry hmint
    exact he (hcovers other entry hentry hmint)
  unfold partialExitFailed
  split
  · exact leavesOthers_of_lookup (fun _ _ => rfl) rfl
  · unfold clearPendingPartialExitsForMint
    dsimp only
    split
    · exact leavesOthers_of_lookup hretain rfl
    · apply leavesOthers_of_lookup
      · intro other he
        simp only [clearPartialExitPending, persist_details]
        exact hretain other he
      · simp only [clearPartialExitPending, persist_sending]

/-- In every run whose verifications and failures find what they settle registered, and nothing else
in its place, each mint's counter is the number of its partial exits in flight in every state, and
each settlement leaves every other signature alone. -/
theorem pending_exits_counted (actions : List PendingAction)
    (h : ∀ p ∈ visited step empty actions, p.1.Covers p.2) :
    (∀ taken, taken <+: actions → Balanced (taken.foldl step empty)) ∧
    ∀ p ∈ visited step empty actions, ∀ signature, p.2.settles = some signature →
      LeavesOthers p.1 (p.1.step p.2) signature := by
  have hstep : ∀ p ∈ visited step empty actions, p.1.Tracked → (p.1.step p.2).Tracked :=
    fun p hp htracked => htracked.step (h p hp)
  constructor
  · intro taken htaken
    exact (reached_invariant step Tracked empty_tracked hstep taken htaken).balanced
  · intro p hp signature hsettles
    have htracked := visited_invariant step Tracked actions empty empty_tracked hstep p hp
    have hcovers := h p hp
    obtain ⟨s, action⟩ := p
    cases action with
    | verified mint settled persisted =>
      obtain rfl : settled = signature := Option.some.inj hsettles
      exact verified_leaves_others htracked mint settled persisted
    | failed mint settled persisted =>
      obtain rfl : settled = signature := Option.some.inj hsettles
      exact failed_leaves_others hcovers
    | mark | register | giveUp | clearPosition | restart => cases hsettles

/-- A partial exit that is sent, verified and followed by another that fails. -/
theorem pending_exits_counted_in_turn :
    Balanced ([.mark "mint", .register ⟨"first-sig", "mint", 7, 500, 50, some 100, none⟩ true,
      .verified "mint" "first-sig" true, .mark "mint",
      .register ⟨"second-sig", "mint", 7, 250, 50, some 120, none⟩ true,
      .failed "mint" "second-sig" true].foldl step empty) := by
  refine (pending_exits_counted [.mark "mint",
    .register ⟨"first-sig", "mint", 7, 500, 50, some 100, none⟩ true,
    .verified "mint" "first-sig" true, .mark "mint",
    .register ⟨"second-sig", "mint", 7, 250, 50, some 120, none⟩ true,
    .failed "mint" "second-sig" true] ?_).1 _ (List.prefix_refl _)
  simp only [visited, List.forall_mem_cons, List.not_mem_nil, false_imp_iff, implies_true, and_true]
  refine ⟨trivial, rfl, fun _ => rfl, trivial, rfl, ?_⟩
  intro other entry hentry _
  rcases lookup_insert_cases hentry with ⟨rfl, -⟩ | ⟨-, hentry⟩
  · rfl
  · cases hentry

end PendingExits

end ScreenerBot.Positions
