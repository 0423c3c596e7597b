import Mathlib
import ScreenerBot.Restart.Hold

/-!
No trade and no tool runs under the hold of a restart that looked for them, in any interleaving of
the atomic accesses.
-/
namespace ScreenerBot.Restart
open Library

/-- Where a program stands: what it has counted, and what it has seen under a hold of its own. -/
inductive Stage
  | idle
  | counted (activity : Activity)
  | granted (activity : Activity)
  | running (activity : Activity)
  | leaving (activity : Activity)
  | missing (activity : Activity)
  | holding (saw : Activity → Bool)
  | committed

namespace Stage

/-- Counted, and not between its start and its end. -/
def waits (activity : Activity) : Stage → Bool
  | counted a | granted a | leaving a => a = activity
  | _ => false

def isGranted (activity : Activity) : Stage → Bool
  | granted a => a = activity
  | _ => false

def isRunning (activity : Activity) : Stage → Bool
  | running a => a = activity
  | _ => false

def isMissing : Stage → Bool
  | missing _ => true
  | _ => false

def holds : Stage → Bool
  | holding _ => true
  | _ => false

def owns : Stage → Bool
  | holding _ | committed => true
  | _ => false

/-- Has a hold and saw that nothing of an activity is counted. -/
def sees (activity : Activity) : Stage → Bool
  | holding saw => saw activity
  | _ => false

def may : Stage → {β : Type} → Call β → Prop
  | idle, _, .isRestartHoldPending => True
  | counted _, _, .isRestartHoldPending => True
  | idle, _, .takeHold => True
  | idle, _, .fetchAdd _ => True
  | granted a, _, .starts activity => activity = a
  | running a, _, .ends activity => activity = a
  | leaving a, _, .fetchSub activity => activity = a
  | missing a, _, .storeZero activity => activity = a
  | holding _, _, .load _ => True
  | holding saw, _, .restartStep found => found = true → ∀ activity, saw activity = true
  | holding _, _, .commitHold => True
  | holding _, _, .releaseHold => True
  | holding _, _, .openPositions => True
  | holding _, _, .storedPositions => True
  | holding _, _, .isInitializationComplete => True
  | holding _, _, .loadPolicy => True
  | _, _, _ => False

def after : Stage → {β : Type} → Call β → β → Stage
  | counted a, _, .isRestartHoldPending, pending => if pending then leaving a else granted a
  | _, _, .takeHold, taken => if taken then holding fun _ => false else idle
  | _, _, .fetchAdd a, _ => counted a
  | _, _, .starts a, _ => running a
  | _, _, .ends a, _ => leaving a
  | _, _, .fetchSub a, prev => if prev = 0 then missing a else idle
  | _, _, .storeZero _, _ => idle
  | holding saw, _, .load a, count => holding fun b => if b = a then count = 0 else saw b
  | _, _, .commitHold, _ => committed
  | _, _, .releaseHold, _ => idle
  | k, _, _, _ => k

end Stage

def stages : Typestate Call Stage := ⟨Stage.may, Stage.after⟩

section Programs

/-- A program that obeys the stages from one to another. -/
abbrev Leads {α : Type} (post : Stage → α → Prop) (k : Stage) (program : Program Call α) : Prop :=
  stages.Obeys post k program

variable {a : Activity} {k : Stage} {saw : Activity → Bool} {α : Type}

theorem Leads.perform {effect : Call α} (hmay : k.may effect) :
    Leads (fun k' b => k' = k.after effect b) k (Program.perform effect) :=
  .call hmay fun _ => .done rfl

theorem Leads.then {β : Type} {effect : Call α} {f : α → Program Call β} {post : Stage → β → Prop}
    (hmay : k.may effect) (hf : ∀ b, Leads post (k.after effect b) (f b)) :
    Leads post k (Program.perform effect >>= f) := by
  refine (Leads.perform hmay).bind fun k' b hk' => ?_
  rw [hk']
  exact hf b

theorem tradeFinished_leads : Leads (fun _ _ => True) (.leaving .trade) tradeFinished :=
  Leads.then rfl fun _ => .done trivial

theorem toolFinished_leads : Leads (fun _ _ => True) (.leaving .tool) toolFinished := by
  refine Leads.then rfl fun prev => ?_
  by_cases hprev : prev = 0
  · simp only [Stage.after, hprev, if_true]
    exact .call rfl fun _ => .done trivial
  · rw [if_neg hprev]
    exact .done trivial

/-- An activity is admitted as granted, or not at all. -/
theorem beginActivity_leads {finished : Program Call Unit}
    (hfinished : Leads (fun _ _ => True) (.leaving a) finished) :
    Leads (fun k admitted => admitted = true → k = .granted a) .idle
      (beginActivity a finished) := by
  refine Leads.then trivial fun pending => ?_
  cases pending with
  | true => exact .done fun h => by cases h
  | false =>
    refine Leads.then trivial fun _ => ?_
    refine Leads.then trivial fun pending => ?_
    cases pending with
    | true => exact Typestate.Obeys.bind hfinished fun _ _ _ => .done fun h => by cases h
    | false => exact .done fun _ => rfl

theorem runTrade_leads : Leads (fun _ _ => True) .idle runTrade := by
  refine (beginActivity_leads tradeFinished_leads).bind fun k admitted hk => ?_
  cases admitted with
  | false => exact .done trivial
  | true =>
    rw [hk rfl]
    exact Leads.then rfl fun _ => Leads.then rfl fun _ => tradeFinished_leads

theorem runTool_leads : Leads (fun _ _ => True) .idle runTool := by
  refine (beginActivity_leads toolFinished_leads).bind fun k admitted hk => ?_
  cases admitted with
  | false => exact .done trivial
  | true =>
    rw [hk rfl]
    exact Leads.then rfl fun _ => Leads.then rfl fun _ => toolFinished_leads

/-- What a look at a count tells: nothing of it counted, seen under the hold. -/
theorem isActive_leads : Leads (fun k active => ∃ saw', k = .holding saw' ∧
    (active = false → saw' a = true) ∧ ∀ b, b ≠ a → saw' b = saw b) (.holding saw)
      (isActive a) := by
  refine Leads.then trivial fun count => .done ⟨_, rfl, fun hactive => ?_, fun b hb => if_neg hb⟩
  simpa using hactive

theorem underHold_leads {idle : Bool} (h : idle = true → ∀ a, saw a = true) :
    Leads (fun _ _ => True) (.holding saw) (underHold idle) := by
  refine Leads.then h fun kept => ?_
  cases kept with
  | true => exact .call trivial fun _ => .done trivial
  | false => exact .call trivial fun _ => .done trivial

theorem releaseHold_leads :
    Leads (fun _ _ => True) (.holding saw) (Program.perform .releaseHold) :=
  .call trivial fun _ => .done trivial

theorem restartBlocker_leads : Leads (fun k reason => ∃ saw, k = .holding saw ∧
    (reason = none → ∀ a, saw a = true)) (.holding saw) restartBlocker := by
  refine isActive_leads.bind fun k trades hk => ?_
  obtain ⟨saw₁, rfl, htrades, -⟩ := hk
  refine isActive_leads.bind fun k tools hk => ?_
  obtain ⟨saw₂, rfl, htools, hkept⟩ := hk
  refine Leads.then trivial fun openInMemory => Leads.then trivial fun stored => ?_
  refine Leads.then trivial fun complete => ?_
  refine .done ⟨saw₂, rfl, fun hnone a => ?_⟩
  obtain ⟨htrade, htool⟩ := idle_of_blocker_none hnone
  cases a with
  | trade => rw [hkept .trade (by decide), htrades htrade]
  | tool => exact htools htool

theorem stage_leads : Leads (fun _ _ => True) .idle stage := by
  refine Leads.then trivial fun taken => ?_
  cases taken with
  | false => exact .done trivial
  | true =>
    refine restartBlocker_leads.bind fun k reason hk => ?_
    obtain ⟨saw, rfl, hidle⟩ := hk
    cases reason with
    | some reason => exact releaseHold_leads
    | none => exact underHold_leads fun _ => hidle rfl

theorem tradeInFlight_leads : Leads (fun k inFlight => ∃ saw, k = .holding saw ∧
    (inFlight = false → ∀ a, saw a = true)) (.holding saw) tradeInFlight := by
  refine isActive_leads.bind fun k tools hk => ?_
  obtain ⟨saw₁, rfl, htools, -⟩ := hk
  cases tools with
  | true => exact .done ⟨saw₁, rfl, fun h => by cases h⟩
  | false =>
    refine isActive_leads.mono fun k trades hk => ?_
    obtain ⟨saw₂, rfl, htrades, hkept⟩ := hk
    refine ⟨saw₂, rfl, fun hidle a => ?_⟩
    cases a with
    | trade => exact htrades hidle
    | tool => rw [hkept .tool (by decide), htools rfl]

theorem applyReadiness_leads : Leads (fun k answer => ∃ saw, k = .holding saw ∧
    (answer.2 = none → answer.1.deferWhileTrading = true → ∀ a, saw a = true)) (.holding saw)
    applyReadiness := by
  refine Leads.then trivial fun policy => Leads.then trivial fun openPositions => ?_
  refine tradeInFlight_leads.bind fun k inFlight hk => ?_
  obtain ⟨saw₁, rfl, hidle⟩ := hk
  exact .done ⟨saw₁, rfl, fun hnone hdefer => hidle (idle_of_decide_none hnone hdefer)⟩

theorem applyAutomatically_leads : Leads (fun _ _ => True) .idle applyAutomatically := by
  refine Leads.then trivial fun taken => ?_
  cases taken with
  | false => exact .done trivial
  | true =>
    refine applyReadiness_leads.bind fun k answer hk => ?_
    obtain ⟨saw, rfl, hidle⟩ := hk
    obtain ⟨policy, deferred⟩ := answer
    cases deferred with
    | some reason => exact releaseHold_leads
    | none => exact underHold_leads (hidle rfl)

theorem applyNow_leads : Leads (fun _ _ => True) .idle applyNow := by
  refine Leads.then trivial fun taken => ?_
  cases taken with
  | false => exact .done trivial
  | true => exact underHold_leads fun h => by cases h

theorem spawned_leads {program : Program Call Unit} (h : Spawned program) :
    Leads (fun _ _ => True) .idle program := by
  cases h with
  | trade => exact runTrade_leads
  | tool => exact runTool_leads
  | stage => exact stage_leads
  | applyAutomatically => exact applyAutomatically_leads
  | applyNow => exact applyNow_leads

end Programs

section Counts

variable {f g : Stage → Bool} {k : Stage} {K : Multiset Stage} {s : Process} {a : Activity}

/-- How many of the stages pass a test. -/
def tally (f : Stage → Bool) (K : Multiset Stage) : ℕ := K.countP fun k => f k = true

@[simp] theorem tally_cons : tally f (k ::ₘ K) = tally f K + (f k).toNat := by
  rw [tally, Multiset.countP_cons, tally]
  cases f k <;> simp

theorem tally_mono (h : ∀ k, f k = true → g k = true) : tally f K ≤ tally g K := by
  induction K using Multiset.induction_on with
  | empty => exact le_rfl
  | cons k K ih =>
    have hk : (f k).toNat ≤ (g k).toNat := by
      cases hf : f k with
      | false => exact Nat.zero_le _
      | true => rw [h k hf]
    rw [tally_cons, tally_cons]
    exact Nat.add_le_add ih hk

/-- The counts cover what they count, holds exclude each other, and nothing runs or was granted
under a hold that saw none of it. -/
structure Counted (s : Process) (K : Multiset Stage) : Prop where
  active : ∀ a, s.running a + tally (Stage.waits a) K ≤ s.active a
  running : ∀ a, tally (Stage.isRunning a) K ≤ s.running a
  missing : tally Stage.isMissing K = 0
  owners : tally Stage.owns K ≤ s.owners
  once : s.owners ≤ 1
  free : s.hold = false → s.owners = 0
  quiet : s.quiet = true → s.owners = 1
  committed : s.committed = true → s.owners = 1 ∧ tally Stage.holds K = 0
  sealed : ∀ a, s.quiet = true ∨ 0 < tally (Stage.sees a) K →
    s.running a = 0 ∧ tally (Stage.isGranted a) K = 0

theorem sees_owns : tally (Stage.sees a) K ≤ tally Stage.owns K :=
  tally_mono fun k h => by
    cases k with
    | holding saw => rfl
    | _ => cases h

theorem holds_owns : tally Stage.holds K ≤ tally Stage.owns K :=
  tally_mono fun k h => by
    cases k with
    | holding saw => rfl
    | _ => cases h

theorem granted_waits : tally (Stage.isGranted a) K ≤ tally (Stage.waits a) K :=
  tally_mono fun k h => by
    cases k with
    | granted b => exact h
    | _ => cases h

theorem Counted.idle (launch : ℕ) : Counted (.idle launch) 0 where
  active _ := le_rfl
  running _ := le_rfl
  missing := rfl
  owners := le_rfl
  once := Nat.zero_le _
  free _ := rfl
  quiet h := by cases h
  committed h := by cases h
  sealed a h := by
    obtain h | h := h
    · cases h
    · exact absurd h (Nat.lt_irrefl 0)

theorem Counted.arrive (h : Counted s K) : Counted s (.idle ::ₘ K) where
  active a := by simpa [Stage.waits] using h.active a
  running a := by simpa [Stage.isRunning] using h.running a
  missing := by simpa [Stage.isMissing] using h.missing
  owners := by simpa [Stage.owns] using h.owners
  once := h.once
  free := h.free
  quiet := h.quiet
  sealed a hseal := by
    have hbefore := h.sealed a (by simpa [Stage.sees] using hseal)
    simpa [Stage.isGranted] using hbefore
  committed hcommitted := by simpa [Stage.holds] using h.committed hcommitted

/-- A program is gone for good. -/
theorem Counted.leave (h : Counted s (k ::ₘ K)) : Counted s K where
  active a := by
    have hactive := h.active a
    rw [tally_cons] at hactive
    omega
  running a := by
    have hrunning := h.running a
    rw [tally_cons] at hrunning
    omega
  missing := by
    have hmissing := h.missing
    rw [tally_cons] at hmissing
    omega
  owners := by
    have howners := h.owners
    rw [tally_cons] at howners
    omega
  once := h.once
  free := h.free
  quiet := h.quiet
  sealed a hseal := by
    have hbefore := h.sealed a (hseal.imp_right fun hsees => by rw [tally_cons]; omega)
    rw [tally_cons] at hbefore
    exact ⟨hbefore.1, by omega⟩
  committed hcommitted := by
    have hnone := h.committed hcommitted
    rw [tally_cons] at hnone
    exact ⟨hnone.1, by omega⟩

theorem Counted.fetchAdd (h : Counted s (.idle ::ₘ K)) :
    Counted (s.add a) (.counted a ::ₘ K) where
  active b := by
    have hactive := h.active b
    by_cases hab : b = a
    · subst hab
      simp [Process.add, Stage.waits] at hactive ⊢
      omega
    · simpa [Process.add, Stage.waits, hab, Ne.symm hab] using hactive
  running b := by simpa [Process.add, Stage.isRunning] using h.running b
  missing := by simpa [Stage.isMissing] using h.missing
  owners := by simpa [Process.add, Stage.owns] using h.owners
  once := h.once
  free := h.free
  quiet := h.quiet
  sealed b hseal := by
    have hbefore := h.sealed b (by simpa [Process.add, Stage.sees] using hseal)
    simpa [Process.add, Stage.isGranted] using hbefore
  committed hcommitted := by simpa [Process.add, Stage.holds] using h.committed hcommitted

/-- Where a stage is counted like the one before it, only the seal has to be shown again. -/
theorem Counted.relabel {k' : Stage} (h : Counted s (k ::ₘ K))
    (hwaits : ∀ a, k'.waits a = k.waits a) (hrunning : ∀ a, k'.isRunning a = k.isRunning a)
    (hmissing : k'.isMissing = k.isMissing) (howns : k'.owns = k.owns) (hholds : k'.holds = k.holds)
    (hsealed : ∀ a, s.quiet = true ∨ 0 < tally (Stage.sees a) (k' ::ₘ K) →
      s.running a = 0 ∧ tally (Stage.isGranted a) (k' ::ₘ K) = 0) : Counted s (k' ::ₘ K) where
  active a := by
    rw [tally_cons, hwaits, ← tally_cons]
    exact h.active a
  running a := by
    rw [tally_cons, hrunning, ← tally_cons]
    exact h.running a
  missing := by
    rw [tally_cons, hmissing, ← tally_cons]
    exact h.missing
  owners := by
    rw [tally_cons, howns, ← tally_cons]
    exact h.owners
  once := h.once
  free := h.free
  quiet := h.quiet
  committed hcommitted := by
    rw [tally_cons, hholds, ← tally_cons]
    exact h.committed hcommitted
  sealed := hsealed

/-- The second look at the flag: a hold refuses what was counted. -/
theorem Counted.lookAgain (h : Counted s (.counted a ::ₘ K)) :
    Counted s ((if s.hold then .leaving a else .granted a) ::ₘ K) := by
  cases hhold : s.hold with
  | true =>
    refine h.relabel (fun _ => rfl) (fun _ => rfl) rfl rfl rfl fun b hseal => ?_
    have hbefore := h.sealed b (by simpa [Stage.sees] using hseal)
    simpa [Stage.isGranted] using hbefore
  | false =>
    refine h.relabel (fun _ => rfl) (fun _ => rfl) rfl rfl rfl fun b hseal => ?_
    -- without a hold there is no owner to have seen anything
    exfalso
    have hnone := h.free hhold
    obtain hquiet | hsees := hseal
    · have howners := h.quiet hquiet
      omega
    · have howns : tally (Stage.sees b) K ≤ tally Stage.owns K := sees_owns
      have howners := h.owners
      simp [Stage.sees] at hsees
      simp [Stage.owns] at howners
      omega

theorem Counted.starts (h : Counted s (.granted a ::ₘ K)) :
    Counted { s with running := Function.update s.running a (s.running a + 1) }
      (.running a ::ₘ K) where
  active b := by
    have hactive := h.active b
    by_cases hab : b = a
    · subst hab
      simp [Stage.waits] at hactive ⊢
      omega
    · simpa [Stage.waits, hab, Ne.symm hab] using hactive
  running b := by
    have hrunning := h.running b
    by_cases hab : b = a
    · subst hab
      simp [Stage.isRunning] at hrunning ⊢
      omega
    · simpa [Stage.isRunning, hab, Ne.symm hab] using hrunning
  missing := by simpa [Stage.isMissing] using h.missing
  owners := by simpa [Stage.owns] using h.owners
  once := h.once
  free := h.free
  quiet := h.quiet
  sealed b hseal := by
    have hbefore := h.sealed b (by simpa [Stage.sees] using hseal)
    by_cases hab : b = a
    · subst hab
      simp [Stage.isGranted] at hbefore
    · simpa [Stage.isGranted, hab, Ne.symm hab] using hbefore
  committed hcommitted := by simpa [Stage.holds] using h.committed hcommitted

theorem Counted.ends (h : Counted s (.running a ::ₘ K)) :
    Counted { s with running := Function.update s.running a (s.running a - 1) }
      (.leaving a ::ₘ K) where
  active b := by
    have hactive := h.active b
    have hrunning := h.running b
    by_cases hab : b = a
    · subst hab
      simp [Stage.waits, Stage.isRunning] at hactive hrunning ⊢
      omega
    · simpa [Stage.waits, hab, Ne.symm hab] using hactive
  running b := by
    have hrunning := h.running b
    by_cases hab : b = a
    · subst hab
      simp [Stage.isRunning] at hrunning ⊢
      omega
    · simpa [Stage.isRunning, hab, Ne.symm hab] using hrunning
  missing := by simpa [Stage.isMissing] using h.missing
  owners := by simpa [Stage.owns] using h.owners
  once := h.once
  free := h.free
  quiet := h.quiet
  sealed b hseal := by
    have hbefore := h.sealed b (by simpa [Stage.sees] using hseal)
    by_cases hab : b = a
    · subst hab
      simp [Stage.isGranted] at hbefore ⊢
      omega
    · simpa [Stage.isGranted, hab, Ne.symm hab] using hbefore
  committed hcommitted := by simpa [Stage.holds] using h.committed hcommitted

/-- What is given back was counted, so the count was not zero. -/
theorem Counted.counted (h : Counted s (.leaving a ::ₘ K)) : s.active a ≠ 0 := by
  have hactive := h.active a
  simp [Stage.waits] at hactive
  omega

theorem Counted.fetchSub (h : Counted s (.leaving a ::ₘ K)) : Counted (s.sub a) (.idle ::ₘ K) where
  active b := by
    have hactive := h.active b
    by_cases hab : b = a
    · subst hab
      simp [Process.sub, h.counted, Stage.waits] at hactive ⊢
      omega
    · simpa [Process.sub, Stage.waits, hab, Ne.symm hab] using hactive
  running b := by simpa [Process.sub, Stage.isRunning] using h.running b
  missing := by simpa [Stage.isMissing] using h.missing
  owners := by simpa [Process.sub, Stage.owns] using h.owners
  once := h.once
  free := h.free
  quiet := h.quiet
  sealed b hseal := by
    have hbefore := h.sealed b (by simpa [Process.sub, Stage.sees] using hseal)
    simpa [Process.sub, Stage.isGranted] using hbefore
  committed hcommitted := by simpa [Process.sub, Stage.holds] using h.committed hcommitted

/-- A hold is taken only where there is none. -/
theorem Counted.take (h : Counted s (.idle ::ₘ K)) (hfree : s.hold = false) :
    Counted { s with hold := true, owners := s.owners + 1 }
      (.holding (fun _ => false) ::ₘ K) := by
  have hnone := h.free hfree
  have howners := h.owners
  simp only [tally_cons, Stage.owns, Bool.toNat_false, Nat.add_zero] at howners
  have hunquiet : s.quiet = false := by
    by_contra hquiet
    have hone := h.quiet (Bool.not_eq_false _ ▸ hquiet)
    omega
  refine ⟨fun b => ?_, fun b => ?_, ?_, ?_, ?_, fun hhold => ?_, fun hquiet => ?_,
    fun hcommitted => ?_, fun b hseal => ?_⟩
  · simpa [Stage.waits] using h.active b
  · simpa [Stage.isRunning] using h.running b
  · simpa [Stage.isMissing] using h.missing
  · simp only [tally_cons, Stage.owns, Bool.toNat_true]
    omega
  · simp only
    omega
  · cases hhold
  · rw [hunquiet] at hquiet
    cases hquiet
  · have hone := (h.committed hcommitted).1
    omega
  · have hbefore := h.sealed b (by simpa [Stage.sees] using hseal)
    simpa [Stage.isGranted] using hbefore

section Holding

variable {saw : Activity → Bool}

/-- The owner of a hold is the only one. -/
theorem Counted.sole (h : Counted s (.holding saw ::ₘ K)) :
    s.owners = 1 ∧ tally Stage.owns K = 0 := by
  have howners := h.owners
  have honce := h.once
  simp [Stage.owns] at howners
  omega

theorem Counted.uncommitted (h : Counted s (.holding saw ::ₘ K)) : s.committed = false := by
  by_contra hcommitted
  have hnone := h.committed (Bool.not_eq_false _ ▸ hcommitted)
  simp [Stage.holds] at hnone

/-- A count that is read as zero under a hold leaves nothing of it to run. -/
theorem Counted.load (h : Counted s (.holding saw ::ₘ K)) :
    Counted s (.holding (fun b => if b = a then s.active a = 0 else saw b) ::ₘ K) := by
  refine h.relabel (fun _ => rfl) (fun _ => rfl) rfl rfl rfl fun b hseal => ?_
  by_cases hzero : b = a ∧ s.active a = 0
  · obtain ⟨rfl, hzero⟩ := hzero
    have hactive := h.active b
    have hgranted : tally (Stage.isGranted b) K ≤ tally (Stage.waits b) K := granted_waits
    simp [Stage.waits] at hactive
    simp [Stage.isGranted]
    omega
  · have hbefore := h.sealed b (by
      by_cases hab : b = a
      · simp only [hab, true_and] at hzero
        simp [Stage.sees, hab, hzero] at hseal ⊢
        obtain hquiet | hsees := hseal
        · exact .inl hquiet
        · exact .inr (.inl hsees)
      · simpa [Stage.sees, hab] using hseal)
    simpa [Stage.isGranted] using hbefore

theorem Counted.restartStep {found : Bool} (h : Counted s (.holding saw ::ₘ K))
    (hsaw : found = true → ∀ a, saw a = true) :
    Counted { s with quiet := s.quiet || found } (.holding saw ::ₘ K) where
  active := h.active
  running := h.running
  missing := h.missing
  owners := h.owners
  once := h.once
  free := h.free
  quiet _ := h.sole.1
  sealed a hseal := by
    refine h.sealed a ?_
    obtain hquiet | hsees := hseal
    · simp only [Bool.or_eq_true] at hquiet
      obtain hquiet | hfound := hquiet
      · exact .inl hquiet
      · refine .inr ?_
        simp [Stage.sees, hsaw hfound a]
    · exact .inr hsees
  committed := h.committed

theorem Counted.commit (h : Counted s (.holding saw ::ₘ K)) :
    Counted { s with committed := true } (.committed ::ₘ K) where
  active a := by simpa [Stage.waits] using h.active a
  running a := by simpa [Stage.isRunning] using h.running a
  missing := by simpa [Stage.isMissing] using h.missing
  owners := by simpa [Stage.owns] using h.owners
  once := h.once
  free := h.free
  quiet := h.quiet
  sealed a hseal := by
    have hbefore := h.sealed a (hseal.imp_right fun hsees => by
      simp [Stage.sees] at hsees ⊢
      omega)
    simpa [Stage.isGranted] using hbefore
  committed _ := by
    have hheld : tally Stage.holds K ≤ tally Stage.owns K := holds_owns
    have hnone := h.sole
    simp only [tally_cons, Stage.holds, Bool.toNat_false]
    omega

theorem Counted.release (h : Counted s (.holding saw ::ₘ K)) :
    Counted { s with hold := false, owners := s.owners - 1, quiet := false } (.idle ::ₘ K) := by
  obtain ⟨hone, hnone⟩ := h.sole
  refine ⟨fun b => ?_, fun b => ?_, ?_, ?_, ?_, fun _ => ?_, fun hquiet => ?_, fun hcommitted => ?_,
    fun b hseal => ?_⟩
  · simpa [Stage.waits] using h.active b
  · simpa [Stage.isRunning] using h.running b
  · simpa [Stage.isMissing] using h.missing
  · simp [Stage.owns, hone, hnone]
  · simp [hone]
  · simp [hone]
  · cases hquiet
  · rw [h.uncommitted] at hcommitted
    cases hcommitted
  · have howns : tally (Stage.sees b) K ≤ tally Stage.owns K := sees_owns
    simp [Stage.sees] at hseal
    omega

end Holding

/-- Each access of a program keeps the counts. -/
theorem Counted.step {s' : Process} {β : Type} {effect : Call β} {b : β} (h : Counted s (k ::ₘ K))
    (hmay : k.may effect) (hanswer : answers s effect b s') :
    Counted s' (k.after effect b ::ₘ K) := by
  cases effect with
  | isRestartHoldPending =>
    obtain ⟨rfl, rfl⟩ := hanswer
    cases k with
    | idle => exact h
    | counted a => exact h.lookAgain
    | _ => cases hmay
  | takeHold =>
    obtain ⟨rfl, rfl⟩ := hanswer
    cases k with
    | idle =>
      cases hhold : s.hold with
      | true => exact h
      | false => exact h.take hhold
    | _ => cases hmay
  | releaseHold =>
    obtain rfl := hanswer
    cases k with
    | holding saw => exact h.release
    | _ => cases hmay
  | commitHold =>
    obtain rfl := hanswer
    cases k with
    | holding saw => exact h.commit
    | _ => cases hmay
  | fetchAdd a =>
    obtain rfl := hanswer
    cases k with
    | idle => exact h.fetchAdd
    | _ => cases hmay
  | fetchSub a =>
    obtain ⟨rfl, rfl⟩ := hanswer
    cases k with
    | leaving a' =>
      obtain rfl := hmay
      simp only [Stage.after, h.counted, if_false]
      exact h.fetchSub
    | _ => cases hmay
  | storeZero a =>
    cases k with
    | missing a' =>
      have hmissing := h.missing
      simp [Stage.isMissing] at hmissing
    | _ => cases hmay
  | load a =>
    obtain ⟨rfl, rfl⟩ := hanswer
    cases k with
    | holding saw => exact h.load
    | _ => cases hmay
  | starts a =>
    obtain rfl := hanswer
    cases k with
    | granted a' =>
      obtain rfl := hmay
      exact h.starts
    | _ => cases hmay
  | ends a =>
    obtain rfl := hanswer
    cases k with
    | running a' =>
      obtain rfl := hmay
      exact h.ends
    | _ => cases hmay
  | restartStep found =>
    obtain rfl := hanswer
    cases k with
    | holding saw => exact h.restartStep hmay
    | _ => cases hmay
  | openPositions =>
    obtain rfl := hanswer
    cases k with
    | holding saw => exact h
    | _ => cases hmay
  | storedPositions =>
    obtain rfl := hanswer
    cases k with
    | holding saw => exact h
    | _ => cases hmay
  | isInitializationComplete =>
    obtain rfl := hanswer
    cases k with
    | holding saw => exact h
    | _ => cases hmay
  | loadPolicy =>
    obtain rfl := hanswer
    cases k with
    | holding saw => exact h
    | _ => cases hmay

end Counts

section Safety

def census : Census process stages where
  holds := Counted
  idle := .idle
  starts := by
    rintro _ rfl
    exact .idle 0
  spawns _ := spawned_leads
  spawn := .arrive
  step := .step
  stop := .leave
  restart := by
    rintro s _ _ - rfl
    exact .idle _

section Example

/-- The answers where no position is open and the rest of a restart works. -/
def noPositions : {β : Type} → Call β → Process → β × Process
  | _, .isRestartHoldPending, s => (s.hold, s)
  | _, .takeHold, s =>
      (!s.hold, if s.hold then s else { s with hold := true, owners := s.owners + 1 })
  | _, .releaseHold, s => ((), { s with hold := false, owners := s.owners - 1, quiet := false })
  | _, .commitHold, s => ((), { s with committed := true })
  | _, .fetchAdd activity, s => ((), s.add activity)
  | _, .fetchSub activity, s => (s.active activity, s.sub activity)
  | _, .storeZero activity, s => ((), { s with active := Function.update s.active activity 0 })
  | _, .load activity, s => (s.active activity, s)
  | _, .starts activity, s =>
    ((), { s with running := Function.update s.running activity (s.running activity + 1) })
  | _, .ends activity, s =>
    ((), { s with running := Function.update s.running activity (s.running activity - 1) })
  | _, .restartStep found, s => (true, { s with quiet := s.quiet || found })
  | _, .openPositions, s => (0, s)
  | _, .storedPositions, s => (.count 0, s)
  | _, .isInitializationComplete, s => (true, s)
  | _, .loadPolicy, s => (⟨true, true, true⟩, s)

theorem noPositions_answers {β : Type} (effect : Call β) (s : Process) :
    process.answers s effect (noPositions effect s).1 (noPositions effect s).2 := by
  cases effect with
  | isRestartHoldPending | takeHold | fetchSub a | load a => exact ⟨rfl, rfl⟩
  | _ => rfl

/-- A replacement staged, and a trade that asks to start after it. -/
def staged : Process × List (Program Call Unit) :=
  System.followed noPositions 20 stage (.idle 0, [])

def askedAfter : Process × List (Program Call Unit) :=
  System.followed noPositions 20 runTrade staged

theorem staged_reached : process.Reached staged :=
  ⟨.idle 0, rfl, System.Runs.followed noPositions_answers 20 Spawned.stage _⟩

theorem staged_runs : process.Runs staged askedAfter :=
  System.Runs.followed noPositions_answers 20 Spawned.trade _

/-- A trade and a tool are under way when a replacement asks for the hold. -/
def underWay : Process × List (Program Call Unit) :=
  System.followed noPositions 4 runTool (System.followed noPositions 4 runTrade (.idle 0, []))

def stagedBeside : Process × List (Program Call Unit) :=
  System.followed noPositions 20 stage underWay

theorem stagedBeside_reached : process.Reached stagedBeside :=
  ⟨.idle 0, rfl,
    ((System.Runs.followed noPositions_answers 4 Spawned.trade _).trans
      (System.Runs.followed noPositions_answers 4 Spawned.tool _)).trans
      (System.Runs.followed noPositions_answers 20 Spawned.stage _)⟩

end Example

variable {c c' : Process × List (Program Call Unit)}

/-- In every interleaving the counts cover what runs and are never taken below zero, at most one
hold is taken at a time, and under the hold of a restart that found nothing in flight nothing
runs. -/
theorem restart_interrupts_nothing (h : process.Reached c) :
    (∀ a, c.1.running a ≤ c.1.active a) ∧ c.1.owners ≤ 1 ∧
    (c.1.quiet = true → c.1.hold = true ∧ ∀ a, c.1.running a = 0) ∧
    ∀ a next, Program.call (.fetchSub a) next ∈ c.2 → c.1.active a ≠ 0 := by
  have hupheld := census.upheld h
  obtain ⟨K, hcounted⟩ := hupheld.holds
  refine ⟨fun a => ?_, hcounted.once, fun hquiet => ⟨?_, fun a => ?_⟩, fun a next hmem => ?_⟩
  · have hactive := hcounted.active a
    omega
  · by_contra hfree
    have hnone := hcounted.free (Bool.not_eq_true _ ▸ hfree)
    have hone := hcounted.quiet hquiet
    omega
  · exact (hcounted.sealed a (.inl hquiet)).1
  · obtain ⟨k, K, hmay, hat⟩ := hupheld.at hmem
    cases k with
    | leaving a' =>
      obtain rfl : a = a' := hmay
      exact hat.counted
    | _ => cases hmay

theorem restart_interrupts_nothing_staged :
    (staged.1.hold = true ∧ ∀ a, staged.1.running a = 0) ∧
      stagedBeside.1.running .trade = 1 ∧ stagedBeside.1.running .tool = 1 ∧
      stagedBeside.1.hold = false ∧
      ∀ a, stagedBeside.1.running a ≤ stagedBeside.1.active a := by
  refine ⟨?_, rfl, rfl, rfl, ?_⟩
  · exact (restart_interrupts_nothing staged_reached).2.2.1 rfl
  · exact (restart_interrupts_nothing stagedBeside_reached).1

/-- What one access keeps of a hold that is kept for good. -/
theorem committed_step {s s' : Process} {k : Stage} {K : Multiset Stage} {β : Type}
    {effect : Call β}
    {b : β} (h : Counted s (k ::ₘ K)) (hmay : k.may effect) (hanswer : answers s effect b s') :
    s'.launch = s.launch ∧ (s.committed = true → s'.committed = true) ∧
      (s.committed = true → s.quiet = true → s'.quiet = true) := by
  cases effect with
  | takeHold =>
    obtain ⟨-, rfl⟩ := hanswer
    split_ifs <;> exact ⟨rfl, id, fun _ => id⟩
  | releaseHold =>
    obtain rfl := hanswer
    cases k with
    | holding saw =>
      refine ⟨rfl, id, fun hcommitted => ?_⟩
      rw [h.uncommitted] at hcommitted
      cases hcommitted
    | _ => cases hmay
  | commitHold =>
    obtain rfl := hanswer
    exact ⟨rfl, fun _ => rfl, fun _ => id⟩
  | restartStep found =>
    obtain rfl := hanswer
    refine ⟨rfl, id, fun _ hquiet => ?_⟩
    rw [hquiet]
    rfl
  | isRestartHoldPending => rw [hanswer.1]; exact ⟨rfl, id, fun _ => id⟩
  | load a => rw [hanswer.2]; exact ⟨rfl, id, fun _ => id⟩
  | fetchSub a => rw [hanswer.2]; exact ⟨rfl, id, fun _ => id⟩
  | fetchAdd a | storeZero a | starts a | ends a =>
    obtain rfl := hanswer
    exact ⟨rfl, id, fun _ => id⟩
  | openPositions | storedPositions | isInitializationComplete | loadPolicy =>
    obtain rfl := hanswer
    exact ⟨rfl, id, fun _ => id⟩

/-- A hold kept for good by a restart that found nothing in flight is still there in the same
process. -/
def KeepsHold (s s' : Process) : Prop :=
  s.launch ≤ s'.launch ∧ (s'.launch = s.launch → s.committed = true → s.quiet = true →
    s'.committed = true ∧ s'.quiet = true)

theorem KeepsHold.refl (s : Process) : KeepsHold s s := ⟨le_rfl, fun _ hc hq => ⟨hc, hq⟩⟩

theorem KeepsHold.trans {s s₁ s₂ : Process} (h₁ : KeepsHold s s₁) (h₂ : KeepsHold s₁ s₂) :
    KeepsHold s s₂ := by
  refine ⟨h₁.1.trans h₂.1, fun hsame hcommitted hquiet => ?_⟩
  have hfirst : s₁.launch = s.launch := le_antisymm (hsame ▸ h₂.1) h₁.1
  obtain ⟨hcommitted, hquiet⟩ := h₁.2 hfirst hcommitted hquiet
  exact h₂.2 (hsame.trans hfirst.symm) hcommitted hquiet

theorem runs_keepHold (h : process.Reached c) (hruns : process.Runs c c') : KeepsHold c.1 c'.1 := by
  refine census.runs_along KeepsHold.refl (fun _ _ _ h₁ h₂ => h₁.trans h₂)
    (fun hcounted hmay hanswer => ?_) (fun hrestart => ?_) h hruns
  · obtain ⟨hlaunch, hcommitted, hquiet⟩ := committed_step hcounted hmay hanswer
    exact ⟨hlaunch.ge, fun _ hc hq => ⟨hcommitted hc, hquiet hc hq⟩⟩
  · obtain rfl := hrestart
    exact ⟨Nat.le_succ _, fun hsame => absurd hsame (Nat.succ_ne_self _)⟩

/-- Once a restart that found nothing in flight has kept its hold, no trade and no tool runs in this
process again. -/
theorem committed_restart_final (h : process.Reached c) (hcommitted : c.1.committed = true)
    (hquiet : c.1.quiet = true) (hruns : process.Runs c c') (hsame : c'.1.launch = c.1.launch) :
    c'.1.hold = true ∧ ∀ a, c'.1.running a = 0 := by
  have hkept := runs_keepHold h hruns
  obtain ⟨-, hquiet'⟩ := hkept.2 hsame hcommitted hquiet
  obtain ⟨-, -, hquiet_idle, -⟩ := restart_interrupts_nothing (h.runs hruns)
  exact hquiet_idle hquiet'

theorem committed_restart_final_staged :
    askedAfter.1.hold = true ∧ ∀ a, askedAfter.1.running a = 0 :=
  committed_restart_final staged_reached rfl rfl staged_runs rfl

end Safety

end ScreenerBot.Restart
