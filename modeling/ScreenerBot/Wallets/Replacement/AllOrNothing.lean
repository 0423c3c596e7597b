import Mathlib
import ScreenerBot.Wallets.Replacement.Moves

/-!
A staged replacement is applied whole or not at all, however often the starts that apply it are
interrupted, and a start whose accesses all work ends it.
-/
namespace ScreenerBot.Replacement
open Library

variable {C : Type} {reads : Readings C} {m : Marker} {s₀ s s' : Disk C} {flawless : Prop}

/-- A replacement is over: given up with nothing changed, or done. -/
def Ended (reads : Readings C) (m : Marker) (s₀ s : Disk C) : Prop :=
  s.marker = none ∧ (Untouched s₀ s ∨ Replaced reads m s₀ s)

theorem Phase.ended (h : Phase reads m s₀ s) (hmarker : s.marker = none) : Ended reads m s₀ s := by
  cases h with
  | staged _ hmarked => rw [hmarked] at hmarker; cases hmarker
  | moving h => rw [h.marker] at hmarker; cases hmarker
  | promoted _ hmarked _ => rw [hmarked] at hmarker; cases hmarker
  | abandoned h _ => exact ⟨hmarker, .inl h⟩
  | replaced h _ => exact ⟨hmarker, .inr h⟩

section Checks

theorem vaultMismatch_runs (h : Phase reads m s₀ s) :
    Runs reads m s₀ flawless (fun s' r => s' = s ∧ (r = none → Matches reads m s.vault) ∧
      (flawless → Matches reads m s.vault → r = none)) (vaultMismatch m) s := by
  refine Runs.look h (fun _ _ hr => hr) fun mains hmains hworks => ?_
  cases mains with
  | error e => exact .pure ⟨rfl, fun hnone => (by cases hnone), fun hf => (by cases hworks hf)⟩
  | ok mains =>
    have hmains := hmains mains rfl
    dsimp only
    split_ifs with hsame
    · rw [hmains] at hsame
      refine Runs.look h (fun _ _ hr => hr) fun key hkey hworks => ?_
      cases key with
      | error e => exact .pure ⟨rfl, fun hnone => (by cases hnone), fun hf => (by cases hworks hf)⟩
      | ok key =>
        have hkey := hkey key rfl
        cases key with
        | none =>
          refine .pure ⟨rfl, fun hnone => (by cases hnone), fun _ hmatches => ?_⟩
          obtain ⟨_, key, hvault, -⟩ := hmatches
          rw [← hkey] at hvault
          cases hvault
        | some key =>
          refine Runs.look h (fun _ _ hr => hr) fun address haddress hworks => ?_
          cases address with
          | error e =>
            exact .pure ⟨rfl, fun hnone => (by cases hnone), fun hf => (by cases hworks hf)⟩
          | ok address =>
            have haddress := haddress address rfl
            dsimp only
            split_ifs with hnew
            · exact .pure ⟨rfl, fun _ => ⟨hsame, key, hkey.symm, hnew ▸ haddress⟩, fun _ _ => rfl⟩
            · refine .pure ⟨rfl, fun hnone => (by cases hnone), fun _ hmatches => ?_⟩
              obtain ⟨_, other, hvault, hother⟩ := hmatches
              rw [← hkey, Option.some_inj] at hvault
              rw [← hvault, haddress, Option.some_inj] at hother
              exact absurd hother hnew
    · refine .pure ⟨rfl, fun hnone => (by cases hnone), fun _ hmatches => ?_⟩
      rw [hmains] at hsame
      exact absurd hmatches.mains hsame

theorem abandonReason_runs (h : Phase reads m s₀ s) :
    Runs reads m s₀ flawless (fun s' r => s' = s ∧ (r = none → Matches reads m s.vault ∧
      s.openPositions reads m.previousAddress = some 0)) (abandonReason m) s := by
  refine (vaultMismatch_runs h).bind h fun s₁ mismatch _ h₁ => ?_
  obtain ⟨hs₁, hmatches, -⟩ := h₁
  rw [hs₁]
  cases mismatch with
  | some detail => exact .pure ⟨rfl, fun hnone => by cases hnone⟩
  | none =>
    refine Runs.look h (fun _ _ hr => hr) fun count hcount _ => ?_
    cases count with
    | error e => exact .pure ⟨rfl, fun hnone => by cases hnone⟩
    | ok count =>
      refine .pure ⟨rfl, fun hnone => ⟨hmatches rfl, ?_⟩⟩
      have hzero : count = 0 := by
        by_contra hne
        rw [if_neg hne] at hnone
        cases hnone
      rw [hcount count rfl, hzero]

/-- What is checked before the stores move; only a move that has not begun may be abandoned. -/
theorem abandonUnlessBegun_runs (h : Phase reads m s₀ s)
    (hbegun : flawless → (s.backups m.backupDirectory).isSome → Matches reads m s.vault) :
    Runs reads m s₀ flawless (fun s' r => s' = s ∧
      (r = none → Matches reads m s.vault ∧
        (s.backups m.backupDirectory = none → s.openPositions reads m.previousAddress = some 0)) ∧
      (r.isSome → s.backups m.backupDirectory = none))
        (abandonUnlessBegun m m.backupDirectory) s := by
  refine Runs.look h (fun _ _ hr => hr) fun begun hexists _ => ?_
  split_ifs with htrue
  · rw [htrue] at hexists
    refine (vaultMismatch_runs h).bind h fun s₁ mismatch _ h₁ => ?_
    obtain ⟨hs₁, hmatches, hmismatch⟩ := h₁
    cases mismatch with
    | some detail =>
      refine .throw fun hflawless => ?_
      cases hmismatch hflawless (hbegun hflawless hexists.symm)
    | none =>
      refine .pure ⟨hs₁, fun _ => ⟨hmatches rfl, fun hnone => ?_⟩, fun hsome => by cases hsome⟩
      rw [hnone] at hexists
      cases hexists
  · have hnone : s.backups m.backupDirectory = none := by
      rw [← Option.not_isSome_iff_eq_none, ← hexists]
      exact htrue
    refine (abandonReason_runs h).mono (fun s' r hr => ?_) fun _ _ he => he
    obtain ⟨hs', hclear⟩ := hr
    exact ⟨hs', fun hr => ⟨(hclear hr).1, fun _ => (hclear hr).2⟩, fun _ => hnone⟩

end Checks

section Finish

theorem Matches.found {v : Vault} (h : Matches reads m v) :
    (v.getWalletByAddress m.newAddress).isSome := by
  obtain ⟨-, key, hkey, -⟩ := h
  rw [Vault.getWalletKeyByAddress] at hkey
  obtain ⟨row, hrow, -⟩ := Option.map_eq_some_iff.mp hkey
  rw [hrow]
  rfl

/-- The promotion after the stores have moved commits. -/
theorem Matches.promotes {v : Vault} (h : Matches reads m v) :
    v.promoteToMain m.previousAddress m.newAddress
      = some ((v.demote m.previousAddress).promote m.newAddress) :=
  Vault.promoteToMain_commits h.mains h.found

/-- A vault not yet promoted, of a disk that has changed, is promoted when it is asked to be. -/
theorem Phase.promotes (h : Phase reads m s₀ s) (hchanged : ¬Untouched s₀ s)
    (hvault : s.vault = s₀.vault) :
    (s.vault.promoteToMain m.previousAddress m.newAddress).isSome := by
  rw [hvault]
  cases h with
  | staged h => exact absurd h hchanged
  | moving h =>
    rw [h.cleared.vault.promotes]
    rfl
  | promoted h =>
    rw [h.vault]
    rfl
  | abandoned h => exact absurd h hchanged
  | replaced h =>
    rw [h.promoted.vault]
    rfl

theorem Promoted.vault_eq (h : Promoted reads m s₀ s) :
    s.vault = (s₀.vault.demote m.previousAddress).promote m.newAddress := by
  have hvault := h.vault
  rw [h.cleared.vault.promotes, Option.some_inj] at hvault
  exact hvault.symm

theorem Promoted.key (h : Promoted reads m s₀ s) :
    ∃ key, s.vault.getWalletKeyByAddress m.newAddress = some key := by
  obtain ⟨key, hkey, -⟩ := h.cleared.vault.key
  refine ⟨key, ?_⟩
  rw [h.vault_eq, Vault.getWalletKeyByAddress_promoted, hkey]

theorem Promoted.mains (h : Promoted reads m s₀ s) :
    s.vault.activeMainAddresses = [m.newAddress] := by
  rw [h.vault_eq]
  exact Vault.mains_promoted h.cleared.vault.mains h.cleared.vault.found

theorem Moving.promoted (h : Moving reads m s₀ s) (hgone : ∀ file ∈ storeFiles, s.live file = none)
    (hlisted : Listed m s) {v : Vault}
    (hv : s₀.vault.promoteToMain m.previousAddress m.newAddress = some v) :
    Promoted reads m s₀ { s with vault := v } where
  moved := ⟨h.moved.files, h.moved.others, h.moved.sidecars, h.moved.begun⟩
  cleared := h.cleared
  gone := hgone
  listed := hlisted
  vault := hv

theorem Promoted.withConfig (h : Promoted reads m s₀ s) (config : Option Config) :
    Promoted reads m s₀ { s with config := config } where
  moved := ⟨h.moved.files, h.moved.others, h.moved.sidecars, h.moved.begun⟩
  cleared := h.cleared
  gone := h.gone
  listed := h.listed
  vault := h.vault

theorem Promoted.withMarker (h : Promoted reads m s₀ s) :
    Promoted reads m s₀ { s with marker := none } where
  moved := ⟨h.moved.files, h.moved.others, h.moved.sidecars, h.moved.begun⟩
  cleared := h.cleared
  gone := h.gone
  listed := h.listed
  vault := h.vault

theorem writeTradingKey_runs (h : Promoted reads m s₀ s) (hmarker : s.marker = some (.ok m))
    (hconfig : s.config = s₀.config ∨ Keyed m s₀ s) :
    Runs reads m s₀ flawless
      (fun s' _ => Promoted reads m s₀ s' ∧ s'.marker = some (.ok m) ∧ Keyed m s₀ s')
      (writeTradingKey m.newAddress) s := by
  have hphase : Phase reads m s₀ s := .promoted h hmarker hconfig
  obtain ⟨key, hkey⟩ := h.key
  have hsome : s.config.isSome = s₀.config.isSome := by
    obtain hconfig | ⟨_, -, hconfig⟩ := hconfig
    · rw [hconfig]
    · rw [hconfig, Option.isSome_map]
  refine Runs.look hphase (fun _ _ hr => hr) fun there hthere _ => ?_
  rw [hsome] at hthere
  split_ifs with htrue
  · refine Runs.reading hphase (fun _ _ hr => hr) (fun e he => by cases he) fun found hfound => ?_
    rw [hkey] at hfound
    rw [hfound]
    obtain ⟨old, hold⟩ := Option.isSome_iff_exists.mp (hthere.symm.trans htrue)
    have hkeyed : Keyed m s₀ { s with config := some ⟨key.1, key.2, false, false⟩ } :=
      ⟨key, hkey, by rw [hold]; rfl⟩
    have hpromoted := h.withConfig (some ⟨key.1, key.2, false, false⟩)
    exact Runs.write hphase (.promoted hpromoted hmarker (.inr hkeyed)) (fun _ _ hr => hr)
      (fun e he => by cases he) ⟨hpromoted, hmarker, hkeyed⟩
  · rw [Bool.not_eq_true] at htrue
    rw [htrue] at hthere
    have hnone : s₀.config = none := Option.not_isSome_iff_eq_none.mp (by rw [← hthere]; decide)
    have hnone' : s.config = none :=
      Option.not_isSome_iff_eq_none.mp (by rw [hsome, ← hthere]; decide)
    exact .pure ⟨h, hmarker, key, hkey, by rw [hnone, hnone']; rfl⟩

theorem finishApply_runs (h : Promoted reads m s₀ s) (hmarker : s.marker = some (.ok m))
    (hconfig : s.config = s₀.config ∨ Keyed m s₀ s) :
    Runs reads m s₀ flawless (fun s' _ => Ended reads m s₀ s' ∧ Replaced reads m s₀ s')
      (finishApply m m.backupDirectory) s := by
  refine (writeTradingKey_runs h hmarker hconfig).bind (.promoted h hmarker hconfig)
    fun s₁ _ hphase h₁ => ?_
  obtain ⟨hpromoted, -, hkeyed⟩ := h₁
  have hreplaced : Replaced reads m s₀ { s₁ with marker := none } := ⟨hpromoted.withMarker, hkeyed⟩
  refine Runs.writeThen hphase (.replaced hreplaced rfl) (fun _ _ hr => hr.mayWrite)
    (fun e he => by cases he) ?_
  exact .pure ⟨⟨rfl, .inr hreplaced⟩, hreplaced⟩

end Finish

section Starts

theorem classify_flipped {main : Option String} {found : Bool} :
    classify m main found = .flipped ↔ main = some m.newAddress := by
  cases main with
  | none => simp [classify]
  | some main =>
    simp only [classify, Option.some_inj]
    split_ifs with hnew hprevious <;> simp [hnew]

theorem recordAbandoned_runs (h : Untouched s₀ s) (hmarker : s.marker = none)
    (abandoned : AbandonedReplacement) :
    Runs reads m s₀ flawless (fun s' _ => Ended reads m s₀ s')
      (Attempt.ask (.recordAbandoned abandoned) : ApplyStep Unit) s := by
  refine Attempt.Safe.ask fun _ s' hrecorded _ => ?_
  obtain rfl | rfl := hrecorded
  · exact ⟨.abandoned h hmarker, hmarker, .inl h⟩
  · have hkept : Untouched s₀ { s with outcome := some abandoned } :=
      ⟨h.live, h.backups, h.vault, h.config⟩
    exact ⟨.abandoned hkept hmarker, hmarker, .inl hkept⟩

/-- The stores move, the vault takes the new wallet, and the rest follows. -/
theorem moveAndPromote_runs (hfresh : flawless → s₀.backups m.backupDirectory = none)
    (h : Underway reads m s₀ s) :
    Runs reads m s₀ flawless
      (fun s' r => Ended reads m s₀ s' ∧ (r.isSome → Replaced reads m s₀ s'))
      (do
        moveStores m m.backupDirectory
        Attempt.performWith vaultError (.promoteToMain m.previousAddress m.newAddress)
        finishApply m m.backupDirectory : ApplyStep (Option AppliedReplacement)) s := by
  refine (moveStores_runs hfresh h).bind h.phase fun s₁ _ hphase h₁ => ?_
  obtain ⟨hmoving, hgone, hlisted⟩ := h₁
  have hcommits := hmoving.cleared.vault.promotes
  have hpromoted := hmoving.promoted hgone hlisted hcommits
  refine Runs.writeThen hphase (.promoted hpromoted hmoving.marker (.inl hmoving.config))
    (fun r s' hr => ?_) (fun e he => by cases he) ?_
  · simp only [answers, hmoving.vault, hcommits] at hr
    exact hr
  · exact (finishApply_runs hpromoted hmoving.marker (.inl hmoving.config)).mono
      (fun s' _ hs' => ⟨hs'.1, fun _ => hs'.2⟩) fun _ _ he => he

/-- From the checks on; nothing has moved where the replacement is given up. -/
theorem applyNotFlipped_runs (hfresh : flawless → s₀.backups m.backupDirectory = none)
    (h : Untouched s₀ s ∧ s.marker = some (.ok m) ∨ Moving reads m s₀ s) :
    Runs reads m s₀ flawless
      (fun s' r => Ended reads m s₀ s' ∧ (r.isSome → Replaced reads m s₀ s'))
      (applyNotFlipped m m.backupDirectory) s := by
  have hphase : Phase reads m s₀ s := by
    obtain ⟨huntouched, hmarker⟩ | hmoving := h
    · exact .staged huntouched hmarker
    · exact .moving hmoving
  have hvault : s.vault = s₀.vault := by
    obtain ⟨huntouched, -⟩ | hmoving := h
    · exact huntouched.vault
    · exact hmoving.vault
  have hbegun : flawless → (s.backups m.backupDirectory).isSome → Matches reads m s.vault := by
    intro hflawless hsome
    obtain ⟨huntouched, -⟩ | hmoving := h
    · rw [huntouched.backups, hfresh hflawless] at hsome
      cases hsome
    · rw [hvault]
      exact hmoving.cleared.vault
  refine (abandonUnlessBegun_runs hphase hbegun).bind hphase fun s₁ reason _ h₁ => ?_
  obtain ⟨hs₁, hclear, hunbegun⟩ := h₁
  rw [hs₁]
  cases reason with
  | some reason =>
    obtain ⟨huntouched, hmarker⟩ | hmoving := h
    · have hafter := huntouched.unmarked s.outcome
      refine Runs.writeThen hphase (.abandoned hafter rfl) (fun _ _ hr => hr.mayWrite)
        (fun e he => by cases he) ?_
      exact (recordAbandoned_runs hafter rfl _).bind (.abandoned hafter rfl) fun _ _ _ hs' =>
        .pure ⟨hs', fun hsome => by cases hsome⟩
    · have hsome := hmoving.moved.begun
      rw [hunbegun rfl] at hsome
      cases hsome
  | none =>
    obtain ⟨hmatches, hclosed⟩ := hclear rfl
    obtain ⟨huntouched, hmarker⟩ | hmoving := h
    · refine moveAndPromote_runs hfresh
        (.inl ⟨huntouched, hmarker, hvault ▸ hmatches, fun hnone => ?_⟩)
      have hopen := hclosed (by rw [huntouched.backups, hnone])
      rw [Disk.openPositions, huntouched.live] at hopen
      exact hopen
    · exact moveAndPromote_runs hfresh (.inr hmoving)

theorem applyMarker_runs (hstaged : Staged m s₀)
    (hfresh : flawless → s₀.backups m.backupDirectory = none) (h : Phase reads m s₀ s)
    (hmarker : s.marker = some (.ok m)) :
    Runs reads m s₀ flawless
      (fun s' r => Ended reads m s₀ s' ∧ (r.isSome → Replaced reads m s₀ s'))
      (applyMarker m m.backupDirectory) s := by
  refine Runs.reading h (fun _ _ hr => hr) (fun e he => by cases he) fun _ _ => ?_
  refine Runs.reading h (fun _ _ hr => hr) (fun e he => by cases he) fun main hmain => ?_
  refine Runs.reading h (fun _ _ hr => hr) (fun e he => by cases he) fun found hfound => ?_
  rw [hmain, hfound]
  cases h with
  | staged huntouched _ =>
    have hwaiting : classify m (s.vault.getMainWallet.map WalletRow.address)
        (s.vault.getWalletByAddress m.newAddress).isSome ≠ .flipped := by
      rw [ne_eq, classify_flipped, huntouched.vault]
      exact hstaged.waiting
    cases hclass : classify m (s.vault.getMainWallet.map WalletRow.address)
        (s.vault.getWalletByAddress m.newAddress).isSome with
    | flipped => exact absurd hclass hwaiting
    | notFlipped => exact applyNotFlipped_runs hfresh (.inl ⟨huntouched, hmarker⟩)
    | stale =>
      have hafter := huntouched.unmarked s.outcome
      refine Runs.writeThen (.staged huntouched hmarker) (.abandoned hafter rfl)
        (fun _ _ hr => hr.mayWrite) (fun e he => by cases he) ?_
      exact .pure ⟨⟨rfl, .inl hafter⟩, fun hsome => by cases hsome⟩
  | moving hmoving =>
    have hclass : classify m (s.vault.getMainWallet.map WalletRow.address)
        (s.vault.getWalletByAddress m.newAddress).isSome = .notFlipped := by
      have hwaiting := hstaged.waiting
      have hprevious := Vault.getMainWallet_of_mains hmoving.cleared.vault.mains
      rw [hprevious, ne_eq, Option.some_inj] at hwaiting
      rw [hmoving.vault, hprevious, classify, if_neg hwaiting, hmoving.cleared.vault.found]
      simp
    rw [hclass]
    exact applyNotFlipped_runs hfresh (.inr hmoving)
  | promoted hpromoted _ hconfig =>
    have hclass : classify m (s.vault.getMainWallet.map WalletRow.address)
        (s.vault.getWalletByAddress m.newAddress).isSome = .flipped := by
      rw [classify_flipped]
      exact Vault.getMainWallet_of_mains hpromoted.mains
    rw [hclass]
    exact (finishApply_runs hpromoted hmarker hconfig).mono
      (fun s' _ hs' => ⟨hs'.1, fun _ => hs'.2⟩)
      fun _ _ he => he
  | abandoned _ hnone => rw [hnone] at hmarker; cases hmarker
  | replaced _ hnone => rw [hnone] at hmarker; cases hmarker

theorem applyPending_runs (hstaged : Staged m s₀)
    (hfresh : flawless → s₀.backups m.backupDirectory = none) (h : Phase reads m s₀ s) :
    Runs reads m s₀ flawless
      (fun s' r => Ended reads m s₀ s' ∧ (r.isSome → Replaced reads m s₀ s')) applyPending s := by
  have hmarked : s.marker = none ∨ s.marker = some (.ok m) := by
    cases h with
    | staged _ hmarker => exact .inr hmarker
    | moving h => exact .inr h.marker
    | promoted _ hmarker _ => exact .inr hmarker
    | abandoned _ hmarker => exact .inl hmarker
    | replaced _ hmarker => exact .inl hmarker
  have hread : Runs reads m s₀ flawless
      (fun s' r => s' = s ∧ (r = none ∧ s.marker = none ∨ r = some m ∧ s.marker = some (.ok m)))
      readMarker s := by
    refine Runs.reading h (fun _ _ hr => hr) (fun e he => by cases he) fun marker hmarker => ?_
    obtain hnone | hsome := hmarked
    · obtain rfl := hmarker.trans hnone
      exact .pure ⟨rfl, .inl ⟨rfl, hnone⟩⟩
    · obtain rfl := hmarker.trans hsome
      exact .pure ⟨rfl, .inr ⟨rfl, hsome⟩⟩
  refine hread.bind h fun s₁ r _ h₁ => ?_
  obtain ⟨hs₁, ⟨rfl, hnone⟩ | ⟨rfl, hsome⟩⟩ := h₁
  · rw [hs₁]
    exact .pure ⟨h.ended hnone, fun hsome => by cases hsome⟩
  · have hpath : m.backupPath = some m.backupDirectory := by
      rw [Marker.backupPath, if_pos hstaged.directory]
    rw [hs₁]
    dsimp only
    rw [hstaged.chain, hpath]
    exact applyMarker_runs hstaged hfresh h hsome

/-- The starts that follow a staged replacement: each runs until it ends or is interrupted, at any
access, and the next one finds the disk as it was left. -/
def starts (reads : Readings C) (s₀ : Disk C) :
    Machine Io (Disk C) (Except ReplacementError (Option AppliedReplacement)) where
  toSurroundings := .alone (answers reads)
  starts s := s = s₀
  boots program := program = applyPending.run
  turns _ _ := False
  restarts s s' := s' = s

theorem starts_keep (hstaged : Staged m s₀)
    (hfresh : flawless → s₀.backups m.backupDirectory = none) (h : Phase reads m s₀ s)
    {worker : Worker Io (Except ReplacementError (Option AppliedReplacement))}
    (hreached : (starts reads s).Reached (fun _ x => flawless → Succeeds x.effect x.answer)
      s' worker) :
    Phase reads m s₀ s' ∧ ∀ r, worker = .idle r → Attempt.Either
      (fun applied => Ended reads m s₀ s' ∧ (applied.isSome → Replaced reads m s₀ s'))
      (fun _ => ¬ flawless) r := by
  let Post (s : Disk C) (r : Except ReplacementError (Option AppliedReplacement)) : Prop :=
    Attempt.Either (fun applied => Ended reads m s₀ s ∧ (applied.isSome → Replaced reads m s₀ s))
      (fun _ => ¬ flawless) r
  have hstarts : ∀ s', (starts reads s).starts s' → Phase reads m s₀ s' := by
    rintro _ rfl
    exact h
  have hboots : ∀ s' program, Phase reads m s₀ s' → (starts reads s).boots program →
      program.Safe (starts reads s).toSurroundings
        (fun _ x => flawless → Succeeds x.effect x.answer)
        (Phase reads m s₀) Post s' := by
    rintro s' _ hs' rfl
    exact applyPending_runs hstaged hfresh hs'
  have hrestarts : ∀ s' s'', Phase reads m s₀ s' → (starts reads s).restarts s' s'' →
      Phase reads m s₀ s'' := by
    rintro s' _ hs' rfl
    exact hs'
  obtain ⟨hphase, hworker⟩ :=
    hreached.invariant hstarts hboots (fun _ _ _ _ _ hturn => False.elim hturn)
    (fun _ _ _ hmove => False.elim hmove) hrestarts
  refine ⟨hphase, fun r hr => ?_⟩
  subst hr
  exact hworker

/-- In every phase the store files are where they were or in the marker's directory, a store's file
never before its sidecars, and the other directories are as they were. -/
theorem Phase.relocated (h : Phase reads m s₀ s) :
    Relocation {file | file ∈ storeFiles} s₀.live (s₀.filesIn m.backupDirectory) s.live
      (s.filesIn m.backupDirectory) ∧
    (∀ store ∈ walletScopedStores, s.live (storeFile store) = none →
      (s₀.live (storeFile store)).isSome → ∀ file ∈ getDbWithWalFiles store, s.live file = none) ∧
    ∀ directory, directory ≠ m.backupDirectory → s.backups directory = s₀.backups directory := by
  have huntouched (h : Untouched s₀ s) :
      Relocation {file | file ∈ storeFiles} s₀.live (s₀.filesIn m.backupDirectory) s.live
        (s.filesIn m.backupDirectory) ∧
      (∀ store ∈ walletScopedStores, s.live (storeFile store) = none →
        (s₀.live (storeFile store)).isSome → ∀ file ∈ getDbWithWalFiles store, s.live file = none) ∧
      ∀ directory, directory ≠ m.backupDirectory → s.backups directory = s₀.backups directory := by
    rw [h.live, h.filesIn, h.backups]
    refine ⟨.refl _ _ _, fun store _ hnone hsome => ?_, fun _ _ => rfl⟩
    rw [hnone] at hsome
    cases hsome
  cases h with
  | staged h _ => exact huntouched h
  | abandoned h _ => exact huntouched h
  | moving h => exact ⟨h.moved.files, h.moved.sidecars, h.moved.others⟩
  | promoted h _ _ => exact ⟨h.moved.files, h.moved.sidecars, h.moved.others⟩
  | replaced h _ =>
    exact ⟨h.promoted.moved.files, h.promoted.moved.sidecars, h.promoted.moved.others⟩

theorem Phase.keys (h : Phase reads m s₀ s) (address : String) :
    s.vault.getWalletKeyByAddress address = s₀.vault.getWalletKeyByAddress address := by
  have hpromoted (h : Promoted reads m s₀ s) :
      s.vault.getWalletKeyByAddress address = s₀.vault.getWalletKeyByAddress address := by
    rw [h.vault_eq, Vault.getWalletKeyByAddress_promoted]
  cases h with
  | staged h _ => rw [h.vault]
  | abandoned h _ => rw [h.vault]
  | moving h => rw [h.vault]
  | promoted h _ _ => exact hpromoted h
  | replaced h _ => exact hpromoted h.promoted

section Example

/-- Every access works, where it can. -/
def works (reads : Readings C) : {β : Type} → Io β → Disk C → β × Disk C
  | _, .readMarker, s => (.ok s.marker, s)
  | _, .setAside _, s => ((), { s with marker := none })
  | _, .removeMarker, s => (.ok (), { s with marker := none })
  | _, .recordAbandoned abandoned, s => ((), { s with outcome := some abandoned })
  | _, .openVault, s => (.ok (), s)
  | _, .getMainWallet, s => (.ok s.vault.getMainWallet, s)
  | _, .getWalletByAddress address, s => (.ok (s.vault.getWalletByAddress address), s)
  | _, .getWalletKeyByAddress address, s => (.ok (s.vault.getWalletKeyByAddress address), s)
  | _, .activeMainAddresses, s => (.ok s.vault.activeMainAddresses, s)
  | _, .encryptedKeyAddress ciphertext nonce, s =>
    ((reads.keyAddress ciphertext nonce).elim (.error "no such key") .ok, s)
  | _, .promoteToMain previousAddress newAddress, s =>
    (s.vault.promoteToMain previousAddress newAddress).elim (.error "rolled back", s)
      fun vault => (.ok (), { s with vault := vault })
  | _, .countOpenPositions wallet, s =>
    ((s.openPositions reads wallet).elim (.error "unreadable") .ok, s)
  | _, .isPooled _, s => (false, s)
  | _, .liveExists file, s => ((s.live file).isSome, s)
  | _, .directoryExists directory, s => ((s.backups directory).isSome, s)
  | _, .heldIn directory file, s => ((s.filesIn directory file).isSome, s)
  | _, .createDirAll directory, s => (.ok (), s.createDirAll directory)
  | _, .moveIn file directory, s =>
    if (s.live file).isSome ∧ (s.backups directory).isSome then (.ok (), s.moveIn file directory)
    else (.error "not found", s)
  | _, .readDir directory, s =>
    ((s.backups directory).elim (.error "not found") fun backup => .ok backup.files.keys, s)
  | _, .movedOpenPositions _, s => ([], s)
  | _, .nowMillis, s => (0, s)
  | _, .writeManifest directory manifest, s => (.ok (), s.writeManifest directory manifest)
  | _, .configExists, s => (s.config.isSome, s)
  | _, .setConfigKeys walletEncrypted walletNonce, s =>
    (.ok (), { s with config := some ⟨walletEncrypted, walletNonce, false, false⟩ })

theorem reads_of_ok {α : Type} (s : Disk C) (value : α) : Reads s s value (.ok value) :=
  ⟨rfl, fun _ hvalue => (Except.ok.inj hvalue).symm⟩

theorem works_answers (reads : Readings C) {β : Type} (effect : Io β) (s : Disk C) :
    answers reads s effect (works reads effect s).1 (works reads effect s).2 := by
  cases effect with
  | readMarker => exact reads_of_ok s _
  | setAside reason => exact .inr rfl
  | removeMarker => exact .inl ⟨rfl, rfl⟩
  | recordAbandoned abandoned => exact .inr rfl
  | openVault => exact reads_of_ok s _
  | getMainWallet => exact reads_of_ok s _
  | getWalletByAddress address => exact reads_of_ok s _
  | getWalletKeyByAddress address => exact reads_of_ok s _
  | activeMainAddresses => exact reads_of_ok s _
  | encryptedKeyAddress ciphertext nonce =>
    refine ⟨rfl, fun address haddress => ?_⟩
    cases hkey : reads.keyAddress ciphertext nonce with
    | none => simp [works, hkey] at haddress
    | some found => simpa [works, hkey] using haddress
  | promoteToMain previousAddress newAddress =>
    cases hvault : s.vault.promoteToMain previousAddress newAddress with
    | none => simp [answers, works, hvault]
    | some vault => simp [answers, works, hvault, MayWrite]
  | countOpenPositions wallet =>
    refine ⟨rfl, fun count hcount => ?_⟩
    cases hopen : s.openPositions reads wallet with
    | none => simp [works, hopen] at hcount
    | some found => simpa [works, hopen] using hcount
  | isPooled file => rfl
  | liveExists file => exact ⟨rfl, rfl⟩
  | directoryExists directory => exact ⟨rfl, rfl⟩
  | heldIn directory file => exact ⟨rfl, rfl⟩
  | createDirAll directory => exact .inl ⟨rfl, rfl⟩
  | moveIn file directory =>
    rw [works]
    split_ifs with hthere
    · exact ⟨.inl ⟨rfl, rfl⟩, fun _ => hthere⟩
    · exact ⟨.inr ⟨⟨_, rfl⟩, rfl⟩, fun hok => by cases hok⟩
  | readDir directory =>
    refine ⟨rfl, fun names hnames file _ => ?_⟩
    cases hbackup : s.backups directory with
    | none => simp [works, hbackup] at hnames
    | some backup =>
      have hkeys : backup.files.keys = names := by simpa [works, hbackup] using hnames
      rw [← hkeys, Disk.filesIn, hbackup, ← AList.mem_keys]
      exact AList.lookup_isSome.symm
  | movedOpenPositions directory => rfl
  | nowMillis => rfl
  | writeManifest directory manifest => exact .inl ⟨rfl, rfl⟩
  | configExists => exact ⟨rfl, rfl⟩
  | setConfigKeys walletEncrypted walletNonce => exact .inl ⟨rfl, rfl⟩

/-- A vault in which a second wallet waits to replace the first. -/
def twoWallets : Vault where
  rows := [⟨"Main Wallet", "old", "old-key", "n1", .main, true⟩,
    ⟨"Second", "new", "new-key", "n2", .secondary, true⟩]
  unique := by decide

def twoKeys : Readings ℕ where
  openPositions _ := some fun _ => 0
  keyAddress ciphertext _ := if ciphertext = "new-key" then some "new" else some "old"

def replaceOld : Marker := ⟨"solana", "old", "new", "wallet-reset-1"⟩

/-- A positions store with its `-wal`, and a replacement staged. -/
def stagedDisk : Disk ℕ where
  live file := if file = "positions.db" then some 1
    else if file = "positions.db-wal" then some 2 else none
  backups _ := none
  marker := some (.ok replaceOld)
  outcome := none
  vault := twoWallets
  config := some ⟨"old-key", "n1", true, true⟩

theorem replaceOld_staged : Staged replaceOld stagedDisk where
  marker := rfl
  chain := by decide
  directory := by decide
  waiting := by decide

/-- A start that is interrupted after a number of accesses that all work. -/
def started (accesses : ℕ) (s : Disk ℕ) :
    Disk ℕ × Program Io (Except ReplacementError (Option AppliedReplacement)) :=
  Machine.follow (works twoKeys) Succeeds accesses applyPending.run s

theorem started_reached (accesses : ℕ) (s : Disk ℕ) :
    (starts twoKeys s).Reached (fun _ x => Succeeds x.effect x.answer) (started accesses s).1
      (.busy (started accesses s).2) :=
  .follow (works_answers twoKeys) (fun _ _ _ h => h) accesses (.start rfl rfl)

end Example

/-- However often the starts after a staged replacement are interrupted or fail, no store file and
no key is lost, a store never leaves before its sidecars and nothing in a backup is replaced; a
start ends well only with the marker gone, and with the marker gone everything is as it was or the
replacement is done. -/
theorem replacement_all_or_nothing (hstaged : Staged m s₀)
    {worker : Worker Io (Except ReplacementError (Option AppliedReplacement))}
    (hreached : (starts reads s₀).Reached (fun _ _ => True) s worker) :
    (∀ file c, s₀.live file = some c → s.live file = some c ∨
      file ∈ storeFiles ∧ s.live file = none ∧ s.filesIn m.backupDirectory file = some c) ∧
    (∀ store ∈ walletScopedStores, s.live (storeFile store) = none →
      (s₀.live (storeFile store)).isSome → ∀ file ∈ getDbWithWalFiles store, s.live file = none) ∧
    (∀ directory file c, s₀.filesIn directory file = some c → s.filesIn directory file = some c) ∧
    (∀ address, s.vault.getWalletKeyByAddress address = s₀.vault.getWalletKeyByAddress address) ∧
    (s.marker = none → Untouched s₀ s ∨ Replaced reads m s₀ s) ∧
    ∀ applied, worker = .idle (.ok applied) →
      s.marker = none ∧ (applied.isSome → Replaced reads m s₀ s) := by
  have hstart : Phase reads m s₀ s₀ := .staged ⟨rfl, rfl, rfl, rfl⟩ hstaged.marker
  have hanswered : (starts reads s₀).Reached
      (fun _ x => False → Succeeds x.effect x.answer) s worker :=
    hreached.mono fun _ _ _ hflawless => hflawless.elim
  obtain ⟨hphase, hworker⟩ := starts_keep hstaged (fun hflawless => hflawless.elim) hstart hanswered
  obtain ⟨hfiles, hsidecars, hothers⟩ := hphase.relocated
  refine ⟨fun file c hc => hfiles.kept hc, hsidecars, fun directory file c hc => ?_, hphase.keys,
    fun hmarker => (hphase.ended hmarker).2, fun applied hidle => ?_⟩
  · by_cases hdirectory : directory = m.backupDirectory
    · rw [hdirectory] at hc ⊢
      exact hfiles.spared hc
    · rw [Disk.filesIn] at hc ⊢
      rw [hothers directory hdirectory]
      exact hc
  · obtain ⟨hended, hreplaced⟩ := hworker _ hidle
    exact ⟨hended.1, hreplaced⟩

theorem replacement_all_or_nothing_applied :
    Replaced twoKeys replaceOld stagedDisk (started 100 stagedDisk).1 := by
  have hdone : (started 100 stagedDisk).2 =
    .done (.ok (some ⟨"old", "new", "wallet-reset-1"⟩)) := rfl
  have hreached := started_reached 100 stagedDisk
  rw [hdone] at hreached
  have hall := replacement_all_or_nothing replaceOld_staged
    (hreached.finish.mono fun _ _ _ => trivial)
  obtain ⟨-, -, -, -, -, hidle⟩ := hall
  exact (hidle _ rfl).2 rfl

/-- Wherever the starts before it were interrupted, a start whose accesses all work ends well: the
replacement is given up with nothing changed, or done. Once something has changed, the promotion
that is still to come is not refused. -/
theorem replacement_resumes (hstaged : Staged m s₀) (hfresh : s₀.backups m.backupDirectory = none)
    {worker : Worker Io (Except ReplacementError (Option AppliedReplacement))}
    (hreached : (starts reads s₀).Reached (fun _ _ => True) s worker)
    {r : Except ReplacementError (Option AppliedReplacement)}
    (hlast : (starts reads s).Reached (fun _ x => Succeeds x.effect x.answer) s' (.idle r)) :
    (¬Untouched s₀ s → s.vault = s₀.vault →
      (s.vault.promoteToMain m.previousAddress m.newAddress).isSome) ∧
    (∃ applied, r = .ok applied) ∧ s'.marker = none ∧
      (Untouched s₀ s' ∨ Replaced reads m s₀ s') := by
  have hstart : Phase reads m s₀ s₀ := .staged ⟨rfl, rfl, rfl, rfl⟩ hstaged.marker
  have hanswered : (starts reads s₀).Reached
      (fun _ x => False → Succeeds x.effect x.answer) s worker :=
    hreached.mono fun _ _ _ hflawless => hflawless.elim
  have hphase := (starts_keep hstaged (fun hflawless => hflawless.elim) hstart hanswered).1
  have hflawless : (starts reads s).Reached (fun _ x => True → Succeeds x.effect x.answer) s'
      (.idle r) :=
    hlast.mono fun _ _ hx _ => hx
  have hlast := (starts_keep hstaged (fun _ => hfresh) hphase hflawless).2 r rfl
  refine ⟨hphase.promotes, ?_⟩
  cases r with
  | error e => exact absurd trivial hlast
  | ok applied => exact ⟨⟨applied, rfl⟩, hlast.1⟩

/-- The first start stops when the `-wal` of the positions store has moved and the store has not. -/
theorem replacement_resumes_interrupted :
    (started 20 stagedDisk).1.live "positions.db-wal" = none ∧
    (started 20 stagedDisk).1.live "positions.db" = some 1 ∧
    ((started 20 stagedDisk).1.vault.promoteToMain "old" "new").isSome ∧
    (started 100 (started 20 stagedDisk).1).1.marker = none := by
  have hdone : (started 100 (started 20 stagedDisk).1).2
      = .done (.ok (some ⟨"old", "new", "wallet-reset-1"⟩)) := rfl
  have hlast := started_reached 100 (started 20 stagedDisk).1
  rw [hdone] at hlast
  have hall := replacement_resumes replaceOld_staged rfl
    ((started_reached 20 stagedDisk).mono fun _ _ _ => trivial) hlast.finish
  have hchanged : ¬Untouched stagedDisk (started 20 stagedDisk).1 := by
    intro h
    have hlive := congrFun h.live "positions.db-wal"
    revert hlive
    decide
  exact ⟨rfl, rfl, hall.1 hchanged rfl, hall.2.2.1⟩

end Starts

end ScreenerBot.Replacement
