import Mathlib
import ScreenerBot.Wallets.Replacement.Recovery

/-! The move of the wallet-scoped stores into the marker's directory, and what it may leave half
done. -/
namespace ScreenerBot.Replacement
open Library

variable {C : Type} {reads : Readings C} {m : Marker} {s₀ s s' : Disk C}
  {flawless : Prop} {ε : Type}

theorem mem_storeFiles {store file : String} (hstore : store ∈ walletScopedStores)
    (hfile : file ∈ getDbWithWalFiles store) : file ∈ storeFiles :=
  List.mem_flatMap.mpr ⟨store, hstore, hfile⟩

/-- The sidecars of a store, in the order they move. -/
def sidecars (store : String) : List String := [store ++ ".db-wal", store ++ ".db-shm"]

theorem sidecar_ne : ∀ store ∈ walletScopedStores, ∀ file ∈ sidecars store,
    ∀ other ∈ walletScopedStores, file ≠ storeFile other := by
  decide

theorem storeFile_inj : ∀ store ∈ walletScopedStores, ∀ other ∈ walletScopedStores,
    storeFile store = storeFile other → store = other := by
  decide

/-- A file is gone, and so is every file that was. -/
def Gone (file : String) (s s' : Disk C) : Prop :=
  s'.live file = none ∧ ∀ other, s.live other = none → s'.live other = none

/-- Only a file of the same name stops the move of a file that is there. -/
theorem moveFileWithoutReplacing_runs {file : String}
    (hfresh : flawless → s₀.backups m.backupDirectory = none) (h : Moving reads m s₀ s)
    (hfile : file ∈ storeFiles) (hthere : (s.live file).isSome)
    (hlast : ∀ store ∈ walletScopedStores, file = storeFile store →
      ∀ sidecar ∈ getDbWithWalFiles store, sidecar ≠ file → s.live sidecar = none) :
    Runs reads m s₀ flawless (fun s' _ => Moving reads m s₀ s' ∧ Gone file s s')
      (moveFileWithoutReplacing file m.backupDirectory) s := by
  have hphase : Phase reads m s₀ s := .moving h
  refine Runs.look hphase (fun _ _ hb => hb) fun held hheld _ => ?_
  split_ifs with htaken
  · refine .throw fun hflawless => ?_
    have hfree : s₀.filesIn m.backupDirectory file = none := by
      rw [Disk.filesIn, hfresh hflawless]
      rfl
    rw [h.moved.files.free hfree hthere, htaken] at hheld
    cases hheld
  · have hfree : s.filesIn m.backupDirectory file = none := by
      rw [← Option.not_isSome_iff_eq_none, ← hheld]
      exact htaken
    obtain ⟨c, hc⟩ := Option.isSome_iff_exists.mp hthere
    have hmoved := h.moveIn hc hfile hfree hlast
    have hlive := (moveIn_spec hc h.moved.begun).1
    refine Runs.write hphase (.moving hmoved) (fun _ _ hr => hr.1.mayWrite)
      (fun e he => by cases he) ⟨hmoved, ?_, fun other hother => ?_⟩
    · rw [hlive, Function.update_self]
    · rw [hlive]
      by_cases hsame : other = file
      · rw [hsame, Function.update_self]
      · rw [Function.update_of_ne hsame, hother]

/-- Moving one file, once what must go before it is gone. -/
theorem moveStoreFile_runs {file : String} (hfresh : flawless → s₀.backups m.backupDirectory = none)
    (h : Moving reads m s₀ s) (hfile : file ∈ storeFiles)
    (hlast : ∀ store ∈ walletScopedStores, file = storeFile store →
      ∀ sidecar ∈ getDbWithWalFiles store, sidecar ≠ file → s.live sidecar = none) :
    Runs reads m s₀ flawless (fun s' _ => Moving reads m s₀ s' ∧ Gone file s s')
      (moveStoreFile m.backupDirectory file) s := by
  have hphase : Phase reads m s₀ s := .moving h
  refine Runs.look hphase (fun _ _ hb => hb) fun there hthere _ => ?_
  split_ifs with hlive
  · have hsome : (s.live file).isSome := hthere.symm.trans hlive
    exact (moveFileWithoutReplacing_runs hfresh h hfile hsome hlast).bind hphase
      fun _ _ _ hs' => .pure hs'
  · have hnone : s.live file = none := by
      rw [← Option.not_isSome_iff_eq_none, ← hthere]
      exact hlive
    exact .pure ⟨h, hnone, fun _ hother => hother⟩

/-- The files of a store are gone, and so is every file that was. -/
def StoreGone (store : String) (s : Disk C) : Prop :=
  ∀ file ∈ getDbWithWalFiles store, s.live file = none

/-- Moving one store: its `-wal`, its `-shm`, then its file. -/
theorem moveStoreFiles_runs {store : String}
    (hfresh : flawless → s₀.backups m.backupDirectory = none)
    (hstore : store ∈ walletScopedStores) (h : Underway reads m s₀ s) :
    Runs reads m s₀ flawless
      (fun s' _ => Moving reads m s₀ s' ∧ StoreGone store s' ∧
        ∀ other, s.live other = none → s'.live other = none)
      (moveStoreFiles store m.backupDirectory) s := by
  have hmem {file : String} (hfile : file ∈ getDbWithWalFiles store) : file ∈ storeFiles :=
    mem_storeFiles hstore hfile
  have hsidecar {file : String} (hfile : file ∈ sidecars store) (s : Disk C) :
      ∀ other ∈ walletScopedStores, file = storeFile other →
        ∀ sidecar ∈ getDbWithWalFiles other, sidecar ≠ file → s.live sidecar = none :=
    fun other hother hsame => absurd hsame (sidecar_ne store hstore file hfile other hother)
  have hcreated := h.createDirAll
  have hlive := (createDirAll_frame s m.backupDirectory).1
  refine Runs.writeThen h.phase (.moving hcreated) (fun _ _ hr => hr) (fun e he => by cases he) ?_
  refine .collect_cons (.moving hcreated) (moveStoreFile_runs hfresh hcreated
    (hmem (by simp [getDbWithWalFiles])) (hsidecar (by simp [sidecars]) _)) fun s₁ _ h₁ => ?_
  obtain ⟨hmoving₁, hwal₁, hkept₁⟩ := h₁
  refine .collect_cons (.moving hmoving₁) (moveStoreFile_runs hfresh hmoving₁
    (hmem (by simp [getDbWithWalFiles])) (hsidecar (by simp [sidecars]) _)) fun s₂ _ h₂ => ?_
  obtain ⟨hmoving₂, hshm₂, hkept₂⟩ := h₂
  have hwal₂ := hkept₂ _ hwal₁
  have hlast : ∀ other ∈ walletScopedStores, storeFile store = storeFile other →
      ∀ sidecar ∈ getDbWithWalFiles other, sidecar ≠ storeFile store → s₂.live sidecar = none := by
    intro other hother hsame sidecar hsidecar hne
    obtain rfl := storeFile_inj store hstore other hother hsame
    simp only [getDbWithWalFiles, List.mem_cons, List.not_mem_nil, or_false] at hsidecar
    obtain rfl | rfl | rfl := hsidecar
    · exact absurd rfl hne
    · exact hshm₂
    · exact hwal₂
  refine .collect_cons (.moving hmoving₂) (moveStoreFile_runs hfresh hmoving₂
    (hmem List.mem_cons_self) hlast) fun s₃ _ h₃ => .pure ?_
  obtain ⟨hmoving₃, hfile₃, hkept₃⟩ := h₃
  refine ⟨hmoving₃, ?_, fun other hother => ?_⟩
  · intro file hfile
    simp only [getDbWithWalFiles, List.mem_cons, List.not_mem_nil, or_false] at hfile
    obtain rfl | rfl | rfl := hfile
    · exact hfile₃
    · exact hkept₃ _ hshm₂
    · exact hkept₃ _ hwal₂
  · rw [← hlive] at hother
    exact hkept₃ _ (hkept₂ _ (hkept₁ _ hother))

theorem moveStore_runs {store : String} (hfresh : flawless → s₀.backups m.backupDirectory = none)
    (hstore : store ∈ walletScopedStores) (h : Underway reads m s₀ s) :
    Runs reads m s₀ flawless
      (fun s' _ => Moving reads m s₀ s' ∧ StoreGone store s' ∧
        ∀ other, s.live other = none → s'.live other = none)
      (moveStore m.backupDirectory store) s :=
  (moveStoreFiles_runs hfresh hstore h).bind h.phase fun _ _ _ hs' => .pure hs'

theorem findPooled_runs (h : Phase reads m s₀ s) (paths : List String) :
    Runs reads m s₀ flawless (fun s' pooled => s' = s ∧ (flawless → pooled = none))
      (findPooled paths)
      s := by
  induction paths with
  | nil => exact .pure ⟨rfl, fun _ => rfl⟩
  | cons path paths ih =>
    refine Runs.look h (fun _ _ hb => ⟨hb, trivial⟩) fun pooled _ hsucceeds => ?_
    split_ifs with hpooled
    · refine .pure ⟨rfl, fun hflawless => ?_⟩
      have hfalse : (!pooled) = true := hsucceeds hflawless
      rw [hpooled] at hfalse
      cases hfalse
    · exact ih

theorem backupStoreFiles_runs (h : Phase reads m s₀ s) :
    Runs reads m s₀ flawless (fun s' files => s' = s ∧
      ∀ file, isStoreFileName file = true →
        (file ∈ files ↔ (s.filesIn m.backupDirectory file).isSome))
      (backupStoreFiles m.backupDirectory) s := by
  refine Runs.reading h (fun _ _ hr => hr) (fun e he => by cases he) fun entries hentries => ?_
  refine .pure ⟨rfl, fun file hfile => ?_⟩
  rw [mem_sortBy, List.mem_filter, hentries file hfile]
  simp [hfile]

/-- Moving every store, and writing down what was moved. -/
theorem moveWalletStores_runs (manifest : WalletResetManifest)
    (hfresh : flawless → s₀.backups m.backupDirectory = none) (h : Underway reads m s₀ s) :
    Runs reads m s₀ flawless
      (fun s' _ => Moving reads m s₀ s' ∧ (∀ file ∈ storeFiles, s'.live file = none) ∧ Listed m s')
      (moveWalletStores m.backupDirectory manifest) s := by
  refine (findPooled_runs h.phase _).bind h.phase fun s₁ pooled _ h₁ => ?_
  obtain ⟨hs₁, hpooled⟩ := h₁
  rw [hs₁]
  cases pooled with
  | some path =>
    refine .throw fun hflawless => ?_
    cases hpooled hflawless
  | none =>
    have hstores : Runs reads m s₀ flawless
        (fun s' _ => Underway reads m s₀ s' ∧ (∀ store ∈ walletScopedStores, StoreGone store s') ∧
          ∀ store, StoreGone store s → StoreGone store s')
        (Attempt.each (moveStore m.backupDirectory) walletScopedStores) s := by
      refine Attempt.Safe.each (fun _ hs => Underway.phase hs) (fun store hstore s hs => ?_) h
      refine (moveStore_runs hfresh hstore hs).mono (fun s' _ hs' => ?_) fun _ _ he => he
      obtain ⟨hmoving, hgone, hkept⟩ := hs'
      exact ⟨hmoving.underway, hgone, fun other hother file hfile => hkept file (hother file hfile)⟩
    refine hstores.bind h.phase fun s₂ _ _ h₂ => ?_
    obtain ⟨hunderway, hgone, -⟩ := h₂
    have hmoving := hunderway.createDirAll
    have hlive := (createDirAll_frame s₂ m.backupDirectory).1
    refine Runs.writeThen hunderway.phase (.moving hmoving) (fun _ _ hr => hr)
      (fun e he => by cases he) ?_
    generalize hs₃ : s₂.createDirAll m.backupDirectory = s₃ at hmoving hlive
    have hphase : Phase reads m s₀ s₃ := .moving hmoving
    refine (backupStoreFiles_runs hphase).bind hphase fun s₄ files _ h₄ => ?_
    obtain ⟨hs₄, hfiles⟩ := h₄
    rw [hs₄]
    refine Runs.look hphase (fun _ _ hb => ⟨hb, trivial⟩) fun opens _ _ => ?_
    have hwritten := hmoving.writeManifest
      { manifest with files := files, movedOpenPositions := opens }
    refine Runs.writeThen hphase (.moving hwritten) (fun _ _ hr => hr.mayWrite)
      (fun e he => by cases he) ?_
    refine .pure ⟨hwritten, fun file hfile => ?_, hmoving.listed hfiles⟩
    obtain ⟨store, hstore, hmem⟩ := List.mem_flatMap.mp hfile
    have hnone := hgone store hstore file hmem
    rw [← hlive] at hnone
    exact hnone

theorem moveStores_runs (hfresh : flawless → s₀.backups m.backupDirectory = none)
    (h : Underway reads m s₀ s) :
    Runs reads m s₀ flawless
      (fun s' _ => Moving reads m s₀ s' ∧ (∀ file ∈ storeFiles, s'.live file = none) ∧ Listed m s')
      (moveStores m m.backupDirectory) s := by
  refine Runs.look h.phase (fun _ _ hb => ⟨hb, trivial⟩) fun createdAtMs _ _ => ?_
  let manifest : WalletResetManifest := ⟨.walletReplaced, m.chain, some m.previousAddress,
    some m.newAddress, createdAtMs, [], []⟩
  have hadapted : Runs reads m s₀ flawless
      (fun s' _ => Moving reads m s₀ s' ∧ (∀ file ∈ storeFiles, s'.live file = none) ∧ Listed m s')
      (ExceptT.adapt ReplacementError.database (moveWalletStores m.backupDirectory manifest)) s :=
    .adapt (moveWalletStores_runs manifest hfresh h) h.phase
  exact hadapted.bind h.phase fun _ _ _ hs' => .pure hs'

end ScreenerBot.Replacement
