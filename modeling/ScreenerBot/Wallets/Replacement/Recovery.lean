import Mathlib
import ScreenerBot.Wallets.Replacement.Apply

/-!
What the starts that follow a staged replacement leave on disk, wherever they are interrupted and
whatever fails.
-/
namespace ScreenerBot.Replacement
open Library

/-- The files of the wallet-scoped stores. -/
def storeFiles : List String := walletScopedStores.flatMap getDbWithWalFiles

variable {C : Type}

/-- As at first, but for the marker and the record of an abandoned replacement. -/
structure Untouched (s₀ s : Disk C) : Prop where
  live : s.live = s₀.live
  backups : s.backups = s₀.backups
  vault : s.vault = s₀.vault
  config : s.config = s₀.config

theorem Untouched.filesIn {s₀ s : Disk C} (h : Untouched s₀ s) (directory : String) :
    s.filesIn directory = s₀.filesIn directory := by
  funext file
  rw [Disk.filesIn, Disk.filesIn, h.backups]

theorem Untouched.unmarked {s₀ s : Disk C} (h : Untouched s₀ s)
    (outcome : Option AbandonedReplacement) :
    Untouched s₀ { s with marker := none, outcome := outcome } :=
  ⟨h.live, h.backups, h.vault, h.config⟩

/-- A replacement is staged: its marker names a known chain and a directory of its own, and the new
wallet is not the trading wallet yet. -/
structure Staged (m : Marker) (s₀ : Disk C) : Prop where
  marker : s₀.marker = some (.ok m)
  chain : ChainId.parse m.chain = some .solana
  directory : isBackupDirectoryName m.backupDirectory = true
  waiting : s₀.vault.getMainWallet.map WalletRow.address ≠ some m.newAddress

/-- The previous wallet is the one active main of the vault, and its key of the new wallet decrypts
to it. -/
structure Matches (reads : Readings C) (m : Marker) (v : Vault) : Prop where
  mains : v.activeMainAddresses = [m.previousAddress]
  key : ∃ key, v.getWalletKeyByAddress m.newAddress = some key ∧
    reads.keyAddress key.1 key.2 = some m.newAddress

/-- What a start has checked before the first file moves. -/
structure Cleared (reads : Readings C) (m : Marker) (s₀ : Disk C) : Prop where
  vault : Matches reads m s₀.vault
  closed : s₀.backups m.backupDirectory = none → s₀.openPositions reads m.previousAddress = some 0

/-- Store files have moved into the marker's directory, the sidecars of a store before its file. -/
structure Moved (m : Marker) (s₀ s : Disk C) : Prop where
  files : Relocation {file | file ∈ storeFiles} s₀.live (s₀.filesIn m.backupDirectory) s.live
    (s.filesIn m.backupDirectory)
  others : ∀ directory, directory ≠ m.backupDirectory → s.backups directory = s₀.backups directory
  sidecars : ∀ store ∈ walletScopedStores, s.live (storeFile store) = none →
    (s₀.live (storeFile store)).isSome → ∀ file ∈ getDbWithWalFiles store, s.live file = none
  begun : (s.backups m.backupDirectory).isSome

/-- The move has begun, and nothing else has changed. -/
structure Moving (reads : Readings C) (m : Marker) (s₀ s : Disk C) : Prop where
  moved : Moved m s₀ s
  cleared : Cleared reads m s₀
  marker : s.marker = some (.ok m)
  vault : s.vault = s₀.vault
  config : s.config = s₀.config

/-- The manifest of the marker's directory lists the store files in it. -/
def Listed (m : Marker) (s : Disk C) : Prop :=
  ∃ manifest, (s.backups m.backupDirectory).bind Backup.manifest = some manifest ∧
    ∀ file, isStoreFileName file = true →
      (file ∈ manifest.files ↔ (s.filesIn m.backupDirectory file).isSome)

/-- Every store file has moved and the vault names the new wallet. -/
structure Promoted (reads : Readings C) (m : Marker) (s₀ s : Disk C) : Prop where
  moved : Moved m s₀ s
  cleared : Cleared reads m s₀
  gone : ∀ file ∈ storeFiles, s.live file = none
  listed : Listed m s
  vault : s₀.vault.promoteToMain m.previousAddress m.newAddress = some s.vault

/-- The config, where there is one, holds the key the vault has for the new wallet, with both
trading switches off. -/
def Keyed (m : Marker) (s₀ s : Disk C) : Prop :=
  ∃ key, s.vault.getWalletKeyByAddress m.newAddress = some key ∧
    s.config = s₀.config.map fun _ => ⟨key.1, key.2, false, false⟩

/-- The replacement is done. -/
structure Replaced (reads : Readings C) (m : Marker) (s₀ s : Disk C) : Prop where
  promoted : Promoted reads m s₀ s
  keyed : Keyed m s₀ s

/-- Where an interrupted start can leave the disk. Only with the marker gone is a replacement
over. -/
inductive Phase (reads : Readings C) (m : Marker) (s₀ s : Disk C) : Prop
  | staged (h : Untouched s₀ s) (hmarker : s.marker = some (.ok m))
  | moving (h : Moving reads m s₀ s)
  | promoted (h : Promoted reads m s₀ s) (hmarker : s.marker = some (.ok m))
      (hconfig : s.config = s₀.config ∨ Keyed m s₀ s)
  | abandoned (h : Untouched s₀ s) (hmarker : s.marker = none)
  | replaced (h : Replaced reads m s₀ s) (hmarker : s.marker = none)

/-- The answer of an access that works. -/
def Succeeds : {β : Type} → Io β → β → Bool
  | _, .readMarker, r => r.isOk
  | _, .removeMarker, r => r.isOk
  | _, .openVault, r => r.isOk
  | _, .getMainWallet, r => r.isOk
  | _, .getWalletByAddress _, r => r.isOk
  | _, .getWalletKeyByAddress _, r => r.isOk
  | _, .activeMainAddresses, r => r.isOk
  | _, .encryptedKeyAddress _ _, r => r.isOk
  | _, .promoteToMain _ _, r => r.isOk
  | _, .countOpenPositions _, r => r.isOk
  | _, .isPooled _, pooled => !pooled
  | _, .createDirAll _, r => r.isOk
  | _, .moveIn _ _, r => r.isOk
  | _, .readDir _, r => r.isOk
  | _, .writeManifest _ _, r => r.isOk
  | _, .setConfigKeys _ _, r => r.isOk
  | _, _, _ => true

variable {reads : Readings C} {m : Marker} {s₀ s s' : Disk C} {flawless : Prop} {ε α β : Type}

/-- An attempt that keeps the disk in a phase of the replacement at each of its accesses, and fails
only when an access does. -/
abbrev Runs (reads : Readings C) (m : Marker) (s₀ : Disk C) (flawless : Prop)
    (ok : Disk C → α → Prop) (attempt : Attempt Io ε α) (s : Disk C) : Prop :=
  Attempt.Safe (answers reads) (fun _ x => flawless → Succeeds x.effect x.answer)
    (Phase reads m s₀) ok (fun _ _ => ¬ flawless) attempt s

section Accesses

variable {f : β → Attempt Io ε α} {ok : Disk C → α → Prop}

/-- An access that changes nothing. -/
theorem Runs.look {effect : Io β} {P : β → Prop} (h : Phase reads m s₀ s)
    (hanswer : ∀ b s', answers reads s effect b s' → s' = s ∧ P b)
    (hf : ∀ b, P b → (flawless → Succeeds effect b) → Runs reads m s₀ flawless ok (f b) s) :
    Runs reads m s₀ flawless ok (Attempt.ask effect >>= f) s := by
  have hask : Runs reads m s₀ flawless
      (fun s' b => s' = s ∧ P b ∧ (flawless → Succeeds effect b))
      (Attempt.ask effect : Attempt Io ε β) s := by
    refine Attempt.Safe.ask fun b s' hb hallowed => ?_
    obtain ⟨hs', hP⟩ := hanswer b s' hb
    exact ⟨hs' ▸ h, hs', hP, hallowed⟩
  refine hask.bind h fun s' b _ hb => ?_
  obtain ⟨hs', hP, hsucceeds⟩ := hb
  exact hs' ▸ hf b hP hsucceeds

/-- A reading that may fail. -/
theorem Runs.reading {g : String → ε} {effect : Io (Except String β)} {P : β → Prop}
    (h : Phase reads m s₀ s)
    (hanswer : ∀ r s', answers reads s effect r s' → s' = s ∧ ∀ b, r = .ok b → P b)
    (hfails : ∀ e, ¬ Succeeds effect (.error e))
    (hf : ∀ b, P b → Runs reads m s₀ flawless ok (f b) s) :
    Runs reads m s₀ flawless ok (Attempt.performWith g effect >>= f) s := by
  have hread : Runs reads m s₀ flawless (fun s' b => s' = s ∧ P b)
      (Attempt.performWith g effect) s := by
    refine Attempt.Safe.performWith (fun b s' hb _ => ?_) fun e s' hb hallowed => ?_
    · obtain ⟨hs', hP⟩ := hanswer _ s' hb
      exact ⟨hs' ▸ h, hs', hP b rfl⟩
    · obtain ⟨hs', -⟩ := hanswer _ s' hb
      exact ⟨hs' ▸ h, fun hflawless => hfails e (hallowed hflawless)⟩
  refine hread.bind h fun s' b _ hb => ?_
  obtain ⟨hs', hP⟩ := hb
  exact hs' ▸ hf b hP

/-- A write that ends an attempt, done or not as its answer says. -/
theorem Runs.write {ok : Disk C → Unit → Prop} {g : String → ε} {effect : Io (Except String Unit)}
    {done : Disk C} (h : Phase reads m s₀ s) (hdone : Phase reads m s₀ done)
    (hanswer : ∀ r s', answers reads s effect r s' → MayWrite s s' done r)
    (hfails : ∀ e, ¬ Succeeds effect (.error e)) (hok : ok done ()) :
    Runs reads m s₀ flawless ok (Attempt.performWith g effect) s := by
  refine Attempt.Safe.performWith (fun b s' hb _ => ?_) fun e s' hb hallowed => ?_
  · obtain ⟨-, rfl⟩ | ⟨⟨_, he⟩, -⟩ := hanswer _ s' hb
    · exact ⟨hdone, hok⟩
    · cases he
  · have hphase : Phase reads m s₀ s' := by
      obtain ⟨he, -⟩ | ⟨-, rfl | rfl⟩ := hanswer _ s' hb
      · cases he
      · exact h
      · exact hdone
    exact ⟨hphase, fun hflawless => hfails e (hallowed hflawless)⟩

theorem Runs.writeThen {g : String → ε} {effect : Io (Except String Unit)} {done : Disk C}
    {f : Unit → Attempt Io ε α} (h : Phase reads m s₀ s) (hdone : Phase reads m s₀ done)
    (hanswer : ∀ r s', answers reads s effect r s' → MayWrite s s' done r)
    (hfails : ∀ e, ¬ Succeeds effect (.error e)) (hf : Runs reads m s₀ flawless ok (f ()) done) :
    Runs reads m s₀ flawless ok (Attempt.performWith g effect >>= f) s := by
  have hwrite : Runs reads m s₀ flawless (fun s' _ => s' = done) (Attempt.performWith g effect) s :=
    .write h hdone hanswer hfails rfl
  refine hwrite.bind h fun s' _ _ hs' => ?_
  exact hs' ▸ hf

theorem Writes.mayWrite {done : Disk C} {r : Except String Unit} (h : Writes s s' done r) :
    MayWrite s s' done r := by
  obtain h | ⟨he, h⟩ := h
  · exact .inl h
  · exact .inr ⟨he, .inl h⟩

end Accesses

section Moves

variable {directory file : String}

theorem filesIn_createDirAll : (s.createDirAll directory).filesIn file = s.filesIn file := by
  funext other
  rw [Disk.createDirAll]
  cases hdir : s.backups directory with
  | some backup => rfl
  | none =>
    by_cases hfile : file = directory
    · simp [Disk.filesIn, hfile, hdir]
    · simp [Disk.filesIn, hfile]

theorem createDirAll_frame (s : Disk C) (directory : String) :
    (s.createDirAll directory).live = s.live ∧
    (s.createDirAll directory).vault = s.vault ∧ (s.createDirAll directory).config = s.config ∧
    (s.createDirAll directory).marker = s.marker ∧
    ((s.createDirAll directory).backups directory).isSome ∧
    ∀ d, d ≠ directory → (s.createDirAll directory).backups d = s.backups d := by
  rw [Disk.createDirAll]
  cases hdir : s.backups directory with
  | some backup => exact ⟨rfl, rfl, rfl, rfl, by simp [hdir], fun _ _ => rfl⟩
  | none => exact ⟨rfl, rfl, rfl, rfl, by simp, fun d hd => by simp [hd]⟩

/-- What a rename into a directory leaves, where there is a file and a directory. -/
theorem moveIn_spec {c : C} (hfile : s.live file = some c) (hdir : (s.backups directory).isSome) :
    (s.moveIn file directory).live = Function.update s.live file none ∧
    (s.moveIn file directory).filesIn directory
      = Function.update (s.filesIn directory) file (some c) ∧
    ((s.moveIn file directory).backups directory).isSome ∧
    (∀ d, d ≠ directory → (s.moveIn file directory).backups d = s.backups d) ∧
    (s.moveIn file directory).vault = s.vault ∧ (s.moveIn file directory).config = s.config ∧
    (s.moveIn file directory).marker = s.marker := by
  obtain ⟨backup, hbackup⟩ := Option.isSome_iff_exists.mp hdir
  simp only [Disk.moveIn, hfile, hbackup]
  refine ⟨trivial, ?_, by simp, fun d hd => by simp [hd], trivial, trivial, trivial⟩
  funext other
  by_cases hother : other = file
  · rw [hother]
    simp [Disk.filesIn]
  · simp [Disk.filesIn, hbackup, hother, AList.lookup_insert_ne hother]

theorem filesIn_writeManifest {manifest : WalletResetManifest} :
    (s.writeManifest directory manifest).filesIn file = s.filesIn file := by
  funext other
  by_cases hfile : file = directory
  · cases hdir : s.backups directory <;> simp [Disk.filesIn, Disk.writeManifest, hfile, hdir]
  · simp [Disk.filesIn, Disk.writeManifest, hfile]

/-- The stores are moving, or about to. -/
def Underway (reads : Readings C) (m : Marker) (s₀ s : Disk C) : Prop :=
  Untouched s₀ s ∧ s.marker = some (.ok m) ∧ Cleared reads m s₀ ∨ Moving reads m s₀ s

theorem Underway.phase (h : Underway reads m s₀ s) : Phase reads m s₀ s := by
  obtain ⟨huntouched, hmarker, -⟩ | hmoving := h
  · exact .staged huntouched hmarker
  · exact .moving hmoving

theorem Moving.underway (h : Moving reads m s₀ s) : Underway reads m s₀ s := .inr h

theorem Underway.createDirAll (h : Underway reads m s₀ s) :
    Moving reads m s₀ (s.createDirAll m.backupDirectory) := by
  obtain ⟨hlive, hvault, hconfig, hmarker, hbegun, hothers⟩ :=
    createDirAll_frame s m.backupDirectory
  obtain ⟨huntouched, hmarked, hcleared⟩ | hmoving := h
  · have hmoved : Moved m s₀ (s.createDirAll m.backupDirectory) := by
      refine ⟨?_, fun d hd => ?_, fun store _ hnone hsome => ?_, hbegun⟩
      · rw [filesIn_createDirAll, huntouched.filesIn, hlive, huntouched.live]
        exact .refl _ _ _
      · rw [hothers d hd, huntouched.backups]
      · rw [hlive, huntouched.live] at hnone
        rw [hnone] at hsome
        cases hsome
    exact ⟨hmoved, hcleared, hmarker.trans hmarked, hvault.trans huntouched.vault,
      hconfig.trans huntouched.config⟩
  · have hmoved : Moved m s₀ (s.createDirAll m.backupDirectory) := by
      refine ⟨?_, fun d hd => ?_, ?_, hbegun⟩
      · rw [filesIn_createDirAll, hlive]
        exact hmoving.moved.files
      · rw [hothers d hd]
        exact hmoving.moved.others d hd
      · rw [hlive]
        exact hmoving.moved.sidecars
    exact ⟨hmoved, hmoving.cleared, hmarker.trans hmoving.marker, hvault.trans hmoving.vault,
      hconfig.trans hmoving.config⟩

/-- A store file moves once the sidecars that go before it are gone. -/
theorem Moving.moveIn (h : Moving reads m s₀ s) {c : C} (hthere : s.live file = some c)
    (hfile : file ∈ storeFiles) (hfree : s.filesIn m.backupDirectory file = none)
    (hlast : ∀ store ∈ walletScopedStores, file = storeFile store →
      ∀ sidecar ∈ getDbWithWalFiles store, sidecar ≠ file → s.live sidecar = none) :
    Moving reads m s₀ (s.moveIn file m.backupDirectory) := by
  obtain ⟨hlive, hfiles, hbegun, hothers, hvault, hconfig, hmarker⟩ :=
    moveIn_spec hthere h.moved.begun
  have hmoved : Moved m s₀ (s.moveIn file m.backupDirectory) := by
    refine ⟨?_, fun d hd => ?_, fun store hstore hnone hsome sidecar hsidecar => ?_, hbegun⟩
    · rw [hfiles, hlive, ← hthere]
      exact h.moved.files.move hfile hfree
    · rw [hothers d hd]
      exact h.moved.others d hd
    · rw [hlive] at hnone ⊢
      by_cases hsame : sidecar = file
      · rw [hsame, Function.update_self]
      · rw [Function.update_of_ne hsame]
        by_cases hstoreFile : storeFile store = file
        · exact hlast store hstore hstoreFile.symm sidecar hsidecar hsame
        · rw [Function.update_of_ne hstoreFile] at hnone
          exact h.moved.sidecars store hstore hnone hsome sidecar hsidecar
  exact ⟨hmoved, h.cleared, hmarker.trans h.marker, hvault.trans h.vault, hconfig.trans h.config⟩

theorem Moving.writeManifest (h : Moving reads m s₀ s) (manifest : WalletResetManifest) :
    Moving reads m s₀ (s.writeManifest m.backupDirectory manifest) := by
  have hmoved : Moved m s₀ (s.writeManifest m.backupDirectory manifest) := by
    refine ⟨?_, fun d hd => ?_, h.moved.sidecars, ?_⟩
    · rw [filesIn_writeManifest]
      exact h.moved.files
    · simpa [Disk.writeManifest, hd] using h.moved.others d hd
    · simpa [Disk.writeManifest] using h.moved.begun
  exact ⟨hmoved, h.cleared, h.marker, h.vault, h.config⟩

theorem Moving.listed (h : Moving reads m s₀ s) {manifest : WalletResetManifest}
    (hfiles : ∀ file, isStoreFileName file = true →
      (file ∈ manifest.files ↔ (s.filesIn m.backupDirectory file).isSome)) :
    Listed m (s.writeManifest m.backupDirectory manifest) := by
  obtain ⟨backup, hbackup⟩ := Option.isSome_iff_exists.mp h.moved.begun
  refine ⟨manifest, ?_, fun file hfile => ?_⟩
  · simp [Disk.writeManifest, hbackup]
  · rw [filesIn_writeManifest]
    exact hfiles file hfile

end Moves

end ScreenerBot.Replacement
