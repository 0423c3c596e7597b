import Mathlib
import ScreenerBot.Library.Relocation
import ScreenerBot.Library.Surroundings
import ScreenerBot.Library.Text

/-!
What a start finds on disk when the trading wallet is being replaced: the vault, the store files,
the backups, the config and the marker, and what each access to them answers.
-/
namespace ScreenerBot.Replacement
open Library

inductive WalletRole
  | main | secondary | archive
  deriving DecidableEq, Repr

structure WalletRow where
  name : String
  address : String
  encryptedKey : String
  nonce : String
  role : WalletRole
  isActive : Bool
  deriving DecidableEq

/-- The wallets of one chain. -/
structure Vault where
  rows : List WalletRow
  /-- `UNIQUE (chain_id, address)`. -/
  unique : (rows.map WalletRow.address).Nodup

/-- The name every trading wallet has. -/
def tradingWalletName : String := "Main Wallet"

namespace Vault

variable (v : Vault)

def activeMains : List WalletRow := v.rows.filter fun row => row.role = .main && row.isActive

def getMainWallet : Option WalletRow := v.rows.find? fun row => row.role = .main && row.isActive

def getWalletByAddress (address : String) : Option WalletRow :=
  v.rows.find? fun row => row.address = address

def getWalletKeyByAddress (address : String) : Option (String × String) :=
  (v.getWalletByAddress address).map fun row => (row.encryptedKey, row.nonce)

def activeMainAddresses : List String := v.activeMains.map WalletRow.address

/-- An `UPDATE wallets SET .. WHERE ..` that leaves the addresses as they are. -/
def update (guard : WalletRow → Bool) (f : WalletRow → WalletRow)
    (h : ∀ row, (f row).address = row.address) : Vault where
  rows := v.rows.map fun row => if guard row then f row else row
  unique := by
    have hsame : (v.rows.map fun row => if guard row then f row else row).map WalletRow.address
        = v.rows.map WalletRow.address := by
      rw [List.map_map]
      refine List.map_congr_left fun row _ => ?_
      simp only [Function.comp_apply]
      split
      · exact h row
      · rfl
    rw [hsame]
    exact v.unique

/-- The previous main wallet becomes a secondary one. -/
def demote (previousAddress : String) : Vault :=
  v.update (fun row => row.address = previousAddress && row.role = .main)
    (fun row => { row with role := .secondary }) fun _ => rfl

def promote (newAddress : String) : Vault :=
  v.update (fun row => row.address = newAddress)
    (fun row => { row with role := .main, isActive := true, name := tradingWalletName })
      fun _ => rfl

/-- The transaction of `promote_to_main`; none where it rolls back. -/
def promoteToMain (previousAddress newAddress : String) : Option Vault :=
  let demoted := v.demote previousAddress
  let promoted := demoted.rows.countP fun row => row.address = newAddress
  let mains := (demoted.promote newAddress).activeMainAddresses
  if promoted ≠ 1 ∨ mains ≠ [newAddress] then none else some (demoted.promote newAddress)

section Promotion

variable {v : Vault} {previousAddress newAddress address : String}

theorem addresses_update {guard : WalletRow → Bool} {f : WalletRow → WalletRow}
    {h : ∀ row, (f row).address = row.address} :
    (v.update guard f h).rows.map WalletRow.address = v.rows.map WalletRow.address := by
  rw [update, List.map_map]
  refine List.map_congr_left fun row _ => ?_
  simp only [Function.comp_apply]
  split
  · exact h row
  · rfl

/-- An update that leaves the keys as they are answers every address as before. -/
theorem getWalletKeyByAddress_update {guard : WalletRow → Bool} {f : WalletRow → WalletRow}
    {h : ∀ row, (f row).address = row.address}
    (hkeys : ∀ row, (f row).encryptedKey = row.encryptedKey ∧ (f row).nonce = row.nonce) :
    (v.update guard f h).getWalletKeyByAddress address = v.getWalletKeyByAddress address := by
  have hfind : ((fun row : WalletRow => decide (row.address = address)) ∘
      fun row => if guard row then f row else row) = fun row => decide (row.address = address) := by
    funext row
    simp only [Function.comp_apply]
    split
    · rw [h row]
    · rfl
  have hkey : ((fun row : WalletRow => (row.encryptedKey, row.nonce)) ∘
      fun row => if guard row then f row else row) = fun row => (row.encryptedKey, row.nonce) := by
    funext row
    simp only [Function.comp_apply]
    split
    · rw [(hkeys row).1, (hkeys row).2]
    · rfl
  simp only [getWalletKeyByAddress, getWalletByAddress, update, List.find?_map,
    Option.map_map, hfind,
    hkey]

/-- A promotion changes no key. -/
theorem getWalletKeyByAddress_promoted :
    ((v.demote previousAddress).promote newAddress).getWalletKeyByAddress address
      = v.getWalletKeyByAddress address := by
  have hpromote : ((v.demote previousAddress).promote newAddress).getWalletKeyByAddress address
      = (v.demote previousAddress).getWalletKeyByAddress address := by
    apply getWalletKeyByAddress_update
    exact fun _ => ⟨rfl, rfl⟩
  have hdemote : (v.demote previousAddress).getWalletKeyByAddress address
      = v.getWalletKeyByAddress address := by
    apply getWalletKeyByAddress_update
    exact fun _ => ⟨rfl, rfl⟩
  exact hpromote.trans hdemote

/-- The one active main wallet is the one that is found. -/
theorem getMainWallet_of_mains (h : v.activeMainAddresses = [address]) :
    v.getMainWallet.map WalletRow.address = some address := by
  obtain ⟨row, hrow, rfl⟩ := List.map_eq_singleton_iff.mp h
  rw [activeMains] at hrow
  rw [getMainWallet, ← List.head?_filter, hrow]
  rfl

theorem mem_addresses (h : (v.getWalletByAddress address).isSome) :
    address ∈ v.rows.map WalletRow.address := by
  obtain ⟨row, hrow⟩ := Option.isSome_iff_exists.mp h
  have hmem := List.mem_of_find?_eq_some hrow
  have haddress : row.address = address := by simpa using List.find?_some hrow
  exact haddress ▸ List.mem_map_of_mem hmem

/-- Where the previous wallet is the one active main, a promotion leaves the new one alone. -/
theorem mains_promoted (hmains : v.activeMainAddresses = [previousAddress])
    (hnew : (v.getWalletByAddress newAddress).isSome) :
    ((v.demote previousAddress).promote newAddress).activeMainAddresses = [newAddress] := by
  have hnodup : ((v.demote previousAddress).promote newAddress).activeMainAddresses.Nodup :=
    ((v.demote previousAddress).promote newAddress).unique.sublist (List.filter_sublist.map _)
  have hmem : ∀ a, a ∈ ((v.demote previousAddress).promote newAddress).activeMainAddresses
      ↔ a ∈ [newAddress] := by
    intro a
    rw [List.mem_singleton]
    constructor
    · intro ha
      by_contra hne
      obtain ⟨row', hrow', rfl⟩ := List.mem_map.mp ha
      obtain ⟨hrow', hmain⟩ := List.mem_filter.mp hrow'
      simp only [promote, demote, update, List.map_map] at hrow'
      obtain ⟨row, hrow, rfl⟩ := List.mem_map.mp hrow'
      simp only [Function.comp_apply] at hmain hne
      -- a row that is not promoted keeps its role, unless it was the previous main
      have hactive : row ∈ v.activeMains := by
        rw [activeMains, List.mem_filter]
        refine ⟨hrow, ?_⟩
        grind
      have hprevious : row.address = previousAddress := by
        have hrow : row.address ∈ v.activeMainAddresses := List.mem_map_of_mem hactive
        rw [hmains] at hrow
        exact List.mem_singleton.mp hrow
      grind
    · rintro rfl
      obtain ⟨row, hrow, hrow_new⟩ := List.mem_map.mp (mem_addresses hnew)
      simp only [activeMainAddresses, activeMains, promote, demote, update, List.map_map,
        List.mem_map, List.mem_filter, Function.comp_apply]
      refine ⟨_, ⟨⟨row, hrow, rfl⟩, ?_⟩, ?_⟩ <;> grind
  have hperm := (List.perm_ext_iff_of_nodup hnodup (List.nodup_singleton newAddress)).mpr hmem
  exact List.perm_singleton.mp hperm

/-- The promotion of a key in the vault commits where the previous wallet is the one active main. -/
theorem promoteToMain_commits (hmains : v.activeMainAddresses = [previousAddress])
    (hnew : (v.getWalletByAddress newAddress).isSome) :
    v.promoteToMain previousAddress newAddress
      = some ((v.demote previousAddress).promote newAddress) := by
  have hcount : ((v.demote previousAddress).rows.countP fun row =>
      row.address = newAddress) = 1 := by
    have hmem : newAddress ∈ (v.demote previousAddress).rows.map WalletRow.address := by
      rw [demote, addresses_update]
      exact mem_addresses hnew
    have hone := List.count_eq_one_of_mem (v.demote previousAddress).unique hmem
    rw [List.count, List.countP_map] at hone
    rw [← hone]
    exact List.countP_congr fun row _ => by simp
  rw [promoteToMain, if_neg]
  rw [hcount, mains_promoted hmains hnew]
  simp

end Promotion

end Vault

/-- What the config keeps of the trading wallet and the two trading switches. -/
structure Config where
  walletEncrypted : String
  walletNonce : String
  traderEnabled : Bool
  copyTradingEnabled : Bool
  deriving DecidableEq

/-- The pending replacement, as `wallet_replacement.json` records it. -/
structure Marker where
  chain : String
  previousAddress : String
  newAddress : String
  backupDirectory : String
  deriving DecidableEq

inductive AbandonReason
  | openPositions (count : ℕ)
  | positionsUnreadable
  | vaultChanged
  deriving DecidableEq, Repr

structure AbandonedReplacement where
  previousWallet : String
  newWallet : String
  reason : AbandonReason

structure AppliedReplacement where
  previousWallet : String
  newWallet : String
  backupDirectory : String

inductive WalletResetReason
  | walletReset | walletReplaced
  deriving DecidableEq, Repr

/-- What a wallet-reset backup directory records about the stores it holds. -/
structure WalletResetManifest where
  reason : WalletResetReason
  chain : String
  previousWallet : Option String
  newWallet : Option String
  createdAtMs : ℤ
  files : List String
  movedOpenPositions : List (String × ℕ)

/-- A backup directory: its store files by name, and its manifest. -/
structure Backup (C : Type) where
  files : AList fun _ : String => C
  manifest : Option WalletResetManifest

/-- The files of the data directory and of the backup directories, by name, and what else a start
reads. A marker that does not parse is kept as the error of its reading. -/
structure Disk (C : Type) where
  live : String → Option C
  backups : String → Option (Backup C)
  marker : Option (Except String Marker)
  outcome : Option AbandonedReplacement
  vault : Vault
  config : Option Config

/-- What is read out of files and keys: the open positions a positions store holds of each wallet,
when it can be read, and the address a key decrypts to. -/
structure Readings (C : Type) where
  openPositions : C → Option (String → ℕ)
  keyAddress : String → String → Option String

namespace Disk

variable {C : Type} (s : Disk C)

/-- The files of a backup directory; none where there is no directory. -/
def filesIn (directory file : String) : Option C :=
  (s.backups directory).bind fun backup => backup.files.lookup file

def createDirAll (directory : String) : Disk C :=
  match s.backups directory with
  | some _ => s
  | none => { s with backups := Function.update s.backups directory (some ⟨∅, none⟩) }

/-- A rename replaces what has the name it is given. -/
def moveIn (file directory : String) : Disk C :=
  match s.live file, s.backups directory with
  | some c, some backup =>
    { s with
      live := Function.update s.live file none
      backups := Function.update s.backups directory
        (some { backup with files := backup.files.insert file c }) }
  | _, _ => s

def writeManifest (directory : String) (manifest : WalletResetManifest) : Disk C :=
  { s with
    backups := Function.update s.backups directory
      ((s.backups directory).map fun backup => { backup with manifest := some manifest }) }

/-- The positions store's file name. -/
def positionsFile : String := "positions.db"

/-- The open positions of a wallet in the positions store; a store that is not there has none. -/
def openPositions (reads : Readings C) (wallet : String) : Option ℕ :=
  match s.live positionsFile with
  | none => some 0
  | some file => (reads.openPositions file).map fun counts => counts wallet

end Disk

/-- The name of a manifest inside a wallet-reset backup directory. -/
def manifestName : String := "manifest.json"

/-- An entry of a backup directory that is neither its manifest nor a hidden file. -/
def isStoreFileName (name : String) : Bool := name ≠ manifestName && !startsWith name "."

/-- The accesses of a start, each answered before the next is made. -/
inductive Io : Type → Type
  | readMarker : Io (Except String (Option (Except String Marker)))
  | setAside (reason : String) : Io Unit
  | removeMarker : Io (Except String Unit)
  | recordAbandoned (abandoned : AbandonedReplacement) : Io Unit
  | openVault : Io (Except String Unit)
  | getMainWallet : Io (Except String (Option WalletRow))
  | getWalletByAddress (address : String) : Io (Except String (Option WalletRow))
  | getWalletKeyByAddress (address : String) : Io (Except String (Option (String × String)))
  | activeMainAddresses : Io (Except String (List String))
  | encryptedKeyAddress (ciphertext nonce : String) : Io (Except String String)
  | promoteToMain (previousAddress newAddress : String) : Io (Except String Unit)
  | countOpenPositions (wallet : String) : Io (Except String ℕ)
  | isPooled (file : String) : Io Bool
  | liveExists (file : String) : Io Bool
  | directoryExists (directory : String) : Io Bool
  | heldIn (directory file : String) : Io Bool
  | createDirAll (directory : String) : Io (Except String Unit)
  | moveIn (file directory : String) : Io (Except String Unit)
  | readDir (directory : String) : Io (Except String (List String))
  | movedOpenPositions (directory : String) : Io (List (String × ℕ))
  | nowMillis : Io ℤ
  | writeManifest (directory : String) (manifest : WalletResetManifest) : Io (Except String Unit)
  | configExists : Io Bool
  | setConfigKeys (walletEncrypted walletNonce : String) : Io (Except String Unit)

section Answers

variable {C α : Type} (reads : Readings C) (s s' : Disk C)

/-- A reading, which may fail. -/
def Reads (value : α) (r : Except String α) : Prop := s' = s ∧ ∀ a, r = .ok a → a = value

/-- A write that is done or not, as its answer says. -/
def Writes (done : Disk C) (r : Except String Unit) : Prop :=
  r = .ok () ∧ s' = done ∨ (∃ e, r = .error e) ∧ s' = s

/-- A write whose failure does not say whether it was done. -/
def MayWrite (done : Disk C) (r : Except String Unit) : Prop :=
  r = .ok () ∧ s' = done ∨ (∃ e, r = .error e) ∧ (s' = s ∨ s' = done)

/-- What an access answers, and the disk it leaves. -/
def answers : {β : Type} → Io β → β → Disk C → Prop
  | _, .readMarker, r, s' => Reads s s' s.marker r
  | _, .setAside _, _, s' => s' = s ∨ s' = { s with marker := none }
  | _, .removeMarker, r, s' => Writes s s' { s with marker := none } r
  | _, .recordAbandoned abandoned, _, s' => s' = s ∨ s' = { s with outcome := some abandoned }
  | _, .openVault, r, s' => Reads s s' () r
  | _, .getMainWallet, r, s' => Reads s s' s.vault.getMainWallet r
  | _, .getWalletByAddress address, r, s' => Reads s s' (s.vault.getWalletByAddress address) r
  | _, .getWalletKeyByAddress address, r, s' => Reads s s' (s.vault.getWalletKeyByAddress address) r
  | _, .activeMainAddresses, r, s' => Reads s s' s.vault.activeMainAddresses r
  | _, .encryptedKeyAddress ciphertext nonce, r, s' =>
    s' = s ∧ ∀ address, r = .ok address → reads.keyAddress ciphertext nonce = some address
  | _, .promoteToMain previousAddress newAddress, r, s' =>
    match s.vault.promoteToMain previousAddress newAddress with
    | some vault => MayWrite s s' { s with vault := vault } r
    | none => (∃ e, r = .error e) ∧ s' = s
  | _, .countOpenPositions wallet, r, s' =>
    s' = s ∧ ∀ count, r = .ok count → s.openPositions reads wallet = some count
  | _, .isPooled _, _, s' => s' = s
  | _, .liveExists file, b, s' => s' = s ∧ b = (s.live file).isSome
  | _, .directoryExists directory, b, s' => s' = s ∧ b = (s.backups directory).isSome
  | _, .heldIn directory file, b, s' => s' = s ∧ b = (s.filesIn directory file).isSome
  | _, .createDirAll directory, r, s' => MayWrite s s' (s.createDirAll directory) r
  | _, .moveIn file directory, r, s' =>
    Writes s s' (s.moveIn file directory) r ∧
      (r = .ok () → (s.live file).isSome ∧ (s.backups directory).isSome)
  | _, .readDir directory, r, s' =>
    s' = s ∧ ∀ names, r = .ok names → ∀ file, isStoreFileName file →
      (file ∈ names ↔ (s.filesIn directory file).isSome)
  | _, .movedOpenPositions _, _, s' => s' = s
  | _, .nowMillis, _, s' => s' = s
  | _, .writeManifest directory manifest, r, s' =>
      Writes s s' (s.writeManifest directory manifest) r
  | _, .configExists, b, s' => s' = s ∧ b = s.config.isSome
  | _, .setConfigKeys walletEncrypted walletNonce, r, s' =>
    MayWrite s s' { s with config := some ⟨walletEncrypted, walletNonce, false, false⟩ } r

end Answers

end ScreenerBot.Replacement
