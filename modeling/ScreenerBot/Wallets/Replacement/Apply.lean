import Mathlib
import ScreenerBot.Library.Sorting
import ScreenerBot.Wallets.Replacement.Disk

/-!
The storage phase of a start: the staged replacement of the trading wallet, access by access.
-/
namespace ScreenerBot.Replacement
open Library

inductive DatabaseError
  | busy (operation message : String)
  | io (operation message : String)
  | moveTargetExists (sourcePath targetPath : String)
  | query (message : String)
  deriving DecidableEq, Repr

inductive ReplacementError
  | replacementMarker (operation message : String)
  | replacementVaultChanged (detail : String)
  | walletNotFound (address : String)
  | dependency (dependency detail : String)
  | database (error : DatabaseError)
  deriving DecidableEq, Repr

section Stores

/-- The stores whose rows belong to the main wallet, each by the stem of its file. -/
def walletScopedStores : List String := ["positions", "paper_positions", "transactions", "wallet"]

/-- The file of a store. -/
def storeFile (store : String) : String := store ++ ".db"

/-- The file of a store with its `-shm` and `-wal`. -/
def getDbWithWalFiles (store : String) : List String :=
  [storeFile store, store ++ ".db-shm", store ++ ".db-wal"]

abbrev StoreStep (α : Type) := Attempt Io DatabaseError α

/-- Renames a file, refusing when the name is taken where it goes. -/
def moveFileWithoutReplacing (file directory : String) : StoreStep Unit := do
  let target := directory ++ "/" ++ file
  if ← Attempt.ask (.heldIn directory file) then throw (.moveTargetExists file target)
  else Attempt.performWith (.io ("move " ++ file ++ " to " ++ target)) (.moveIn file directory)

def moveStoreFile (directory file : String) : StoreStep (Option String) := do
  if ← Attempt.ask (.liveExists file) then
    moveFileWithoutReplacing file directory
    return some file
  else return none

/-- Moves a store and its sidecars, the sidecars first, and returns the files moved. -/
def moveStoreFiles (store directory : String) : StoreStep (List String) := do
  Attempt.performWith (.io ("create " ++ directory)) (.createDirAll directory)
  Attempt.collect (moveStoreFile directory) (getDbWithWalFiles store).reverse

def moveStore (directory store : String) : StoreStep Unit := do
  let _ ← moveStoreFiles store directory
  return ()

def findPooled : List String → StoreStep (Option String)
  | [] => return none
  | path :: paths => do
    if ← Attempt.ask (.isPooled path) then return some path
    else findPooled paths

/-- The names of the files in a backup directory other than its manifest, sorted. -/
def backupStoreFiles (directory : String) : StoreStep (List String) := do
  let entries ← Attempt.performWith (.io ("list " ++ directory)) (.readDir directory)
  return sortBy id (entries.filter isStoreFileName)

/-- Moves every file of the wallet-scoped stores into a directory and writes the manifest there. -/
def moveWalletStores (directory : String) (manifest : WalletResetManifest) :
    StoreStep WalletResetManifest := do
  match ← findPooled (walletScopedStores.map storeFile) with
  | some path => throw (.busy "move wallet stores" (path ++ " is open in this process"))
  | none =>
    Attempt.each (moveStore directory) walletScopedStores
    Attempt.performWith (.io ("create " ++ directory)) (.createDirAll directory)
    let files ← backupStoreFiles directory
    let movedOpenPositions ← Attempt.ask (.movedOpenPositions directory)
    let manifest := { manifest with files := files, movedOpenPositions := movedOpenPositions }
    Attempt.performWith (.io ("write " ++ directory ++ "/" ++ manifestName))
      (.writeManifest directory manifest)
    return manifest

end Stores

section Replacement

abbrev ApplyStep (α : Type) := Attempt Io ReplacementError α

def vaultError (message : String) : ReplacementError := .database (.query message)

/-- Whether a name is one path component naming a wallet-reset directory. -/
def isBackupDirectoryName (name : String) : Bool :=
  !name.toList.contains '/' && startsWith name "wallet-reset-"

/-- The backup directory a marker names, when it is inside `backups/`. -/
def Marker.backupPath (marker : Marker) : Option String :=
  if isBackupDirectoryName marker.backupDirectory then some marker.backupDirectory else none

inductive ChainId
  | solana
  deriving DecidableEq, Repr

def ChainId.parse (value : String) : Option ChainId :=
  if value = "solana" then some .solana else none

/-- Where an interrupted or fresh apply stands. -/
inductive ApplyState
  | notFlipped | flipped | stale
  deriving DecidableEq, Repr

def classify (marker : Marker) (vaultMain : Option String) (newKeyInVault : Bool) : ApplyState :=
  match vaultMain with
  | some main =>
    if main = marker.newAddress then .flipped
    else if main = marker.previousAddress && newKeyInVault then .notFlipped
    else .stale
  | none => .stale

/-- A marker that does not parse is set aside. -/
def readMarker : ApplyStep (Option Marker) := do
  match ← Attempt.performWith (.replacementMarker "read") .readMarker with
  | none => return none
  | some (.ok marker) => return some marker
  | some (.error error) =>
    Attempt.ask (.setAside error)
    return none

def removeMarker : ApplyStep Unit :=
  Attempt.performWith (.replacementMarker "remove") .removeMarker

/-- What keeps the vault from taking the replacement, if anything. -/
def vaultMismatch (marker : Marker) : ApplyStep (Option String) := do
  match ← Attempt.ask .activeMainAddresses with
  | .error error => return some ("the main wallets could not be read: " ++ error)
  | .ok mains =>
    if mains = [marker.previousAddress] then
      match ← Attempt.ask (.getWalletKeyByAddress marker.newAddress) with
      | .error error =>
        return some ("the key of " ++ marker.newAddress ++ " could not be read: " ++ error)
      | .ok none => return some (marker.newAddress ++ " is not in the vault")
      | .ok (some key) =>
        match ← Attempt.ask (.encryptedKeyAddress key.1 key.2) with
        | .error error =>
          return some ("the key of " ++ marker.newAddress ++ " cannot be read: " ++ error)
        | .ok address =>
          if address = marker.newAddress then return none
          else return some ("the key of " ++ marker.newAddress ++ " decrypts to " ++ address)
    else return some ("the active main wallets are " ++ reprStr mains)

/-- Why a replacement must be abandoned before its store move begins, if it must. -/
def abandonReason (marker : Marker) : ApplyStep (Option AbandonReason) := do
  match ← vaultMismatch marker with
  | some _ => return some .vaultChanged
  | none =>
    match ← Attempt.ask (.countOpenPositions marker.previousAddress) with
    | .ok count => return if count = 0 then none else some (.openPositions count)
    | .error _ => return some .positionsUnreadable

/-- A move that has begun only resumes; one that has not may be abandoned. -/
def abandonUnlessBegun (marker : Marker) (directory : String) :
    ApplyStep (Option AbandonReason) := do
  if ← Attempt.ask (.directoryExists directory) then
    match ← vaultMismatch marker with
    | some detail => throw (.replacementVaultChanged detail)
    | none => return none
  else abandonReason marker

def moveStores (marker : Marker) (directory : String) : ApplyStep Unit := do
  let createdAtMs ← Attempt.ask .nowMillis
  let manifest : WalletResetManifest :=
    ⟨.walletReplaced, marker.chain, some marker.previousAddress, some marker.newAddress,
      createdAtMs,
      [], []⟩
  let _ ← ExceptT.adapt .database (moveWalletStores directory manifest)
  return ()

/-- Writes the key of the new main wallet to the config with both trading switches off. -/
def writeTradingKey (newAddress : String) : ApplyStep Unit := do
  if ← Attempt.ask .configExists then
    match ← Attempt.performWith vaultError (.getWalletKeyByAddress newAddress) with
    | none => throw (.walletNotFound newAddress)
    | some key => Attempt.performWith (.dependency "config") (.setConfigKeys key.1 key.2)
  else return ()

def finishApply (marker : Marker) (directory : String) : ApplyStep (Option AppliedReplacement) := do
  writeTradingKey marker.newAddress
  removeMarker
  return some ⟨marker.previousAddress, marker.newAddress, directory⟩

/-- From the checks before the store move on. -/
def applyNotFlipped (marker : Marker) (directory : String) :
    ApplyStep (Option AppliedReplacement) := do
  match ← abandonUnlessBegun marker directory with
  | some reason =>
    removeMarker
    Attempt.ask (.recordAbandoned ⟨marker.previousAddress, marker.newAddress, reason⟩)
    return none
  | none =>
    moveStores marker directory
    Attempt.performWith vaultError (.promoteToMain marker.previousAddress marker.newAddress)
    finishApply marker directory

def applyMarker (marker : Marker) (directory : String) : ApplyStep (Option AppliedReplacement) := do
  Attempt.performWith vaultError .openVault
  let vaultMain ← Attempt.performWith vaultError .getMainWallet
  let newKey ← Attempt.performWith vaultError (.getWalletByAddress marker.newAddress)
  match classify marker (vaultMain.map WalletRow.address) newKey.isSome with
  | .stale =>
    removeMarker
    return none
  | .notFlipped => applyNotFlipped marker directory
  | .flipped => finishApply marker directory

/-- Applies a staged replacement, if one is pending; nothing was applied where it returns none. -/
def applyPending : ApplyStep (Option AppliedReplacement) := do
  match ← readMarker with
  | none => return none
  | some marker =>
    match ChainId.parse marker.chain, marker.backupPath with
    | some _, some directory => applyMarker marker directory
    | _, _ =>
      Attempt.ask (.setAside "it names an unknown chain or a backup directory outside backups/")
      return none

end Replacement

end ScreenerBot.Replacement
