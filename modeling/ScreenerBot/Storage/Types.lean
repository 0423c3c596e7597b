import Mathlib
import ScreenerBot.Chain.Amount

/-!
What storage housekeeping measures and decides: files by family, stores, units that can be evicted,
the disk, and how much of each family a retention step keeps at each tier of pressure.
-/
namespace ScreenerBot.Storage

inductive Category
  | walletKeys | tradingRecords | walletHistory | marketData | settings | recoveryCopies | updates
  | logs | leftovers
  deriving DecidableEq, Repr

/-- How hard housekeeping presses. -/
inductive Tier
  | normal | low | critical
  deriving DecidableEq, Repr

def Tier.rank : Tier → ℕ
  | .normal => 0
  | .low => 1
  | .critical => 2

theorem Tier.rank_injective : Function.Injective Tier.rank := by
  intro a b h
  cases a <;> cases b <;> first | rfl | cases h

instance : LinearOrder Tier := .lift' Tier.rank Tier.rank_injective

/-- A span of time, in nanoseconds. -/
abbrev Duration := ℕ

/-- A point in time, in nanoseconds of the Unix epoch. -/
abbrev SystemTime := ℤ

/-- The components of a path below the root. -/
abbrev FilePath := List String

/-- How much of the updates directory a retention step keeps. -/
inductive DownloadRetention
  | keepPending | inFlightOnly
  deriving DecidableEq, Repr

/-- How much of a family of files one retention step keeps. -/
inductive Keep
  | forever
  | bounded (maxAge : Option Duration) (maxCount maxTotalBytes : Option ℕ)
  | downloads (retention : DownloadRetention)
  | remove
  | whileNotEmpty
  deriving DecidableEq, Repr

/-- The retention step of a family at each tier. -/
structure Ladder where
  normal : Keep
  low : Keep
  critical : Keep
  deriving DecidableEq, Repr

def Ladder.same (keep : Keep) : Ladder := ⟨keep, keep, keep⟩

def Ladder.at (ladder : Ladder) : Tier → Keep
  | .normal => ladder.normal
  | .low => ladder.low
  | .critical => ladder.critical

inductive FamilyId
  | config | appState | account | deviceId | stagedCores | quarantine | upgradeBackups
  | storeSnapshots | walletResetBackups | latestLog | downloads | partialDownloads | logs
  | legacyFiles | legacyEmpty
  deriving DecidableEq, Repr

structure FamilySpec where
  id : FamilyId
  category : Category
  ladder : Ladder
  deriving DecidableEq, Repr

def mib : ℕ := 1024 * 1024

def gib : ℕ := 1024 * mib

def day : Duration := 24 * 60 * 60 * 1000000000

def partialDownloadIdleLimit : Duration := 7 * day

def keepForever : Ladder := .same .forever

def keepPendingDownloads : Ladder :=
  ⟨.downloads .keepPending, .downloads .keepPending, .downloads .inFlightOnly⟩

def logRetention : Ladder where
  normal := .bounded (some day) (some 7) (some (256 * mib))
  low := .bounded (some day) (some 7) (some (128 * mib))
  critical := .bounded none (some 0) none

/-- Every family of files, in the order they are declared. -/
def families : List FamilySpec :=
  [⟨.config, .settings, keepForever⟩,
   ⟨.appState, .settings, keepForever⟩,
   ⟨.account, .settings, keepForever⟩,
   ⟨.deviceId, .walletKeys, keepForever⟩,
   ⟨.stagedCores, .updates, keepForever⟩,
   ⟨.quarantine, .recoveryCopies, keepForever⟩,
   ⟨.upgradeBackups, .recoveryCopies, keepForever⟩,
   ⟨.storeSnapshots, .recoveryCopies, keepForever⟩,
   ⟨.walletResetBackups, .recoveryCopies, keepForever⟩,
   ⟨.latestLog, .logs, keepForever⟩,
   ⟨.partialDownloads, .updates, keepPendingDownloads⟩,
   ⟨.downloads, .updates, keepPendingDownloads⟩,
   ⟨.logs, .logs, logRetention⟩,
   ⟨.legacyFiles, .leftovers, .same .remove⟩,
   ⟨.legacyEmpty, .leftovers, .same .whileNotEmpty⟩]

/-- One measured entry of a family. -/
structure FileEntry where
  path : FilePath
  family : FamilyId
  bytes : ℕ
  modified : SystemTime
  isDir : Bool
  isSymlink : Bool
  empty : Bool
  deriving DecidableEq, Repr

inductive Compaction
  | incremental | checkpointOnly
  deriving DecidableEq, Repr

structure StoreSpec where
  id : String
  compaction : Compaction
  deriving DecidableEq, Repr

/-- One store file as its header and its sidecars describe it. -/
structure StoreUsage where
  spec : StoreSpec
  path : FilePath
  bytes : ℕ
  walBytes : ℕ
  pageSize : ℕ
  pageCount : ℕ
  freelistPages : ℕ
  incremental : Bool
  deriving DecidableEq, Repr

def StoreUsage.freeBytes (store : StoreUsage) : ℕ := store.freelistPages * store.pageSize

def StoreUsage.liveBytes (store : StoreUsage) : ℕ :=
  (store.pageCount - store.freelistPages) * store.pageSize

inductive Protection
  | openPosition | held | watched | recentlyViewed
  deriving DecidableEq, Repr

/-- What one eviction deletes from a store. -/
inductive EvictionUnit
  | tokensUnusedBefore (cutoff : ℤ) (keep : Finset String)
  | chartHistory (mint lastActivity : String)
  deriving DecidableEq

/-- A unit of rebuildable data that may be evicted. -/
structure Evictable where
  store : String
  path : FilePath
  unit : EvictionUnit
  bytes : ℕ
  lastUsed : SystemTime
  protection : Option Protection
  deriving DecidableEq

structure Disk where
  free : ℕ
  total : ℕ
  deriving DecidableEq, Repr

inductive Limit
  | automatic
  | fixed (bytes : ℕ)
  deriving DecidableEq, Repr

def saturatingMulU64 (a b : ℕ) : ℕ := min (a * b) u64Max

def Limit.fromMegabytes (megabytes : ℕ) : Limit :=
  if megabytes = 0 then .automatic else .fixed (saturatingMulU64 megabytes (1024 * 1024))

structure PendingDownload where
  version : String
  filename : String
  deriving DecidableEq, Repr

/-- What the update service knows about downloads as housekeeping runs. -/
structure DownloadFacts where
  runningVersion : String
  pending : Option PendingDownload
  downloading : Bool
  deriving DecidableEq, Repr

/-- Everything one pass decides from. -/
structure PlanInput where
  entries : List FileEntry
  stores : List StoreUsage
  evictables : List Evictable
  disk : Option Disk
  limit : Limit
  now : SystemTime
  activeLog : Option FilePath
  downloads : DownloadFacts
  compactionDue : Bool

/-- One step a pass takes. -/
inductive Action
  | delete (path : FilePath) (family : FamilyId) (bytes : ℕ) (tier : Tier)
  | evict (store : String) (path : FilePath) (unit : EvictionUnit) (bytes : ℕ)
  | checkpoint (store : String) (path : FilePath)
  | convertToIncremental (store : String) (path : FilePath)
  | reclaim (store : String) (path : FilePath)
  deriving DecidableEq

/-- What a pass decided, and where usage stands once it is carried out. -/
structure Plan where
  limit : ℕ
  usage : ℕ
  projectedUsage : ℕ
  tier : Tier
  shortfall : ℕ
  fits : Bool
  actions : List Action

end ScreenerBot.Storage
