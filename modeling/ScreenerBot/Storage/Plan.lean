import Mathlib
import ScreenerBot.Library.Retention
import ScreenerBot.Library.Sorting
import ScreenerBot.Storage.Types

/-!
The housekeeping planner: the budget, the tier of pressure, and every deletion, eviction and store
operation of one pass.
-/
namespace ScreenerBot.Storage
open Library

def budgetMaxBytes : ℕ := 5 * gib

def budgetMinBytes : ℕ := 256 * mib

def budgetDiskPercent : ℕ := 10

def budgetRoomPercent : ℕ := 25

def criticalBudgetPercent : ℕ := 150

def lowFreeBytes : ℕ := 5 * gib

def criticalFreeBytes : ℕ := gib

def compactMinFreeBytes : ℕ := 8 * mib

def compactMinFreePercent : ℕ := 10

def rebuildMaxLiveBytes : ℕ := 64 * mib

/-- The categories whose families step down under pressure, in order. -/
def escalationOrder : List Category := [.updates, .logs]

def budget (usage : ℕ) (disk : Option Disk) (limit : Limit) : ℕ :=
  let ceiling := match limit with
    | .automatic => budgetMaxBytes
    | .fixed bytes => bytes
  match disk with
  | none => max ceiling budgetMinBytes
  | some disk =>
    let diskShare := match limit with
      | .automatic => saturatingMulU64 disk.total budgetDiskPercent / 100
      | .fixed _ => u64Max
    let roomShare :=
      saturatingMulU64 (saturatingAddU64 usage disk.free) budgetRoomPercent / 100
    max (min (min ceiling diskShare) roomShare) budgetMinBytes

def diskTier (free : Option ℕ) : Tier :=
  match free with
  | none => .normal
  | some free =>
    if free < criticalFreeBytes then .critical
    else if free < lowFreeBytes then .low
    else .normal

def budgetTier (usage limit : ℕ) : Tier :=
  if usage * 100 > limit * criticalBudgetPercent then .critical
  else if usage > limit then .low
  else .normal

/-- How long ago `time` was, zero when it is yet to come. -/
def idle (now time : SystemTime) : Duration := (now - time).toNat

section Select

variable {V : Type} [LinearOrder V] (parse : String → Option V)

/-- `parse` reads a version; what it cannot read is never newer. -/
def isNewerVersion (current remote : String) : Bool :=
  match parse current, parse remote with
  | some current, some remote => decide (current < remote)
  | _, _ => false

/-- Whether an entry of the updates directory stays. -/
def keepsDownload (name : String) (idle : Duration) (facts : DownloadFacts)
    (retention : DownloadRetention) (partialIdleLimit : Duration) : Bool :=
  match facts.pending.filter fun pending =>
    isNewerVersion parse facts.runningVersion pending.version with
  | none => false
  | some pending =>
    match name.dropSuffix? ".part" with
    | some artifact =>
      artifact.toString == pending.filename &&
        (facts.downloading || (retention == .keepPending && decide (idle < partialIdleLimit)))
    | none => retention == .keepPending && name == pending.filename

/-- What a bounded step has kept so far. -/
structure Kept where
  count : ℕ
  bytes : ℕ

def Kept.add (kept : Kept) (entry : FileEntry) : Kept :=
  ⟨kept.count + 1, kept.bytes + entry.bytes⟩

/-- Whether an entry is past a bound, with what was kept before it. -/
def pastBound (now : SystemTime) (maxAge : Option Duration) (maxCount maxTotalBytes : Option ℕ)
    (kept : Kept) (entry : FileEntry) : Bool :=
  maxAge.any (fun age => idle now entry.modified > age) ||
    maxCount.any (fun count => kept.count ≥ count) ||
    maxTotalBytes.any (fun total => saturatingAddU64 kept.bytes entry.bytes > total)

/-- An entry a step may delete: no symbolic link, no directory with something in it and not the
log file in use. -/
def FileEntry.candidate (input : PlanInput) (entry : FileEntry) : Bool :=
  !entry.isSymlink && (!entry.isDir || entry.empty) && input.activeLog != some entry.path

/-- Newest first, and by path from the last where two are equally new. -/
def newestFirst (entries : List FileEntry) : List FileEntry :=
  sortBy (fun entry => toLex (OrderDual.toDual entry.modified, OrderDual.toDual entry.path)) entries

/-- The entries of one family that a retention step deletes. -/
def select (keep : Keep) (entries : List FileEntry) (input : PlanInput) : List FileEntry :=
  let candidates := entries.filter (FileEntry.candidate input)
  match keep with
  | .forever => []
  | .remove => candidates
  | .whileNotEmpty => candidates.filter FileEntry.empty
  | .downloads retention =>
    candidates.filter fun entry =>
      !keepsDownload parse (entry.path.getLast?.getD "") (idle input.now entry.modified)
        input.downloads retention partialDownloadIdleLimit
  | .bounded maxAge maxCount maxTotalBytes =>
    spill (pastBound input.now maxAge maxCount maxTotalBytes) Kept.add ⟨0, 0⟩
      (newestFirst candidates)

/-- A decided deletion, of the path it is kept under. -/
structure Deletion where
  path : FilePath
  family : FamilyId
  bytes : ℕ
  tier : Tier
  deriving DecidableEq

/-- The deletions decided so far, each path once, and the bytes they free. -/
structure Selection where
  deleted : List Deletion
  freed : ℕ

namespace Selection

def new : Selection := ⟨[], 0⟩

def insert (tier : Tier) (s : Selection) (entry : FileEntry) : Selection :=
  if entry.path ∈ s.deleted.map Deletion.path then s
  else ⟨s.deleted ++ [⟨entry.path, entry.family, entry.bytes, tier⟩], s.freed + entry.bytes⟩

/-- The entries one step of every family of a category deletes. -/
def selected (input : PlanInput) (tier : Tier) (category : Option Category) : List FileEntry :=
  (families.filter fun spec => category.all fun category => spec.category = category).flatMap
    fun spec =>
      select parse (spec.ladder.at tier) (input.entries.filter fun entry =>
        entry.family = spec.id) input

def apply (input : PlanInput) (tier : Tier) (category : Option Category) (s : Selection) :
    Selection :=
  (selected parse input tier category).foldl (insert tier) s

/-- The steps of the escalation taken in turn, up to the tier of the pass, while it does not fit. -/
def escalate (input : PlanInput) (tier : Tier) (fits : ℕ → Bool) :
    List (Tier × Category) → Selection → Selection
  | [], s => s
  | (step, category) :: rest, s =>
    if step > tier then s
    else if fits s.freed then s
    else escalate input tier fits rest (s.apply parse input step (some category))

end Selection

end Select

def escalationSteps : List (Tier × Category) :=
  [Tier.low, Tier.critical].flatMap fun step => escalationOrder.map fun category => (step, category)

def worthCompacting (store : StoreUsage) : Bool :=
  let free := store.freeBytes
  let file := store.pageCount * store.pageSize
  decide (free > 0) &&
    (decide (free ≥ compactMinFreeBytes) || decide (free * 100 ≥ file * compactMinFreePercent))

/-- The last of the elements of greatest key. -/
def maxByKey {α : Type} (key : α → ℕ) : List α → Option α
  | [] => none
  | a :: l =>
    match maxByKey key l with
    | none => some a
    | some b => if key b ≥ key a then some b else some a

/-- A checkpoint of every write-ahead log and, when one is due, at most one rewrite. -/
def storeActions (stores : List StoreUsage) (compactionDue : Bool) : List Action :=
  let actions := (stores.filter fun store => store.walBytes > 0).map fun store =>
    Action.checkpoint store.spec.id store.path
  if !compactionDue then actions
  else
    let rewritable := stores.filter fun store =>
      store.spec.compaction = .incremental && store.pageCount > 0
    let convert := maxByKey StoreUsage.freeBytes
      (rewritable.filter fun store => !store.incremental && store.liveBytes ≤ rebuildMaxLiveBytes)
    match convert with
    | some store => actions ++ [.convertToIncremental store.spec.id store.path]
    | none =>
      match maxByKey StoreUsage.freeBytes (rewritable.filter worthCompacting) with
      | some store => actions ++ [.reclaim store.spec.id store.path]
      | none => actions

def Deletion.action (d : Deletion) : Action := .delete d.path d.family d.bytes d.tier

def Evictable.action (unit : Evictable) : Action :=
  .evict unit.store unit.path unit.unit unit.bytes

/-- The units that may be evicted, least recently used first. -/
def evictionOrder (evictables : List Evictable) : List Evictable :=
  sortBy (fun unit => toLex (unit.lastUsed, toLex (unit.path, unit.bytes)))
    (evictables.filter fun unit => unit.protection.isNone)

def Action.evicts (path : FilePath) : Action → Bool
  | .evict _ evicted _ _ => evicted = path
  | _ => false

def Action.reclaims (path : FilePath) : Action → Bool
  | .reclaim _ reclaimed => reclaimed = path
  | _ => false

/-- Reclaims a store that loses a unit and is not reclaimed yet. -/
def reclaimEvicted (actions operations : List Action) (store : StoreUsage) : List Action :=
  if actions.any (Action.evicts store.path) && !operations.any (Action.reclaims store.path) &&
      store.spec.compaction = .incremental && store.incremental then
    operations ++ [.reclaim store.spec.id store.path]
  else operations

namespace PlanInput
variable (input : PlanInput)

/-- A `u64` in the source, summed here without a bound: no disk holds more. -/
def usage : ℕ := (input.entries.map FileEntry.bytes).sum + (input.stores.map StoreUsage.bytes).sum

def free : Option ℕ := input.disk.map Disk.free

def budget : ℕ := Storage.budget input.usage input.disk input.limit

def tier : Tier := max (diskTier input.free) (budgetTier input.usage input.budget)

/-- Whether usage is within the budget and the disk out of the low tier once `freed` bytes go. -/
def fits (freed : ℕ) : Bool :=
  decide (input.usage - freed ≤ input.budget) &&
    decide (diskTier (input.free.map fun free => saturatingAddU64 free freed) = .normal)

/-- Free pages inside the stores. -/
def reclaimable : ℕ := (input.stores.map StoreUsage.freeBytes).sum

variable {V : Type} [LinearOrder V] (parse : String → Option V)

def selection : Selection :=
  Selection.escalate parse input input.tier input.fits escalationSteps
    (Selection.new.apply parse input .normal none)

/-- The units evicted after `freed` bytes of files are deleted. -/
def evicted (freed : ℕ) : List Evictable :=
  takeUntil (fun freed => input.fits (saturatingAddU64 freed input.reclaimable))
    Evictable.bytes freed
    (evictionOrder input.evictables)

def plan : Plan :=
  let selection := input.selection parse
  let deletions := (sortBy Deletion.path selection.deleted).map Deletion.action
  let evicted := input.evicted selection.freed
  let freed := selection.freed + (evicted.map Evictable.bytes).sum
  let actions := deletions ++ evicted.map Evictable.action
  let operations :=
    input.stores.foldl (reclaimEvicted actions) (storeActions input.stores input.compactionDue)
  { limit := input.budget
    usage := input.usage
    projectedUsage := input.usage - freed
    tier := input.tier
    shortfall := input.usage - freed - input.budget
    fits := input.fits (saturatingAddU64 freed input.reclaimable)
    actions := actions ++ operations }

end PlanInput

def Action.deletedPath : Action → Option FilePath
  | .delete path _ _ _ => some path
  | _ => none

/-- The bytes of usage an action takes away. -/
def Action.freed : Action → ℕ
  | .delete _ _ bytes _ => bytes
  | .evict _ _ _ bytes => bytes
  | _ => 0

def Action.isEviction : Action → Bool
  | .evict _ _ _ _ => true
  | _ => false

/-- The bytes of the deletions of a plan. -/
def Plan.deletedBytes (plan : Plan) : ℕ :=
  ((plan.actions.filter fun action => !action.isEviction).map Action.freed).sum

/-- What the next pass measures when only the deletions of a plan were carried out. -/
def PlanInput.afterDeletions (input : PlanInput) (plan : Plan) : PlanInput :=
  { input with
    entries := input.entries.filter fun entry =>
      entry.path ∉ plan.actions.filterMap Action.deletedPath
    disk := input.disk.map fun disk =>
      { disk with free := saturatingAddU64 disk.free plan.deletedBytes } }

end ScreenerBot.Storage
