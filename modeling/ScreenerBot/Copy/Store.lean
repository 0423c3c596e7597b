import ScreenerBot.Copy.Types
import ScreenerBot.Library.Binary64
import ScreenerBot.Library.Keyed

/-! The copy store: tasks, the claims of live copies, the recorded decisions, and what was observed
of each target's holdings. A holding is a finite `f64`, and a change of it is rounded. -/
namespace ScreenerBot.Copy
open Library

inductive CopyError where
  | database
  deriving DecidableEq, Repr

inductive ClaimState where
  | claimed
  | submitted
  | settled
  | abandoned
  deriving DecidableEq, Repr

/-- A target transaction claimed for live spending by a task. -/
structure LiveClaim where
  /-- Seconds. -/
  claimedAt : ℤ
  state : ClaimState
  deriving DecidableEq, Repr

/-- One observed change of a target's tokens. -/
structure TargetEvent where
  mint : String
  tokenDelta : ℚ
  deriving DecidableEq, Repr

structure CopyStore where
  tasks : AList fun _ : ℤ => CopyTask
  /-- The next id an inserted task takes; ids are never taken again. -/
  nextTaskId : ℤ
  claims : AList fun _ : ℤ × String => LiveClaim
  decisions : AList fun _ : ℤ × String => CopyOutcome
  holdings : AList fun _ : ℤ × String => ℚ
  events : AList fun _ : ℤ × String => TargetEvent

namespace CopyStore

def empty : CopyStore := ⟨∅, 1, ∅, ∅, ∅, ∅⟩

/-- A row that names a task may be written only while the task is stored. -/
def references (db : CopyStore) (taskId : ℤ) : Except CopyError Unit :=
  if (db.tasks.lookup taskId).isSome then .ok () else .error .database

/-- Claims a target transaction for a task. `false` means another delivery already owns it and it
must never spend again. -/
def claimLiveActivity (db : CopyStore) (taskId : ℤ) (signature : String) (now : ℤ) :
    Except CopyError (Bool × CopyStore) := do
  db.references taskId
  match db.claims.lookup (taskId, signature) with
  | some _ => return (false, db)
  | none => return (true,
      { db with claims := db.claims.insert (taskId, signature) ⟨now, .claimed⟩ })

def targetHolding (db : CopyStore) (taskId : ℤ) (mint : String) : ℚ :=
  (db.holdings.lookup (taskId, mint)).getD 0

def updateTargetHolding (db : CopyStore) (taskId : ℤ) (mint : String) (delta : ℚ) : CopyStore :=
  if delta = 0 then db
  else
    let amount := max 0 (Binary64.add (db.targetHolding taskId mint) delta)
    { db with holdings := db.holdings.insert (taskId, mint) amount }

/-- Applies one observed change of a target's tokens, and returns the holding it found. -/
def observeTargetInventory (db : CopyStore) (taskId : ℤ) (signature mint : String)
    (tokenDelta : ℚ) :
    Except CopyError (ℚ × CopyStore) := do
  db.references taskId
  let before := db.targetHolding taskId mint
  match db.events.lookup (taskId, signature) with
  | some _ => return (before, db)
  | none =>
    let recorded := { db with events := db.events.insert (taskId, signature) ⟨mint, tokenDelta⟩ }
    return (before, recorded.updateTargetHolding taskId mint tokenDelta)

/-- What the claim of an outcome's target transaction becomes. -/
def claimState : CopyOutcome → Option ClaimState
  | .liveSubmitted _ | .liveSellSubmitted _ => some .submitted
  | .liveConfirmed _ | .liveFailed _ | .liveSellFailed _ | .skipped .. => some .settled
  | .paperFilled .. | .paperSellObserved _ => none

/-- Sets the state of the claim at `key`, where there is one. -/
def setClaim (db : CopyStore) (key : ℤ × String) (state : ClaimState) : CopyStore :=
  match db.claims.lookup key with
  | none => db
  | some claim => { db with claims := db.claims.insert key { claim with state := state } }

/-- Persists one outcome. `true` when it is a first decision or the confirmation of a submitted
one. -/
def recordOutcome (db : CopyStore) (outcome : CopyOutcome) :
    Except CopyError (Bool × CopyStore) := do
  db.references outcome.key.1
  let (fresh, written) := match db.decisions.lookup outcome.key, outcome with
    | none, _ => (true, { db with decisions := db.decisions.insert outcome.key outcome })
    | some (.liveSubmitted _), .liveConfirmed _ =>
      (true, { db with decisions := db.decisions.insert outcome.key outcome })
    | some _, _ => (false, db)
  return (fresh, match claimState outcome with
    | none => written
    | some state => written.setClaim outcome.key state)

/-- Marks the claims still open: settled where a decision is recorded, abandoned where they are
older than the grace. An abandoned claim is never made spendable again. -/
def reconcileStaleClaims (db : CopyStore) (graceSeconds : ℕ) (now : ℤ) : CopyStore :=
  let settle (key : ℤ × String) (claim : LiveClaim) : LiveClaim :=
    if claim.state = .claimed ∧ (db.decisions.lookup key).isSome then
      { claim with state := .settled }
    else claim
  let settled := { db with claims := mapWithKey settle db.claims }
  let stale (claim : LiveClaim) : Bool :=
    claim.state = .claimed && decide (claim.claimedAt ≤ now - graceSeconds)
  let abandoned := settled.claims.entries.filterMap fun e => if stale e.2 then some e.1 else none
  abandoned.foldl (fun db key =>
    let outcome := CopyOutcome.skipped key.1 key.2 none .claimReconciledAbandoned false
    let decided := match db.decisions.lookup key with
      | some _ => db
      | none => { db with decisions := db.decisions.insert key outcome }
    decided.setClaim key .abandoned) settled

def tasksForSubject (db : CopyStore) (subject : String) : List CopyTask :=
  (values db.tasks).filter fun task => task.targetAddress == subject

def insertTask (db : CopyStore) (task : CopyTask) : CopyStore :=
  { db with
    tasks := db.tasks.insert db.nextTaskId { task with id := db.nextTaskId }
    nextTaskId := db.nextTaskId + 1 }

/-- Replaces a stored task, its id kept. -/
def updateTask (db : CopyStore) (taskId : ℤ) (task : CopyTask) : CopyStore :=
  match db.tasks.lookup taskId with
  | none => db
  | some _ => { db with tasks := db.tasks.insert taskId { task with id := taskId } }

/-- Stands an enabled task down; `false` when it was not enabled. -/
def pauseTask (db : CopyStore) (taskId : ℤ) : Bool × CopyStore :=
  match db.tasks.lookup taskId with
  | some task => if task.enabled then
      (true, { db with tasks := db.tasks.insert taskId { task with enabled := false } })
    else (false, db)
  | none => (false, db)

/-- Deletes a task with every row that names it. -/
def deleteTask (db : CopyStore) (taskId : ℤ) : CopyStore :=
  { db with
    tasks := db.tasks.erase taskId
    claims := retainKeys (fun key => key.1 != taskId) db.claims
    decisions := retainKeys (fun key => key.1 != taskId) db.decisions
    holdings := retainKeys (fun key => key.1 != taskId) db.holdings
    events := retainKeys (fun key => key.1 != taskId) db.events }

end CopyStore

/-- A live task that mirrors the wallet `target`. -/
def liveTask : CopyTask where
  id := 1
  targetAddress := "target"
  enabled := true
  mode := .live
  exitMode := .mirror
  slippagePct := 1
  requireFilterPass := none
  copyStableQuoted := none

/-- The store with that task. -/
def liveStore : CopyStore := CopyStore.empty.insertTask liveTask

end ScreenerBot.Copy
