import ScreenerBot.Watch.Poller

/-! The observation loop of one watched wallet: the funnel that every signature goes through, and
the triggers that feed it. -/
namespace ScreenerBot.Watch
open Library

variable {κ : Type}

def skipKnownFailedExternal (target : WatchTarget) (failed : Bool) : Bool := failed && !target.isOwn

inductive ProcessOutcome where
  | terminal
  | retryable
  deriving DecidableEq, Repr

/-- Makes a signature known that has nothing to publish. -/
def commitOnly (signature : String) : Program (WatchCall κ) ProcessOutcome := do
  match ← Program.perform (.commit signature) with
  | .error _ => return .retryable
  | .ok _ => return .terminal

def decoded (target : WatchTarget) (signature : String) :
    Option (Transaction κ) → Program (WatchCall κ) (Except DecodeError (Transaction κ))
  | some transaction => return .ok transaction
  | none => Program.perform (.decodeTransaction signature target.isOwn)

/-- A recorded activity is made known before it is published. -/
def publishOnce (target : WatchTarget) (signature : String) (backfill : Bool) (kind : κ) :
    Program (WatchCall κ) ProcessOutcome := do
  match ← Program.perform (.record signature) with
  | .error _ => return .retryable
  | .ok _ =>
    match ← Program.perform (.commit signature) with
    | .error _ => return .retryable
    | .ok _ =>
      Program.perform (.publish ⟨signature, kind, target.sources, backfill⟩)
      return .terminal

/-- The one funnel: dedupe, decode, classify, record, make known, publish. -/
def processSignature (target : WatchTarget) (signature : String) (backfill : Bool)
    (predecoded : Option (Transaction κ)) : Program (WatchCall κ) ProcessOutcome := do
  if ← Program.perform (.resolveSubject true) then
    match ← Program.perform (.hasSeen signature) with
    | .error _ => return .retryable
    | .ok true => return .terminal
    | .ok false =>
      match ← decoded target signature predecoded with
      | .error error => if error.isDeferred then return .retryable else commitOnly signature
      | .ok transaction =>
        if transaction.success then
          match transaction.activity with
          | none => commitOnly signature
          | some kind => publishOnce target signature backfill kind
        else if target.isOwn then
          match ← Program.perform (.record signature) with
          | .error _ => return .retryable
          | .ok _ => commitOnly signature
        else commitOnly signature
  else return .terminal

/-- A notification that was not decodable yet. -/
structure WsRetry where
  signature : String
  attempt : ℕ
  deriving DecidableEq, Repr

def wsRetryAttempts : ℕ := 4

inductive HighActivityPollResult where
  | checked
  | providerFailed
  | processingFailed
  deriving DecidableEq, Repr

/-- Why a failed check pauses its watch. -/
def HighActivityPollResult.pauseReason : HighActivityPollResult → Option WatchDisableReason
  | .checked => none
  | .providerFailed => some .heliusUnavailable
  | .processingFailed => some .processingFailed

/-- The state of one worker. -/
structure TargetRuntime where
  target : WatchTarget
  catchUp : Option CatchUpState
  baselineOnly : Bool
  backfill : Bool
  highActivity : Bool
  highActivityCatchingUp : Bool
  highActivityDirty : Bool
  highActivityFailures : ℕ
  highActivityFailureReason : Option WatchDisableReason
  retries : List WsRetry
  deriving DecidableEq, Repr

def TargetRuntime.register (target : WatchTarget) : TargetRuntime where
  target := target
  catchUp := none
  baselineOnly := false
  backfill := false
  highActivity := false
  highActivityCatchingUp := false
  highActivityDirty := false
  highActivityFailures := 0
  highActivityFailureReason := none
  retries := []

/-- The cursor is saved up to the last handled item before the failure is reported. -/
def stopAt (lastHandled : Option String) : Program (WatchCall κ) HighActivityPollResult :=
  match lastHandled with
  | none => return .processingFailed
  | some signature => do
    let _ ← Program.perform (.setCursor signature)
    return .processingFailed

/-- Handles the items of a page in turn; the last one handled, and whether all of them were. -/
def handleItems (target : WatchTarget) : List (SuccessfulTransactionPageItem κ) → Option String →
    Program (WatchCall κ) (Option String × Bool)
  | [], lastHandled => return (lastHandled, true)
  | item :: rest, lastHandled =>
    match item.transaction with
    | .ok (some transaction) => do
      match ← processSignature target item.signature true (some transaction) with
      | .retryable => return (lastHandled, false)
      | .terminal => handleItems target rest (some item.signature)
    | .ok none => handleItems target rest (some item.signature)
    | .error _ => return (lastHandled, false)

/-- The pages after `after`, while `remaining` signatures may be read; every page that is not the
last has an item, so that many pages are enough. The result tells whether the wallet is caught
up. -/
def highActivityPages (target : WatchTarget) : ℕ → ℕ → Option String →
    Program (WatchCall κ) (HighActivityPollResult × Bool)
  | 0, _, _ => return (.checked, false)
  | pages + 1, remaining, after =>
    if remaining = 0 then return (.checked, false)
    else do
      match ← Program.perform (.fetchSuccessfulTransactionsAfter (min remaining 1000) after) with
      | .error _ => return (.providerFailed, false)
      | .ok page =>
        let (lastHandled, handledAll) ← handleItems target page.items none
        if !handledAll then
          let result ← stopAt lastHandled
          return (result, false)
        else match lastHandled with
          | none => return (.checked, true)
          | some signature =>
            match ← Program.perform (.setCursor signature) with
            | .error _ => return (.processingFailed, false)
            | .ok _ =>
              if !page.hasMore then return (.checked, true)
              else highActivityPages target pages (remaining - page.items.length) (some signature)

def pollHighActivityTarget (r : TargetRuntime) :
    Program (WatchCall κ) (TargetRuntime × HighActivityPollResult) := do
  match ← Program.perform .getCursor with
  | .error _ => return (r, .processingFailed)
  | .ok cursor =>
    let cap := r.target.pageBudget * pageSize
    let (result, caughtUp) ← highActivityPages r.target cap cap cursor
    match result with
    | .checked => return ({ r with highActivityCatchingUp := !caughtUp }, .checked)
    | failed => return (r, failed)

namespace TargetRuntime

def paused (r : TargetRuntime) (reason : WatchDisableReason) : TargetRuntime :=
  { r with target := { r.target with enabled := false, disableReason := some reason } }

/-- Counts a failed check, with the failures before it of the same reason. -/
def failedFor (r : TargetRuntime) (reason : WatchDisableReason) : TargetRuntime :=
  { r with
    highActivityFailures :=
      if r.highActivityFailureReason = some reason then r.highActivityFailures + 1 else 1
    highActivityFailureReason := some reason }

def succeeded (r : TargetRuntime) : TargetRuntime :=
  { r with highActivityFailures := 0, highActivityFailureReason := none }

/-- Without approval the target is read as any other. -/
def dropUnapproved (r : TargetRuntime) : TargetRuntime :=
  if r.highActivity && !r.target.highActivityApproved then
    { r with
      highActivity := false
      highActivityCatchingUp := false
      highActivityFailures := 0
      highActivityFailureReason := none
      catchUp := none }
  else r

end TargetRuntime

def pauseFor (r : TargetRuntime) (reason : WatchDisableReason) :
    Program (WatchCall κ) TargetRuntime :=
  match r.target.id with
  | none => return r
  | some id => do
    match ← Program.perform (.pauseForReason id reason) with
    | .error _ => return r
    | .ok _ => return r.paused reason

/-- The poll of a target in high-activity mode; its third failure for one reason pauses it. -/
def pollHighActivity (r : TargetRuntime) : Program (WatchCall κ) TargetRuntime := do
  if ← Program.perform .supportsHighActivityMode then
    let (r, result) ← pollHighActivityTarget r
    match result.pauseReason with
    | none => return r.succeeded
    | some reason =>
      if 3 ≤ (r.failedFor reason).highActivityFailures then pauseFor (r.failedFor reason) reason
      else return r.failedFor reason
  else pauseFor r .heliusUnavailable

/-- A range that does not fit its budget pauses the target; the durable cursor stays. -/
def handleOverflow (r : TargetRuntime) : Program (WatchCall κ) TargetRuntime :=
  match r.catchUp with
  | none => return r
  | some state =>
    match r.target.id with
    | none => return { r with catchUp := none }
    | some id => do
      match ← Program.perform
          (.pauseForBudget id r.target.pageBudget state.newestFirst.length) with
      | .error _ => return { r with catchUp := none }
      | .ok _ =>
        let reason := .signatureBudget r.target.pageBudget state.newestFirst.length
        return { r with catchUp := none }.paused reason

/-- A range is opened at the durable cursor; one that cannot be read counts as none. -/
def openCatchUp (r : TargetRuntime) (backfill : Bool) : Program (WatchCall κ) TargetRuntime :=
  match r.catchUp with
  | some _ => return { r with backfill := r.backfill || backfill }
  | none => do
    let cursor ← Program.perform .getCursor
    let state := CatchUpState.new (cursor.toOption.join)
    if r.target.isOwn then
      return { r with catchUp := some state, baselineOnly := false, backfill := backfill }
    else
      let row ← Program.perform .hasCursorRow
      return { r with catchUp := some state, baselineOnly := !(row.toOption.getD false), backfill
        := backfill }

/-- The budget is used up before the range is complete. -/
def overBudget (r : TargetRuntime) : Program (WatchCall κ) TargetRuntime :=
  if r.target.isOwn then return r
  else if r.target.highActivityApproved then do
    if ← Program.perform .supportsHighActivityMode then
      let (r, result) ← pollHighActivityTarget
        { r with catchUp := none, highActivity := true, highActivityCatchingUp := true }
      match result.pauseReason with
      | none => return r.succeeded
      | some reason =>
        return { r with highActivityFailures := 1, highActivityFailureReason := some reason }
    else handleOverflow r
  else handleOverflow r

/-- The first poll of an external target only sets its cursor. -/
def establishBaseline (r : TargetRuntime) (completed : CompletedCatchUp) :
    Program (WatchCall κ) TargetRuntime := do
  let result ← Program.perform (match completed.newestSignature with
    | some newest => .setCursor newest
    | none => .markCursorInitialized)
  match result with
  | .error _ => return r
  | .ok _ => return { r with catchUp := none, baselineOnly := false }

/-- Feeds the signatures of a complete range to the funnel, oldest first; whether none is left. -/
def replay (target : WatchTarget) (backfill : Bool) :
    List SignaturePageItem → Bool → Program (WatchCall κ) Bool
  | [], complete => return complete
  | seen :: rest, complete =>
    if skipKnownFailedExternal target seen.failed then replay target backfill rest complete
    else do
      let outcome ← processSignature target seen.signature backfill none
      replay target backfill rest (complete && outcome == .terminal)

/-- The cursor advances once the whole range is replayed. -/
def finishReplay (r : TargetRuntime) (completed : CompletedCatchUp) :
    Program (WatchCall κ) TargetRuntime := do
  if ← replay r.target r.backfill completed.signatures true then
    match completed.newestSignature with
    | none => return { r with catchUp := none }
    | some newest =>
      match ← Program.perform (.setCursor newest) with
      | .error _ => return r
      | .ok _ => return { r with catchUp := none }
  else return { r with backfill := true }

def pollStandard (r : TargetRuntime) (backfill : Bool) : Program (WatchCall κ) TargetRuntime := do
  let r ← openCatchUp r backfill
  match r.catchUp with
  | none => return r
  | some state =>
    let (state, result) ← advanceCatchUp state r.target.pageBudget
    match result with
    | .error _ => return { r with catchUp := some state, backfill := true }
    | .ok none => overBudget { r with catchUp := some state }
    | .ok (some completed) =>
      if r.baselineOnly then establishBaseline { r with catchUp := some state } completed
      else finishReplay { r with catchUp := some state } completed

/-- The baseline poll, the escalated poll and the gap-fill alike. -/
def pollTarget (r : TargetRuntime) (backfill : Bool) : Program (WatchCall κ) TargetRuntime := do
  if r.target.enabled then
    if ← Program.perform (.resolveSubject false) then
      if r.dropUnapproved.highActivity then pollHighActivity r.dropUnapproved
      else pollStandard r.dropUnapproved backfill
    else return r
  else return r

/-- A notification that has to wait is queued while it has attempts left. -/
def queueRetry (r : TargetRuntime) (retry : WsRetry) : TargetRuntime :=
  if retry.attempt < wsRetryAttempts then { r with retries := r.retries ++ [retry] } else r

def processEvent (r : TargetRuntime) (signature : String) (failed : Bool) :
    Program (WatchCall κ) TargetRuntime :=
  if !r.target.enabled then return r
  else if skipKnownFailedExternal r.target failed then return r
  else if r.highActivity then return { r with highActivityDirty := true }
  else do
    match ← processSignature r.target signature false none with
    | .terminal => return r
    | .retryable => return queueRetry r ⟨signature, 0⟩

/-- Runs the retries that are due, and queues again those that still have to wait. -/
def runRetries (due : WsRetry → Bool) : List WsRetry → TargetRuntime →
    Program (WatchCall κ) TargetRuntime
  | [], r => return r
  | retry :: rest, r =>
    if due retry then do
      match ← processSignature r.target retry.signature false none with
      | .terminal => runRetries due rest r
      | .retryable => runRetries due rest (queueRetry r ⟨retry.signature, retry.attempt + 1⟩)
    else runRetries due rest { r with retries := r.retries ++ [retry] }

def processRetries (r : TargetRuntime) (due : WsRetry → Bool) :
    Program (WatchCall κ) TargetRuntime :=
  if !r.target.enabled then return { r with retries := [] }
  else runRetries due r.retries { r with retries := [] }

/-- A tick: the retries that are due, and a poll when its time has come. -/
def tick (r : TargetRuntime) (due : WsRetry → Bool) (poll : Bool) :
    Program (WatchCall κ) TargetRuntime := do
  let r ← processRetries r due
  if poll then pollTarget { r with highActivityDirty := false } false else return r

end ScreenerBot.Watch
