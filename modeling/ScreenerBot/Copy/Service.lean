import ScreenerBot.Copy.Exits
import ScreenerBot.Copy.Store
import ScreenerBot.Library.Process

/-! The copy service: what it does with one wallet activity, call by call. -/
namespace ScreenerBot.Copy
open Library

/-- A planned copy buy. -/
structure PreparedEntry where
  taskId : ℤ
  targetSignature : String
  mint : String
  sizeNative : ℚ
  deriving DecidableEq, Repr

inductive LiveSubmitResult where
  | confirmed (transactionSignature : String)
  | submitted (transactionSignature : String)
  | failed (error : String)
  deriving DecidableEq, Repr

structure CopyConfig where
  enabled : Bool
  requireFilterPass : Bool
  copyStableQuoted : Bool
  maxArrivalDistanceMs : ℕ
  latencyKillSwitchEnabled : Bool
  deriving DecidableEq, Repr

/-- The calls an activity is processed with. The store answers the first group; the rest read
prices, positions, risk and queues, and hand decisions to the trader. -/
inductive CopyCall : Type → Type where
  | tasksForSubject (subject : String) : CopyCall (Except CopyError (List CopyTask))
  | observeTargetInventory (taskId : ℤ) (signature mint : String) (tokenDelta : ℚ) :
      CopyCall (Except CopyError ℚ)
  | record (outcome : CopyOutcome) : CopyCall (Except CopyError Bool)
  | claimLiveActivity (taskId : ℤ) (signature : String) : CopyCall (Except CopyError Bool)
  | pauseTask (taskId : ℤ) : CopyCall (Except CopyError Bool)
  | config : CopyCall CopyConfig
  | nativePrice : CopyCall ℚ
  | holdsOpenCopies (taskId : ℤ) (mint : String) : CopyCall Bool
  /-- The average arrival delay of a task, when it is over the limit. -/
  | latencyOverLimit (taskId : ℤ) (activity : WalletActivity) :
      CopyCall (Except CopyError (Option ℕ))
  | enqueuePaper (taskId : ℤ) (activity : WalletActivity) (targetHolding : ℚ) :
      CopyCall (Option CopySkip)
  | entryContext (tasks : List CopyTask) (mint : String) : CopyCall (Except CopyError Unit)
  /-- The risk precheck and the size of a copy buy. -/
  | sizeEntry (task : CopyTask) (activity : WalletActivity) : CopyCall (Except CopySkip ℚ)
  | admitEntry (mint : String) : CopyCall (Option String)
  | submitEntry (plan : PreparedEntry) : CopyCall LiveSubmitResult
  | sellPosition (mint : String) : CopyCall (Option CopyPosition × Bool)
  | submitExit (plan : PreparedCopySell) : CopyCall CopySellSubmitResult

abbrev Copying (α : Type) := Attempt CopyCall CopyError α

def record (outcome : CopyOutcome) : Copying Unit := do
  let _ ← Attempt.perform (.record outcome)

/-- Records a skip for one task, in the book the task runs in. -/
def recordSkip (task : CopyTask) (activity : WalletActivity) (mint : Option String)
    (reason : CopySkip) : Copying Unit :=
  let outcome := skippedActivity task.id activity mint reason
  record (if task.mode = .paper then outcome.asPaper else outcome)

/-- A trade no task can copy is shown in every enabled task that would have acted on it. -/
def recordUncopyable (activity : WalletActivity) (mint : Option String) (reason : CopySkip)
    (copyEnabled : Bool) : Copying Unit := do
  if !copyEnabled then return
  let watching ← Attempt.perform (.tasksForSubject activity.subject)
  Attempt.each (fun task => recordSkip task activity mint reason)
    ((matchingTasks activity watching).filter (·.enabled))

/-- Applies a swap to the tracked holding of every watching task; the holdings before it. -/
def observeTargetInventory (activity : WalletActivity) (tasks : List CopyTask) :
    Copying (List (ℤ × ℚ)) :=
  match activity.kind with
  | .swap mint side _ tokenAmount _ =>
    let delta := match side with
      | .buy => tokenAmount
      | .sell => -tokenAmount
    Attempt.collect (fun task => do
      let before ← Attempt.perform (.observeTargetInventory task.id activity.signature mint delta)
      return some (task.id, before)) tasks
  | _ => return []

/-- Why a replayed activity is too old to copy. -/
def backfillSkipReason (backfill : Bool) (arrivalMs : Option ℕ) (thresholdMs : ℕ) :
    Option CopySkip :=
  if !backfill then none
  else match arrivalMs with
    | some arrivalMs =>
      if thresholdMs < arrivalMs then some (.staleObservation arrivalMs thresholdMs) else none
    | none => some .unknownObservationTime

def rejectStaleBackfill (config : CopyConfig) (activity : WalletActivity) (tasks : List CopyTask)
    (mint : String) : Copying Bool :=
  match backfillSkipReason activity.backfill activity.arrivalDistanceMs
    config.maxArrivalDistanceMs with
  | none => return false
  | some reason => do
    Attempt.each (fun task => recordSkip task activity (some mint) reason) tasks
    return true

/-- Keeps the tasks whose pipeline is fast enough, and pauses the others. -/
def applyLatencyKillSwitch (config : CopyConfig) (activity : WalletActivity) (mint : String)
    (tasks : List CopyTask) : Copying (List CopyTask) :=
  if !config.latencyKillSwitchEnabled || activity.backfill || activity.arrivalDistanceMs.isNone then
    return tasks
  else
    Attempt.collect (fun task => do
      if !task.enabled then return some task
      match ← Attempt.perform (.latencyOverLimit task.id activity) with
      | none => return some task
      | some averageMs =>
        let _ ← Attempt.perform (.pauseTask task.id)
        recordSkip task activity (some mint)
          (.latencyKillSwitch averageMs config.maxArrivalDistanceMs)
        return none) tasks

/-- Keeps the tasks that copy a stable-quoted buy, and records why the others did not. -/
def admitStableQuoted (config : CopyConfig) (activity : WalletActivity) (mint : String)
    (tasks : List CopyTask) : Copying (List CopyTask) :=
  Attempt.collect (fun task => do
    if task.copiesStableQuoted config.copyStableQuoted then return some task
    recordSkip task activity (some mint) .stableQuoteDisabled
    return none) tasks

/-- Queues the paper work of a task on its own queue, recording why where it cannot be queued. -/
def enqueuePaper (task : CopyTask) (activity : WalletActivity) (mint : String) (targetHolding : ℚ) :
    Copying Unit := do
  match ← Attempt.ask (.enqueuePaper task.id activity targetHolding) with
  | none => return
  | some reason => record (skippedPaper task.id activity mint reason)

/-- Plans the copy of a target buy. -/
def prepareEntry (activity : WalletActivity) (task : CopyTask) :
    Copying (Except CopySkip PreparedEntry) :=
  match activity.kind with
  | .swap mint .buy .. => do
    let size ← Attempt.ask (.sizeEntry task activity)
    return size.map fun sizeNative =>
      { taskId := task.id, targetSignature := activity.signature, mint, sizeNative }
  | _ => return .error .notBuySwap

def liveDecision (plan : PreparedEntry) : LiveDecision where
  taskId := plan.taskId
  targetSignature := plan.targetSignature
  mint := plan.mint
  sizedNative := plan.sizeNative
  transactionSignature := none
  error := none

/-- The outcome of a live entry the trader answered. -/
def liveOutcome (plan : PreparedEntry) (result : LiveSubmitResult) : CopyOutcome :=
  let decision := liveDecision plan
  match result with
  | .confirmed transactionSignature =>
    .liveConfirmed { decision with transactionSignature := some transactionSignature }
  | .submitted transactionSignature =>
    .liveSubmitted { decision with transactionSignature := some transactionSignature }
  | .failed error => .liveFailed { decision with error := some error }

/-- Runs a planned live entry: its admission, then its submission. -/
def executeLive (plan : PreparedEntry) : Copying CopyOutcome := do
  match ← Attempt.ask (.admitEntry plan.mint) with
  | some block =>
    return .skipped plan.taskId plan.targetSignature (some plan.mint) (.entryBlocked block) false
  | none => return liveOutcome plan (← Attempt.ask (.submitEntry plan))

/-- One live task's copy of a target buy. -/
def enterLive (activity : WalletActivity) (mint : String) (task : CopyTask) : Copying Unit := do
  match ← prepareEntry activity task with
  | .error reason => record (skipped task.id activity mint reason)
  | .ok plan =>
    if !(← Attempt.perform (.claimLiveActivity task.id activity.signature)) then return
    record (← executeLive plan)

/-- One live task's copy of a target sale. -/
def exitLive (activity : WalletActivity) (mint : String) (targetHolding : ℚ) (task : CopyTask) :
    Copying Unit := do
  if !(← Attempt.perform (.claimLiveActivity task.id activity.signature)) then return
  let (position, forceStopped) ← Attempt.ask (.sellPosition mint)
  match prepareCopySell activity task position forceStopped targetHolding with
  | .error reason => record (skipped task.id activity mint reason)
  | .ok plan =>
    let result ← Attempt.ask (.submitExit plan)
    record (copySellOutcome plan result)

def processSellActivity (activity : WalletActivity) (tasks : List CopyTask) (mint : String)
    (targetHoldingsBefore : List (ℤ × ℚ)) : Copying Unit := do
  let targetHolding (task : CopyTask) : ℚ := (targetHoldingsBefore.lookup task.id).getD 0
  Attempt.each (fun task => enqueuePaper task activity mint (targetHolding task))
    (tasks.filter (·.mode = .paper))
  Attempt.each (fun task => exitLive activity mint (targetHolding task) task)
    (tasks.filter (·.mode = .live))

def processBuyActivity (activity : WalletActivity) (tasks : List CopyTask) (mint : String) :
    Copying Unit := do
  Attempt.each (fun task => enqueuePaper task activity mint 0) (tasks.filter (·.mode = .paper))
  let live := tasks.filter (·.mode = .live)
  if live.isEmpty then return
  Attempt.perform (.entryContext live mint)
  Attempt.each (enterLive activity mint) live

/-- Whether a task acts on a swap: pausing stops new copies, never the exits of what is held. -/
def actsOn (copyEnabled selling : Bool) (mint : String) (task : CopyTask) : Copying Bool :=
  if !selling then return task.enabled
  else if task.exitMode = .buyOnly then return false
  else if task.enabled && copyEnabled then return true
  else Attempt.ask (.holdsOpenCopies task.id mint)

def actingTasks (copyEnabled selling : Bool) (mint : String) (watching : List CopyTask) :
    Copying (List CopyTask) :=
  Attempt.collect (fun task => do
    return if ← actsOn copyEnabled selling mint task then some task else none) watching

/-- A held copy follows the target's exit whatever coin it is paid in; only a new stable-quoted buy
needs the task's consent. -/
def consentingTasks (config : CopyConfig) (activity : WalletActivity) (mint : String)
    (stableQuoted selling : Bool) (tasks : List CopyTask) : Copying (List CopyTask) :=
  if stableQuoted && !selling then admitStableQuoted config activity mint tasks else return tasks

/-- What a swap in native terms leads to. -/
def processSwap (config : CopyConfig) (activity : WalletActivity) (stableQuoted : Bool)
    (mint : String) (side : SwapSide) : Copying Unit := do
  let stored ← Attempt.perform (.tasksForSubject activity.subject)
  let watching := matchingTasks activity stored
  if watching.isEmpty then return
  let targetHoldingsBefore ← observeTargetInventory activity watching
  let selling := decide (side = .sell)
  if !selling && !config.enabled then return
  let acting ← actingTasks config.enabled selling mint watching
  if acting.isEmpty then return
  if ← rejectStaleBackfill config activity acting mint then return
  let fast ← applyLatencyKillSwitch config activity mint acting
  let tasks ← consentingTasks config activity mint stableQuoted selling fast
  if tasks.isEmpty then return
  if selling then processSellActivity activity tasks mint targetHoldingsBefore
  else processBuyActivity activity tasks mint

/-- What the service does with one observed activity. A stable-quoted trade is copied in native
terms at the current price. -/
def processActivity (observed : WalletActivity) : Copying Unit := do
  let config ← Attempt.ask .config
  if !observed.sources.any fun source => source matches .copy _ then return
  match observed.kind with
  | .swap mint side .. => processSwap config observed false mint side
  | .stableSwap mint side .. =>
    let nativeUsd ← Attempt.ask .nativePrice
    match observed.kind.stableSwapInNative nativeUsd with
    | none =>
      recordUncopyable observed (some mint) .stableQuotePriceUnavailable config.enabled
    | some kind => processSwap config { observed with kind } true mint side
  | .unresolvedSwap mint reason =>
    recordUncopyable observed mint (.ofUnresolved reason) config.enabled
  | .transfer | .other => return

end ScreenerBot.Copy
