import ScreenerBot.Library.Run
import ScreenerBot.Positions.Settle

/-! The verification worker: it reads verdicts of queued items, verifies a batch, and settles what
its verifier gave up on, while other tasks queue new items. -/
namespace ScreenerBot.Positions

open VerificationQueue

/-- A swap queued for verification: one just sent, or one a restored or unverified row names. -/
inductive Submission where
  | swap (signature mint : String) (positionId : Option ℤ) (kind : VerificationKind)
      (expiryHeight : Option ℕ)
  | partialExit (signature mint : String) (positionId : Option ℤ) (expectedExitAmount : ℕ)
      (exitPercentage : ℚ) (expiryHeight takeProfitLevel : Option ℕ)
  | dca (signature mint : String) (positionId : Option ℤ) (expiryHeight : Option ℕ)

def Submission.signature : Submission → String
  | swap signature .. | partialExit signature .. | dca signature .. => signature

def Submission.item (now : ℤ) : Submission → VerificationItem
  | swap signature mint positionId kind expiryHeight =>
    .new now signature mint positionId kind expiryHeight
  | partialExit signature mint positionId expectedExitAmount exitPercentage expiryHeight level =>
    (VerificationItem.newPartialExit now signature mint positionId expectedExitAmount exitPercentage
      expiryHeight).withTakeProfitLevel level
  | dca signature mint positionId expiryHeight =>
    .newDca now signature mint positionId expiryHeight

/-- How applying a transition ended. -/
inductive Applied where
  | ok
  | refused (error : ApplyError)

/-- How one verification attempt ended: with the transition of a verified transaction, applied, or
with a reason to try again, `confirmed` when the transaction was read as confirmed before that. -/
inductive VerificationOutcome where
  | transition (applied : Applied)
  | retryTransient (confirmed : Bool)

/-- What the worker read of a signature, and what it emitted for it. -/
inductive Event where
  | read (signature : String) (verdict : SignatureVerdict)
  | dust (signature : String) (attributableIsDust : Option Bool)
  /-- The verifier found the transaction, confirmed and without an error. -/
  | verified (signature : String)
  | emitted (signature : String) (transition : NotLandedTransition)
  deriving DecidableEq, Repr

/-- What the worker holds outside the queue: read candidates still to settle, a batch with the items
given up on, or those with their verdicts. -/
inductive Phase where
  | idle
  | settling (candidates : List (VerificationItem × SignatureVerdict))
  | verifying (batch unresolved : List VerificationItem)
  | resolving (items : List (VerificationItem × SignatureVerdict))

/-- Nothing is left of the phase. -/
def Phase.done : Phase → Bool
  | idle => true
  | settling candidates => candidates.isEmpty
  | verifying batch unresolved => batch.isEmpty && unresolved.isEmpty
  | resolving items => items.isEmpty

structure Worker where
  queue : VerificationQueue
  phase : Phase
  log : List Event

namespace Worker

variable (jitter : String → ℕ → ℤ)

def initial : Worker := ⟨.new, .idle, []⟩

/-- The reads of one batched verdict read. -/
def reads (read : List (VerificationItem × SignatureVerdict)) : List Event :=
  read.map fun c => .read c.1.signature c.2

/-- `settle_queued_signatures`, up to its batched read of the due candidates. -/
def readQueued (w : Worker) (now : ℤ) (verdict : VerificationItem → SignatureVerdict) : Worker :=
  if w.phase.done then
    let candidates := (w.queue.settlementCandidates now).map fun item => (item, verdict item)
    { w with phase := .settling candidates, log := w.log ++ reads candidates }
  else w

/-- The dust reading is taken only where the disposition needs it. -/
def readDust (item : VerificationItem) (verdict : SignatureVerdict) (dust : Option Bool) :
    Option Bool :=
  if needsDust item verdict then dust else none

def dustEvents (item : VerificationItem) (verdict : SignatureVerdict) (dust : Option Bool) :
    List Event :=
  if needsDust item verdict then [.dust item.signature dust] else []

/-- The queue after a settlement was applied, or refused. -/
def afterSettlement (queue : VerificationQueue) (now : ℤ) (item : VerificationItem) :
    Applied → VerificationQueue
  | .ok => queue
  | .refused error =>
    match item.applyFailureDisposition now error with
    | .drop _ => queue.abandon item.signature
    | .requeue => queue.enqueue (item.deferred jitter now)
    | .giveUp _ => queue.enqueue ((item.renewed now).deferred jitter now)

/-- One candidate of `settle_queued_signatures`; `locked` when its mint's lock was free in time. -/
def settleQueued (w : Worker) (now : ℤ) (dust : Option Bool) (locked : Bool) (applied : Applied) :
    Worker :=
  match w.phase with
  | .settling ((item, verdict) :: rest) =>
    let phase := .settling rest
    let log := w.log ++ dustEvents item verdict dust
    match disposition item verdict (readDust item verdict dust) with
    | .requeue true => ⟨w.queue.markSwapConfirmed item.signature, phase, log⟩
    | .requeue false =>
      ⟨if item.notLandedSeen then w.queue.clearNotLanded item.signature else w.queue, phase, log⟩
    | .defer => ⟨w.queue.deferSettlement jitter now item.signature, phase, log⟩
    | .apply transition =>
      if locked then
        let removed := w.queue.remove item.signature
        if removed.1 then
          ⟨afterSettlement jitter removed.2 now item applied, phase,
            log ++ [.emitted item.signature transition]⟩
        else ⟨removed.2, phase, log⟩
      else ⟨w.queue.deferSettlement jitter now item.signature, phase, log⟩
  | _ => w

/-- `poll_verification_batch`. -/
def poll (w : Worker) (now : ℤ) (limit : ℕ) : Worker :=
  if w.phase.done then
    let polled := w.queue.pollBatch now limit
    { w with queue := polled.2, phase := .verifying polled.1 [] }
  else w

/-- `process_verification_item` on the next item of the batch. -/
def verify (w : Worker) (now : ℤ) (outcome : VerificationOutcome) : Worker :=
  match w.phase with
  | .verifying (item :: batch) unresolved =>
    match outcome with
    | .transition .ok =>
      ⟨(w.queue.remove item.signature).2, .verifying batch unresolved,
        w.log ++ [.verified item.signature]⟩
    | .transition (.refused error) =>
      let confirmed := { item with swapConfirmed := true }
      let log := w.log ++ [.verified item.signature]
      match confirmed.applyFailureDisposition now error with
      | .requeue => ⟨w.queue.requeue jitter now confirmed, .verifying batch unresolved, log⟩
      | .giveUp _ =>
        ⟨w.queue, .verifying batch
          (unresolved ++ [{ confirmed with unbookedReported := true }]), log⟩
      | .drop _ => ⟨w.queue.abandon item.signature, .verifying batch unresolved, log⟩
    | .retryTransient confirmed =>
      -- the item is not marked confirmed, whatever the attempt read
      let log := w.log ++ if confirmed then [.verified item.signature] else []
      match item.shouldGiveUp now with
      | some _ => ⟨w.queue, .verifying batch (unresolved ++ [item]), log⟩
      | none => ⟨w.queue.requeue jitter now item, .verifying batch unresolved, log⟩
  | _ => w

/-- The batched read of `settle_unresolved`; one that fails reads every item as pending. -/
def readUnresolved (w : Worker) (verdict : Option (VerificationItem → SignatureVerdict)) : Worker :=
  match w.phase with
  | .verifying [] unresolved =>
    match verdict with
    | some verdict =>
      let items := unresolved.map fun item => (item, verdict item)
      { w with phase := .resolving items, log := w.log ++ reads items }
    | none => { w with phase := .resolving (unresolved.map fun item => (item, .pending)) }
  | _ => w

/-- One item of `settle_unresolved`. -/
def settleUnresolved (w : Worker) (now : ℤ) (dust : Option Bool) (locked : Bool)
    (applied : Applied) : Worker :=
  match w.phase with
  | .resolving ((item, verdict) :: rest) =>
    let phase := .resolving rest
    let log := w.log ++ dustEvents item verdict dust
    match disposition item verdict (readDust item verdict dust) with
    | .requeue swapConfirmed =>
      let renewed := item.renewed now
      ⟨w.queue.enqueue { renewed with
          swapConfirmed := renewed.swapConfirmed || swapConfirmed
          notLandedReads := 0 }, phase, log⟩
    | .defer => ⟨w.queue.enqueue ((item.renewed now).deferred jitter now), phase, log⟩
    | .apply transition =>
      if locked then
        ⟨afterSettlement jitter w.queue now (item.renewed now) applied, phase,
          log ++ [.emitted item.signature transition]⟩
      else ⟨w.queue.enqueue ((item.renewed now).deferred jitter now), phase, log⟩
  | _ => w

end Worker

/-- The calls on the queue, each of the worker's own in its order. -/
inductive WorkerAction where
  | enqueue (now : ℤ) (submission : Submission)
  | assignExpiryBound (bound : ℕ) (signatures : List String)
  | readQueued (now : ℤ) (verdict : VerificationItem → SignatureVerdict)
  | settleQueued (now : ℤ) (dust : Option Bool) (locked : Bool) (applied : Applied)
  | poll (now : ℤ) (limit : ℕ)
  | verify (now : ℤ) (outcome : VerificationOutcome)
  | readUnresolved (verdict : Option (VerificationItem → SignatureVerdict))
  | settleUnresolved (now : ℤ) (dust : Option Bool) (locked : Bool) (applied : Applied)
  | restart

namespace Worker

variable (jitter : String → ℕ → ℤ)

def step (w : Worker) : WorkerAction → Worker
  | .enqueue now submission => { w with queue := w.queue.enqueue (submission.item now) }
  | .assignExpiryBound bound signatures =>
    if w.phase.done then { w with queue := w.queue.assignExpiryBound bound signatures } else w
  | .readQueued now verdict => w.readQueued now verdict
  | .settleQueued now dust locked applied => w.settleQueued jitter now dust locked applied
  | .poll now limit => w.poll now limit
  | .verify now outcome => w.verify jitter now outcome
  | .readUnresolved verdict => w.readUnresolved verdict
  | .settleUnresolved now dust locked applied => w.settleUnresolved jitter now dust locked applied
  -- The queue is held in memory only.
  | .restart => ⟨.new, .idle, w.log⟩

/-- The item a verification attempt is next made of. -/
def next (w : Worker) : Option VerificationItem :=
  match w.phase with
  | .verifying (item :: _) _ => some item
  | _ => none

/-- The items the worker took out of the queue. -/
def held (w : Worker) : List VerificationItem :=
  match w.phase with
  | .verifying batch unresolved => batch ++ unresolved
  | .resolving items => items.map Prod.fst
  | _ => []

end Worker

/-- The verdicts read of a signature, in order. -/
def readsOf (signature : String) (log : List Event) : List SignatureVerdict :=
  log.filterMap fun
    | .read read verdict => if read = signature then some verdict else none
    | _ => none

/-- The dust readings taken for a signature, in order. -/
def dustOf (signature : String) (log : List Event) : List (Option Bool) :=
  log.filterMap fun
    | .dust read dust => if read = signature then some dust else none
    | _ => none

/-- The swap of a signature was read as confirmed: its verdict landed, or the verifier found its
transaction confirmed. -/
def Confirmed (log : List Event) (signature : String) : Prop :=
  .read signature .landed ∈ log ∨ .verified signature ∈ log

instance (log : List Event) (signature : String) : Decidable (Confirmed log signature) :=
  inferInstanceAs (Decidable (_ ∨ _))

/-- The reads that prove an entry never landed: its transaction failed on chain, or two reads in a
row found that it did not land, the second one not landed with a holding known to be dust. -/
def OrphanProved (before : List Event) (signature : String) : NotLandedEvidence → Prop
  | .failedOnChain => ∃ earlier, readsOf signature before = earlier ++ [.failedOnChain]
  | .expired => (∃ earlier previous, readsOf signature before = earlier ++ [previous, .notLanded] ∧
      previous.didNotLand = true) ∧ (dustOf signature before).getLast? = some (some true)

/-- A not-landed transition is never emitted for a swap read as confirmed before. -/
def NeverConfirmed (before : List Event) : Event → Prop
  | .emitted signature _ => ¬ Confirmed before signature
  | _ => True

/-- An entry is removed as orphan, by its own signature, only once proved. -/
def OrphanOnlyProved (before : List Event) : Event → Prop
  | .emitted signature (.removeOrphanEntry _ removed evidence) =>
    removed = signature ∧ OrphanProved before signature evidence
  | _ => True

end ScreenerBot.Positions
