import ScreenerBot.Positions.AddCounts
import ScreenerBot.Positions.PendingSwaps
import ScreenerBot.Positions.Settle
import ScreenerBot.Positions.Settled
import ScreenerBot.Swaps.Outcome

/-! The adds of one mint: the call that sends one, its pending marker, the verification that books
it, and what a restart finds of them. -/
namespace ScreenerBot.Positions
open Library

inductive TradeOrigin where
  | auto
  | manual
  deriving DecidableEq, Repr

structure DcaSettings where
  enabled : Bool
  levels : ℕ
  cooldownMinutes : ℤ
  deriving DecidableEq, Repr

inductive AddError where
  | transitionFailed (transition mint detail : String)
  | notFound (mint : String)
  | duplicateOpenRound (mint : String) (positions : List ℤ)
  | dcaDisabled
  deriving DecidableEq, Repr

/-- A row in memory or storage that a buy of its mint is booked onto. -/
def isOpenRound (p : Position) : Bool :=
  p.exitTime.isNone && (p.exitTransactionSignature.isNone || !p.transactionExitVerified)

/-- The open round of `mint` among rows in memory: an active one before an archived one, then the
earliest by entry time and id. -/
def chooseOpenRound (rows : AList fun _ : ℤ => Position) (mint : String) : Option (ℤ × Position) :=
  (sortBy (fun e : ℤ × Position => toLex (e.2.archived, toLex (e.2.entryTime, e.1)))
    ((rows.entries.map fun e => (e.1, e.2)).filter fun e =>
      e.2.mint == mint && isOpenRound e.2)).head?

/-- Refuses an automatic add that the settings do not allow; times are in seconds. -/
def checkAutoAdd (settings : DcaSettings) (now : ℤ) (p : Position) (mint : String) :
    Except AddError Unit :=
  if !settings.enabled then .error .dcaDisabled
  else if settings.levels ≤ p.dcaCount then
    .error (.transitionFailed "dca" mint ("every DCA step is used: " ++ toString p.dcaCount ++
      " (steps: " ++ toString settings.levels ++ ")"))
  else match p.lastDcaTime with
    | none => .ok ()
    | some lastDca =>
      let elapsed := (now - lastDca).tdiv 60
      if elapsed < settings.cooldownMinutes then
        .error (.transitionFailed "dca" mint ("DCA cooldown active: " ++
          toString (settings.cooldownMinutes - elapsed) ++ " minutes remaining"))
      else .ok ()

/-- How far an add has got while it holds the position lock of its mint. -/
inductive AddStage where
  | checked
  | admitted (positionId : ℤ)
  | sent (entry : PendingDcaSwap)
  | registered
  | saving (pending : List PendingDcaSwap)
  deriving DecidableEq

structure AddTask where
  origin : TradeOrigin
  stage : AddStage
  deriving DecidableEq

/-- How far the settlement of an add has got: booked, every row it booked published, its marker
removed from memory, the set without it on its way to storage. -/
inductive SettleStage where
  | booked (handedTo : Option ℤ)
  | published
  | cleared
  | saving (pending : List PendingDcaSwap)
  deriving DecidableEq

/-- An add whose swap was sent, or may have been. -/
structure SentAdd where
  signature : String
  positionId : ℤ
  origin : TradeOrigin
  deriving DecidableEq, Repr

/-- The adds of `mint`. Every stored row has its id; `landed` and `dead` are what became of sent
swaps on chain, `sent` is the history of the run. -/
structure AddDesk where
  mint : String
  store : Store
  memory : AList fun _ : ℤ => Position
  adds : PendingSet PendingDcaSwap
  task : Option AddTask
  settling : AList fun _ : String => SettleStage
  landed : List String
  dead : List String
  sent : List SentAdd

namespace AddDesk

def start (mint : String) (store : Store) : AddDesk where
  mint := mint
  store := store
  memory := store.rows
  adds := ⟨∅, []⟩
  task := none
  settling := ∅
  landed := []
  dead := []
  sent := []

variable (s : AddDesk)

def isDcaPending : Bool := (values s.adds.map).any (·.mint == s.mint)

/-- The check made under the lock before the position is read. -/
def refuseWhilePending (origin : TradeOrigin) : Except AddError Unit :=
  if origin = .auto ∧ s.isDcaPending = true then
    .error (.transitionFailed "dca" s.mint "another add of the mint is still in flight")
  else .ok ()

def refuseReactivatingOpenRound (positionId : ℤ) : Except AddError Unit :=
  let active := s.store.activeOpenRoundsBeside s.mint positionId
  if active = [] then .ok () else .error (.duplicateOpenRound s.mint (positionId :: active))

/-- The position an add is for, once nothing refuses it. -/
def admitAdd (settings : DcaSettings) (origin : TradeOrigin) (now : ℤ) : Except AddError ℤ :=
  match chooseOpenRound s.memory s.mint with
  | none => .error (.notFound s.mint)
  | some (positionId, p) =>
    if p.exitTransactionSignature.isSome && !p.transactionExitVerified then
      .error (.transitionFailed "dca" s.mint "position has a pending exit transaction")
    else do
      let _ ← (if p.archived then s.refuseReactivatingOpenRound positionId else .ok () :
        Except AddError Unit)
      let _ ← (if origin = .auto then checkAutoAdd settings now p s.mint else .ok () :
        Except AddError Unit)
      return positionId

/-- What the swap of an add was sent as: a failure that may still land has the signature that its
transaction has on chain, and the add is not told it. -/
inductive Sending where
  | sent (signature : String)
  | unresolved (signature : String)
  | notSent
  deriving DecidableEq, Repr

def sending (result : Except Swaps.Error String) (onChain : String) : Sending :=
  match result with
  | .ok signature => .sent signature
  | .error error =>
    match Swaps.failedSwap error with
    | .reconcile signature => .sent signature
    | .resendable => .notSent
    | .unresolved => .unresolved onChain

def fresh (signature : String) : Bool :=
  !(s.sent.any (·.signature == signature)) && !s.landed.contains signature &&
    !s.dead.contains signature && !(s.store.entries.any (·.transactionSignature == signature))

/-- Memory adopts a committed row of a position it holds. -/
def adopt (id : ℤ) : AddDesk :=
  match s.memory.lookup id, s.store.rows.lookup id with
  | some _, some row => { s with memory := s.memory.insert id row }
  | _, _ => s

/-- What a truthful reader finds of a signature: a not-landed read may lag once. -/
def truthful (item : VerificationItem) : SignatureVerdict → Bool
  | .landed => s.landed.contains item.signature
  | .failedOnChain => s.dead.contains item.signature
  | .pending => true
  | .notLanded => !item.notLandedSeen || s.dead.contains item.signature

/-- The markers a restart restores: those whose position still has its row. -/
def rehydrated : AList fun _ : String => PendingDcaSwap :=
  s.adds.rehydrate PendingDcaSwap.signature PendingDcaSwap.positionId
    fun id => (s.store.rows.lookup id).isNone

def bookedAdd (a : SentAdd) : Bool := s.store.entryRecordedForMint s.mint a.signature

def settledAdd (a : SentAdd) : Bool := s.bookedAdd a || s.dead.contains a.signature

end AddDesk

inductive AddEvent where
  /-- `add_to_position` takes the lock and makes its first check. -/
  | call (origin : TradeOrigin)
  | read (now : ℤ)
  /-- No token, wallet or quote. -/
  | fail
  | swap (result : Except Swaps.Error String) (onChain : String)
      (expiryHeight : Option ℕ) (size : ℚ)
  | register
  | snapshot
  | write
  | lands (signature : String)
  | dies (signature : String)
  /-- A verified add, booked and its own row published. -/
  | book (d : Delivery)
  | publish (signature : String)
  | settle (item : VerificationItem) (verdict : SignatureVerdict)
  | clear (signature : String)
  | clearSnapshot (signature : String)
  | clearWrite (signature : String)
  /-- Any other verified swap. -/
  | deliver (d : Delivery)
  | adopt (positionId : ℤ)
  | opened (positionId : ℤ) (row : Position)
  | removed (positionId : ℤ)
  | restart

namespace AddDesk

/-- A swap of an admitted add, sent or not. -/
def swap (s : AddDesk) (origin : TradeOrigin) (positionId : ℤ) (sending : Sending)
    (expiryHeight : Option ℕ) (size : ℚ) : AddDesk :=
  match sending with
  | .notSent => { s with task := none }
  | .unresolved signature =>
    if s.fresh signature then
      { s with task := none, sent := s.sent ++ [⟨signature, positionId, origin⟩] }
    else s
  | .sent signature =>
    if s.fresh signature then
      { s with
        task := some ⟨origin, .sent ⟨signature, s.mint, positionId, expiryHeight, size⟩⟩
        sent := s.sent ++ [⟨signature, positionId, origin⟩] }
    else s

/-- Whether `d` is the verification of the add that `entry` marks. -/
def verifies (s : AddDesk) (d : Delivery) (entry : PendingDcaSwap) : Bool :=
  match d.transition with
  | .dcaVerified positionId fill _ signature _ =>
    positionId == entry.positionId && s.landed.contains signature &&
      (s.settling.lookup signature).isNone && decide (0 < fill.tokensBought) &&
      decide (0 < fill.nativeSpent)
  | _ => false

/-- The booking of a verified add; one that is refused is retried. -/
def bookAdd (s : AddDesk) (d : Delivery) (signature : String) : AddDesk :=
  match applyTransition s.store d.readings d.transition with
  | .error _ => s
  | .ok .skipped => { s with settling := s.settling.insert signature .published }
  | .ok (.written _ store late) =>
    { ({ s with store := store }.adopt d.transition.positionId) with
      settling := s.settling.insert signature (.booked (late.bind (·.handedTo))) }

def publish (s : AddDesk) (signature : String) : AddDesk :=
  match s.settling.lookup signature with
  | some (.booked handedTo) =>
    { (match handedTo with | some id => s.adopt id | none => s) with
      settling := s.settling.insert signature .published }
  | _ => s

def settle (s : AddDesk) (item : VerificationItem) (verdict : SignatureVerdict) : AddDesk :=
  if (s.adds.map.lookup item.signature).isSome && (s.settling.lookup item.signature).isNone &&
      s.truthful item verdict then
    match disposition item verdict none with
    | .apply (.dcaFailed _ signature _) =>
      { s with settling := s.settling.insert signature .published }
    | _ => s
  else s

/-- The marker leaves memory; without one there is nothing to save. -/
def clear (s : AddDesk) (signature : String) : AddDesk :=
  match s.settling.lookup signature with
  | some .published =>
    match s.adds.map.lookup signature with
    | none => { s with settling := s.settling.erase signature }
    | some _ =>
      { s with
        adds := s.adds.remove signature
        settling := s.settling.insert signature .cleared }
  | _ => s

/-- A row that describes nothing but an entry that never landed. -/
def unlanded (s : AddDesk) (positionId : ℤ) (row : Position) : Bool :=
  !row.transactionEntryVerified && !row.transactionExitVerified &&
    row.exitTransactionSignature.isNone && row.dcaCount == 0 && row.partialExitCount == 0 &&
    !(s.store.entries.any (·.positionId == positionId)) &&
    !(s.store.exits.any (·.positionId == positionId))

/-- Whether a new row may be inserted: a new id, and no other open row of the mint. -/
def opens (s : AddDesk) (positionId : ℤ) (row : Position) : Bool :=
  s.task.isNone && (s.store.rows.lookup positionId).isNone && row.mint == s.mint &&
    row.dcaCount == 0 && !(s.store.entries.any (·.positionId == positionId)) &&
    !(s.sent.any (·.positionId == positionId)) &&
    !((values s.store.rows).any fun other => other.mint == s.mint && other.exitTime.isNone)

def step (settings : DcaSettings) (s : AddDesk) : AddEvent → AddDesk
  | .call origin =>
    match s.task, s.refuseWhilePending origin with
    | none, .ok () => { s with task := some ⟨origin, .checked⟩ }
    | _, _ => s
  | .read now =>
    match s.task with
    | some ⟨origin, .checked⟩ =>
      match s.admitAdd settings origin now with
      | .ok positionId => { s with task := some ⟨origin, .admitted positionId⟩ }
      | .error _ => { s with task := none }
    | _ => s
  | .fail =>
    match s.task with
    | some ⟨_, .checked⟩ | some ⟨_, .admitted _⟩ => { s with task := none }
    | _ => s
  | .swap result onChain expiryHeight size =>
    match s.task with
    | some ⟨origin, .admitted positionId⟩ =>
      s.swap origin positionId (sending result onChain) expiryHeight size
    | _ => s
  | .register =>
    match s.task with
    | some ⟨origin, .sent entry⟩ =>
      { s with adds := s.adds.insert PendingDcaSwap.signature entry, task := some ⟨origin,
        .registered⟩ }
    | _ => s
  | .snapshot =>
    match s.task with
    | some ⟨origin, .registered⟩ => { s with task := some ⟨origin, .saving (values s.adds.map)⟩ }
    | _ => s
  | .write =>
    match s.task with
    | some ⟨_, .saving pending⟩ =>
        { s with adds := { s.adds with stored := pending }, task := none }
    | _ => s
  | .lands signature =>
    if s.sent.any (·.signature == signature) && !s.dead.contains signature then
      { s with landed := s.landed ++ [signature] }
    else s
  | .dies signature =>
    if s.sent.any (·.signature == signature) && !s.landed.contains signature then
      { s with dead := s.dead ++ [signature] }
    else s
  | .book d =>
    match d.transition.signature s.store with
    | none => s
    | some signature =>
      match s.adds.map.lookup signature with
      | none => s
      | some entry => if s.verifies d entry then s.bookAdd d signature else s
  | .publish signature => s.publish signature
  | .settle item verdict => s.settle item verdict
  | .clear signature => s.clear signature
  | .clearSnapshot signature =>
    match s.settling.lookup signature with
    | some .cleared =>
      { s with settling := s.settling.insert signature (.saving (values s.adds.map)) }
    | _ => s
  | .clearWrite signature =>
    match s.settling.lookup signature with
    | some (.saving pending) =>
      { s with
        adds := { s.adds with stored := pending }
        settling := s.settling.erase signature }
    | _ => s
  | .deliver d =>
    if d.transition.isDca || s.sent.any
      (fun a => some a.signature == d.transition.signature s.store) then s
    else { s with store := Positions.deliver s.store d }.adopt d.transition.positionId
  | .adopt positionId => s.adopt positionId
  | .opened positionId row =>
    if s.opens positionId row then
      { s with
        store := { s.store with rows := s.store.rows.insert positionId row }
        memory := s.memory.insert positionId row }
    else s
  | .removed positionId =>
    match s.store.rows.lookup positionId with
    | some row =>
      if s.task.isNone && s.unlanded positionId row &&
          !((values s.adds.map).any (·.positionId == positionId)) then
        { s with
          store := { s.store with rows := s.store.rows.erase positionId }
          memory := s.memory.erase positionId }
      else s
    | none => s
  | .restart =>
    { s with
      memory := s.store.rows
      adds := ⟨s.rehydrated, values s.rehydrated⟩
      task := none
      settling := ∅ }

def sendsAuto (s : AddDesk) : AddEvent → Bool
  | .swap result onChain _ _ =>
    match s.task with
    | some ⟨.auto, .admitted _⟩ =>
      match sending result onChain with
      | .sent signature | .unresolved signature => s.fresh signature
      | .notSent => false
    | _ => false
  | _ => false

/-- Whether the add landed on the position: as it is booked, or where it was sent for. -/
def landedOn (s : AddDesk) (positionId : ℤ) (a : SentAdd) : Bool :=
  s.landed.contains a.signature &&
    if s.bookedAdd a then s.store.entryRecordExists positionId a.signature
    else a.positionId == positionId

def autoLanded (s : AddDesk) (positionId : ℤ) : ℕ :=
  s.sent.countP fun a => a.origin == .auto && s.landedOn positionId a

/-- An automatic add is sent only when each earlier add is settled. -/
def Serial (settings : DcaSettings) (s : AddDesk) (events : List AddEvent) : Prop :=
  ∀ p ∈ visited (step settings) s events, p.1.sendsAuto p.2 = true →
    ∀ a ∈ p.1.sent, p.1.settledAdd a = true

/-- No position takes more automatic adds than the ladder has steps. -/
def Bounded (settings : DcaSettings) (s : AddDesk) (events : List AddEvent) : Prop :=
  ∀ before, before <+: events → ∀ positionId,
    (before.foldl (step settings) s).autoLanded positionId ≤ settings.levels

/-- The positions that an automatic add is on its way to. -/
def underWay (s : AddDesk) : List ℤ :=
  (match s.task with
    | some ⟨.auto, .admitted positionId⟩ => [positionId]
    | _ => []) ++
    (s.sent.filter fun a => a.origin == .auto && !s.settledAdd a).map (·.positionId)

/-- A fill that may reopen its position while an automatic add is on its way to another. -/
def mayReopenBeside (s : AddDesk) (d : Delivery) : Bool :=
  match s.store.rows.lookup d.transition.positionId with
  | some row => row.isClosed && !d.readings.otherSwapInFlight &&
      (s.store.openRoundBeside row.mint d.transition.positionId).isNone &&
      s.underWay.any (· != d.transition.positionId)
  | none => false

/-- The step keeps track of every add: no swap ends unresolved, a restart restores the marker of
each unsettled add, and no position reopens beside an automatic add. -/
def keepsTrack (s : AddDesk) : AddEvent → Bool
  | .swap result onChain _ _ =>
    match sending result onChain with
    | .unresolved _ => false
    | _ => true
  | .restart => s.sent.all fun a =>
      s.settledAdd a || (values s.rehydrated).any (·.signature == a.signature)
  | .book d | .deliver d => !s.mayReopenBeside d
  | _ => true

end AddDesk

end ScreenerBot.Positions
