import ScreenerBot.Swaps.Settlement

/-! The gate before a send, the send, and the settle loop that follows it. -/
namespace ScreenerBot.Swaps

open Library Rpc

/-- The most bytes one packet carries. -/
def PACKET_DATA_SIZE : ℕ := 1232

def SIGNATURE_BYTES : ℕ := 64

inductive WireFormat where
  | legacy
  | v0
  deriving DecidableEq, Repr

def WireFormat.sizeLimit : WireFormat → ℕ
  | legacy | v0 => PACKET_DATA_SIZE

structure Measured where
  format : WireFormat
  bytes : ℕ
  limit : ℕ
  deriving DecidableEq, Repr

/-- A compact length prefix of up to three bytes: the value, and how many bytes it took. -/
def shortVecLen (bytes : List ℕ) : Option (ℕ × ℕ) :=
  go 0 0 (bytes.take 3)
where
  go (value index : ℕ) : List ℕ → Option (ℕ × ℕ)
    | [] => none
    | byte :: rest =>
      let value := value + byte % 128 * 2 ^ (7 * index)
      if byte < 128 then some (value, index + 1) else go value (index + 1) rest

/-- The message format, read off the prefix byte that follows the signatures. -/
def wireFormat (bytes : List ℕ) : Except NotSubmittedReason WireFormat :=
  let truncated := NotSubmittedReason.buildUnusable "the transaction bytes end before its message"
  match shortVecLen bytes with
  | none => .error truncated
  | some (signatures, prefixLen) =>
    match bytes[signatures * SIGNATURE_BYTES + prefixLen]? with
    | none => .error truncated
    | some byte =>
      if byte < 128 then .ok .legacy
      else if byte % 128 = 0 then .ok .v0
      else .error (.unsupportedFormat (byte % 128))

/-- Measure serialized transaction bytes against their format's limit. -/
def measure (bytes : List ℕ) : Except NotSubmittedReason Measured := do
  let format ← wireFormat bytes
  if format.sizeLimit < bytes.length then
    throw (.transactionTooLarge bytes.length format.sizeLimit)
  return ⟨format, bytes.length, format.sizeLimit⟩

def measureTransaction (transaction : VersionedTransaction) : Except NotSubmittedReason Measured :=
  measure transaction.bytes

/-- What the gate concluded about a transaction before it was sent. -/
inductive Verdict where
  | cleared (outcome : SimulationOutcome)
  | failed (outcome : SimulationOutcome)
  | refused (reason : NotSubmittedReason)
  | nodeUnavailable (detail : String)

/-- The verdict a simulation result amounts to. -/
def simulationVerdict : Except CallError SimulationOutcome → Verdict
  | .ok outcome => if outcome.succeeded then .cleared outcome else .failed outcome
  | .error error =>
    match error with
    | .rpc rejection =>
        if rejection.isRequestRejection then .refused (.requestRejected rejection.display)
        else .nodeUnavailable error.display
    | _ => .nodeUnavailable error.display

/-- Measure a transaction, then simulate it. -/
def gate (transaction : VersionedTransaction) : Program NodeCall Verdict :=
  match measureTransaction transaction with
  | .error reason => pure (.refused reason)
  | .ok _ => simulationVerdict <$> Program.perform (.simulate transaction)

/-- What became of a transaction that was handed to a node. -/
inductive Settled where
  | landed
  | reverted (detail : String)
  | expired (lastValidBlockHeight currentBlockHeight : ℕ)
  | unsettled (waitedMs : ℕ)
  deriving DecidableEq, Repr

/-- One signature's status, with the slot the node answered at. -/
def status (signature : String) :
    Program NodeCall (Except CallError (ℕ × Option TransactionStatus)) := do
  let read ← Program.perform (.signatureStatuses [signature])
  return read.map fun (slot, statuses) => (slot, statuses.head?.join)

/-- Read the signature once and decide it by the settlement rule; `none` while it is pending. -/
def poll (signature : String) (lastValidBlockHeight : Option ℕ) (tip : Option FinalizedTip) :
    Program NodeCall (Option Settled) := do
  match ← status signature with
  -- an unreadable node is not evidence that the swap failed
  | .error _ => return none
  | .ok (readSlot, status) =>
    match classifyStatus status readSlot lastValidBlockHeight tip with
    | .decided .landed => return some .landed
    | .decided .failedOnChain => return some (.reverted ((status.bind (·.err)).getD ""))
    | .decided .pending | .decided .notLanded => return none
    | .lookUpTransaction =>
      match transactionLookup (← Program.perform (.transaction signature)) with
      | .executed none => return some .landed
      | .executed (some error) => return some (.reverted error)
      | .unreadable => return none
      | .missing =>
        match lastValidBlockHeight, tip with
        | some lastValidBlockHeight, some tip =>
            return some (.expired lastValidBlockHeight tip.blockHeight)
        | _, _ => return none

/-- What the clock reads after a poll that decided nothing, inside the deadline. -/
structure Round where
  rebroadcastDue : Bool
  tipDue : Bool
  deriving DecidableEq, Repr

/-- The same signed transaction sent again; its answer is only logged. -/
def rebroadcast (transaction : VersionedTransaction) (due : Bool) : Program NodeCall Unit :=
  if due then do
    let _ ← Program.perform (.send transaction)
    return ()
  else pure ()

/-- The finalized tip, read again when it is due; a failed read keeps the last one. -/
def refreshTip (due : Bool) (tip : Option FinalizedTip) : Program NodeCall (Option FinalizedTip) :=
  if due then do
    match ← Program.perform .finalizedTip with
    | .ok read => return some read
    | .error _ => return tip
  else pure tip

/-- Poll for a landed signature, re-broadcasting the same signed transaction, until it lands, fails,
provably expires, or the rounds before the deadline run out. -/
def settle (transaction : VersionedTransaction) (signature : String)
    (lastValidBlockHeight : Option ℕ) (timeoutMs : ℕ) :
    List Round → Option FinalizedTip → Program NodeCall Settled
  | [], tip => do
    match ← poll signature lastValidBlockHeight tip with
    | some settled => return settled
    | none => return .unsettled timeoutMs
  | round :: rounds, tip => do
    match ← poll signature lastValidBlockHeight tip with
    | some settled => return settled
    | none =>
      rebroadcast transaction round.rebroadcastDue
      let tip ← refreshTip (lastValidBlockHeight.isSome && round.tipDue) tip
      settle transaction signature lastValidBlockHeight timeoutMs rounds tip

/-- Send a signed transaction and settle it. An error means that it provably never reached a
node. -/
def sendAndSettle (transaction : VersionedTransaction) (lastValidBlockHeight : Option ℕ)
    (timeoutMs : ℕ) (rounds : List Round) :
    Attempt NodeCall NotSubmittedReason (String × Settled) := do
  let _ ← ExceptT.mk (pure (measureTransaction transaction))
  match transaction.signatures.head? with
  | none => throw (.buildUnusable "the transaction carries no signature")
  | some signature =>
    match ← Attempt.ask (.send transaction) with
    | .error error =>
      match sendFailure error with
      | .notSent reason => throw reason
      | .unproven _ =>
        let settled ← ExceptT.lift
          (settle transaction signature lastValidBlockHeight timeoutMs rounds none)
        return (signature, settled)
    | .ok _ =>
      let settled ← ExceptT.lift
        (settle transaction signature lastValidBlockHeight timeoutMs rounds none)
      return (signature, settled)

end ScreenerBot.Swaps
