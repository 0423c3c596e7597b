import ScreenerBot.Library.Json
import ScreenerBot.Library.Lists
import ScreenerBot.Rpc.Delivery

/-! What a swap asks a node, and what it is answered with. The settlement rule says what signature
statuses, the finalized tip and a transaction lookup prove about a submitted signature. -/
namespace ScreenerBot.Swaps

open Library Rpc

inductive ConfirmationStatus where
  | processed
  | confirmed
  | finalized
  deriving DecidableEq, Repr

/-- A signature's status; its error is kept as its text. -/
structure TransactionStatus where
  confirmations : Option ℕ
  err : Option String
  confirmationStatus : Option ConfirmationStatus
  deriving DecidableEq, Repr

/-- The level a status was seen at; a node that names none is read by its confirmations. -/
def TransactionStatus.level (status : TransactionStatus) : ConfirmationStatus :=
  match status.confirmationStatus, status.confirmations with
  | some level, _ => level
  | none, none => .finalized
  | none, some confirmations => if 0 < confirmations then .confirmed else .processed

/-- The finalized tip an expiry is judged against. -/
structure FinalizedTip where
  slot : ℕ
  blockHeight : ℕ
  deriving DecidableEq, Repr

/-- An executed transaction: the error in its metadata, where the node sent metadata. -/
structure ExecutedTransaction where
  statusMeta : Option (Option String)
  deriving DecidableEq, Repr

/-- A transaction with its serialized bytes. -/
structure VersionedTransaction where
  bytes : List ℕ
  signatures : List String
  deriving DecidableEq, Repr

structure TokenBalance where
  accountIndex : ℕ
  mint : String
  owner : Option String
  amount : String
  deriving DecidableEq, Repr

structure LoadedAddresses where
  writable : List String := []
  readonly : List String := []
  deriving DecidableEq, Repr

/-- What the simulated run of a transaction did; its error is kept as its text. -/
structure SimulationOutcome where
  err : Option String := none
  logs : List String := []
  unitsConsumed : Option ℕ := none
  innerInstructions : List Json := []
  fee : Option ℕ := none
  preBalances : Option (List ℕ) := none
  postBalances : Option (List ℕ) := none
  preTokenBalances : Option (List TokenBalance) := none
  postTokenBalances : Option (List TokenBalance) := none
  loadedAddresses : Option LoadedAddresses := none

namespace SimulationOutcome

def succeeded (outcome : SimulationOutcome) : Bool := outcome.err.isNone

def failureDetail (outcome : SimulationOutcome) : String := outcome.err.getD ""

end SimulationOutcome

structure TransactionMeta where
  err : Option String
  preBalances : List ℕ
  postBalances : List ℕ
  preTokenBalances : Option (List TokenBalance)
  postTokenBalances : Option (List TokenBalance)
  fee : ℕ
  innerInstructions : Option (List Json)

structure TransactionDetails where
  slot : ℕ
  message : Json
  statusMeta : Option TransactionMeta

structure Account where
  lamports : ℕ
  data : List ℕ
  deriving DecidableEq, Repr

/-- The calls a swap makes, each answered by some node or refused. -/
inductive NodeCall : Type → Type where
  /-- Whether the own RPC client serves an operation; the reason where it does not. -/
  | directNode (operation : String) : NodeCall (Except String Unit)
  | multipleAccounts (addresses : List String) : NodeCall (Except CallError (List (Option Account)))
  | rentMinimum (dataLen : ℕ) : NodeCall (Except CallError ℕ)
  | latestBlockhash : NodeCall (Except CallError (String × ℕ))
  | simulate (transaction : VersionedTransaction) : NodeCall (Except CallError SimulationOutcome)
  | send (transaction : VersionedTransaction) : NodeCall (Except CallError String)
  | signatureStatuses (signatures : List String) :
      NodeCall (Except CallError (ℕ × List (Option TransactionStatus)))
  | finalizedTip : NodeCall (Except CallError FinalizedTip)
  | transaction (signature : String) : NodeCall (Except CallError (Option ExecutedTransaction))
  | transactionDetails (signature : String) : NodeCall (Except CallError TransactionDetails)

/-- What the chain proves about one submitted signature. -/
inductive SignatureVerdict where
  | landed
  | failedOnChain
  | pending
  | notLanded
  deriving DecidableEq, Repr

/-- One signature to settle, with the bound after which it can no longer land. -/
structure SignatureCheck where
  signature : String
  expiryBound : Option ℕ
  deriving DecidableEq, Repr

/-- What a signature status alone decides. -/
inductive StatusRead where
  | decided (verdict : SignatureVerdict)
  /-- The status is null after the expiry: only the transaction lookup decides. -/
  | lookUpTransaction
  deriving DecidableEq, Repr

/-- The one rule for what a signature status proves. -/
def classifyStatus (status : Option TransactionStatus) (readSlot : ℕ) (expiryBound : Option ℕ)
    (tip : Option FinalizedTip) : StatusRead :=
  match status with
  | some status =>
    match status.level with
    | .processed => .decided .pending
    | .confirmed | .finalized =>
        if status.err.isSome then .decided .failedOnChain else .decided .landed
  | none =>
    match expiryBound, tip with
    | some bound, some tip =>
        -- a node behind the tip's slot may simply not have the block yet
        if bound < tip.blockHeight ∧ tip.slot ≤ readSlot then .lookUpTransaction
        else .decided .pending
    | _, _ => .decided .pending

/-- The outcome of a lookup for an expired, unseen signature. -/
inductive TransactionLookup where
  | missing
  | executed (error : Option String)
  | unreadable
  deriving DecidableEq, Repr

def TransactionLookup.verdict : TransactionLookup → SignatureVerdict
  | missing => .notLanded
  | executed (some _) => .failedOnChain
  | executed none => .landed
  | unreadable => .pending

def transactionLookup : Except CallError (Option ExecutedTransaction) → TransactionLookup
  | .ok none => .missing
  | .ok (some transaction) =>
    match transaction.statusMeta with
    | some err => .executed err
    | none => .unreadable
  | .error _ => .unreadable

/-- The most signatures one status request accepts. -/
def MAX_SIGNATURES_PER_STATUS_READ : ℕ := 256

/-- Reads the statuses chunk by chunk, each with the slot its node answered at. -/
def readStatuses : List (List String) →
    Attempt NodeCall String (List (ℕ × Option TransactionStatus))
  | [] => pure []
  | chunk :: rest => do
    let (readSlot, chunkStatuses) ← Attempt.performWith CallError.display (.signatureStatuses chunk)
    let statuses ← readStatuses rest
    return chunkStatuses.map (readSlot, ·) ++ statuses

def settleSignature (tip : Option FinalizedTip) (expiryBound : Option ℕ) (signature : String)
    (readSlot : ℕ) (status : Option TransactionStatus) : Program NodeCall SignatureVerdict :=
  match classifyStatus status readSlot expiryBound tip with
  | .decided verdict => pure verdict
  | .lookUpTransaction => do
    let found ← Program.perform (.transaction signature)
    return (transactionLookup found).verdict

def settleSignatures (tip : Option FinalizedTip) :
    List (Option ℕ × String × ℕ × Option TransactionStatus) →
      Program NodeCall (List SignatureVerdict)
  | [] => pure []
  | (expiryBound, signature, readSlot, status) :: rest => do
    let verdict ← settleSignature tip expiryBound signature readSlot status
    let verdicts ← settleSignatures tip rest
    return verdict :: verdicts

/-- Whether a status read leaves a signature with a bound undecided. -/
def needsTip (checks : List SignatureCheck) (statuses : List (ℕ × Option TransactionStatus)) :
    Bool :=
  (checks.zip statuses).any fun (check, _, status) => status.isNone && check.expiryBound.isSome

def readTip (needed : Bool) : Program NodeCall (Option FinalizedTip) :=
  if needed then do
    let tip ← Program.perform .finalizedTip
    return tip.toOption
  else pure none

variable (fromStr : String → Except String String)

def parseSignatures (checks : List SignatureCheck) : Except String (List String) :=
  checks.mapM fun check =>
    (fromStr check.signature).mapError (s!"invalid signature '{check.signature}': {·}")

def signatureVerdicts (checks : List SignatureCheck) :
    Attempt NodeCall String (List SignatureVerdict) := do
  if checks.isEmpty then return []
  let signatures ← ExceptT.mk (pure (parseSignatures fromStr checks))
  let statuses ← readStatuses (chunks MAX_SIGNATURES_PER_STATUS_READ signatures)
  if statuses.length ≠ checks.length then
    throw s!"{statuses.length} statuses returned for {checks.length} signatures"
  let tip ← ExceptT.lift (readTip (needsTip checks statuses))
  ExceptT.lift (settleSignatures tip
    ((checks.map (·.expiryBound)).zip (signatures.zip statuses)))

end ScreenerBot.Swaps
