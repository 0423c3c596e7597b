import Mathlib
import ScreenerBot.AgentControl.Store

/-!
The bridge: what a call of a paired connection, a decision of the dashboard and the sweep do, call
by call.
-/
namespace ScreenerBot.AgentControl
open Library

/-- What the bridge uses of the texts it stores: the canonical form of arguments and its digest, the
reading of stored arguments, and the redaction of results. -/
structure Codec where
  canonicalize : Json → String
  digestOf : String → List UInt8
  parse : String → Option Json
  sanitizeValue : Json → Json

abbrev Agent (α : Type) := Attempt AgentCall AgentError α

/-- Runs a call and keeps its failure as an answer. -/
def outcome {α : Type} (call : Agent α) : Agent (Except AgentError α) := ExceptT.lift call.run

structure ApprovalHandle where
  id : String
  state : ApprovalState
  expiresAt : ℤ
  result : Option Json
  created : Bool

/-- The row an executor needs after a successful claim. -/
structure ClaimedApproval where
  id : String
  clientId : String
  tool : String
  correlationId : String
  canonicalArgs : Json

section Approvals

/-- A row as its reader sees it, expired once its time is over. -/
def rowToHandle (row : ApprovalRow) (created : Bool) : Agent ApprovalHandle := do
  if row.state = .pending then
    let now ← Attempt.ask .nowUnix
    if row.expiresAt ≤ now then
      let resolved ← Attempt.ask .nowUnix
      let _ ← Attempt.perform (.expireApproval row.id resolved)
      return ⟨row.id, .expired, row.expiresAt, row.result, created⟩
  return ⟨row.id, row.state, row.expiresAt, row.result, created⟩

def createOrReuse (codec : Codec) (clientId tool : String) (args : Json) (correlationId : String) :
    Agent ApprovalHandle := do
  let canonical := codec.canonicalize args
  let binding : Binding := ⟨clientId, tool, codec.digestOf canonical⟩
  let now ← Attempt.ask .nowUnix
  let inserted ← Attempt.perform (.insertApproval binding canonical correlationId now)
  let row ← Attempt.perform (.approvalOfBinding binding)
  rowToHandle row (inserted == 1)

def approvalViewForClient (id clientId : String) : Agent ApprovalHandle := do
  match ← Attempt.perform (.approvalOfClient id clientId) with
  | none => throw .approvalNotFound
  | some row => rowToHandle row false

def deny (id : String) : Agent ApprovalRow := do
  let now ← Attempt.ask .nowUnix
  let changed ← Attempt.perform (.denyApproval id now)
  if changed = 0 then throw .approvalNotPending
  Attempt.perform (.approvalById id)

/-- Claims a pending approval before it expires and reads what it is for. -/
def claim (codec : Codec) (id : String) : Agent ClaimedApproval := do
  let now ← Attempt.ask .nowUnix
  let changed ← Attempt.perform (.claimApproval id now)
  if changed = 0 then throw .approvalNotPending
  let row ← Attempt.perform (.approvalById id)
  if codec.digestOf row.canonicalArgs ≠ row.binding.argsDigest then
    let now ← Attempt.ask .nowUnix
    let _ ← outcome (Attempt.perform (.failIntegrity id now))
    throw .approvalNotPending
  match codec.parse row.canonicalArgs with
  | some args => return ⟨id, row.binding.clientId, row.binding.tool, row.correlationId, args⟩
  | none =>
    let now ← Attempt.ask .nowUnix
    let _ ← outcome (Attempt.perform (.failUnreadable id now))
    throw (.database "stored canonical args are not valid JSON" false)

def markExecuting (id : String) : Agent Unit := do
  let changed ← Attempt.perform (.markExecuting id)
  if changed = 0 then throw .approvalNotPending

def closeExecuting (id : String) (state : ApprovalState) (stored : Json) : Agent Unit := do
  let now ← Attempt.ask .nowUnix
  let changed ← Attempt.perform (.closeExecuting id state stored now)
  if changed ≠ 1 then throw .approvalNotPending

def finishApproval (codec : Codec) (id : String) (ok : Bool) (result : Json) : Agent Unit :=
  closeExecuting id (if ok then .done else .failed) (codec.sanitizeValue result)

def interruptApprovalRow (id cause : String) (sendsTransaction : Bool) : Agent Unit :=
  closeExecuting id .interrupted (interruptedResult cause sendsTransaction)

end Approvals

section Submissions

structure SubmissionHandle where
  tradeId : String
  tool : String
  state : SubmissionState
  submittedAt : ℤ
  finishedAt : Option ℤ
  result : Option Json
  created : Bool

def handleFromRow (row : SubmissionRow) (created : Bool) : SubmissionHandle :=
  ⟨row.id, row.binding.tool, row.state, row.createdAt, row.finishedAt, row.result, created⟩

def submitOrReuse (codec : Codec) (clientId tool : String) (args : Json) (correlationId : String) :
    Agent SubmissionHandle := do
  let now ← Attempt.ask .nowUnix
  let (row, created) ← Attempt.perform
    (.submitOrReuse ⟨clientId, tool, codec.digestOf (codec.canonicalize args)⟩ correlationId now)
  return handleFromRow row created

/-- Whether a running submission was closed. -/
def closeRunning (tradeId : String) (state : SubmissionState) (stored : Json) : Agent Bool := do
  let now ← Attempt.ask .nowUnix
  let changed ← Attempt.perform (.closeRunning tradeId state stored now)
  return changed == 1

def finishSubmission (codec : Codec) (tradeId : String) (ok : Bool) (result : Json) : Agent Bool :=
  closeRunning tradeId (if ok then .done else .failed) (codec.sanitizeValue result)

def interruptSubmissionRow (tradeId cause : String) : Agent Bool :=
  closeRunning tradeId .interrupted (interruptedResult cause true)

def submissionViewForClient (tradeId clientId : String) : Agent (Option SubmissionHandle) := do
  let row ← Attempt.perform (.submissionOfClient tradeId clientId)
  return row.map fun row => handleFromRow row false

end Submissions

/-- How many times an outcome write is tried against a busy store. -/
def outcomeWriteAttempts : ℕ := 5

/-- An outcome write, tried again while the store is busy, for so many more attempts. -/
def retryWrite {α : Type} (write : Agent α) : ℕ → Agent α
  | 0 => write
  | attempts + 1 => do
    match ← outcome write with
    | .ok a => return a
    | .error e => if e.isRetryable then retryWrite write attempts else throw e

def writeOutcome {α : Type} (write : Agent α) : Agent α :=
  retryWrite write (outcomeWriteAttempts - 1)

/-- Closes a submission that ended without a stored answer; the state it was left in, as the audit
log names it. -/
def interruptSubmission (tradeId cause : String) : Agent String := do
  match ← outcome (writeOutcome (interruptSubmissionRow tradeId cause)) with
  | .ok true => return "interrupted"
  | _ => return "outcome_unstored"

def settleSubmission (tradeId : String) (ok : Bool) : Except AgentError Bool → Agent String
  | .ok true => return if ok then "done" else "failed"
  | .ok false => return "interrupted"
  | .error _ => interruptSubmission tradeId outcomeNotStored

/-- Runs a submitted trade on a task of its own and stores its outcome. -/
def runSubmitted (codec : Codec) (tradeId tool : String) (args : Json) : Agent String := do
  let run : RunId := .submission tradeId
  Attempt.ask (.startTool run tool args)
  match ← Attempt.ask (.awaitTool run) with
  | some result =>
    let stored ← outcome
      (writeOutcome (finishSubmission codec tradeId result.success result.toJson))
    settleSubmission tradeId result.success stored
  | none => interruptSubmission tradeId taskEndedCause

/-- The state an approval without a stored answer was left in, as the audit log names it, and what
the run answers. -/
def interruptApproval (id cause : String) (sendsTransaction : Bool) :
    Agent (String × Except AgentError Unit) := do
  match ← outcome (writeOutcome (interruptApprovalRow id cause sendsTransaction)) with
  | .ok () => return ("interrupted", .ok ())
  | .error e => return ("outcome_unstored", .error e)

def settleApproval (id : String) (ok : Bool) (sendsTransaction : Bool) :
    Except AgentError Unit → Agent (String × Except AgentError Unit)
  | .ok () => return (if ok then "done" else "failed", .ok ())
  | .error .approvalNotPending => return ("outcome_unstored", .error .approvalNotPending)
  | .error e => do
    let (state, interrupted) ← interruptApproval id outcomeNotStored sendsTransaction
    return (state, interrupted.bind fun _ => .error e)

/-- A claimed approval that passed its re-checks. -/
structure ApprovedRun where
  approvalId : String
  toolName : String
  tool : Tool
  arguments : Json

/-- Marks the request executing, runs its tool on a task of its own and stores the outcome. -/
def ApprovedRun.run (codec : Codec) (approved : ApprovedRun) : Agent Unit := do
  writeOutcome (AgentControl.markExecuting approved.approvalId)
  let run : RunId := .approval approved.approvalId
  let sends := approved.tool.sendsTransaction
  Attempt.ask (.startTool run approved.toolName approved.arguments)
  let (_, answer) ← match ← Attempt.ask (.awaitTool run) with
    | some result => do
      let stored ← outcome (writeOutcome
        (finishApproval codec approved.approvalId result.success result.toJson))
      settleApproval approved.approvalId result.success sends stored
    | none => interruptApproval approved.approvalId taskEndedCause sends
  match answer with
  | .ok () => return
  | .error e => throw e

/-- A request that a re-check refused: it is closed as failed without its tool having run. -/
def failApproved (codec : Codec) (id detail : String) : Agent (Option ApprovedRun) := do
  let _ ← outcome (markExecuting id)
  let _ ← outcome (finishApproval codec id false (failure detail))
  return none

section Calls

variable (codec : Codec) (registry : ToolRegistry) (inApp : ToolPermissions)

/-- Claims a request the dashboard approved and checks it against the policy of the moment. -/
def startApproved (id : String) : Agent (Option ApprovedRun) := do
  let claimed ← claim codec id
  if !(← Attempt.ask .enabled) then
    return ← failApproved codec id "agent control was disabled before this request could run"
  match ← Attempt.perform (.activePermissions claimed.clientId) with
  | none => failApproved codec id "the paired client was revoked before this request could run"
  | some permissions =>
    match registry.get claimed.tool with
    | none => failApproved codec id "the requested tool is no longer available"
    | some tool =>
      if tool.definition.decide inApp (.mcp permissions) = .deny then
        failApproved codec id "policy denies this tool for the paired client"
      else if !(← Attempt.ask .beginTool) then
        failApproved codec id "an application update is restarting the tool runtime"
      else
        return some ⟨id, claimed.tool, tool, claimed.canonicalArgs⟩

/-- Approves a pending request and runs it. -/
def approve (id : String) : Agent Unit := do
  match ← startApproved codec registry inApp id with
  | some approved => approved.run codec
  | none => return

inductive CallOutcome
  | executed (result : ToolResult)
  | submitted (tradeId : String) (state : SubmissionState) (reused : Bool) (result : Option Json)
  | denied (reason : String)
  | approvalRequired (approvalId : String) (expiresAt : ℤ)
  | approvalDenied
  | approvalExpired
  | interrupted (result : Option Json)
  | unknownTool

def verify (clientId secret : String) : Agent AuthedClient := do
  if !(← Attempt.ask .enabled) then throw .disabled
  Attempt.perform (.authenticate clientId secret)

/-- Records a trade and runs it, or answers with the one an identical call recorded. -/
def submit (clientId : String) (tool : Tool) (args : Json) (correlationId : String) :
    Agent CallOutcome := do
  let name := tool.definition.name
  let handle ← submitOrReuse codec clientId name args correlationId
  if !handle.created then
    return .submitted handle.tradeId handle.state true handle.result
  -- the answer goes out before the trade ends; here it is what the whole run comes to
  let _ ← runSubmitted codec handle.tradeId name args
  return .submitted handle.tradeId handle.state false none

/-- What an approval that stands in a state answers. -/
def CallOutcome.ofHandle (handle : ApprovalHandle) : CallOutcome :=
  match handle.state with
  | .done | .failed =>
    .executed ((handle.result.bind ToolResult.fromJson).getD
      (.failure "approved request completed; result unavailable"))
  | .interrupted => .interrupted handle.result
  | .denied => .approvalDenied
  | .expired => .approvalExpired
  | .pending | .claimed | .executing => .approvalRequired handle.id handle.expiresAt

def tradeStatusTool : String := "get_trade_status"

/-- The one argument of `get_trade_status`. -/
def tradeStatusParams : Json → Option String
  | .obj [("trade_id", .str tradeId)] => some tradeId
  | .arr [.str tradeId] => some tradeId
  | _ => none

def SubmissionState.asStr : SubmissionState → String
  | .submitted => "submitted"
  | .done => "done"
  | .failed => "failed"
  | .interrupted => "interrupted"

def SubmissionHandle.toJson (handle : SubmissionHandle) : Json :=
  .obj ([("trade_id", .str handle.tradeId), ("tool", .str handle.tool),
    ("state", .str handle.state.asStr), ("submitted_at", .int handle.submittedAt)] ++
    (handle.finishedAt.map fun time => ("finished_at", Json.int time)).toList ++
    (handle.result.map fun result => ("result", result)).toList)

/-- The live state of a trade that the connection submitted. -/
def tradeStatus (clientId : String) (args : Json) : Agent ToolResult := do
  match tradeStatusParams args with
  | none => return .failure "Invalid parameters"
  | some tradeId =>
    match ← outcome (submissionViewForClient tradeId clientId) with
    | .ok (some handle) => return ⟨true, some handle.toJson, none⟩
    | .ok none =>
      return .failure ("No trade " ++ tradeId ++
        " of this connection is retained. Read get_positions " ++
        "for its outcome.")
    | .error _ => return .failure "The trade status read did not complete."

/-- Runs a tool for a connection, denies it, or parks the call for an approval. -/
def callTool (clientId secret name : String) (args : Json) (correlationId : String) :
    Agent CallOutcome := do
  if name = tradeStatusTool then
    let client ← verify clientId secret
    return .executed (← tradeStatus client.clientId args)
  let client ← verify clientId secret
  match registry.get name with
  | none => return .unknownTool
  | some tool =>
    match tool.definition.decide inApp (.mcp client.permissions) with
    | .deny => return .denied "This paired client is not authorized for this tool."
    | .execute =>
      if !(← Attempt.ask .beginTool) then
        return .executed (.failure "An application update is restarting the tool runtime.")
      if tool.sendsTransaction then
        submit codec client.clientId tool args correlationId
      else
        return .executed (← Attempt.ask (.execute name args))
    | .requireApproval =>
      return .ofHandle (← createOrReuse codec client.clientId name args correlationId)

def approvalStatus (clientId secret approvalId : String) : Agent ApprovalHandle := do
  let client ← verify clientId secret
  approvalViewForClient approvalId client.clientId

def denyApproval (id : String) : Agent Unit := do
  let _ ← deny id

/-- The periodic sweep. -/
def sweep : Agent Unit := do
  let now ← Attempt.ask .nowUnix
  let _ ← Attempt.perform (.expireOverdue now)
  let now ← Attempt.ask .nowUnix
  Attempt.perform (.pruneSubmissions now)

/-- A program whose answer goes elsewhere. -/
def discard {α : Type} (program : Agent α) : Program AgentCall Unit := do
  let _ ← program.run

/-- What runs over the store: the calls of connections, the decisions of the dashboard and the
sweep. -/
inductive Spawned : Program AgentCall Unit → Prop
  | callTool (clientId secret name : String) (args : Json) (correlationId : String) :
      Spawned (discard (callTool codec registry inApp clientId secret name args correlationId))
  | approvalStatus (clientId secret approvalId : String) :
      Spawned (discard (approvalStatus clientId secret approvalId))
  | approve (id : String) : Spawned (discard (approve codec registry inApp id))
  | denyApproval (id : String) : Spawned (discard (denyApproval id))
  | sweep : Spawned (discard sweep)

/-- The bridge over its store, from an empty one on. -/
def bridge : System AgentCall AgentState where
  starts s := s = .empty
  answers := AgentState.answers
  restarts := AgentState.restarts registry
  spawns := Spawned codec registry inApp

end Calls
end ScreenerBot.AgentControl
