import Mathlib
import ScreenerBot.AgentControl.Policy
import ScreenerBot.Library.Sorting
import ScreenerBot.Library.Typestate

/-!
The agent-control store: approvals and submitted trades, each statement on their tables, and what
the world around the bridge answers.
-/
namespace ScreenerBot.AgentControl
open Library

inductive ApprovalState
  | pending | claimed | executing | done | failed | interrupted | denied | expired
  deriving DecidableEq, Repr

inductive SubmissionState
  | submitted | done | failed | interrupted
  deriving DecidableEq, Repr

/-- Whose call a request is: a connection, a tool and the digest of its canonical arguments. -/
structure Binding where
  clientId : String
  tool : String
  argsDigest : List UInt8
  deriving DecidableEq

structure ApprovalRow where
  id : String
  binding : Binding
  canonicalArgs : String
  correlationId : String
  state : ApprovalState
  createdAt : ℤ
  expiresAt : ℤ
  resolvedAt : Option ℤ
  decidedBy : Option String
  result : Option Json

structure SubmissionRow where
  id : String
  binding : Binding
  correlationId : String
  state : SubmissionState
  createdAt : ℤ
  finishedAt : Option ℤ
  result : Option Json

inductive AgentError
  | pairingRejected | disabled | approvalNotPending | approvalNotFound
  | database (detail : String) (retryable : Bool)
  | taskEnded (operation detail : String)
  deriving DecidableEq, Repr

def AgentError.isRetryable : AgentError → Bool
  | .database _ retryable => retryable
  | _ => false

/-- Seconds a pending approval stays actionable. -/
def approvalTtl : ℤ := 5 * 60

/-- Seconds an identical call returns a submitted trade instead of trading again. -/
def reuseWindow : ℤ := 10 * 60

def retentionSecs : ℤ := 24 * 60 * 60

def maxRows : ℕ := 1000

def stoppedWhileRunning : String := "the app stopped while this ran"

def taskEndedCause : String := "the task running this ended without an answer"

def outcomeNotStored : String := "this finished but its outcome could not be stored"

/-- The stored answer of a request that ended without one. -/
def interruptedResult (cause : String) (sendsTransaction : Bool) : Json :=
  let consequence :=
    if sendsTransaction then
      "its swap may have been sent, so read the positions before trading again"
    else "it may have taken effect, so read the current state before repeating it"
  .obj [("success", .bool false), ("error", .str (cause ++ "; " ++ consequence))]

def failure (detail : String) : Json := .obj [("success", .bool false), ("error", .str detail)]

/-- What a running tool runs for: a call answered at once, an approved request or a submitted
trade. -/
inductive RunId
  | call
  | approval (id : String)
  | submission (id : String)
  deriving DecidableEq, Repr

structure Start where
  run : RunId
  tool : String
  args : Json

/-- The two tables, and what has happened outside them. -/
structure AgentState where
  approvals : List ApprovalRow
  submissions : List SubmissionRow
  /-- The approvals claimed so far, each with the clock its claim read. -/
  claims : List (String × ℤ)
  /-- The submissions recorded so far, as they were recorded. -/
  submitted : List SubmissionRow
  /-- The clock readings of the prunes so far. -/
  prunes : List ℤ
  running : List RunId
  started : List Start

namespace AgentState

def empty : AgentState := ⟨[], [], [], [], [], [], []⟩

/-- `UPDATE approvals SET .. WHERE ..`, with the number of rows changed. -/
def updateApprovals (guard : ApprovalRow → Bool) (f : ApprovalRow → ApprovalRow) (s : AgentState) :
    ℕ × AgentState :=
  (s.approvals.countP guard,
    { s with approvals := s.approvals.map fun row => if guard row then f row else row })

def updateSubmissions (guard : SubmissionRow → Bool) (f : SubmissionRow → SubmissionRow)
    (s : AgentState) : ℕ × AgentState :=
  (s.submissions.countP guard,
    { s with submissions := s.submissions.map fun row => if guard row then f row else row })

/-- `INSERT .. ON CONFLICT(client_id, tool, args_digest) DO NOTHING`. -/
def insertApproval (row : ApprovalRow) (s : AgentState) : ℕ × AgentState :=
  if s.approvals.any fun other => other.binding = row.binding then (0, s)
  else (1, { s with approvals := s.approvals ++ [row] })

def expireApproval (id : String) (now : ℤ) : AgentState → ℕ × AgentState :=
  updateApprovals (fun row => row.id = id && row.state = .pending) fun row =>
    { row with state := .expired, resolvedAt := some now }

def expireOverdue (now : ℤ) : AgentState → ℕ × AgentState :=
  updateApprovals (fun row => row.state = .pending && row.expiresAt ≤ now) fun row =>
    { row with state := .expired, resolvedAt := some now }

def denyApproval (id : String) (now : ℤ) : AgentState → ℕ × AgentState :=
  updateApprovals (fun row => row.id = id && row.state = .pending) fun row =>
    { row with state := .denied, resolvedAt := some now, decidedBy := some "dashboard" }

/-- A claim is remembered with the clock it read. -/
def claimApproval (id : String) (now : ℤ) (s : AgentState) : ℕ × AgentState :=
  let (changed, s') := updateApprovals
    (fun row => row.id = id && row.state = .pending && row.expiresAt > now)
    (fun row => { row with
      state := .claimed, resolvedAt := some now, decidedBy := some "dashboard" }) s
  (changed, if changed = 0 then s' else { s' with claims := s'.claims ++ [(id, now)] })

/-- Fails a request whose arguments do not match their digest, in whatever state its row is. -/
def failIntegrity (id : String) (now : ℤ) : AgentState → ℕ × AgentState :=
  updateApprovals (fun row => row.id = id) fun row =>
    { row with state := .failed, resolvedAt := some now,
               result := some (failure "argument integrity check failed") }

def failUnreadable (id : String) (now : ℤ) : AgentState → ℕ × AgentState :=
  updateApprovals (fun row => row.id = id && row.state = .claimed) fun row =>
    { row with state := .failed, resolvedAt := some now,
               result := some (failure "stored canonical args are not valid JSON") }

def markExecuting (id : String) : AgentState → ℕ × AgentState :=
  updateApprovals (fun row => row.id = id && row.state = .claimed) fun row =>
    { row with state := .executing }

def closeExecuting (id : String) (state : ApprovalState) (stored : Json) (now : ℤ) :
    AgentState → ℕ × AgentState :=
  updateApprovals (fun row => row.id = id && row.state = .executing) fun row =>
    { row with state := state, result := some stored, resolvedAt := some now }

def closeRunning (id : String) (state : SubmissionState) (stored : Json) (now : ℤ) :
    AgentState → ℕ × AgentState :=
  updateSubmissions (fun row => row.id = id && row.state = .submitted) fun row =>
    { row with state := state, result := some stored, finishedAt := some now }

/-- Finished submissions past the retention window go, then those past the reuse window that the cap
leaves no room for, oldest first. The two deletes, which the sweep commits one after the other, are
one step here. -/
def pruneRows (now : ℤ) (rows : List SubmissionRow) : List SubmissionRow :=
  let retained := rows.filter fun row =>
    row.state = .submitted || row.createdAt ≥ now - retentionSecs
  let newestFirst := sortBy (fun row => OrderDual.toDual row.createdAt) retained.reverse
  let beyond := (newestFirst.drop maxRows).map SubmissionRow.id
  retained.filter fun row =>
    row.state = .submitted || row.createdAt > now - reuseWindow || row.id ∉ beyond

def prune (now : ℤ) (s : AgentState) : AgentState :=
  { s with submissions := pruneRows now s.submissions, prunes := s.prunes ++ [now] }

/-- The rows that answer an identical call. -/
def reusable (binding : Binding) (now : ℤ) (s : AgentState) : List SubmissionRow :=
  s.submissions.filter fun row =>
    row.binding = binding && (row.state = .submitted || row.createdAt > now - reuseWindow)

/-- Records a submission and prunes, in one transaction. -/
def recordSubmission (row : SubmissionRow) (pruneNow : ℤ) (s : AgentState) : AgentState :=
  prune pruneNow
    { s with submissions := s.submissions ++ [row], submitted := s.submitted ++ [row] }

/-- What the recovery at startup makes of an approval. -/
def recoverApproval (registry : ToolRegistry) (now : ℤ) (row : ApprovalRow) : ApprovalRow :=
  match row.state with
  | .executing =>
    let sends := (registry.get row.binding.tool).any Tool.sendsTransaction
    { row with state := .interrupted, resolvedAt := some now,
               result := some (interruptedResult stoppedWhileRunning sends) }
  | .claimed =>
    { row with state := .failed, resolvedAt := some now,
               result := some (failure
                 "the app stopped before this request ran; it did not run and is not retried") }
  | .pending =>
    if row.expiresAt ≤ now then { row with state := .expired, resolvedAt := some now } else row
  | _ => row

def recoverSubmission (now : ℤ) (row : SubmissionRow) : SubmissionRow :=
  if row.state = .submitted then
    { row with state := .interrupted, finishedAt := some now,
               result := some (interruptedResult stoppedWhileRunning true) }
  else row

end AgentState

/-- What the bridge knows of an authenticated connection. -/
structure AuthedClient where
  clientId : String
  label : String
  permissions : ToolPermissions

/-- The calls of the bridge: the clock, the switch, the pairings, the statements on the store, and
the tools. -/
inductive AgentCall : Type → Type
  | nowUnix : AgentCall ℤ
  | enabled : AgentCall Bool
  | authenticate (clientId secret : String) : AgentCall (Except AgentError AuthedClient)
  | activePermissions (clientId : String) : AgentCall (Except AgentError (Option ToolPermissions))
  /-- Whether the tool runtime is open. -/
  | beginTool : AgentCall Bool
  | insertApproval (binding : Binding) (canonicalArgs correlationId : String) (now : ℤ) :
      AgentCall (Except AgentError ℕ)
  | approvalOfBinding (binding : Binding) : AgentCall (Except AgentError ApprovalRow)
  | approvalOfClient (id clientId : String) : AgentCall (Except AgentError (Option ApprovalRow))
  | approvalById (id : String) : AgentCall (Except AgentError ApprovalRow)
  | expireApproval (id : String) (now : ℤ) : AgentCall (Except AgentError ℕ)
  | expireOverdue (now : ℤ) : AgentCall (Except AgentError ℕ)
  | denyApproval (id : String) (now : ℤ) : AgentCall (Except AgentError ℕ)
  | claimApproval (id : String) (now : ℤ) : AgentCall (Except AgentError ℕ)
  | failIntegrity (id : String) (now : ℤ) : AgentCall (Except AgentError ℕ)
  | failUnreadable (id : String) (now : ℤ) : AgentCall (Except AgentError ℕ)
  | markExecuting (id : String) : AgentCall (Except AgentError ℕ)
  | closeExecuting (id : String) (state : ApprovalState) (stored : Json) (now : ℤ) :
      AgentCall (Except AgentError ℕ)
  /-- The transaction of a submission: the row, and whether this call recorded it. -/
  | submitOrReuse (binding : Binding) (correlationId : String) (now : ℤ) :
      AgentCall (Except AgentError (SubmissionRow × Bool))
  | closeRunning (id : String) (state : SubmissionState) (stored : Json) (now : ℤ) :
      AgentCall (Except AgentError ℕ)
  | submissionOfClient (id clientId : String) : AgentCall (Except AgentError (Option SubmissionRow))
  | pruneSubmissions (now : ℤ) : AgentCall (Except AgentError Unit)
  /-- A tool run within the call that asked for it. -/
  | execute (tool : String) (args : Json) : AgentCall ToolResult
  /-- A tool started on a task of its own. -/
  | startTool (run : RunId) (tool : String) (args : Json) : AgentCall Unit
  /-- The result of that task, `none` when it ended without one. -/
  | awaitTool (run : RunId) : AgentCall (Option ToolResult)

/-- A statement either takes effect or fails and leaves the store as it was. -/
def Answered {α : Type} (statement : AgentState → α × AgentState) (s : AgentState)
    (r : Except AgentError α) (s' : AgentState) : Prop :=
  (r = .ok (statement s).1 ∧ s' = (statement s).2) ∨ ∃ e, r = .error e ∧ s' = s

/-- A read that a row of the table answers, or that fails. -/
def Found {α : Type} (P : α → Prop) (r : Except AgentError α) : Prop := ∀ a, r = .ok a → P a

/-- What the store and the tools answer. A new row has an id of its own among the ids so far. -/
def AgentState.answers (s : AgentState) : {β : Type} → AgentCall β → β → AgentState → Prop
  | _, .insertApproval binding canonicalArgs correlationId now, r, s' =>
    (∃ id, id ∉ s.approvals.map ApprovalRow.id ∧ Answered (AgentState.insertApproval
      ⟨id, binding, canonicalArgs, correlationId, .pending, now, now + approvalTtl, none,
        none, none⟩)
      s r s') ∨ ∃ e, r = .error e ∧ s' = s
  | _, .approvalOfBinding binding, r, s' =>
    s' = s ∧ Found (fun row => row ∈ s.approvals ∧ row.binding = binding) r
  | _, .approvalOfClient id clientId, r, s' =>
    s' = s ∧ Found (fun found => ∀ row, found = some row →
      row ∈ s.approvals ∧ row.id = id ∧ row.binding.clientId = clientId) r
  | _, .approvalById id, r, s' => s' = s ∧ Found (fun row => row ∈ s.approvals ∧ row.id = id) r
  | _, .expireApproval id now, r, s' => Answered (AgentState.expireApproval id now) s r s'
  | _, .expireOverdue now, r, s' => Answered (AgentState.expireOverdue now) s r s'
  | _, .denyApproval id now, r, s' => Answered (AgentState.denyApproval id now) s r s'
  | _, .claimApproval id now, r, s' => Answered (AgentState.claimApproval id now) s r s'
  | _, .failIntegrity id now, r, s' => Answered (AgentState.failIntegrity id now) s r s'
  | _, .failUnreadable id now, r, s' => Answered (AgentState.failUnreadable id now) s r s'
  | _, .markExecuting id, r, s' => Answered (AgentState.markExecuting id) s r s'
  | _, .closeExecuting id state stored now, r, s' =>
    Answered (AgentState.closeExecuting id state stored now) s r s'
  | _, .submitOrReuse binding correlationId now, r, s' =>
    (∃ row ∈ s.reusable binding now,
      (∀ other ∈ s.reusable binding now, other.createdAt ≤ row.createdAt) ∧
      r = .ok (row, false) ∧ s' = s) ∨
    (∃ id pruneNow, s.reusable binding now = [] ∧ id ∉ s.submitted.map SubmissionRow.id ∧
      r = .ok (⟨id, binding, correlationId, .submitted, now, none, none⟩, true) ∧
      s' = s.recordSubmission ⟨id, binding, correlationId, .submitted, now, none, none⟩ pruneNow) ∨
    ∃ e, r = .error e ∧ s' = s
  | _, .closeRunning id state stored now, r, s' =>
    Answered (AgentState.closeRunning id state stored now) s r s'
  | _, .submissionOfClient id clientId, r, s' =>
    s' = s ∧ Found (fun found => ∀ row, found = some row →
      row ∈ s.submissions ∧ row.id = id ∧ row.binding.clientId = clientId) r
  | _, .pruneSubmissions now, r, s' => Answered (fun s => ((), s.prune now)) s r s'
  | _, .execute tool args, _, s' => s' = { s with started := s.started ++ [⟨.call, tool, args⟩] }
  | _, .startTool run tool args, _, s' =>
    s' = { s with running := s.running ++ [run], started := s.started ++ [⟨run, tool, args⟩] }
  | _, .awaitTool run, _, s' => s' = { s with running := s.running.erase run }
  | _, _, _, s' => s' = s

/-- Everything that runs stops, and the recovery at startup gets as far as the store lets it. -/
def AgentState.restarts (registry : ToolRegistry) (s s' : AgentState) : Prop :=
  ∃ (now : ℤ) (reached : ApprovalRow → Bool) (trades : Bool),
    s' = { s with
      running := []
      approvals := s.approvals.map fun row =>
        if reached row then AgentState.recoverApproval registry now row else row
      submissions := if trades then s.submissions.map (AgentState.recoverSubmission now)
        else s.submissions }

end ScreenerBot.AgentControl
