import Mathlib
import ScreenerBot.AgentControl.Bridge

/-!
The protocol of the bridge over its store: the stages of an approved request and of a submitted
trade, what each may call and rely on, and what holds of the store whatever runs beside it.
-/
namespace ScreenerBot.AgentControl
open Library

namespace ApprovalState

/-- Whether a row in this state was claimed. -/
def wasClaimed : ApprovalState → Bool
  | .claimed | .executing | .done | .failed | .interrupted => true
  | .pending | .denied | .expired => false

/-- Whether the tool of a row in this state may have been started. -/
def ran : ApprovalState → Bool
  | .executing | .done | .failed | .interrupted => true
  | .pending | .claimed | .denied | .expired => false

theorem wasClaimed_of_ran {state : ApprovalState} (h : state.ran = true) :
    state.wasClaimed = true := by
  cases state <;> first | rfl | cases h

end ApprovalState

/-- Where a program stands between a claim or a submission and its outcome. -/
inductive Stage
  | idle
  | claimed (id : String)
  | loaded (row : ApprovalRow)
  | executing (row : ApprovalRow)
  | running (row : ApprovalRow)
  | ended (row : ApprovalRow)
  | submitted (row : SubmissionRow)
  | tradeRunning (row : SubmissionRow)
  | tradeEnded (row : SubmissionRow)

namespace Stage

/-- The request or trade a stage is about. -/
def run : Stage → Option RunId
  | idle => none
  | claimed id => some (.approval id)
  | loaded row | executing row | running row | ended row => some (.approval row.id)
  | submitted row | tradeRunning row | tradeEnded row => some (.submission row.id)

/-- Two programs are never about one request or trade. -/
def Apart (k k' : Stage) : Prop := ∀ r, k.run = some r → k'.run ≠ some r

def afterClaim (k : Stage) (id : String) : Except AgentError ℕ → Stage
  | .ok (_ + 1) => .claimed id
  | _ => k

/-- The row a claim is read back from has the id that was claimed. -/
def afterRead : Stage → Except AgentError ApprovalRow → Stage
  | .claimed id, .ok row => .loaded { row with id := id }
  | k, _ => k

def afterFail : Stage → Except AgentError ℕ → Stage
  | .loaded _, .ok _ => .idle
  | k, _ => k

def afterMark : Stage → Except AgentError ℕ → Stage
  | .loaded row, .ok (_ + 1) => .executing row
  | k, _ => k

def afterClose : Stage → Except AgentError ℕ → Stage
  | .executing _, .ok _ | .ended _, .ok _ | .tradeEnded _, .ok _ => .idle
  | k, _ => k

/-- A recorded trade has the binding of the call that recorded it. -/
def afterSubmit (k : Stage) (binding : Binding) : Except AgentError (SubmissionRow × Bool) → Stage
  | .ok (row, true) => .submitted { row with binding := binding }
  | _ => k

def afterStart : Stage → Stage
  | .executing row => .running row
  | .submitted row => .tradeRunning row
  | k => k

def afterAwait : Stage → Stage
  | .running row => .ended row
  | .tradeRunning row => .tradeEnded row
  | k => k

/-- The stage a call leads to. -/
def after (k : Stage) : {β : Type} → AgentCall β → β → Stage
  | _, .claimApproval id _, r => k.afterClaim id r
  | _, .approvalById _, r => k.afterRead r
  | _, .failIntegrity _ _, r => k.afterFail r
  | _, .failUnreadable _ _, r => k.afterFail r
  | _, .markExecuting _, r => k.afterMark r
  | _, .closeExecuting _ _ _ _, r => k.afterClose r
  | _, .submitOrReuse binding _ _, r => k.afterSubmit binding r
  | _, .closeRunning _ _ _ _, r => k.afterClose r
  | _, .startTool _ _ _, _ => k.afterStart
  | _, .awaitTool _, _ => k.afterAwait
  | _, _, _ => k

end Stage

def ApprovalRow.asExecuting (row : ApprovalRow) : ApprovalRow := { row with state := .executing }

/-- The same trade, whatever has become of it. -/
structure SubmissionRow.SameTrade (row row' : SubmissionRow) : Prop where
  id_eq : row.id = row'.id
  binding_eq : row.binding = row'.binding
  createdAt_eq : row.createdAt = row'.createdAt

/-- The same request, whatever has become of it. -/
structure ApprovalRow.SameRequest (row row' : ApprovalRow) : Prop where
  id_eq : row.id = row'.id
  binding_eq : row.binding = row'.binding
  canonicalArgs_eq : row.canonicalArgs = row'.canonicalArgs
  expiresAt_eq : row.expiresAt = row'.expiresAt

section

variable (codec : Codec) (registry : ToolRegistry)

/-- What a claimed request may run: its own tool on its own arguments. -/
structure ApprovalRow.Runs (row : ApprovalRow) (tool : String) (args : Json) : Prop where
  tool_eq : row.binding.tool = tool
  parsed : codec.parse row.canonicalArgs = some args
  digest_eq : codec.digestOf row.canonicalArgs = row.binding.argsDigest

/-- What a recorded trade may run: the tool and the arguments of the call that recorded it. -/
structure SubmissionRow.Runs (row : SubmissionRow) (tool : String) (args : Json) : Prop where
  tool_eq : row.binding.tool = tool
  digest_eq : row.binding.argsDigest = codec.digestOf (codec.canonicalize args)

/-- The calls a stage allows. -/
def Stage.may (k : Stage) : {β : Type} → AgentCall β → Prop
  | _, .claimApproval _ _ => k = .idle
  | _, .approvalById id => ∀ other, k = .claimed other → other = id
  | _, .failIntegrity id _ => ∃ row, k = .loaded row ∧ row.id = id
  | _, .failUnreadable id _ => ∃ row, k = .loaded row ∧ row.id = id
  | _, .markExecuting id => ∃ row, k = .loaded row ∧ row.id = id
  | _, .closeExecuting id state _ _ =>
    (∃ row, (k = .loaded row ∨ k = .executing row ∨ k = .ended row) ∧ row.id = id) ∧
      (state = .done ∨ state = .failed ∨ state = .interrupted)
  | _, .submitOrReuse _ _ _ => k = .idle
  | _, .startTool run tool args =>
    (∃ row, k = .executing row ∧ run = .approval row.id ∧ row.Runs codec tool args) ∨
      ∃ row, k = .submitted row ∧ run = .submission row.id ∧ row.Runs codec tool args
  | _, .awaitTool run =>
    (∃ row, k = .running row ∧ run = .approval row.id) ∨
      ∃ row, k = .tradeRunning row ∧ run = .submission row.id
  | _, .closeRunning id state _ _ => (∃ row, k = .tradeEnded row ∧ row.id = id) ∧ state ≠ .submitted
  | _, .execute tool _ => ∀ t, registry.get tool = some t → t.sendsTransaction = false
  | _, _ => True

def stages : Typestate AgentCall Stage where
  may := Stage.may codec registry
  after := Stage.after

/-- What a program relies on at a stage. -/
def Stage.Means : Stage → AgentState → Prop
  | .idle, _ => True
  | .claimed id, s => ∃ row ∈ s.approvals, row.id = id ∧ row.state = .claimed
  | .loaded row, s => row ∈ s.approvals ∧ row.state = .claimed
  | .executing row, s => row.asExecuting ∈ s.approvals ∧ .approval row.id ∉ s.started.map Start.run
  | .running row, s => row.asExecuting ∈ s.approvals
  | .ended row, s => row.asExecuting ∈ s.approvals ∧ .approval row.id ∉ s.running
  | .submitted row, s => row ∈ s.submissions ∧ row.state = .submitted ∧
      .submission row.id ∉ s.started.map Start.run
  | .tradeRunning row, s => row ∈ s.submissions ∧ row.state = .submitted
  | .tradeEnded row, s => row ∈ s.submissions ∧ row.state = .submitted ∧
      .submission row.id ∉ s.running

/-- Whom a tool was started for: nobody waits for it if it sends no transaction; else a claimed
request or a recorded trade that asks for just this. -/
def Grounded (s : AgentState) (x : Start) : Prop :=
  match x.run with
  | .call => ∀ tool, registry.get x.tool = some tool → tool.sendsTransaction = false
  | .approval id => ∃ row ∈ s.approvals, row.id = id ∧ row.Runs codec x.tool x.args ∧
      row.state.ran = true
  | .submission id => ∃ row ∈ s.submitted, row.id = id ∧ row.Runs codec x.tool x.args

/-- The row a running tool will be closed in. -/
def Live (s : AgentState) : RunId → Prop
  | .call => True
  | .approval id => ∃ row ∈ s.approvals, row.id = id ∧ row.state = .executing
  | .submission id => ∃ row ∈ s.submissions, row.id = id ∧ row.state = .submitted

structure ApprovalsValid (s : AgentState) : Prop where
  ids : (s.approvals.map ApprovalRow.id).Nodup
  bindings : (s.approvals.map ApprovalRow.binding).Nodup
  claims_once : (s.claims.map Prod.fst).Nodup
  claimed : ∀ c ∈ s.claims, ∃ row ∈ s.approvals, row.id = c.1 ∧ row.state.wasClaimed = true
  decided : ∀ row ∈ s.approvals, row.state.wasClaimed = true → row.decidedBy = some "dashboard" ∧
    ∃ t < row.expiresAt, (row.id, t) ∈ s.claims

structure TradesValid (s : AgentState) : Prop where
  ids : (s.submissions.map SubmissionRow.id).Nodup
  recorded_ids : (s.submitted.map SubmissionRow.id).Nodup
  recorded : ∀ row ∈ s.submissions, ∃ x ∈ s.submitted, row.SameTrade x
  retained : ∀ x ∈ s.submitted, (∃ row ∈ s.submissions, row.SameTrade x) ∨
    ∃ p ∈ s.prunes, x.createdAt + reuseWindow ≤ p
  one_running : ∀ row ∈ s.submissions, ∀ other ∈ s.submissions, row.state = .submitted →
    other.state = .submitted → row.binding = other.binding → row.id = other.id
  spaced : s.submitted.Pairwise fun x y => x.binding = y.binding →
    x.createdAt + reuseWindow ≤ y.createdAt ∨ ∃ p ∈ s.prunes, x.createdAt + reuseWindow ≤ p

structure StartsValid (s : AgentState) : Prop where
  once : ((s.started.map Start.run).filter (· ≠ .call)).Nodup
  grounded : ∀ x ∈ s.started, Grounded codec registry s x
  running_once : s.running.Nodup
  running_started : ∀ r ∈ s.running, r ∈ s.started.map Start.run
  live : ∀ r ∈ s.running, Live s r

/-- What holds of the store and of the tools, whatever runs. -/
structure Valid (s : AgentState) : Prop where
  approvals : ApprovalsValid s
  trades : TradesValid s
  starts : StartsValid codec registry s

/-- What a step leaves to the program at a request or trade it is not about. -/
structure Untouched (r : RunId) (s s' : AgentState) : Prop where
  approval : ∀ row ∈ s.approvals, r = .approval row.id →
    row.state = .claimed ∨ row.state = .executing → row ∈ s'.approvals
  trade : ∀ row ∈ s.submissions, r = .submission row.id → row.state = .submitted →
    row ∈ s'.submissions
  started : r ∈ s'.started.map Start.run → r ∈ s.started.map Start.run
  running : r ∈ s'.running → r ∈ s.running

end

variable {codec : Codec} {registry : ToolRegistry} {s s' : AgentState} {k : Stage} {r : RunId}

theorem Untouched.refl : Untouched r s s :=
  ⟨fun _ h _ _ => h, fun _ h _ _ => h, id, id⟩

/-- What a stage relies on stands where its request or trade is untouched. -/
theorem Stage.Means.of_untouched (h : Untouched r s s') (hrun : k.run = some r)
    (hmeans : k.Means s) :
    k.Means s' := by
  cases k with
  | idle => cases hrun
  | claimed id =>
    obtain ⟨row, hrow, rfl, hstate⟩ := hmeans
    exact ⟨row, h.approval row hrow (Option.some.inj hrun).symm (.inl hstate), rfl, hstate⟩
  | loaded row => exact ⟨h.approval row hmeans.1 (Option.some.inj hrun).symm
      (.inl hmeans.2), hmeans.2⟩
  | executing row =>
    obtain ⟨hrow, hstarted⟩ := hmeans
    obtain rfl := Option.some.inj hrun
    exact ⟨h.approval _ hrow rfl (.inr rfl), fun hmem => hstarted (h.started hmem)⟩
  | running row => exact h.approval _ hmeans (Option.some.inj hrun).symm (.inr rfl)
  | ended row =>
    obtain ⟨hrow, hrunning⟩ := hmeans
    obtain rfl := Option.some.inj hrun
    exact ⟨h.approval _ hrow rfl (.inr rfl), fun hmem => hrunning (h.running hmem)⟩
  | submitted row =>
    obtain ⟨hrow, hstate, hstarted⟩ := hmeans
    obtain rfl := Option.some.inj hrun
    exact ⟨h.trade row hrow rfl hstate, hstate, fun hmem => hstarted (h.started hmem)⟩
  | tradeRunning row =>
    exact ⟨h.trade row hmeans.1 (Option.some.inj hrun).symm hmeans.2, hmeans.2⟩
  | tradeEnded row =>
    obtain ⟨hrow, hstate, hrunning⟩ := hmeans
    obtain rfl := Option.some.inj hrun
    exact ⟨h.trade row hrow rfl hstate, hstate, fun hmem => hrunning (h.running hmem)⟩

end ScreenerBot.AgentControl
