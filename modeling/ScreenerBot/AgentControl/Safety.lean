import Mathlib
import ScreenerBot.AgentControl.Obedience

/-!
What the bridge guarantees however its calls, decisions, sweeps and restarts interleave: which tools
are started and how often, and what becomes of a request.
-/
namespace ScreenerBot.AgentControl
open Library

variable {codec : Codec} {registry : ToolRegistry} {inApp : ToolPermissions}

section Desk

/-- A codec of one argument text. -/
def plainCodec : Codec where
  canonicalize _ := "{}"
  digestOf text := text.toList.map fun c => c.toNat.toUInt8
  parse text := if text = "{}" then some (.obj []) else none
  sanitizeValue value := value

def buyToken : Tool := ⟨⟨"buy_token", .trading, true, true⟩, true⟩

def tradingRegistry : ToolRegistry := ToolRegistry.new.register buyToken

/-- A desk whose connection trades under `level`, whose clock stands still and whose tools
succeed. -/
def desk (level : PermissionLevel) {β : Type} (effect : AgentCall β) (s : AgentState) :
    β × AgentState :=
  let permissions : ToolPermissions := { ToolPermissions.fullAccess with trading := level }
  let statement (f : AgentState → ℕ × AgentState) : Except AgentError ℕ × AgentState :=
    (.ok (f s).1, (f s).2)
  match effect with
  | .nowUnix => (0, s)
  | .enabled => (true, s)
  | .authenticate clientId _ => (.ok ⟨clientId, "desk", permissions⟩, s)
  | .activePermissions _ => (.ok (some permissions), s)
  | .beginTool => (true, s)
  | .insertApproval binding canonicalArgs correlationId now =>
    if "a1" ∈ s.approvals.map ApprovalRow.id then (.error .disabled, s)
    else statement (AgentState.insertApproval
      ⟨"a1", binding, canonicalArgs, correlationId, .pending, now, now + approvalTtl, none,
        none, none⟩)
  | .approvalOfBinding binding =>
    ((s.approvals.find? fun row => row.binding = binding).elim (.error .approvalNotFound) .ok, s)
  | .approvalOfClient _ _ => (.error .approvalNotFound, s)
  | .approvalById id =>
    ((s.approvals.find? fun row => row.id = id).elim (.error .approvalNotFound) .ok, s)
  | .expireApproval id now => statement (AgentState.expireApproval id now)
  | .expireOverdue now => statement (AgentState.expireOverdue now)
  | .denyApproval id now => statement (AgentState.denyApproval id now)
  | .claimApproval id now => statement (AgentState.claimApproval id now)
  | .failIntegrity id now => statement (AgentState.failIntegrity id now)
  | .failUnreadable id now => statement (AgentState.failUnreadable id now)
  | .markExecuting id => statement (AgentState.markExecuting id)
  | .closeExecuting id state stored now => statement (AgentState.closeExecuting id state stored now)
  | .submitOrReuse binding correlationId now =>
    if (s.reusable binding now).isEmpty && "t1" ∉ s.submitted.map SubmissionRow.id then
      let row : SubmissionRow := ⟨"t1", binding, correlationId, .submitted, now, none, none⟩
      (.ok (row, true), s.recordSubmission row now)
    else (.error .disabled, s)
  | .closeRunning id state stored now => statement (AgentState.closeRunning id state stored now)
  | .submissionOfClient _ _ => (.error .approvalNotFound, s)
  | .pruneSubmissions now => (.ok (), s.prune now)
  | .execute tool args =>
      (⟨true, none, none⟩, { s with started := s.started ++ [⟨.call, tool, args⟩] })
  | .startTool run tool args =>
    ((), { s with running := s.running ++ [run], started := s.started ++ [⟨run, tool, args⟩] })
  | .awaitTool run => (some ⟨true, none, none⟩, { s with running := s.running.erase run })

theorem found_find {α : Type} {l : List α} {p : α → Bool} :
    Found (fun a => a ∈ l ∧ p a = true)
      ((l.find? p).elim (.error AgentError.approvalNotFound) Except.ok) := by
  intro a ha
  cases hfind : l.find? p with
  | none => rw [hfind] at ha; cases ha
  | some b =>
    rw [hfind] at ha
    cases ha
    exact ⟨List.mem_of_find?_eq_some hfind, List.find?_some hfind⟩

theorem desk_answers (level : PermissionLevel) {β : Type} (effect : AgentCall β) (s : AgentState) :
    s.answers effect (desk level effect s).1 (desk level effect s).2 := by
  cases effect with
  | nowUnix => rfl
  | enabled => rfl
  | authenticate clientId secret => rfl
  | activePermissions clientId => rfl
  | beginTool => rfl
  | insertApproval binding canonicalArgs correlationId now =>
    rw [desk]
    split_ifs with hid
    · exact .inr ⟨_, rfl, rfl⟩
    · exact .inl ⟨"a1", hid, .inl ⟨rfl, rfl⟩⟩
  | approvalOfBinding binding =>
    refine ⟨rfl, fun row hrow => ?_⟩
    obtain ⟨hmem, hbinding⟩ := found_find row hrow
    exact ⟨hmem, of_decide_eq_true hbinding⟩
  | approvalOfClient id clientId => exact ⟨rfl, fun row hrow => by cases hrow⟩
  | approvalById id =>
    refine ⟨rfl, fun row hrow => ?_⟩
    obtain ⟨hmem, hid⟩ := found_find row hrow
    exact ⟨hmem, of_decide_eq_true hid⟩
  | expireApproval id now => exact .inl ⟨rfl, rfl⟩
  | expireOverdue now => exact .inl ⟨rfl, rfl⟩
  | denyApproval id now => exact .inl ⟨rfl, rfl⟩
  | claimApproval id now => exact .inl ⟨rfl, rfl⟩
  | failIntegrity id now => exact .inl ⟨rfl, rfl⟩
  | failUnreadable id now => exact .inl ⟨rfl, rfl⟩
  | markExecuting id => exact .inl ⟨rfl, rfl⟩
  | closeExecuting id state stored now => exact .inl ⟨rfl, rfl⟩
  | submitOrReuse binding correlationId now =>
    rw [desk]
    split_ifs with hnew
    · rw [Bool.and_eq_true, List.isEmpty_iff, decide_eq_true_iff] at hnew
      exact .inr (.inl ⟨"t1", now, hnew.1, hnew.2, rfl, rfl⟩)
    · exact .inr (.inr ⟨_, rfl, rfl⟩)
  | closeRunning id state stored now => exact .inl ⟨rfl, rfl⟩
  | submissionOfClient id clientId => exact ⟨rfl, fun row hrow => by cases hrow⟩
  | pruneSubmissions now => exact .inl ⟨rfl, rfl⟩
  | execute tool args => rfl
  | startTool run tool args => rfl
  | awaitTool run => rfl

/-- A connection asks to buy while its trades are under `level`. -/
def asked (level : PermissionLevel) : AgentState × List (Program AgentCall Unit) :=
  System.followed (desk level) 20 (discard (callTool plainCodec tradingRegistry .denied
    "client" "secret" "buy_token" (.obj []) "c1")) (.empty, [])

/-- The dashboard approves what was asked for. -/
def bought (level : PermissionLevel) : AgentState × List (Program AgentCall Unit) :=
  System.followed (desk level) 20 (discard (approve plainCodec tradingRegistry .denied "a1"))
    (asked level)

theorem asked_reached (level : PermissionLevel) :
    (bridge plainCodec tradingRegistry .denied).Reached (asked level) := by
  refine ⟨.empty, rfl, System.Runs.followed (desk_answers level) 20 ?_ _⟩
  exact Spawned.callTool "client" "secret" "buy_token" (.obj []) "c1"

theorem bought_runs (level : PermissionLevel) :
    (bridge plainCodec tradingRegistry .denied).Runs (asked level) (bought level) :=
  System.Runs.followed (desk_answers level) 20 (Spawned.approve "a1") _

theorem bought_reached (level : PermissionLevel) :
    (bridge plainCodec tradingRegistry .denied).Reached (bought level) :=
  (asked_reached level).runs (bought_runs level)

end Desk

/-- No request and no trade is started twice. -/
theorem StartsValid.apart {s : AgentState} (h : StartsValid codec registry s) :
    s.started.Pairwise fun x y => x.run ≠ .call → x.run ≠ y.run := by
  have honce := h.once
  rw [List.Nodup, List.pairwise_filter, List.pairwise_map] at honce
  refine honce.imp fun {x y} hne hcall he => ?_
  exact hne (decide_eq_true hcall) (decide_eq_true (he ▸ hcall)) he

/-- A tool started for an approved request runs the stored tool on the stored arguments, which still
match their digest, of a request that the dashboard claimed, once and before it expired, and that no
request of the same connection, tool and arguments was started for before. -/
theorem approved_runs (codec : Codec) (registry : ToolRegistry) (inApp : ToolPermissions)
    {c : AgentState × List (Program AgentCall Unit)} (h : (bridge codec registry inApp).Reached c) :
    (∀ x ∈ c.1.started, ∀ id, x.run = .approval id → ∃ row ∈ c.1.approvals, row.id = id ∧
      row.Runs codec x.tool x.args ∧ row.state.ran = true ∧ row.decidedBy = some "dashboard" ∧
      ∃ t < row.expiresAt, (id, t) ∈ c.1.claims) ∧
    (c.1.claims.map Prod.fst).Nodup ∧
    c.1.started.Pairwise fun x y => ∀ row ∈ c.1.approvals, ∀ row' ∈ c.1.approvals,
      x.run = .approval row.id → y.run = .approval row'.id → row.binding ≠ row'.binding := by
  obtain ⟨⟨happrovals, _, hstarts⟩, _⟩ := (protocol codec registry inApp).upheld h
  refine ⟨fun x hx id hrun => ?_, happrovals.claims_once, ?_⟩
  · have hgrounded := hstarts.grounded x hx
    rw [Grounded, hrun] at hgrounded
    obtain ⟨row, hrow, rfl, hruns, hran⟩ := hgrounded
    obtain ⟨hdashboard, t, ht, hclaim⟩ := happrovals.decided row hrow
      (ApprovalState.wasClaimed_of_ran hran)
    exact ⟨row, hrow, rfl, hruns, hran, hdashboard, t, ht, hclaim⟩
  · refine hstarts.apart.imp fun {x y} hne row hrow row' hrow' hx hy hbinding => ?_
    obtain rfl := List.inj_on_of_nodup_map happrovals.bindings hrow hrow' hbinding
    exact hne (by rw [hx]; simp) (hx.trans hy.symm)

theorem approved_runs_bought : ∃ row ∈ (bought .askUser).1.approvals, row.id = "a1" ∧
    row.Runs plainCodec "buy_token" (.obj []) ∧ row.state.ran = true ∧
    row.decidedBy = some "dashboard" ∧ ∃ t < row.expiresAt,
      ("a1", t) ∈ (bought .askUser).1.claims := by
  have hstarted : (bought .askUser).1.started = [⟨.approval "a1", "buy_token", .obj []⟩] := rfl
  have hmem : (⟨.approval "a1", "buy_token", .obj []⟩ : Start) ∈ (bought .askUser).1.started := by
    rw [hstarted]
    exact List.mem_cons_self
  exact (approved_runs plainCodec tradingRegistry .denied (bought_reached .askUser)).1 _
    hmem "a1" rfl

/-- A submitted trade runs the tool and the arguments of the call that recorded it, once. While it
runs its row stays, and no identical trade runs; identical trades are recorded the reuse window
apart, on the clock of the later one or of a prune. -/
theorem submitted_trades (codec : Codec) (registry : ToolRegistry) (inApp : ToolPermissions)
    {c : AgentState × List (Program AgentCall Unit)} (h : (bridge codec registry inApp).Reached c) :
    (∀ x ∈ c.1.started, ∀ id, x.run = .submission id →
      ∃ row ∈ c.1.submitted, row.id = id ∧ row.Runs codec x.tool x.args) ∧
    (c.1.started.Pairwise fun x y => ∀ id, x.run = .submission id → y.run ≠ .submission id) ∧
    (∀ id, .submission id ∈ c.1.running → ∃ row ∈ c.1.submissions, row.id = id ∧
      row.state = .submitted ∧ ∀ other ∈ c.1.submissions, other.binding = row.binding →
        .submission other.id ∈ c.1.running → other = row) ∧
    c.1.submitted.Pairwise fun x y => x.binding = y.binding →
      x.createdAt + reuseWindow ≤ y.createdAt ∨ ∃ p ∈ c.1.prunes,
        x.createdAt + reuseWindow ≤ p := by
  obtain ⟨hvalid, _⟩ := (protocol codec registry inApp).upheld h
  obtain ⟨_, htrades, hstarts⟩ := hvalid
  refine ⟨fun x hx id hrun => ?_, ?_, fun id hrun => ?_, htrades.spaced⟩
  · have hgrounded := hstarts.grounded x hx
    rw [Grounded, hrun] at hgrounded
    exact hgrounded
  · refine hstarts.apart.imp fun {x y} hne id hx hy => ?_
    exact hne (by rw [hx]; simp) (hx.trans hy.symm)
  · obtain ⟨row, hrow, rfl, hstate⟩ := hstarts.live _ hrun
    refine ⟨row, hrow, rfl, hstate, fun other hother hbinding hother_run => ?_⟩
    obtain ⟨row', hrow', hid, hstate'⟩ := hstarts.live _ hother_run
    obtain rfl := htrades.eq_of_id hrow' hother hid
    exact htrades.eq_of_id hother hrow
      (htrades.one_running _ hother row hrow hstate' hstate hbinding)

theorem submitted_trades_bought : ∃ row ∈ (bought .allow).1.submitted, row.id = "t1" ∧
    row.Runs plainCodec "buy_token" (.obj []) := by
  have hstarted : (bought .allow).1.started = [⟨.submission "t1", "buy_token", .obj []⟩] := rfl
  have hmem : (⟨.submission "t1", "buy_token", .obj []⟩ : Start) ∈ (bought .allow).1.started := by
    rw [hstarted]
    exact List.mem_cons_self
  exact (submitted_trades plainCodec tradingRegistry .denied (bought_reached .allow)).1 _
    hmem "t1" rfl

/-- A tool that sends a transaction is started only for a request or a trade, and for each at most
once. -/
theorem transactions_started (codec : Codec) (registry : ToolRegistry) (inApp : ToolPermissions)
    {c : AgentState × List (Program AgentCall Unit)} (h : (bridge codec registry inApp).Reached c) :
    (∀ x ∈ c.1.started, ∀ tool, registry.get x.tool = some tool → tool.sendsTransaction = true →
      x.run ≠ .call) ∧
    c.1.started.Pairwise fun x y => x.run ≠ .call → x.run ≠ y.run := by
  obtain ⟨⟨_, _, hstarts⟩, _⟩ := (protocol codec registry inApp).upheld h
  refine ⟨fun x hx tool htool hsends hcall => ?_, hstarts.apart⟩
  have hgrounded := hstarts.grounded x hx
  rw [Grounded, hcall] at hgrounded
  rw [hgrounded tool htool] at hsends
  cases hsends

theorem transactions_started_bought : ∃ x ∈ (bought .allow).1.started, x.tool = "buy_token" ∧
    x.run ≠ .call := by
  have hstarted : (bought .allow).1.started = [⟨.submission "t1", "buy_token", .obj []⟩] := rfl
  have hmem : (⟨.submission "t1", "buy_token", .obj []⟩ : Start) ∈ (bought .allow).1.started := by
    rw [hstarted]
    exact List.mem_cons_self
  have htool : tradingRegistry.get "buy_token" = some buyToken := rfl
  exact ⟨_, hmem, rfl, (transactions_started plainCodec tradingRegistry .denied
    (bought_reached .allow)).1 _ hmem buyToken htool rfl⟩

section Lifecycle

/-- The states a request in this state can come to next. -/
def ApprovalState.next : ApprovalState → List ApprovalState
  | .pending => [.claimed, .denied, .expired]
  | .claimed => [.executing, .failed]
  | .executing => [.done, .failed, .interrupted]
  | .done | .failed | .interrupted | .denied | .expired => []

/-- One row is another one later: the same request, further on in its lifecycle, and just as it was
once its state is final. -/
structure ApprovalRow.Becomes (row row' : ApprovalRow) : Prop where
  same : row'.SameRequest row
  leads : Relation.ReflTransGen (fun a b => b ∈ ApprovalState.next a) row.state row'.state
  final : row.state.next = [] → row' = row

theorem ApprovalRow.Becomes.refl (row : ApprovalRow) : row.Becomes row :=
  ⟨.refl row, .refl, fun _ => rfl⟩

theorem ApprovalRow.Becomes.trans {a b c : ApprovalRow} (h : a.Becomes b) (h' : b.Becomes c) :
    a.Becomes c where
  same := ⟨h'.same.id_eq.trans h.same.id_eq, h'.same.binding_eq.trans h.same.binding_eq,
    h'.same.canonicalArgs_eq.trans h.same.canonicalArgs_eq,
    h'.same.expiresAt_eq.trans h.same.expiresAt_eq⟩
  leads := h.leads.trans h'.leads
  final hfinal := by
    obtain rfl := h.final hfinal
    exact h'.final hfinal

theorem ApprovalRow.Becomes.of_next {row row' : ApprovalRow} (hsame : row'.SameRequest row)
    (hnext : row'.state ∈ row.state.next) : row.Becomes row' where
  same := hsame
  leads := .single hnext
  final hfinal := by
    rw [hfinal] at hnext
    cases hnext

/-- Every request of the one state is still there in the other. -/
def Advances (s s' : AgentState) : Prop :=
  ∀ row ∈ s.approvals, ∃ row' ∈ s'.approvals, row.Becomes row'

variable {s s' : AgentState} {k : Stage}

theorem Advances.refl (s : AgentState) : Advances s s := fun row hrow => ⟨row, hrow, .refl row⟩

theorem Advances.of_eq (h : s'.approvals = s.approvals) : Advances s s' :=
  fun row hrow => ⟨row, h ▸ hrow, .refl row⟩

theorem Advances.map {g : ApprovalRow → ApprovalRow} (hg : ∀ row ∈ s.approvals, row.Becomes (g row))
    (h : s'.approvals = s.approvals.map g) : Advances s s' :=
  fun row hrow => ⟨g row, h ▸ List.mem_map_of_mem hrow, hg row hrow⟩

theorem Advances.update {guard : ApprovalRow → Bool} {f : ApprovalRow → ApprovalRow}
    {r : Except AgentError ℕ} (hanswer : Answered (AgentState.updateApprovals guard f) s r s')
    (hsame : ∀ row, (f row).SameRequest row)
    (hnext : ∀ row ∈ s.approvals, guard row = true → (f row).state ∈ row.state.next) :
    Advances s s' := by
  obtain ⟨_, rfl⟩ | ⟨_, _, rfl⟩ := hanswer
  · refine Advances.map (fun row hrow => ?_) rfl
    split_ifs with hguard
    · exact .of_next (hsame row) (hnext row hrow hguard)
    · exact .refl row
  · exact .refl s'

theorem guard_state {id : String} {row : ApprovalRow} {state : ApprovalState}
    (h : (decide (row.id = id) && decide (row.state = state)) = true) : row.state = state := by
  rw [Bool.and_eq_true, decide_eq_true_iff, decide_eq_true_iff] at h
  exact h.2

/-- Every call a stage allows takes requests along their lifecycle. -/
theorem step_advances {β : Type} {effect : AgentCall β} {b : β} (hvalid : Valid codec registry s)
    (hmeans : k.Means s) (hmay : k.may codec registry effect) (hanswer : s.answers effect b s') :
    Advances s s' := by
  cases effect with
  | nowUnix => exact .of_eq (congrArg AgentState.approvals hanswer)
  | enabled => exact .of_eq (congrArg AgentState.approvals hanswer)
  | authenticate clientId secret => exact .of_eq (congrArg AgentState.approvals hanswer)
  | activePermissions clientId => exact .of_eq (congrArg AgentState.approvals hanswer)
  | beginTool => exact .of_eq (congrArg AgentState.approvals hanswer)
  | insertApproval binding canonicalArgs correlationId now =>
    obtain ⟨id, _, ⟨_, rfl⟩ | ⟨_, _, rfl⟩⟩ | ⟨_, _, rfl⟩ := hanswer
    · rw [AgentState.insertApproval]
      split_ifs
      · exact .refl s
      · exact fun row hrow => ⟨row, List.mem_append_left _ hrow, .refl row⟩
    · exact .refl _
    · exact .refl _
  | approvalOfBinding binding => exact .of_eq (congrArg AgentState.approvals hanswer.1)
  | approvalOfClient id clientId => exact .of_eq (congrArg AgentState.approvals hanswer.1)
  | approvalById id => exact .of_eq (congrArg AgentState.approvals hanswer.1)
  | expireApproval id now =>
    refine .update hanswer (fun row => ⟨rfl, rfl, rfl, rfl⟩) fun row _ hguard => ?_
    rw [guard_state hguard]
    simp [ApprovalState.next]
  | expireOverdue now =>
    refine .update hanswer (fun row => ⟨rfl, rfl, rfl, rfl⟩) fun row _ hguard => ?_
    rw [Bool.and_eq_true, decide_eq_true_iff] at hguard
    rw [hguard.1]
    simp [ApprovalState.next]
  | denyApproval id now =>
    refine .update hanswer (fun row => ⟨rfl, rfl, rfl, rfl⟩) fun row _ hguard => ?_
    rw [guard_state hguard]
    simp [ApprovalState.next]
  | claimApproval id now =>
    have hrows : s'.approvals = s.approvals ∨ s'.approvals = s.approvals.map fun row =>
        if claimable id now row = true then asClaimed now row else row := by
      obtain ⟨_, rfl⟩ | ⟨_, _, rfl⟩ := hanswer
      · right
        rw [claimApproval_eq]
        split_ifs <;> rfl
      · exact .inl rfl
    obtain hrows | hrows := hrows
    · exact .of_eq hrows
    · refine .map (fun row _ => ?_) hrows
      split_ifs with hguard
      · refine .of_next ⟨rfl, rfl, rfl, rfl⟩ ?_
        rw [(claimable_iff.mp hguard).2.1]
        simp [ApprovalState.next, asClaimed]
      · exact .refl row
  | failIntegrity id now =>
    obtain ⟨row, rfl, rfl⟩ := hmay
    refine .update hanswer (fun row => ⟨rfl, rfl, rfl, rfl⟩) fun other hother hguard => ?_
    rw [hvalid.approvals.eq_of_id hother hmeans.1 (of_decide_eq_true hguard), hmeans.2]
    simp [ApprovalState.next]
  | failUnreadable id now =>
    refine .update hanswer (fun row => ⟨rfl, rfl, rfl, rfl⟩) fun row _ hguard => ?_
    rw [guard_state hguard]
    simp [ApprovalState.next]
  | markExecuting id =>
    refine .update hanswer (fun row => ⟨rfl, rfl, rfl, rfl⟩) fun row _ hguard => ?_
    rw [guard_state hguard]
    simp [ApprovalState.next]
  | closeExecuting id state stored now =>
    refine .update hanswer (fun row => ⟨rfl, rfl, rfl, rfl⟩) fun row _ hguard => ?_
    rw [guard_state hguard]
    obtain rfl | rfl | rfl := hmay.2 <;> simp [ApprovalState.next]
  | submitOrReuse binding correlationId now =>
    obtain ⟨_, _, _, _, rfl⟩ | ⟨_, _, _, _, _, rfl⟩ | ⟨_, _, rfl⟩ := hanswer
    · exact .refl _
    · exact .of_eq rfl
    · exact .refl _
  | closeRunning id state stored now =>
    obtain ⟨_, rfl⟩ | ⟨_, _, rfl⟩ := hanswer
    · exact .of_eq rfl
    · exact .refl _
  | submissionOfClient id clientId => exact .of_eq (congrArg AgentState.approvals hanswer.1)
  | pruneSubmissions now =>
    obtain ⟨_, rfl⟩ | ⟨_, _, rfl⟩ := hanswer
    · exact .of_eq rfl
    · exact .refl _
  | execute tool args =>
    obtain rfl := hanswer
    exact .of_eq rfl
  | startTool run tool args =>
    obtain rfl := hanswer
    exact .of_eq rfl
  | awaitTool run =>
    obtain rfl := hanswer
    exact .of_eq rfl

theorem restart_advances (h : s.restarts registry s') : Advances s s' := by
  obtain ⟨now, reached, trades, rfl⟩ := h
  refine .map (fun row _ => ?_) rfl
  split_ifs
  · refine ⟨(recoverApproval_spec registry now row).1, ?_, ?_⟩
    · rw [AgentState.recoverApproval]
      split
      · next hstate => exact .single (by rw [hstate]; simp [ApprovalState.next])
      · next hstate => exact .single (by rw [hstate]; simp [ApprovalState.next])
      · next hstate =>
        split_ifs
        · exact .single (by rw [hstate]; simp [ApprovalState.next])
        · exact .refl
      · exact .refl
    · intro hfinal
      rw [AgentState.recoverApproval]
      split
      · next hstate => rw [hstate] at hfinal; cases hfinal
      · next hstate => rw [hstate] at hfinal; cases hfinal
      · next hstate => rw [hstate] at hfinal; cases hfinal
      · rfl
  · exact .refl row

/-- A request is never lost and never rewritten: whatever happens after it was seen, it is there
with the same connection, tool, arguments and expiry, further on in its lifecycle, and unchanged
once its state is final. -/
theorem requests_advance (codec : Codec) (registry : ToolRegistry) (inApp : ToolPermissions)
    {c c' : AgentState × List (Program AgentCall Unit)}
    (h : (bridge codec registry inApp).Reached c)
    (hruns : (bridge codec registry inApp).Runs c c') :
    ∀ row ∈ c.1.approvals, ∃ row' ∈ c'.1.approvals, row.Becomes row' := by
  have htrans (s s' s'' : AgentState) (h : Advances s s') (h' : Advances s' s'') :
      Advances s s'' := by
    intro row hrow
    obtain ⟨row', hrow', hbecomes⟩ := h row hrow
    obtain ⟨row'', hrow'', hbecomes'⟩ := h' row' hrow'
    exact ⟨row'', hrow'', hbecomes.trans hbecomes'⟩
  exact (protocol codec registry inApp).runs_along (R := Advances) Advances.refl htrans
    (fun hvalid hmeans hmay hanswer => step_advances hvalid hmeans hmay hanswer)
    (fun _ hrestart => restart_advances hrestart) h hruns

theorem requests_advance_bought : ∃ row ∈ (asked .askUser).1.approvals, row.state = .pending ∧
    ∃ row' ∈ (bought .askUser).1.approvals, row.Becomes row' := by
  have hstates : (asked .askUser).1.approvals.map ApprovalRow.state = [.pending] := rfl
  obtain ⟨row, hrow, hstate⟩ := List.map_eq_singleton_iff.mp hstates
  have hmem : row ∈ (asked .askUser).1.approvals := by
    rw [hrow]
    exact List.mem_cons_self
  exact ⟨row, hmem, hstate, requests_advance plainCodec tradingRegistry .denied
    (asked_reached .askUser) (bought_runs .askUser) row hmem⟩

end Lifecycle

end ScreenerBot.AgentControl
