import Mathlib
import ScreenerBot.AgentControl.Statements

/-!
The bridge keeps its protocol: every program of it follows the stages, and every answer and restart
keeps the store valid.
-/
namespace ScreenerBot.AgentControl
open Library

variable {codec : Codec} {registry : ToolRegistry} {inApp : ToolPermissions} {s s' : AgentState}
  {k k' : Stage}

section Restart

theorem Valid.stopAll (h : Valid codec registry s) :
    Valid codec registry { s with running := [] } where
  approvals := h.approvals.congr rfl rfl
  trades := h.trades.congr rfl rfl rfl
  starts := {
    once := h.starts.once
    grounded x hx := (h.starts.grounded x hx).congr rfl rfl
    running_once := List.nodup_nil
    running_started run hrun := by cases hrun
    live run hrun := by cases hrun }

theorem recoverApproval_spec (registry : ToolRegistry) (now : ℤ) (row : ApprovalRow) :
    (AgentState.recoverApproval registry now row).SameRequest row ∧
      (AgentState.recoverApproval registry now row).state.wasClaimed = row.state.wasClaimed ∧
      (AgentState.recoverApproval registry now row).decidedBy = row.decidedBy ∧
      (row.state.ran = true → (AgentState.recoverApproval registry now row).state.ran = true) := by
  rw [AgentState.recoverApproval]
  split
  · next hstate => exact ⟨⟨rfl, rfl, rfl, rfl⟩, by rw [hstate]; rfl, rfl, fun _ => rfl⟩
  · next hstate => exact ⟨⟨rfl, rfl, rfl, rfl⟩, by rw [hstate]; rfl, rfl, fun _ => rfl⟩
  · next hstate =>
    split_ifs
    · refine ⟨⟨rfl, rfl, rfl, rfl⟩, by rw [hstate]; rfl, rfl, fun hran => ?_⟩
      rw [hstate] at hran
      cases hran
    · exact ⟨.refl row, rfl, rfl, id⟩
  · exact ⟨.refl row, rfl, rfl, id⟩

theorem recoverSubmission_spec (now : ℤ) (row : SubmissionRow) :
    (AgentState.recoverSubmission now row).SameTrade row ∧
      (AgentState.recoverSubmission now row).state ≠ .submitted := by
  rw [AgentState.recoverSubmission]
  split_ifs with hstate
  · exact ⟨⟨rfl, rfl, rfl⟩, by simp⟩
  · exact ⟨.refl row, hstate⟩

/-- However far the recovery at startup gets, the store stays valid. -/
theorem Valid.restart (h : Valid codec registry s) (hrestart : s.restarts registry s') :
    Valid codec registry s' := by
  obtain ⟨now, reached, trades, rfl⟩ := hrestart
  obtain ⟨happrovals, htrades, hstarts⟩ := h.stopAll
  have hrow : ∀ row, (if reached row = true then AgentState.recoverApproval registry now row
      else row).SameRequest row ∧ (if reached row = true then
        AgentState.recoverApproval registry now row else row).state.wasClaimed =
          row.state.wasClaimed ∧
      (if reached row = true then AgentState.recoverApproval registry now row
        else row).decidedBy = row.decidedBy ∧
      (row.state.ran = true → (if reached row = true then
        AgentState.recoverApproval registry now row else row).state.ran = true) := by
    intro row
    split_ifs
    · exact recoverApproval_spec registry now row
    · exact ⟨.refl row, rfl, rfl, id⟩
  refine ⟨(happrovals.map (fun row => (hrow row).1)
    fun row _ => ⟨(hrow row).2.1, fun _ => (hrow row).2.2.1⟩).congr rfl rfl, ?_,
    (hstarts.mapApprovals (fun row => (hrow row).1) (fun row _ => (hrow row).2.2.2)
      (fun row _ hrun => absurd hrun List.not_mem_nil) s.claims).mapSubmissions
      (fun row _ hrun => absurd hrun List.not_mem_nil) (List.Subset.refl _) s.prunes⟩
  cases trades with
  | false => exact htrades.congr rfl rfl rfl
  | true =>
    refine (htrades.map (fun row => (recoverSubmission_spec now row).1) fun row hstate => ?_).congr
      rfl rfl rfl
    exact absurd hstate (recoverSubmission_spec now row).2

end Restart

section Step

theorem Stage.run_ne_call (k : Stage) : k.run ≠ some .call := by
  cases k <;> simp [Stage.run]

theorem Stage.Apart.symm (h : k.Apart k') : k'.Apart k := fun r hr hr' => h r hr' hr

/-- What a step comes to for the program that takes it and for the others. -/
def Kept (codec : Codec) (registry : ToolRegistry) (k k' : Stage) (s s' : AgentState) : Prop :=
  Valid codec registry s' ∧ k'.Means s' ∧
    ∀ j : Stage, k.Apart j → j.Means s → j.Means s' ∧ k'.Apart j

theorem means_others (h : ∀ r, r ≠ .call → k.run ≠ some r → Untouched r s s') {j : Stage}
    (hapart : k.Apart j) (hmeans : j.Means s) : j.Means s' := by
  cases hrun : j.run with
  | none => cases j <;> trivial
  | some r =>
    have hcall : r ≠ .call := fun he => j.run_ne_call (he ▸ hrun)
    exact Stage.Means.of_untouched (h r hcall fun hk => hapart r hk hrun) hrun hmeans

/-- A program that keeps to its own request or trade. -/
theorem Kept.of_own (hvalid : Valid codec registry s') (hmeans : k'.Means s')
    (hrun : ∀ r, k'.run = some r → k.run = some r)
    (h : ∀ r, r ≠ .call → k.run ≠ some r → Untouched r s s') : Kept codec registry k k' s s' :=
  ⟨hvalid, hmeans, fun _ hapart hj => ⟨means_others h hapart hj, fun r hr => hapart r (hrun r hr)⟩⟩

/-- A program that takes up a request or trade no other is about. -/
theorem Kept.of_new (hvalid : Valid codec registry s') (hmeans : k'.Means s')
    (hnew : ∀ (j : Stage) r, k'.run = some r → j.Means s → j.run ≠ some r)
    (h : ∀ r, Untouched r s s') : Kept codec registry k k' s s' :=
  ⟨hvalid, hmeans, fun j hapart hj => ⟨means_others (fun r _ _ => h r) hapart hj,
    fun r hr => hnew j r hr hj⟩⟩

theorem Kept.same (hvalid : Valid codec registry s) (hmeans : k.Means s) :
    Kept codec registry k k s s :=
  .of_own hvalid hmeans (fun _ hr => hr) fun _ _ _ => .refl

theorem Kept.unchanged (hvalid : Valid codec registry s) (hmeans : k.Means s) (h : s' = s) :
    Kept codec registry k k s s' := by
  rw [h]
  exact .same hvalid hmeans

theorem means_kept (h : ∀ r, r ≠ .call → Untouched r s s') (hmeans : k.Means s) : k.Means s' := by
  cases hrun : k.run with
  | none => cases k <;> trivial
  | some r => exact hmeans.of_untouched (h r fun he => k.run_ne_call (he ▸ hrun)) hrun

/-- A statement whose failure leaves everything as it is. -/
theorem Kept.answered {α : Type} {statement : AgentState → α × AgentState} {r : Except AgentError α}
    (next : Except AgentError α → Stage) (hvalid : Valid codec registry s) (hmeans : k.Means s)
    (hanswered : Answered statement s r s') (herror : ∀ e, next (.error e) = k)
    (h : Kept codec registry k (next (.ok (statement s).1)) s (statement s).2) :
    Kept codec registry k (next r) s s' := by
  obtain ⟨rfl, rfl⟩ | ⟨e, rfl, rfl⟩ := hanswered
  · exact h
  · rw [herror]
    exact .same hvalid hmeans

/-- A request that a program has claimed is claimed or executing. -/
theorem Stage.Means.approval_row {id : String} (h : k.Means s)
    (hrun : k.run = some (.approval id)) :
    ∃ row ∈ s.approvals, row.id = id ∧ row.state ≠ .pending := by
  cases k with
  | idle => cases hrun
  | claimed other =>
    obtain ⟨row, hrow, hid, hstate⟩ := h
    cases hrun
    exact ⟨row, hrow, hid, by rw [hstate]; simp⟩
  | loaded row =>
    cases hrun
    exact ⟨row, h.1, rfl, by rw [h.2]; simp⟩
  | executing row =>
    cases hrun
    exact ⟨_, h.1, rfl, by simp [ApprovalRow.asExecuting]⟩
  | running row =>
    cases hrun
    exact ⟨_, h, rfl, by simp [ApprovalRow.asExecuting]⟩
  | ended row =>
    cases hrun
    exact ⟨_, h.1, rfl, by simp [ApprovalRow.asExecuting]⟩
  | submitted row => cases hrun
  | tradeRunning row => cases hrun
  | tradeEnded row => cases hrun

theorem Stage.Means.trade_row {id : String} (h : k.Means s) (hrun : k.run = some (.submission id)) :
    ∃ row ∈ s.submissions, row.id = id := by
  cases k with
  | idle => cases hrun
  | claimed other => cases hrun
  | loaded row => cases hrun
  | executing row => cases hrun
  | running row => cases hrun
  | ended row => cases hrun
  | submitted row =>
    cases hrun
    exact ⟨row, h.1, rfl⟩
  | tradeRunning row =>
    cases hrun
    exact ⟨row, h.1, rfl⟩
  | tradeEnded row =>
    cases hrun
    exact ⟨row, h.1, rfl⟩

theorem step_claim (hvalid : Valid codec registry s) {id : String} {now : ℤ}
    {r : Except AgentError ℕ} (hanswer : Answered (AgentState.claimApproval id now) s r s') :
    Kept codec registry .idle (Stage.idle.afterClaim id r) s s' := by
  obtain ⟨hvalid', huntouched, hclaimed⟩ := hvalid.claimApproval id now
  refine Kept.answered (Stage.idle.afterClaim id) hvalid trivial hanswer (fun _ => rfl) ?_
  cases hchanged : (AgentState.claimApproval id now s).1 with
  | zero => exact .of_own hvalid' trivial (fun r hr => hr) fun r _ _ => huntouched r
  | succ n =>
    obtain ⟨⟨row, hrow, hid, hpending⟩, hmeans⟩ := hclaimed (by rw [hchanged]; simp)
    refine .of_new hvalid' hmeans (fun j r hr hj hrun => ?_) huntouched
    obtain rfl := Option.some.inj hr
    obtain ⟨row', hrow', hid', hstate⟩ := hj.approval_row hrun
    rw [hvalid.approvals.eq_of_id hrow' hrow (hid'.trans hid.symm)] at hstate
    exact hstate hpending

theorem Stage.means_afterRead {id : String} (hvalid : Valid codec registry s) (hmeans : k.Means s)
    (hmay : ∀ other, k = .claimed other → other = id) {r : Except AgentError ApprovalRow}
    (hfound : Found (fun row => row ∈ s.approvals ∧ row.id = id) r) :
    (k.afterRead r).Means s ∧ (k.afterRead r).run = k.run := by
  cases r with
  | error e => cases k <;> exact ⟨hmeans, rfl⟩
  | ok row =>
    cases k with
    | claimed other =>
      obtain ⟨hrow, hid⟩ := hfound row rfl
      obtain rfl := hmay other rfl
      obtain ⟨row', hrow', hid', hstate⟩ := hmeans
      obtain rfl := hvalid.approvals.eq_of_id hrow hrow' (hid.trans hid'.symm)
      have hsame : { row with id := other } = row := by rw [← hid]
      exact ⟨⟨hsame ▸ hrow, hstate⟩, rfl⟩
    | idle => exact ⟨hmeans, rfl⟩
    | loaded other => exact ⟨hmeans, rfl⟩
    | executing other => exact ⟨hmeans, rfl⟩
    | running other => exact ⟨hmeans, rfl⟩
    | ended other => exact ⟨hmeans, rfl⟩
    | submitted other => exact ⟨hmeans, rfl⟩
    | tradeRunning other => exact ⟨hmeans, rfl⟩
    | tradeEnded other => exact ⟨hmeans, rfl⟩

theorem step_fail (hvalid : Valid codec registry s) {row : ApprovalRow}
    (hmeans : (Stage.loaded row).Means s) {now : ℤ} {r : Except AgentError ℕ}
    (hanswer : Answered (AgentState.failIntegrity row.id now) s r s' ∨
      Answered (AgentState.failUnreadable row.id now) s r s') :
    Kept codec registry (.loaded row) ((Stage.loaded row).afterFail r) s s' := by
  obtain ⟨⟨hvalid₁, huntouched₁⟩, ⟨hvalid₂, huntouched₂⟩⟩ := hvalid.fail hmeans.1 hmeans.2 now
  obtain hanswer | hanswer := hanswer
  · refine Kept.answered (Stage.loaded row).afterFail hvalid hmeans hanswer (fun _ => rfl) ?_
    exact .of_own hvalid₁ trivial (fun r hr => by cases hr) fun r _ hr =>
      huntouched₁ r fun he => hr (he ▸ rfl)
  · refine Kept.answered (Stage.loaded row).afterFail hvalid hmeans hanswer (fun _ => rfl) ?_
    exact .of_own hvalid₂ trivial (fun r hr => by cases hr) fun r _ hr =>
      huntouched₂ r fun he => hr (he ▸ rfl)

theorem step_mark (hvalid : Valid codec registry s) {row : ApprovalRow}
    (hmeans : (Stage.loaded row).Means s) {r : Except AgentError ℕ}
    (hanswer : Answered (AgentState.markExecuting row.id) s r s') :
    Kept codec registry (.loaded row) ((Stage.loaded row).afterMark r) s s' := by
  obtain ⟨⟨hvalid', huntouched⟩, hchanged, hrow⟩ := hvalid.markExecuting hmeans.1 hmeans.2
  refine Kept.answered (Stage.loaded row).afterMark hvalid hmeans hanswer (fun _ => rfl) ?_
  cases hcount : (AgentState.markExecuting row.id s).1 with
  | zero => exact absurd hcount hchanged
  | succ n =>
    refine .of_own hvalid' ⟨hrow, fun hmem => ?_⟩ (fun r hr => hr) fun r _ hr =>
      huntouched r fun he => hr (he ▸ rfl)
    -- a row whose tool was started is no longer claimed
    obtain ⟨x, hx, hrun⟩ := List.mem_map.mp hmem
    have hgrounded := hvalid.starts.grounded x hx
    rw [Grounded, hrun] at hgrounded
    obtain ⟨row', hrow', hid, _, hran⟩ := hgrounded
    rw [hvalid.approvals.eq_of_id hrow' hmeans.1 hid, hmeans.2] at hran
    cases hran

theorem step_close (hvalid : Valid codec registry s) {row : ApprovalRow} (hmeans : k.Means s)
    (hk : k = .loaded row ∨ k = .executing row ∨ k = .ended row) {state : ApprovalState}
    (hstate : state = .done ∨ state = .failed ∨ state = .interrupted) {stored : Json} {now : ℤ}
    {r : Except AgentError ℕ}
    (hanswer : Answered (AgentState.closeExecuting row.id state stored now) s r s') :
    Kept codec registry k (k.afterClose r) s s' := by
  obtain rfl | rfl | rfl := hk
  · refine Kept.answered (Stage.loaded row).afterClose hvalid hmeans hanswer (fun _ => rfl) ?_
    rw [closeExecuting_claimed hvalid hmeans.1 hmeans.2]
    exact .same hvalid hmeans
  · refine Kept.answered (Stage.executing row).afterClose hvalid hmeans hanswer (fun _ => rfl) ?_
    have hidle : .approval row.id ∉ s.running := fun hrun =>
      hmeans.2 (hvalid.starts.running_started _ hrun)
    obtain ⟨hvalid', huntouched⟩ := hvalid.closeExecuting hstate hidle stored now
    exact .of_own hvalid' trivial (fun r hr => by cases hr) fun r _ hr =>
      huntouched r fun he => hr (he ▸ rfl)
  · refine Kept.answered (Stage.ended row).afterClose hvalid hmeans hanswer (fun _ => rfl) ?_
    obtain ⟨hvalid', huntouched⟩ := hvalid.closeExecuting hstate hmeans.2 stored now
    exact .of_own hvalid' trivial (fun r hr => by cases hr) fun r _ hr =>
      huntouched r fun he => hr (he ▸ rfl)

theorem step_closeTrade (hvalid : Valid codec registry s) {row : SubmissionRow}
    (hmeans : (Stage.tradeEnded row).Means s) {state : SubmissionState}
    (hstate : state ≠ .submitted)
    {stored : Json} {now : ℤ} {r : Except AgentError ℕ}
    (hanswer : Answered (AgentState.closeRunning row.id state stored now) s r s') :
    Kept codec registry (.tradeEnded row) ((Stage.tradeEnded row).afterClose r) s s' := by
  refine Kept.answered (Stage.tradeEnded row).afterClose hvalid hmeans hanswer (fun _ => rfl) ?_
  obtain ⟨hvalid', huntouched⟩ := hvalid.closeRunning hstate hmeans.2.2 stored now
  exact .of_own hvalid' trivial (fun r hr => by cases hr) fun r _ hr =>
    huntouched r fun he => hr (he ▸ rfl)

theorem step_submit (hvalid : Valid codec registry s) {binding : Binding} {correlationId : String}
    {now : ℤ} {r : Except AgentError (SubmissionRow × Bool)}
    (hanswer : s.answers (.submitOrReuse binding correlationId now) r s') :
    Kept codec registry .idle (Stage.idle.afterSubmit binding r) s s' := by
  obtain ⟨row, _, _, rfl, rfl⟩ | ⟨id, pruneNow, hnone, hid, rfl, rfl⟩ | ⟨e, rfl, rfl⟩ := hanswer
  · exact .same hvalid trivial
  · obtain ⟨hvalid', huntouched, hrow⟩ := hvalid.recordSubmission
      ⟨id, binding, correlationId, .submitted, now, none, none⟩ pruneNow hnone hid rfl
    -- nothing was recorded under the new id
    have hfresh : ∀ x ∈ s.submitted, x.id ≠ id := fun x hx he => hid (he ▸ List.mem_map_of_mem hx)
    refine .of_new hvalid' ⟨hrow, rfl, fun hmem => ?_⟩ (fun j r hr hj hrun => ?_) huntouched
    · obtain ⟨x, hx, hrun⟩ := List.mem_map.mp hmem
      have hgrounded := hvalid.starts.grounded x hx
      rw [Grounded, hrun] at hgrounded
      obtain ⟨y, hy, hyid, _⟩ := hgrounded
      exact hfresh y hy hyid
    · obtain rfl := Option.some.inj hr
      obtain ⟨row', hrow', hid'⟩ := hj.trade_row hrun
      obtain ⟨x, hx, htrade⟩ := hvalid.trades.recorded row' hrow'
      exact hfresh x hx (htrade.id_eq.symm.trans hid')
  · exact .same hvalid trivial

theorem step_start (hvalid : Valid codec registry s) (hmeans : k.Means s) {run : RunId}
    {tool : String} {args : Json}
    (hmay : (∃ row, k = .executing row ∧ run = .approval row.id ∧ row.Runs codec tool args) ∨
      ∃ row, k = .submitted row ∧ run = .submission row.id ∧ row.Runs codec tool args) :
    Kept codec registry k k.afterStart s { s with running := s.running ++ [run],
                                                  started := s.started ++
                                                    [⟨run, tool, args⟩] } := by
  obtain ⟨row, rfl, rfl, hruns⟩ | ⟨row, rfl, rfl, hruns⟩ := hmay
  · obtain ⟨hrow, hnew⟩ := hmeans
    have hsame : row.asExecuting.SameRequest row := ⟨rfl, rfl, rfl, rfl⟩
    obtain ⟨hvalid', huntouched⟩ := hvalid.startTool (by simp) hnew
      ⟨_, hrow, rfl, hsame.runs hruns, rfl⟩ ⟨_, hrow, rfl, rfl⟩
    exact .of_own hvalid' hrow (fun r hr => hr) fun r _ hr => huntouched r fun he => hr (he ▸ rfl)
  · obtain ⟨hrow, hstate, hnew⟩ := hmeans
    obtain ⟨x, hx, htrade⟩ := hvalid.trades.recorded row hrow
    have hgrounded : Grounded codec registry s ⟨.submission row.id, tool, args⟩ := by
      obtain ⟨htool, hdigest⟩ := hruns
      rw [htrade.binding_eq] at htool hdigest
      exact ⟨x, hx, htrade.id_eq.symm, htool, hdigest⟩
    obtain ⟨hvalid', huntouched⟩ := hvalid.startTool (by simp) hnew hgrounded ⟨_, hrow, rfl, hstate⟩
    exact .of_own hvalid' ⟨hrow, hstate⟩ (fun r hr => hr) fun r _ hr =>
      huntouched r fun he => hr (he ▸ rfl)

theorem step_await (hvalid : Valid codec registry s) (hmeans : k.Means s) {run : RunId}
    (hmay : (∃ row, k = .running row ∧ run = .approval row.id) ∨
      ∃ row, k = .tradeRunning row ∧ run = .submission row.id) :
    Kept codec registry k k.afterAwait s { s with running := s.running.erase run } := by
  obtain ⟨hvalid', huntouched, hnot⟩ := hvalid.awaitTool run
  obtain ⟨row, rfl, rfl⟩ | ⟨row, rfl, rfl⟩ := hmay
  · exact .of_own hvalid' ⟨hmeans, hnot⟩ (fun r hr => hr) fun r _ _ => huntouched r
  · exact .of_own hvalid' ⟨hmeans.1, hmeans.2, hnot⟩ (fun r hr => hr) fun r _ _ => huntouched r

/-- A statement that touches no stage. -/
theorem step_shared {α : Type} {statement : AgentState → α × AgentState} {r : Except AgentError α}
    (hvalid : Valid codec registry s) (hmeans : k.Means s) (hanswer : Answered statement s r s')
    (h : Valid codec registry (statement s).2 ∧ ∀ r, Untouched r s (statement s).2) :
    Kept codec registry k k s s' := by
  refine Kept.answered (fun _ => k) hvalid hmeans hanswer (fun _ => rfl) ?_
  exact .of_own h.1 (means_kept (fun r _ => h.2 r) hmeans) (fun r hr => hr) fun r _ _ => h.2 r

/-- Every call a stage allows keeps the protocol. -/
theorem step_kept {β : Type} {effect : AgentCall β} {b : β} (hvalid : Valid codec registry s)
    (hmeans : k.Means s) (hmay : k.may codec registry effect) (hanswer : s.answers effect b s') :
    Kept codec registry k (k.after effect b) s s' := by
  cases effect with
  | nowUnix => exact .unchanged hvalid hmeans hanswer
  | enabled => exact .unchanged hvalid hmeans hanswer
  | authenticate clientId secret => exact .unchanged hvalid hmeans hanswer
  | activePermissions clientId => exact .unchanged hvalid hmeans hanswer
  | beginTool => exact .unchanged hvalid hmeans hanswer
  | insertApproval binding canonicalArgs correlationId now =>
    obtain ⟨id, hid, hanswer⟩ | ⟨_, _, rfl⟩ := hanswer
    · exact step_shared hvalid hmeans hanswer (hvalid.insertApproval hid rfl)
    · exact .same hvalid hmeans
  | approvalOfBinding binding => exact .unchanged hvalid hmeans hanswer.1
  | approvalOfClient id clientId => exact .unchanged hvalid hmeans hanswer.1
  | approvalById id =>
    obtain ⟨rfl, hfound⟩ := hanswer
    obtain ⟨hafter, hrun⟩ := Stage.means_afterRead hvalid hmeans hmay hfound
    exact .of_own hvalid hafter (fun r hr => hrun ▸ hr) fun r _ _ => .refl
  | expireApproval id now => exact step_shared hvalid hmeans hanswer (hvalid.expireApproval id now)
  | expireOverdue now => exact step_shared hvalid hmeans hanswer (hvalid.expireOverdue now)
  | denyApproval id now => exact step_shared hvalid hmeans hanswer (hvalid.denyApproval id now)
  | claimApproval id now =>
    obtain rfl : k = .idle := hmay
    exact step_claim hvalid hanswer
  | failIntegrity id now =>
    obtain ⟨row, rfl, rfl⟩ := hmay
    exact step_fail hvalid hmeans (.inl hanswer)
  | failUnreadable id now =>
    obtain ⟨row, rfl, rfl⟩ := hmay
    exact step_fail hvalid hmeans (.inr hanswer)
  | markExecuting id =>
    obtain ⟨row, rfl, rfl⟩ := hmay
    exact step_mark hvalid hmeans hanswer
  | closeExecuting id state stored now =>
    obtain ⟨⟨row, hk, rfl⟩, hstate⟩ := hmay
    exact step_close hvalid hmeans hk hstate hanswer
  | submitOrReuse binding correlationId now =>
    obtain rfl : k = .idle := hmay
    exact step_submit hvalid hanswer
  | closeRunning id state stored now =>
    obtain ⟨⟨row, rfl, rfl⟩, hstate⟩ := hmay
    exact step_closeTrade hvalid hmeans hstate hanswer
  | submissionOfClient id clientId => exact .unchanged hvalid hmeans hanswer.1
  | pruneSubmissions now =>
    have hanswer : Answered (fun s => ((), AgentState.prune now s)) s b s' := hanswer
    exact step_shared hvalid hmeans hanswer (hvalid.prune now)
  | execute tool args =>
    obtain rfl := hanswer
    obtain ⟨hvalid', huntouched⟩ := hvalid.execute args hmay
    exact .of_own hvalid' (means_kept huntouched hmeans) (fun r hr => hr) fun r hr _ =>
      huntouched r hr
  | startTool run tool args =>
    obtain rfl := hanswer
    exact step_start hvalid hmeans hmay
  | awaitTool run =>
    obtain rfl := hanswer
    exact step_await hvalid hmeans hmay

end Step

end ScreenerBot.AgentControl
