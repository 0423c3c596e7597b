import Mathlib
import ScreenerBot.AgentControl.Protocol

/-! What each statement on the store keeps, and whom it leaves untouched. -/
namespace ScreenerBot.AgentControl
open Library

variable {codec : Codec} {registry : ToolRegistry} {s s' : AgentState} {r : RunId}

theorem ApprovalsValid.eq_of_id (h : ApprovalsValid s) {row row' : ApprovalRow}
    (hrow : row ∈ s.approvals) (hrow' : row' ∈ s.approvals) (hid : row.id = row'.id) : row = row' :=
  List.inj_on_of_nodup_map h.ids hrow hrow' hid

theorem TradesValid.eq_of_id (h : TradesValid s) {row row' : SubmissionRow}
    (hrow : row ∈ s.submissions) (hrow' : row' ∈ s.submissions) (hid : row.id = row'.id) :
    row = row' :=
  List.inj_on_of_nodup_map h.ids hrow hrow' hid

/-- The row of a running tool is executing. -/
theorem Valid.executing_of_running (h : Valid codec registry s) {row : ApprovalRow}
    (hrow : row ∈ s.approvals) (hrun : .approval row.id ∈ s.running) : row.state = .executing := by
  obtain ⟨row', hrow', hid, hstate⟩ := h.starts.live _ hrun
  rw [h.approvals.eq_of_id hrow hrow' hid.symm]
  exact hstate

theorem ApprovalRow.SameRequest.refl (row : ApprovalRow) : row.SameRequest row :=
  ⟨rfl, rfl, rfl, rfl⟩

theorem ApprovalRow.SameRequest.runs {row row' : ApprovalRow} {tool : String} {args : Json}
    (h : row'.SameRequest row) (hruns : row.Runs codec tool args) : row'.Runs codec tool args := by
  obtain ⟨htool, hparsed, hdigest⟩ := hruns
  constructor
  · rw [h.binding_eq]
    exact htool
  · rw [h.canonicalArgs_eq]
    exact hparsed
  · rw [h.canonicalArgs_eq, h.binding_eq]
    exact hdigest

theorem SubmissionRow.SameTrade.refl (row : SubmissionRow) : row.SameTrade row := ⟨rfl, rfl, rfl⟩

theorem SubmissionRow.SameTrade.trans {a b c : SubmissionRow} (h : a.SameTrade b)
    (h' : b.SameTrade c) :
    a.SameTrade c :=
  ⟨h.id_eq.trans h'.id_eq, h.binding_eq.trans h'.binding_eq, h.createdAt_eq.trans h'.createdAt_eq⟩

/-- The trades stay valid while their tables and the prunes stay. -/
theorem TradesValid.congr (h : TradesValid s) (hsubmissions : s'.submissions = s.submissions)
    (hsubmitted : s'.submitted = s.submitted) (hprunes : s'.prunes = s.prunes) :
      TradesValid s' := by
  obtain ⟨hids, hrecorded_ids, hrecorded, hretained, hrunning, hspaced⟩ := h
  constructor
  · rwa [hsubmissions]
  · rwa [hsubmitted]
  · rwa [hsubmissions, hsubmitted]
  · rwa [hsubmissions, hsubmitted, hprunes]
  · rwa [hsubmissions]
  · rwa [hsubmitted, hprunes]

theorem ApprovalsValid.congr (h : ApprovalsValid s) (happrovals : s'.approvals = s.approvals)
    (hclaims : s'.claims = s.claims) : ApprovalsValid s' := by
  obtain ⟨hids, hbindings, honce, hclaimed, hdecided⟩ := h
  constructor
  · rwa [happrovals]
  · rwa [happrovals]
  · rwa [hclaims]
  · rwa [happrovals, hclaims]
  · rwa [happrovals, hclaims]

section Approvals

variable {g : ApprovalRow → ApprovalRow}

/-- Rows that stay as claimed as they were keep the approvals valid. -/
theorem ApprovalsValid.map (h : ApprovalsValid s) (hsame : ∀ row, (g row).SameRequest row)
    (hstate : ∀ row ∈ s.approvals, (g row).state.wasClaimed = row.state.wasClaimed ∧
      ((g row).state.wasClaimed = true → (g row).decidedBy = row.decidedBy)) :
    ApprovalsValid { s with approvals := s.approvals.map g } := by
  have hids : (s.approvals.map g).map ApprovalRow.id = s.approvals.map ApprovalRow.id := by
    rw [List.map_map]
    exact List.map_congr_left fun row _ => (hsame row).id_eq
  have hbindings : (s.approvals.map g).map ApprovalRow.binding
      = s.approvals.map ApprovalRow.binding := by
    rw [List.map_map]
    exact List.map_congr_left fun row _ => (hsame row).binding_eq
  constructor
  · exact hids ▸ h.ids
  · exact hbindings ▸ h.bindings
  · exact h.claims_once
  · intro c hc
    obtain ⟨row, hrow, hid, hclaimed⟩ := h.claimed c hc
    refine ⟨g row, List.mem_map_of_mem hrow, (hsame row).id_eq.trans hid, ?_⟩
    exact (hstate row hrow).1.trans hclaimed
  · intro row' hrow' hclaimed
    obtain ⟨row, hrow, rfl⟩ := List.mem_map.mp hrow'
    obtain ⟨hsame_claimed, hdecided⟩ := hstate row hrow
    obtain ⟨hdashboard, t, ht, hmem⟩ := h.decided row hrow (hsame_claimed ▸ hclaimed)
    refine ⟨(hdecided hclaimed).trans hdashboard, t, ?_, ?_⟩
    · exact (hsame row).expiresAt_eq.symm ▸ ht
    · exact (hsame row).id_eq.symm ▸ hmem

/-- Rows that stay what they are to the tools started for them keep the starts valid. -/
theorem StartsValid.mapApprovals (h : StartsValid codec registry s)
    (hsame : ∀ row, (g row).SameRequest row)
    (hran : ∀ row ∈ s.approvals, row.state.ran = true → (g row).state.ran = true)
    (hlive : ∀ row ∈ s.approvals, .approval row.id ∈ s.running → (g row).state = row.state)
    (claims : List (String × ℤ)) :
    StartsValid codec registry { s with approvals := s.approvals.map g, claims := claims } := by
  refine ⟨h.once, fun x hx => ?_, h.running_once, h.running_started, fun run hrun => ?_⟩
  · have hgrounded := h.grounded x hx
    obtain ⟨run, tool, args⟩ := x
    cases run with
    | call => exact hgrounded
    | submission id => exact hgrounded
    | approval id =>
      obtain ⟨row, hrow, hid, hruns, hstate⟩ := hgrounded
      exact ⟨g row, List.mem_map_of_mem hrow, (hsame row).id_eq.trans hid, (hsame row).runs hruns,
        hran row hrow hstate⟩
  · have hrow := h.live run hrun
    cases run with
    | call => trivial
    | submission id => exact hrow
    | approval id =>
      obtain ⟨row, hrow, rfl, hstate⟩ := hrow
      exact ⟨g row, List.mem_map_of_mem hrow, (hsame row).id_eq, (hlive row hrow hrun).trans hstate⟩

variable {guard : ApprovalRow → Bool} {f : ApprovalRow → ApprovalRow}

/-- An update of rows whose tool does not run keeps the store valid where it leaves them as claimed
as they were. -/
theorem Valid.updateApprovals (h : Valid codec registry s) (hsame : ∀ row, (f row).SameRequest row)
    (hstate : ∀ row ∈ s.approvals, guard row = true →
      (f row).state.wasClaimed = row.state.wasClaimed ∧
      ((f row).state.wasClaimed = true → (f row).decidedBy = row.decidedBy) ∧
      (row.state.ran = true → (f row).state.ran = true) ∧ .approval row.id ∉ s.running) :
    Valid codec registry (AgentState.updateApprovals guard f s).2 := by
  have hsame' : ∀ row, (if guard row = true then f row else row).SameRequest row := by
    intro row
    split_ifs
    · exact hsame row
    · exact .refl row
  refine ⟨h.approvals.map hsame' fun row hrow => ?_, h.trades.congr rfl rfl rfl,
    h.starts.mapApprovals hsame' (fun row hrow hran => ?_) (fun row hrow hrun => ?_) s.claims⟩
  · split_ifs with hguard
    · exact ⟨(hstate row hrow hguard).1, (hstate row hrow hguard).2.1⟩
    · exact ⟨rfl, fun _ => rfl⟩
  · split_ifs with hguard
    · exact (hstate row hrow hguard).2.2.1 hran
    · exact hran
  · split_ifs with hguard
    · exact absurd hrun (hstate row hrow hguard).2.2.2
    · rfl

theorem mem_updateApprovals {row : ApprovalRow} (hrow : row ∈ s.approvals)
    (hguard : guard row = true) :
    f row ∈ (AgentState.updateApprovals guard f s).2.approvals ∧
      (AgentState.updateApprovals guard f s).1 ≠ 0 := by
  constructor
  · exact List.mem_map.mpr ⟨row, hrow, if_pos hguard⟩
  · exact (List.countP_pos_iff.mpr ⟨row, hrow, hguard⟩).ne'

theorem updateApprovals_none (hguard : ∀ row ∈ s.approvals, guard row = false) :
    (AgentState.updateApprovals guard f s).2 = s := by
  have hmap : s.approvals.map (fun row => if guard row = true then f row else row) =
      s.approvals := by
    have hsame : ∀ row ∈ s.approvals, (if guard row = true then f row else row) = row :=
      fun row hrow => if_neg (by rw [hguard row hrow]; exact Bool.false_ne_true)
    rw [List.map_congr_left hsame, List.map_id']
  show { s with approvals := _ } = s
  rw [hmap]

/-- An update leaves those untouched whose row it passes over. -/
theorem untouched_updateApprovals (hguard : ∀ row ∈ s.approvals, r = .approval row.id →
      row.state = .claimed ∨ row.state = .executing → guard row = false) :
    Untouched r s (AgentState.updateApprovals guard f s).2 where
  approval row hrow hr hstate :=
    List.mem_map.mpr ⟨row, hrow, by rw [hguard row hrow hr hstate]; rfl⟩
  trade _ hrow _ _ := hrow
  started h := h
  running h := h

/-- A statement that moves pending rows to a state no claim leads to. -/
theorem Valid.updatePending (h : Valid codec registry s) (hsame : ∀ row, (f row).SameRequest row)
    (hpending : ∀ row, guard row = true → row.state = .pending)
    (hstate : ∀ row, (f row).state.wasClaimed = false) :
    Valid codec registry (AgentState.updateApprovals guard f s).2 ∧
      ∀ r, Untouched r s (AgentState.updateApprovals guard f s).2 := by
  refine ⟨h.updateApprovals hsame fun row hrow hguard => ?_, fun r => ?_⟩
  · have hrow_state := hpending row hguard
    refine ⟨?_, fun hclaimed => ?_, fun hran => ?_, fun hrun => ?_⟩
    · rw [hstate, hrow_state]
      rfl
    · rw [hstate] at hclaimed
      cases hclaimed
    · rw [hrow_state] at hran
      cases hran
    · have hexecuting := h.executing_of_running hrow hrun
      rw [hrow_state] at hexecuting
      cases hexecuting
  · refine untouched_updateApprovals fun row _ _ hclaimed => ?_
    rw [← Bool.not_eq_true]
    intro hguard
    rw [hpending row hguard] at hclaimed
    obtain hclaimed | hclaimed := hclaimed <;> cases hclaimed

/-- A statement that moves on a claimed request whose tool does not run. -/
theorem Valid.updateOwn (h : Valid codec registry s) {id : String}
    (hsame : ∀ row, (f row).SameRequest row)
    (hown : ∀ row ∈ s.approvals, guard row = true → row.id = id ∧ row.state.wasClaimed = true)
    (hstate : ∀ row, (f row).state.wasClaimed = true ∧ (f row).decidedBy = row.decidedBy)
    (hran : ∀ row ∈ s.approvals, guard row = true → row.state.ran = true → (f row).state.ran = true)
    (hrunning : .approval id ∉ s.running) :
    Valid codec registry (AgentState.updateApprovals guard f s).2 ∧
      ∀ r, r ≠ .approval id → Untouched r s (AgentState.updateApprovals guard f s).2 := by
  refine ⟨h.updateApprovals hsame fun row hrow hguard => ?_, fun r hr => ?_⟩
  · obtain ⟨rfl, hclaimed⟩ := hown row hrow hguard
    exact ⟨(hstate row).1.trans hclaimed.symm, fun _ =>
      (hstate row).2, hran row hrow hguard, hrunning⟩
  · refine untouched_updateApprovals fun row hrow hrow_run _ => ?_
    rw [← Bool.not_eq_true]
    intro hguard
    obtain ⟨rfl, _⟩ := hown row hrow hguard
    exact hr hrow_run

/-- A new request starts out pending. -/
theorem Valid.insertApproval (h : Valid codec registry s) {row : ApprovalRow}
    (hid : row.id ∉ s.approvals.map ApprovalRow.id) (hstate : row.state = .pending) :
    Valid codec registry (AgentState.insertApproval row s).2 ∧
      ∀ r, Untouched r s (AgentState.insertApproval row s).2 := by
  rw [AgentState.insertApproval]
  split_ifs with hbinding
  · exact ⟨h, fun r => .refl⟩
  · have hnew : row.binding ∉ s.approvals.map ApprovalRow.binding := by
      intro hmem
      obtain ⟨other, hother, he⟩ := List.mem_map.mp hmem
      exact hbinding (List.any_eq_true.mpr ⟨other, hother, decide_eq_true he⟩)
    have hsub : ∀ other ∈ s.approvals, other ∈ s.approvals ++ [row] := fun other =>
      List.mem_append_left _
    refine ⟨⟨⟨?_, ?_, h.approvals.claims_once, fun c hc => ?_, fun other hother hclaimed => ?_⟩,
      h.trades.congr rfl rfl rfl,
      ⟨h.starts.once, fun x hx => ?_, h.starts.running_once, h.starts.running_started,
        fun run hrun => ?_⟩⟩,
      fun r => ⟨fun other hother _ _ => hsub other hother, fun _ hother _ _ => hother, id, id⟩⟩
    · rw [List.map_append, List.map_singleton, ← List.concat_eq_append]
      exact h.approvals.ids.concat hid
    · rw [List.map_append, List.map_singleton, ← List.concat_eq_append]
      exact h.approvals.bindings.concat hnew
    · obtain ⟨other, hother, hc⟩ := h.approvals.claimed c hc
      exact ⟨other, hsub other hother, hc⟩
    · obtain hother | hother := List.mem_append.mp hother
      · exact h.approvals.decided other hother hclaimed
      · rw [List.mem_singleton.mp hother, hstate] at hclaimed
        cases hclaimed
    · have hgrounded := h.starts.grounded x hx
      obtain ⟨run, tool, args⟩ := x
      cases run with
      | call => exact hgrounded
      | submission id => exact hgrounded
      | approval id =>
        obtain ⟨other, hother, hruns⟩ := hgrounded
        exact ⟨other, hsub other hother, hruns⟩
    · have hlive := h.starts.live run hrun
      cases run with
      | call => trivial
      | submission id => exact hlive
      | approval id =>
        obtain ⟨other, hother, hexecuting⟩ := hlive
        exact ⟨other, hsub other hother, hexecuting⟩

theorem Valid.expireApproval (h : Valid codec registry s) (id : String) (now : ℤ) :
    Valid codec registry (AgentState.expireApproval id now s).2 ∧
      ∀ r, Untouched r s (AgentState.expireApproval id now s).2 := by
  apply h.updatePending
  · exact fun row => ⟨rfl, rfl, rfl, rfl⟩
  · intro row hguard
    rw [Bool.and_eq_true, decide_eq_true_iff, decide_eq_true_iff] at hguard
    exact hguard.2
  · exact fun row => rfl

theorem Valid.expireOverdue (h : Valid codec registry s) (now : ℤ) :
    Valid codec registry (AgentState.expireOverdue now s).2 ∧
      ∀ r, Untouched r s (AgentState.expireOverdue now s).2 := by
  apply h.updatePending
  · exact fun row => ⟨rfl, rfl, rfl, rfl⟩
  · intro row hguard
    rw [Bool.and_eq_true, decide_eq_true_iff, decide_eq_true_iff] at hguard
    exact hguard.1
  · exact fun row => rfl

theorem Valid.denyApproval (h : Valid codec registry s) (id : String) (now : ℤ) :
    Valid codec registry (AgentState.denyApproval id now s).2 ∧
      ∀ r, Untouched r s (AgentState.denyApproval id now s).2 := by
  apply h.updatePending
  · exact fun row => ⟨rfl, rfl, rfl, rfl⟩
  · intro row hguard
    rw [Bool.and_eq_true, decide_eq_true_iff, decide_eq_true_iff] at hguard
    exact hguard.2
  · exact fun row => rfl

/-- The rows a claim takes. -/
def claimable (id : String) (now : ℤ) (row : ApprovalRow) : Bool :=
  row.id = id && row.state = .pending && row.expiresAt > now

def asClaimed (now : ℤ) (row : ApprovalRow) : ApprovalRow :=
  { row with state := .claimed, resolvedAt := some now, decidedBy := some "dashboard" }

theorem claimable_iff {id : String} {now : ℤ} {row : ApprovalRow} :
    claimable id now row = true ↔ row.id = id ∧ row.state = .pending ∧ now < row.expiresAt := by
  rw [claimable, Bool.and_eq_true, Bool.and_eq_true, decide_eq_true_iff, decide_eq_true_iff,
    decide_eq_true_iff, and_assoc]

/-- A claim that takes a row moves a pending request before it expires, and is remembered. -/
theorem Valid.claimRow (h : Valid codec registry s) {id : String} {now : ℤ} {row : ApprovalRow}
    (hrow : row ∈ s.approvals) (hclaimable : claimable id now row = true) :
    Valid codec registry { (AgentState.updateApprovals (claimable id now) (asClaimed now) s).2 with
      claims := s.claims ++ [(id, now)] } := by
  obtain ⟨rfl, hpending, hlive⟩ := claimable_iff.mp hclaimable
  have hsame : ∀ other, (if claimable row.id now other = true then asClaimed now other else other
      ).SameRequest other := by
    intro other
    split_ifs
    · exact ⟨rfl, rfl, rfl, rfl⟩
    · exact .refl other
  have hother : ∀ other ∈ s.approvals, claimable row.id now other = true → other = row :=
    fun other hmem hguard => h.approvals.eq_of_id hmem hrow (claimable_iff.mp hguard).1
  have hnew : row.id ∉ s.claims.map Prod.fst := by
    intro hmem
    obtain ⟨c, hc, hid⟩ := List.mem_map.mp hmem
    obtain ⟨other, hmem, hother_id, hclaimed⟩ := h.approvals.claimed c hc
    rw [h.approvals.eq_of_id hmem hrow (hother_id.trans hid), hpending] at hclaimed
    cases hclaimed
  refine ⟨⟨?_, ?_, ?_, fun c hc => ?_, fun other' hother' hclaimed => ?_⟩,
    h.trades.congr rfl rfl rfl,
    h.starts.mapApprovals hsame (fun other hmem hran => ?_) (fun other hmem hrun => ?_) _⟩
  · have hids := h.approvals.ids
    rw [← List.map_congr_left (fun other _ => (hsame other).id_eq), ← Function.comp_def,
      ← List.map_map] at hids
    exact hids
  · have hbindings := h.approvals.bindings
    rw [← List.map_congr_left (fun other _ => (hsame other).binding_eq), ← Function.comp_def,
      ← List.map_map] at hbindings
    exact hbindings
  · rw [List.map_append, List.map_singleton, ← List.concat_eq_append]
    exact h.approvals.claims_once.concat hnew
  · obtain hc | hc := List.mem_append.mp hc
    · obtain ⟨other, hmem, hid, hclaimed⟩ := h.approvals.claimed c hc
      refine ⟨_, List.mem_map_of_mem hmem, (hsame other).id_eq.trans hid, ?_⟩
      split_ifs
      · rfl
      · exact hclaimed
    · obtain rfl := List.mem_singleton.mp hc
      refine ⟨_, List.mem_map_of_mem hrow, (hsame row).id_eq, ?_⟩
      rw [if_pos hclaimable]
      rfl
  · obtain ⟨other, hmem, rfl⟩ := List.mem_map.mp hother'
    split_ifs at hclaimed ⊢ with hguard
    · obtain rfl := hother other hmem hguard
      exact ⟨rfl, now, hlive, List.mem_append_right _ List.mem_cons_self⟩
    · obtain ⟨hdashboard, t, ht, hclaim⟩ := h.approvals.decided other hmem hclaimed
      exact ⟨hdashboard, t, ht, List.mem_append_left _ hclaim⟩
  · split_ifs with hguard
    · rw [(claimable_iff.mp hguard).2.1] at hran
      cases hran
    · exact hran
  · split_ifs with hguard
    · have hexecuting := h.executing_of_running hmem hrun
      rw [(claimable_iff.mp hguard).2.1] at hexecuting
      cases hexecuting
    · rfl

theorem claimApproval_eq (id : String) (now : ℤ) (s : AgentState) :
    AgentState.claimApproval id now s = (s.approvals.countP (claimable id now),
      if s.approvals.countP (claimable id now) = 0 then
        (AgentState.updateApprovals (claimable id now) (asClaimed now) s).2
      else { (AgentState.updateApprovals (claimable id now) (asClaimed now) s).2 with
        claims := s.claims ++ [(id, now)] }) := rfl

theorem Valid.claimApproval (h : Valid codec registry s) (id : String) (now : ℤ) :
    Valid codec registry (AgentState.claimApproval id now s).2 ∧
      (∀ r, Untouched r s (AgentState.claimApproval id now s).2) ∧
      ((AgentState.claimApproval id now s).1 ≠ 0 →
        (∃ row ∈ s.approvals, row.id = id ∧ row.state = .pending) ∧
        ∃ row ∈ (AgentState.claimApproval id now s).2.approvals, row.id = id ∧
          row.state = .claimed) := by
  have huntouched : ∀ r, Untouched r s
      (AgentState.updateApprovals (claimable id now) (asClaimed now) s).2 := by
    intro r
    refine untouched_updateApprovals fun row _ _ hstate => ?_
    rw [← Bool.not_eq_true, claimable_iff]
    rintro ⟨-, hpending, -⟩
    rw [hpending] at hstate
    obtain hstate | hstate := hstate <;> cases hstate
  rw [claimApproval_eq]
  by_cases hnone : s.approvals.countP (claimable id now) = 0
  · rw [if_pos hnone]
    refine ⟨h.updateApprovals (fun row => ⟨rfl, rfl, rfl, rfl⟩) fun row hrow hguard =>
      ?_, huntouched,
      fun hsome => absurd hnone hsome⟩
    exact absurd hguard (List.countP_eq_zero.mp hnone row hrow)
  · rw [if_neg hnone]
    obtain ⟨row, hrow, hguard⟩ := List.countP_pos_iff.mp (Nat.pos_of_ne_zero hnone)
    obtain ⟨hid, hpending, -⟩ := claimable_iff.mp hguard
    refine ⟨h.claimRow hrow hguard, fun r => ?_, fun _ => ⟨⟨row, hrow, hid, hpending⟩, ?_⟩⟩
    · exact ⟨(huntouched r).approval, (huntouched r).trade, (huntouched r).started,
        (huntouched r).running⟩
    · refine ⟨_, List.mem_map_of_mem hrow, ?_⟩
      rw [if_pos hguard]
      exact ⟨hid, rfl⟩

/-- A row that a stage holds and whose tool does not run. -/
theorem Valid.not_running (h : Valid codec registry s) {row : ApprovalRow}
    (hrow : row ∈ s.approvals)
    (hstate : row.state = .claimed) : .approval row.id ∉ s.running := by
  intro hrun
  have hexecuting := h.executing_of_running hrow hrun
  rw [hstate] at hexecuting
  cases hexecuting

/-- The statements that close a claimed request without its tool. -/
theorem Valid.fail (h : Valid codec registry s) {row : ApprovalRow} (hrow : row ∈ s.approvals)
    (hclaimed : row.state = .claimed) (now : ℤ) :
    (Valid codec registry (AgentState.failIntegrity row.id now s).2 ∧
      ∀ r, r ≠ .approval row.id → Untouched r s (AgentState.failIntegrity row.id now s).2) ∧
    (Valid codec registry (AgentState.failUnreadable row.id now s).2 ∧
      ∀ r, r ≠ .approval row.id → Untouched r s (AgentState.failUnreadable row.id now s).2) := by
  constructor
  · refine h.updateOwn (fun other => ⟨rfl, rfl, rfl, rfl⟩) (fun other hother hguard => ?_)
      (fun other => ⟨rfl, rfl⟩) (fun _ _ _ _ => rfl) (h.not_running hrow hclaimed)
    have hid := of_decide_eq_true hguard
    rw [h.approvals.eq_of_id hother hrow hid, hclaimed]
    exact ⟨rfl, rfl⟩
  · refine h.updateOwn (fun other => ⟨rfl, rfl, rfl, rfl⟩) (fun other _ hguard => ?_)
      (fun other => ⟨rfl, rfl⟩) (fun _ _ _ _ => rfl) (h.not_running hrow hclaimed)
    rw [Bool.and_eq_true, decide_eq_true_iff, decide_eq_true_iff] at hguard
    exact ⟨hguard.1, by rw [hguard.2]; rfl⟩

/-- A claimed request is marked executing, once. -/
theorem Valid.markExecuting (h : Valid codec registry s) {row : ApprovalRow}
    (hrow : row ∈ s.approvals)
    (hclaimed : row.state = .claimed) :
    (Valid codec registry (AgentState.markExecuting row.id s).2 ∧
      ∀ r, r ≠ .approval row.id → Untouched r s (AgentState.markExecuting row.id s).2) ∧
    (AgentState.markExecuting row.id s).1 ≠ 0 ∧
    row.asExecuting ∈ (AgentState.markExecuting row.id s).2.approvals := by
  have hguard : (decide (row.id = row.id) && decide (row.state = .claimed)) = true := by
    rw [hclaimed, Bool.and_eq_true]
    exact ⟨decide_eq_true rfl, rfl⟩
  refine ⟨h.updateOwn (fun other => ⟨rfl, rfl, rfl, rfl⟩) (fun other _ hguard => ?_)
    (fun other => ⟨rfl, rfl⟩) (fun _ _ _ _ => rfl) (h.not_running hrow hclaimed), ?_, ?_⟩
  · rw [Bool.and_eq_true, decide_eq_true_iff, decide_eq_true_iff] at hguard
    exact ⟨hguard.1, by rw [hguard.2]; rfl⟩
  · exact (mem_updateApprovals hrow hguard).2
  · exact (mem_updateApprovals hrow hguard).1

/-- An executing request is closed only once its tool does not run. -/
theorem Valid.closeExecuting (h : Valid codec registry s) {id : String} {state : ApprovalState}
    (hstate : state = .done ∨ state = .failed ∨ state = .interrupted)
    (hrunning : .approval id ∉ s.running) (stored : Json) (now : ℤ) :
    Valid codec registry (AgentState.closeExecuting id state stored now s).2 ∧
      ∀ r, r ≠ .approval id →
        Untouched r s (AgentState.closeExecuting id state stored now s).2 := by
  refine h.updateOwn (fun other => ⟨rfl, rfl, rfl, rfl⟩) (fun other _ hguard => ?_)
    (fun other => ⟨?_, rfl⟩) (fun other _ _ _ => ?_) hrunning
  · rw [Bool.and_eq_true, decide_eq_true_iff, decide_eq_true_iff] at hguard
    exact ⟨hguard.1, by rw [hguard.2]; rfl⟩
  · obtain rfl | rfl | rfl := hstate <;> rfl
  · obtain rfl | rfl | rfl := hstate <;> rfl

/-- A close of a request that is still claimed changes nothing. -/
theorem closeExecuting_claimed (h : Valid codec registry s) {row : ApprovalRow}
    (hrow : row ∈ s.approvals) (hclaimed : row.state = .claimed) (state : ApprovalState)
    (stored : Json) (now : ℤ) : (AgentState.closeExecuting row.id state stored now s).2 = s := by
  refine updateApprovals_none fun other hother => ?_
  rw [← Bool.not_eq_true]
  intro hguard
  rw [Bool.and_eq_true, decide_eq_true_iff, decide_eq_true_iff] at hguard
  rw [h.approvals.eq_of_id hother hrow hguard.1, hclaimed] at hguard
  cases hguard.2

end Approvals

section Trades

variable {g : SubmissionRow → SubmissionRow}

/-- Trades that only ever stop running keep the table valid. -/
theorem TradesValid.map (h : TradesValid s) (hsame : ∀ row, (g row).SameTrade row)
    (hstate : ∀ row, (g row).state = .submitted → row.state = .submitted) :
    TradesValid { s with submissions := s.submissions.map g } := by
  have hids : (s.submissions.map g).map SubmissionRow.id = s.submissions.map SubmissionRow.id := by
    rw [List.map_map]
    exact List.map_congr_left fun row _ => (hsame row).id_eq
  refine ⟨hids ▸ h.ids, h.recorded_ids, fun row' hrow' => ?_, fun x hx => ?_,
    fun row' hrow' other' hother' hrunning hrunning' hbinding => ?_, h.spaced⟩
  · obtain ⟨row, hrow, rfl⟩ := List.mem_map.mp hrow'
    obtain ⟨x, hx, htrade⟩ := h.recorded row hrow
    exact ⟨x, hx, (hsame row).trans htrade⟩
  · obtain ⟨row, hrow, htrade⟩ | hpruned := h.retained x hx
    · exact .inl ⟨g row, List.mem_map_of_mem hrow, (hsame row).trans htrade⟩
    · exact .inr hpruned
  · obtain ⟨row, hrow, rfl⟩ := List.mem_map.mp hrow'
    obtain ⟨other, hother, rfl⟩ := List.mem_map.mp hother'
    rw [(hsame row).id_eq, (hsame other).id_eq]
    rw [(hsame row).binding_eq, (hsame other).binding_eq] at hbinding
    exact h.one_running row hrow other hother (hstate row hrunning)
      (hstate other hrunning') hbinding

/-- Where the rows of running trades stay, the starts stay valid. -/
theorem StartsValid.mapSubmissions (h : StartsValid codec registry s) {rows : List SubmissionRow}
    (hrows : ∀ row ∈ s.submissions, .submission row.id ∈ s.running → row.state = .submitted →
      row ∈ rows) {submitted : List SubmissionRow} (hsubmitted : s.submitted ⊆ submitted)
    (prunes : List ℤ) : StartsValid codec registry
      { s with submissions := rows, submitted := submitted, prunes := prunes } := by
  refine ⟨h.once, fun x hx => ?_, h.running_once, h.running_started, fun run hrun => ?_⟩
  · have hgrounded := h.grounded x hx
    obtain ⟨run, tool, args⟩ := x
    cases run with
    | call => exact hgrounded
    | approval id => exact hgrounded
    | submission id =>
      obtain ⟨row, hrow, hruns⟩ := hgrounded
      exact ⟨row, hsubmitted hrow, hruns⟩
  · have hlive := h.live run hrun
    cases run with
    | call => trivial
    | approval id => exact hlive
    | submission id =>
      obtain ⟨row, hrow, rfl, hstate⟩ := hlive
      exact ⟨row, hrows row hrow hrun hstate, rfl, hstate⟩

/-- A trade is closed only once its tool does not run. -/
theorem Valid.closeRunning (h : Valid codec registry s) {id : String} {state : SubmissionState}
    (hstate : state ≠ .submitted) (hrunning : .submission id ∉ s.running)
    (stored : Json) (now : ℤ) :
    Valid codec registry (AgentState.closeRunning id state stored now s).2 ∧
      ∀ r, r ≠ .submission id →
        Untouched r s (AgentState.closeRunning id state stored now s).2 := by
  set g : SubmissionRow → SubmissionRow := fun row =>
    if (decide (row.id = id) && decide (row.state = .submitted)) = true then
      { row with state := state, result := some stored, finishedAt := some now } else row with hg
  have hother : ∀ row, row.id ≠ id → g row = row := by
    intro row hid
    refine if_neg fun hguard => ?_
    rw [Bool.and_eq_true, decide_eq_true_iff] at hguard
    exact hid hguard.1
  have hsame : ∀ row, (g row).SameTrade row := by
    intro row
    rw [hg]
    dsimp only
    split_ifs
    · exact ⟨rfl, rfl, rfl⟩
    · exact .refl row
  have hclosed : ∀ row, (g row).state = .submitted → row.state = .submitted := by
    intro row
    rw [hg]
    dsimp only
    split_ifs
    · exact fun he => absurd he hstate
    · exact fun he => he
  refine ⟨⟨h.approvals.congr rfl rfl, h.trades.map hsame hclosed,
    h.starts.mapSubmissions (fun row hrow hrun _ => ?_) (List.Subset.refl _) s.prunes⟩,
      fun r hr => ?_⟩
  · refine List.mem_map.mpr ⟨row, hrow, hother row fun hid => ?_⟩
    exact hrunning (hid ▸ hrun)
  · refine ⟨fun _ hrow _ _ => hrow, fun row hrow hrow_run _ => ?_, fun h => h, fun h => h⟩
    exact List.mem_map.mpr ⟨row, hrow, hother row fun hid => hr (hid ▸ hrow_run)⟩

/-- A prune keeps what runs and what an identical call still has to find. -/
theorem mem_pruneRows {now : ℤ} {rows : List SubmissionRow} {row : SubmissionRow}
    (hrow : row ∈ rows)
    (hkeep : row.state = .submitted ∨ now - reuseWindow < row.createdAt) :
    row ∈ AgentState.pruneRows now rows := by
  have hwindow : now - retentionSecs ≤ now - reuseWindow := by
    simp only [retentionSecs, reuseWindow]
    omega
  rw [AgentState.pruneRows, List.mem_filter, List.mem_filter]
  simp only [Bool.or_eq_true, decide_eq_true_eq]
  obtain hstate | hnew := hkeep
  · exact ⟨⟨hrow, .inl hstate⟩, .inl (.inl hstate)⟩
  · exact ⟨⟨hrow, .inr (hwindow.trans hnew.le)⟩, .inl (.inr hnew)⟩

theorem pruneRows_sublist (now : ℤ) (rows : List SubmissionRow) :
    (AgentState.pruneRows now rows).Sublist rows :=
  List.filter_sublist.trans List.filter_sublist

theorem Valid.prune (h : Valid codec registry s) (now : ℤ) :
    Valid codec registry (s.prune now) ∧ ∀ r, Untouched r s (s.prune now) := by
  have hsub := pruneRows_sublist now s.submissions
  have hstays : ∀ row ∈ s.submissions, row.state = .submitted →
      row ∈ AgentState.pruneRows now s.submissions := fun row hrow hstate =>
    mem_pruneRows hrow (.inl hstate)
  have hprunes : ∀ p ∈ s.prunes, p ∈ s.prunes ++ [now] := fun p => List.mem_append_left _
  refine ⟨⟨h.approvals.congr rfl rfl, ⟨(hsub.map _).nodup h.trades.ids, h.trades.recorded_ids,
      fun row hrow => h.trades.recorded row (hsub.subset hrow), fun x hx => ?_,
      fun row hrow other hother => h.trades.one_running row (hsub.subset hrow) other
        (hsub.subset hother), ?_⟩,
    h.starts.mapSubmissions (fun row hrow _ hstate => hstays row hrow hstate)
      (List.Subset.refl _) _⟩,
    fun r => ⟨fun _ hrow _ _ => hrow, fun row hrow _ hstate => hstays row hrow hstate, fun h => h,
      fun h => h⟩⟩
  · obtain ⟨row, hrow, htrade⟩ | ⟨p, hp, hold⟩ := h.trades.retained x hx
    · by_cases hnew : now - reuseWindow < row.createdAt
      · exact .inl ⟨row, mem_pruneRows hrow (.inr hnew), htrade⟩
      · refine .inr ⟨now, List.mem_append_right _ List.mem_cons_self, ?_⟩
        rw [← htrade.createdAt_eq]
        omega
    · exact .inr ⟨p, hprunes p hp, hold⟩
  · refine h.trades.spaced.imp fun hspaced hbinding => ?_
    obtain hlater | ⟨p, hp, hold⟩ := hspaced hbinding
    · exact .inl hlater
    · exact .inr ⟨p, hprunes p hp, hold⟩

/-- A trade is recorded when no row answers it, with an id of its own. -/
theorem Valid.appendSubmission (h : Valid codec registry s) {row : SubmissionRow}
    (hnone : s.reusable row.binding row.createdAt = [])
    (hid : row.id ∉ s.submitted.map SubmissionRow.id) :
    Valid codec registry { s with submissions := s.submissions ++ [row],
                                  submitted := s.submitted ++ [row] } ∧
      ∀ r, Untouched r s { s with submissions := s.submissions ++ [row],
                                  submitted := s.submitted ++ [row] } := by
  have hsub : ∀ other ∈ s.submissions, other ∈ s.submissions ++ [row] := fun other =>
    List.mem_append_left _
  -- a row of the binding is neither running nor recent
  have hold : ∀ other ∈ s.submissions, other.binding = row.binding →
      other.state ≠ .submitted ∧ other.createdAt + reuseWindow ≤ row.createdAt := by
    intro other hother hbinding
    have hnot := List.filter_eq_nil_iff.mp hnone other hother
    simp only [Bool.and_eq_true, Bool.or_eq_true, decide_eq_true_eq, hbinding, true_and,
      not_or] at hnot
    exact ⟨hnot.1, by omega⟩
  have hnew : row.id ∉ s.submissions.map SubmissionRow.id := by
    intro hmem
    obtain ⟨other, hother, he⟩ := List.mem_map.mp hmem
    obtain ⟨x, hx, htrade⟩ := h.trades.recorded other hother
    exact hid (List.mem_map.mpr ⟨x, hx, htrade.id_eq.symm.trans he⟩)
  refine ⟨⟨h.approvals.congr rfl rfl, ⟨?_, ?_, fun other hother => ?_, fun x hx => ?_,
      fun other hother third hthird hrunning hrunning' hbinding => ?_, ?_⟩,
    h.starts.mapSubmissions (fun other hother _ _ => hsub other hother)
      (List.subset_append_left _ _) _⟩,
    fun r => ⟨fun _ hother _ _ => hother, fun other hother _ _ => hsub other hother, fun h => h,
      fun h => h⟩⟩
  · rw [List.map_append, List.map_singleton, ← List.concat_eq_append]
    exact h.trades.ids.concat hnew
  · rw [List.map_append, List.map_singleton, ← List.concat_eq_append]
    exact h.trades.recorded_ids.concat hid
  · obtain hother | hother := List.mem_append.mp hother
    · obtain ⟨x, hx, htrade⟩ := h.trades.recorded other hother
      exact ⟨x, List.mem_append_left _ hx, htrade⟩
    · obtain rfl := List.mem_singleton.mp hother
      exact ⟨other, List.mem_append_right _ List.mem_cons_self, .refl other⟩
  · obtain hx | hx := List.mem_append.mp hx
    · obtain ⟨other, hother, htrade⟩ | hpruned := h.trades.retained x hx
      · exact .inl ⟨other, hsub other hother, htrade⟩
      · exact .inr hpruned
    · obtain rfl := List.mem_singleton.mp hx
      exact .inl ⟨x, List.mem_append_right _ List.mem_cons_self, .refl x⟩
  · rw [List.mem_append, List.mem_singleton] at hother hthird
    obtain hother | rfl := hother <;> obtain hthird | rfl := hthird
    · exact h.trades.one_running other hother third hthird hrunning hrunning' hbinding
    · exact absurd hrunning (hold other hother hbinding).1
    · exact absurd hrunning' (hold third hthird hbinding.symm).1
    · rfl
  · refine List.pairwise_append.mpr ⟨h.trades.spaced, List.pairwise_singleton _ _, ?_⟩
    intro x hx y hy hbinding
    obtain rfl := List.mem_singleton.mp hy
    obtain ⟨other, hother, htrade⟩ | hpruned := h.trades.retained x hx
    · left
      rw [← htrade.createdAt_eq]
      exact (hold other hother (htrade.binding_eq.trans hbinding)).2
    · exact .inr hpruned

theorem Valid.recordSubmission (h : Valid codec registry s) (row : SubmissionRow) (pruneNow : ℤ)
    (hnone : s.reusable row.binding row.createdAt = [])
    (hid : row.id ∉ s.submitted.map SubmissionRow.id) (hstate : row.state = .submitted) :
    Valid codec registry (s.recordSubmission row pruneNow) ∧
      (∀ r, Untouched r s (s.recordSubmission row pruneNow)) ∧
      row ∈ (s.recordSubmission row pruneNow).submissions := by
  obtain ⟨hvalid, huntouched⟩ := h.appendSubmission hnone hid
  obtain ⟨hvalid', huntouched'⟩ := hvalid.prune pruneNow
  refine ⟨hvalid', fun r => ⟨(huntouched r).approval, fun other hother hr hrunning => ?_,
    fun hmem => hmem, fun hmem => hmem⟩, ?_⟩
  · exact (huntouched' r).trade other ((huntouched r).trade other hother hr hrunning) hr hrunning
  · exact mem_pruneRows (List.mem_append_right _ List.mem_cons_self) (.inl hstate)

end Trades

section Tools

theorem Grounded.congr {x : Start} (h : Grounded codec registry s x)
    (happrovals : s'.approvals = s.approvals) (hsubmitted : s'.submitted = s.submitted) :
    Grounded codec registry s' x := by
  obtain ⟨run, tool, args⟩ := x
  cases run with
  | call => exact h
  | approval id => simpa only [Grounded, happrovals] using h
  | submission id => simpa only [Grounded, hsubmitted] using h

theorem Live.congr (h : Live s r) (happrovals : s'.approvals = s.approvals)
    (hsubmissions : s'.submissions = s.submissions) : Live s' r := by
  cases r with
  | call => trivial
  | approval id => simpa only [Live, happrovals] using h
  | submission id => simpa only [Live, hsubmissions] using h

/-- A tool that sends no transaction runs within its call. -/
theorem Valid.execute (h : Valid codec registry s) {tool : String} (args : Json)
    (hsends : ∀ t, registry.get tool = some t → t.sendsTransaction = false) :
    Valid codec registry { s with started := s.started ++ [⟨.call, tool, args⟩] } ∧
      ∀ r, r ≠ .call → Untouched r s { s with started := s.started ++ [⟨.call, tool, args⟩] } := by
  refine ⟨⟨h.approvals.congr rfl rfl, h.trades.congr rfl rfl rfl, ?_, fun x hx => ?_,
    h.starts.running_once, fun run hrun => ?_, fun run hrun =>
      (h.starts.live run hrun).congr rfl rfl⟩,
    fun r hr => ⟨fun _ h _ _ => h, fun _ h _ _ => h, fun hmem => ?_, fun h => h⟩⟩
  · rw [List.map_append, List.filter_append]
    simpa using h.starts.once
  · obtain hx | hx := List.mem_append.mp hx
    · exact (h.starts.grounded x hx).congr rfl rfl
    · obtain rfl := List.mem_singleton.mp hx
      exact hsends
  · rw [List.map_append]
    exact List.mem_append_left _ (h.starts.running_started run hrun)
  · rw [List.map_append, List.mem_append] at hmem
    obtain hmem | hmem := hmem
    · exact hmem
    · exact absurd (List.mem_singleton.mp hmem) hr

/-- A tool is started for a request or trade that asks for it and for which none was started. -/
theorem Valid.startTool (h : Valid codec registry s) {run : RunId} {tool : String} {args : Json}
    (hcall : run ≠ .call) (hnew : run ∉ s.started.map Start.run)
    (hgrounded : Grounded codec registry s ⟨run, tool, args⟩) (hlive : Live s run) :
    Valid codec registry { s with running := s.running ++ [run],
                                  started := s.started ++ [⟨run, tool, args⟩] } ∧
      ∀ r, r ≠ run → Untouched r s { s with running := s.running ++ [run],
                                            started := s.started ++ [⟨run, tool, args⟩] } := by
  have hmap : (s.started ++ [(⟨run, tool, args⟩ : Start)]).map Start.run
      = s.started.map Start.run ++ [run] := by
    rw [List.map_append, List.map_singleton]
  refine ⟨⟨h.approvals.congr rfl rfl, h.trades.congr rfl rfl rfl, ?_, fun x hx => ?_, ?_,
    fun r hr => ?_, fun r hr => ?_⟩,
    fun r hr => ⟨fun _ h _ _ => h, fun _ h _ _ => h, fun hmem => ?_, fun hmem => ?_⟩⟩
  · have hkept : [run].filter (· ≠ .call) = [run] :=
      List.filter_eq_self.mpr fun r hr => decide_eq_true (List.mem_singleton.mp hr ▸ hcall)
    rw [hmap, List.filter_append, hkept, ← List.concat_eq_append]
    exact h.starts.once.concat fun hmem => hnew (List.mem_filter.mp hmem).1
  · obtain hx | hx := List.mem_append.mp hx
    · exact (h.starts.grounded x hx).congr rfl rfl
    · obtain rfl := List.mem_singleton.mp hx
      exact hgrounded.congr rfl rfl
  · rw [← List.concat_eq_append]
    exact h.starts.running_once.concat fun hmem => hnew (h.starts.running_started run hmem)
  · rw [hmap]
    obtain hr | hr := List.mem_append.mp hr
    · exact List.mem_append_left _ (h.starts.running_started r hr)
    · exact List.mem_append_right _ hr
  · obtain hr | hr := List.mem_append.mp hr
    · exact (h.starts.live r hr).congr rfl rfl
    · obtain rfl := List.mem_singleton.mp hr
      exact hlive.congr rfl rfl
  · rw [hmap, List.mem_append, List.mem_singleton] at hmem
    exact hmem.resolve_right hr
  · obtain hmem | hmem := List.mem_append.mp hmem
    · exact hmem
    · exact absurd (List.mem_singleton.mp hmem) hr

theorem Valid.awaitTool (h : Valid codec registry s) (run : RunId) :
    Valid codec registry { s with running := s.running.erase run } ∧
      (∀ r, Untouched r s { s with running := s.running.erase run }) ∧
      run ∉ s.running.erase run := by
  refine ⟨⟨h.approvals.congr rfl rfl, h.trades.congr rfl rfl rfl, h.starts.once,
    fun x hx => (h.starts.grounded x hx).congr rfl rfl, h.starts.running_once.erase run,
    fun r hr => h.starts.running_started r (List.mem_of_mem_erase hr),
    fun r hr => (h.starts.live r (List.mem_of_mem_erase hr)).congr rfl rfl⟩,
    fun r => ⟨fun _ h _ _ => h, fun _ h _ _ => h, fun h => h, fun hr =>
      List.mem_of_mem_erase hr⟩, ?_⟩
  exact h.starts.running_once.not_mem_erase

end Tools

end ScreenerBot.AgentControl
