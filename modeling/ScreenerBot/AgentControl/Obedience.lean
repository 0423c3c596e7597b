import Mathlib
import ScreenerBot.AgentControl.BridgeRuns

/-! Every program of the bridge keeps to the stages of its request or trade. -/
namespace ScreenerBot.AgentControl
open Library

variable {codec : Codec} {registry : ToolRegistry} {inApp : ToolPermissions} {k : Stage}
  {α β : Type}

/-- A call that ends at the stage it started at, whether it fails or not. -/
abbrev Stays (codec : Codec) (registry : ToolRegistry) (k : Stage) (call : Agent α) : Prop :=
  (stages codec registry).Tries (fun k' _ => k' = k) (fun k' _ => k' = k) k call

/-- A call that obeys the stages, whatever it ends with. -/
abbrev Ends (codec : Codec) (registry : ToolRegistry) (k : Stage) (call : Agent α) : Prop :=
  (stages codec registry).Tries (fun _ _ => True) (fun _ _ => True) k call

theorem Stays.ends {call : Agent α} (h : Stays codec registry k call) :
    Ends codec registry k call :=
  h.mono (fun _ _ _ => trivial) fun _ _ _ => trivial

theorem Stays.pure (a : α) : Stays codec registry k (pure a : Agent α) := Typestate.Tries.pure rfl

theorem Stays.throw (e : AgentError) : Stays codec registry k (throw e : Agent α) :=
  Typestate.Tries.throw rfl

theorem Stays.bind {call : Agent α} {f : α → Agent β} (h : Stays codec registry k call)
    (hf : ∀ a, Stays codec registry k (f a)) : Stays codec registry k (call >>= f) := by
  refine Typestate.Tries.bind h ?_
  rintro k' a rfl
  exact hf a

/-- What follows a call that stays. -/
theorem Stays.then {ok : Stage → β → Prop} {err : Stage → AgentError → Prop} {call : Agent α}
    {f : α → Agent β} (h : Stays codec registry k call) (herr : ∀ e, err k e)
    (hf : ∀ a, (stages codec registry).Tries ok err k (f a)) :
    (stages codec registry).Tries ok err k (call >>= f) := by
  have h' : (stages codec registry).Tries (fun k' _ => k' = k) err k call :=
    h.mono (fun _ _ hk => hk) fun k' e hk => hk ▸ herr e
  refine Typestate.Tries.bind h' ?_
  rintro k' a rfl
  exact hf a

theorem Stays.ask {effect : AgentCall α} (hmay : k.may codec registry effect)
    (hafter : ∀ a, k.after effect a = k) :
    Stays codec registry k (Attempt.ask effect : Agent α) :=
  Typestate.Tries.ask hmay hafter

theorem Stays.perform {effect : AgentCall (Except AgentError α)}
    (hmay : k.may codec registry effect)
    (hafter : ∀ r, k.after effect r = k) :
    Stays codec registry k (Attempt.perform effect : Agent α) :=
  Typestate.Tries.perform hmay (fun a => hafter (.ok a)) fun e => hafter (.error e)

theorem Stays.outcome {call : Agent α} (h : Stays codec registry k call) :
    Stays codec registry k (outcome call) := by
  refine Typestate.Tries.mono (Typestate.Tries.kept h) (fun k' r hr => ?_) fun _ _ hk => hk
  cases r with
  | ok a => exact hr.1 a rfl
  | error e => exact hr.2 e rfl

theorem Stays.nowUnix : Stays codec registry k (Attempt.ask .nowUnix : Agent ℤ) :=
  .ask trivial fun _ => rfl

section Reads

theorem rowToHandle_stays (row : ApprovalRow) (created : Bool) :
    Stays codec registry k (rowToHandle row created) := by
  rw [rowToHandle]
  split_ifs
  · refine Stays.nowUnix.bind fun now => ?_
    split_ifs
    · refine Stays.nowUnix.bind fun resolved => ?_
      refine (Stays.perform (by trivial) fun _ => rfl).bind fun _ => ?_
      exact .pure _
    · exact .pure _
  · exact .pure _

theorem createOrReuse_stays (clientId tool : String) (args : Json) (correlationId : String) :
    Stays codec registry k (createOrReuse codec clientId tool args correlationId) := by
  refine Stays.nowUnix.bind fun now => ?_
  refine (Stays.perform (by trivial) fun _ => rfl).bind fun inserted => ?_
  refine (Stays.perform (by trivial) fun _ => rfl).bind fun row => ?_
  exact rowToHandle_stays row _

theorem approvalViewForClient_stays (id clientId : String) :
    Stays codec registry k (approvalViewForClient id clientId) := by
  refine (Stays.perform (by trivial) fun _ => rfl).bind fun found => ?_
  cases found with
  | none => exact .throw _
  | some row => exact rowToHandle_stays row false

theorem deny_stays (id : String) : Stays codec registry .idle (deny id) := by
  refine Stays.nowUnix.bind fun now => ?_
  refine (Stays.perform (by trivial) fun _ => rfl).bind fun changed => ?_
  split_ifs
  · exact (Stays.throw _).bind fun _ => .perform (fun _ hk => by cases hk) fun _ => rfl
  · exact .perform (fun _ hk => by cases hk) fun _ => rfl

theorem verify_stays (clientId secret : String) :
    Stays codec registry k (verify clientId secret) := by
  have hask : Stays codec registry k (Attempt.ask .enabled : Agent Bool) :=
    .ask trivial fun _ => rfl
  have hperform : Stays codec registry k
      (Attempt.perform (.authenticate clientId secret) : Agent AuthedClient) :=
    .perform trivial fun _ => rfl
  refine hask.bind fun enabled => ?_
  split_ifs
  · exact (Stays.throw _).bind fun _ => hperform
  · exact hperform

theorem submissionViewForClient_stays (tradeId clientId : String) :
    Stays codec registry k (submissionViewForClient tradeId clientId) :=
  (Stays.perform (by trivial) fun _ => rfl).bind fun _ => .pure _

theorem tradeStatus_stays (clientId : String) (args : Json) :
    Stays codec registry k (tradeStatus clientId args) := by
  rw [tradeStatus]
  split
  · exact .pure _
  · refine (submissionViewForClient_stays _ clientId).outcome.bind fun found => ?_
    split
    · exact .pure _
    · exact .pure _
    · exact .pure _

theorem approvalStatus_stays (clientId secret approvalId : String) :
    Stays codec registry k (approvalStatus clientId secret approvalId) :=
  (verify_stays clientId secret).bind fun _ => approvalViewForClient_stays _ _

theorem sweep_stays : Stays codec registry k sweep := by
  refine Stays.nowUnix.bind fun now => ?_
  refine (Stays.perform (by trivial) fun _ => rfl).bind fun _ => ?_
  refine Stays.nowUnix.bind fun now => ?_
  exact .perform trivial fun _ => rfl

end Reads

section Outcomes

/-- An outcome write that is only tried again from the stage it started at. -/
theorem retryWrite_tries {write : Agent α} {ok : Stage → α → Prop} {err : Stage → AgentError → Prop}
    (h : (stages codec registry).Tries ok err k write)
    (hretry : ∀ k' e, err k' e → e.isRetryable = true → k' = k) (attempts : ℕ) :
    (stages codec registry).Tries ok err k (retryWrite write attempts) := by
  induction attempts with
  | zero => exact h
  | succ attempts ih =>
    refine Typestate.Tries.bind h.kept fun k' r hr => ?_
    cases r with
    | ok a => exact .pure (hr.1 a rfl)
    | error e =>
      have herr := hr.2 e rfl
      show (stages codec registry).Tries ok err k'
        (if e.isRetryable = true then retryWrite write attempts else throw e)
      split_ifs with hretryable
      · obtain rfl := hretry k' e herr hretryable
        exact ih
      · exact .throw herr

/-- What follows an outcome write, once it is settled. -/
theorem writeOutcome_kept {write : Agent α} {ok : Stage → α → Prop}
    {err : Stage → AgentError → Prop}
    {f : Except AgentError α → Agent β} (h : (stages codec registry).Tries ok err k write)
    (hretry : ∀ k' e, err k' e → e.isRetryable = true → k' = k)
    (hok : ∀ k' a, ok k' a → Ends codec registry k' (f (.ok a)))
    (herr : ∀ k' e, err k' e → Ends codec registry k' (f (.error e))) :
    Ends codec registry k (outcome (writeOutcome write) >>= f) := by
  refine Typestate.Tries.bind (retryWrite_tries h hretry _).kept fun k' r hr => ?_
  cases r with
  | ok a => exact hok k' a (hr.1 a rfl)
  | error e => exact herr k' e (hr.2 e rfl)

/-- A request is still where it was unless the write found it closed. -/
def Unclosed (k : Stage) (k' : Stage) (e : AgentError) : Prop := e ≠ .approvalNotPending → k' = k

theorem Unclosed.retry {k k' : Stage} {e : AgentError} (h : Unclosed k k' e)
    (hretryable : e.isRetryable = true) : k' = k := by
  refine h fun he => ?_
  rw [he] at hretryable
  cases hretryable

theorem closeExecuting_tries {row : ApprovalRow}
    (hk : k = .loaded row ∨ k = .executing row ∨ k = .ended row) {state : ApprovalState}
    (hstate : state = .done ∨ state = .failed ∨ state = .interrupted) (stored : Json) :
    (stages codec registry).Tries (fun _ _ => True) (Unclosed k) k
      (closeExecuting row.id state stored) := by
  refine Stays.nowUnix.then (fun _ _ => rfl) fun now => ?_
  have hperform : (stages codec registry).Tries (fun _ _ => True) (Unclosed k) k
      (Attempt.perform (.closeExecuting row.id state stored now) : Agent ℕ) := by
    refine Typestate.Tries.perform ⟨⟨row, hk, rfl⟩, hstate⟩ (fun _ => trivial) fun e _ => ?_
    obtain rfl | rfl | rfl := hk <;> rfl
  refine hperform.bind fun k' changed _ => ?_
  split_ifs
  · exact .throw fun hne => absurd rfl hne
  · exact .pure trivial

theorem finishApproval_tries {row : ApprovalRow}
    (hk : k = .loaded row ∨ k = .executing row ∨ k = .ended row) (ok : Bool) (result : Json) :
    (stages codec registry).Tries (fun _ _ => True) (Unclosed k) k
      (finishApproval codec row.id ok result) := by
  refine closeExecuting_tries hk ?_ _
  cases ok <;> simp

theorem interruptApproval_ends {row : ApprovalRow} (cause : String) (sends : Bool) :
    Ends codec registry (.ended row) (interruptApproval row.id cause sends) := by
  refine writeOutcome_kept (closeExecuting_tries (.inr (.inr rfl)) (.inr (.inr rfl)) _)
    (fun _ _ h => h.retry) (fun k' _ _ => ?_) fun k' e _ => ?_
  · exact .pure trivial
  · exact .pure trivial

theorem settleApproval_ends {row : ApprovalRow} (k' : Stage) (ok sends : Bool)
    (stored : Except AgentError Unit) (h : ∀ e, stored = .error e → Unclosed (.ended row) k' e) :
    Ends codec registry k' (settleApproval row.id ok sends stored) := by
  rw [settleApproval.eq_def]
  split
  · exact .pure trivial
  · exact .pure trivial
  · next e hne =>
    obtain rfl : k' = .ended row := h e rfl hne
    refine Typestate.Tries.bind (interruptApproval_ends outcomeNotStored sends) fun _ _ _ => ?_
    exact .pure trivial

theorem closeRunning_tries {row : SubmissionRow} {state : SubmissionState}
    (hstate : state ≠ .submitted)
    (stored : Json) : (stages codec registry).Tries (fun _ _ => True)
    (fun k' _ => k' = .tradeEnded row)
      (.tradeEnded row) (closeRunning row.id state stored) := by
  refine Stays.nowUnix.then (fun _ => rfl) fun now => ?_
  have hperform : (stages codec registry).Tries (fun _ _ => True) (fun k' _ => k' = .tradeEnded row)
      (.tradeEnded row) (Attempt.perform (.closeRunning row.id state stored now) : Agent ℕ) :=
    .perform ⟨⟨row, rfl, rfl⟩, hstate⟩ (fun _ => trivial) fun _ => rfl
  exact hperform.bind fun _ _ _ => .pure trivial

theorem interruptSubmission_ends {row : SubmissionRow} (cause : String) :
    Ends codec registry (.tradeEnded row) (interruptSubmission row.id cause) := by
  refine writeOutcome_kept (closeRunning_tries (by simp) _) (fun _ _ h _ => h)
    (fun k' closed _ => ?_) fun k' e _ => ?_
  · cases closed
    · exact .pure trivial
    · exact .pure trivial
  · exact .pure trivial

end Outcomes

section Runs

theorem runSubmitted_ends {row : SubmissionRow} {tool : String} {args : Json}
    (hruns : row.Runs codec tool args) :
    Ends codec registry (.submitted row) (runSubmitted codec row.id tool args) := by
  have hstart : (stages codec registry).Tries (fun k' _ => k' = .tradeRunning row) (fun _ _ => True)
      (.submitted row) (Attempt.ask (.startTool (.submission row.id) tool args) : Agent Unit) :=
    .ask (.inr ⟨row, rfl, rfl, hruns⟩) fun _ => rfl
  have hawait : (stages codec registry).Tries (fun k' _ => k' = .tradeEnded row) (fun _ _ => True)
      (.tradeRunning row) (Attempt.ask (.awaitTool (.submission row.id)) : Agent
        (Option ToolResult)) :=
    .ask (.inr ⟨row, rfl, rfl⟩) fun _ => rfl
  refine hstart.bind ?_
  rintro _ _ rfl
  refine hawait.bind ?_
  rintro _ result rfl
  cases result with
  | none => exact interruptSubmission_ends _
  | some result =>
    have hfinish : (stages codec registry).Tries (fun _ _ => True)
      (fun k' _ => k' = .tradeEnded row)
        (.tradeEnded row) (finishSubmission codec row.id result.success result.toJson) :=
      closeRunning_tries (by split_ifs <;> simp) _
    refine writeOutcome_kept hfinish (fun _ _ h _ => h) (fun k' closed _ => ?_) ?_
    · cases closed
      · exact .pure trivial
      · exact .pure trivial
    · rintro _ e rfl
      exact interruptSubmission_ends _

theorem markExecuting_tries {row : ApprovalRow} :
    (stages codec registry).Tries (fun k' _ => k' = .executing row) (fun k' _ => k' = .loaded row)
      (.loaded row) (markExecuting row.id) := by
  have hperform : (stages codec registry).Tries
      (fun k' changed => k' = (Stage.loaded row).afterMark (.ok changed))
      (fun k' _ => k' = .loaded row)
      (.loaded row) (Attempt.perform (.markExecuting row.id) : Agent ℕ) :=
    .perform ⟨row, rfl, rfl⟩ (fun _ => rfl) fun _ => rfl
  refine hperform.bind ?_
  rintro _ changed rfl
  cases changed with
  | zero => exact .throw rfl
  | succ n => exact .pure rfl

theorem run_ends {row : ApprovalRow} {approved : ApprovedRun} (hid : row.id = approved.approvalId)
    (hruns : row.Runs codec approved.toolName approved.arguments) :
    Ends codec registry (.loaded row) (approved.run codec) := by
  rw [ApprovedRun.run, ← hid]
  have hmark : (stages codec registry).Tries (fun k' _ => k' = .executing row) (fun _ _ => True)
      (.loaded row) (writeOutcome (markExecuting row.id)) :=
    (retryWrite_tries markExecuting_tries (fun _ _ h _ => h) _).mono (fun _ _ h => h)
      fun _ _ _ => trivial
  have hstart : (stages codec registry).Tries (fun k' _ => k' = .running row) (fun _ _ => True)
      (.executing row) (Attempt.ask
        (.startTool (.approval row.id) approved.toolName approved.arguments) : Agent Unit) :=
    .ask (.inl ⟨row, rfl, rfl, hruns⟩) fun _ => rfl
  have hawait : (stages codec registry).Tries (fun k' _ => k' = .ended row) (fun _ _ => True)
      (.running row) (Attempt.ask (.awaitTool (.approval row.id)) : Agent (Option ToolResult)) :=
    .ask (.inl ⟨row, rfl, rfl⟩) fun _ => rfl
  refine hmark.bind ?_
  rintro _ _ rfl
  refine hstart.bind ?_
  rintro _ _ rfl
  refine hawait.bind ?_
  rintro _ result rfl
  have hanswer {f : String × Except AgentError Unit → Agent Unit}
      (hok : ∀ name, f (name, .ok ()) = Pure.pure ())
      (herr : ∀ name e, f (name, .error e) = throw e)
      (k' : Stage) (x : String × Except AgentError Unit) (_ : True) :
      Ends codec registry k' (f x) := by
    obtain ⟨name, e | _⟩ := x
    · rw [herr]
      exact .throw trivial
    · rw [hok]
      exact .pure trivial
  cases result with
  | none =>
    exact (interruptApproval_ends _ _).bind (hanswer (fun _ => rfl) fun _ _ => rfl)
  | some result =>
    refine writeOutcome_kept (finishApproval_tries (.inr (.inr rfl)) _ _) (fun _ _ h => h.retry)
      (fun k' _ _ => ?_) fun k' e h => ?_
    · exact (settleApproval_ends k' _ _ _ fun e he => by cases he).bind
        (hanswer (fun _ => rfl) fun _ _ => rfl)
    · exact (settleApproval_ends k' _ _ _ fun e' he => by cases he; exact h).bind
        (hanswer (fun _ => rfl) fun _ _ => rfl)

theorem failApproved_tries {row : ApprovalRow} (detail : String) :
    (stages codec registry).Tries (fun _ r => r = none) (fun _ _ => True) (.loaded row)
      (failApproved codec row.id detail) := by
  have hmark : (stages codec registry).Tries
      (fun k' _ => k' = .loaded row ∨ k' = .executing row ∨ k' = .ended row) (fun _ _ => True)
      (.loaded row) (outcome (markExecuting row.id)) := by
    refine markExecuting_tries.kept.mono (fun k' r hr => ?_) fun _ _ h => h
    cases r with
    | ok a => exact .inr (.inl (hr.1 a rfl))
    | error e => exact .inl (hr.2 e rfl)
  refine hmark.bind fun k' _ hk => ?_
  have hfinish : (stages codec registry).Tries (fun _ _ => True) (fun _ _ => True) k'
      (outcome (finishApproval codec row.id false (failure detail))) :=
    (finishApproval_tries hk _ _).kept.mono (fun _ _ _ => trivial) fun _ _ h => h
  exact hfinish.bind fun _ _ _ => .pure rfl

/-- A claim that succeeds leaves its program with the row it claimed and what it may run. -/
theorem claim_tries (id : String) : (stages codec registry).Tries
    (fun k' claimed => ∃ row, k' = .loaded row ∧ row.id = id ∧
      row.Runs codec claimed.tool claimed.canonicalArgs)
    (fun _ _ => True) .idle (claim codec id) := by
  refine Stays.nowUnix.then (fun _ => trivial) fun now => ?_
  have hclaim : (stages codec registry).Tries
      (fun k' changed => k' = Stage.idle.afterClaim id (.ok changed)) (fun _ _ => True) .idle
      (Attempt.perform (.claimApproval id now) : Agent ℕ) :=
    .perform rfl (fun _ => rfl) fun _ => trivial
  refine hclaim.bind ?_
  rintro _ changed rfl
  cases changed with
  | zero => exact Typestate.Tries.throw_then trivial
  | succ n =>
    have hread : (stages codec registry).Tries (fun k' row => k' = .loaded { row with id := id })
        (fun _ _ => True) (.claimed id) (Attempt.perform (.approvalById id) : Agent ApprovalRow) :=
      .perform (fun other hk => (Stage.claimed.inj hk).symm) (fun _ => rfl) fun _ => trivial
    refine hread.bind ?_
    rintro _ row rfl
    have hfail (effect : AgentCall (Except AgentError ℕ))
        (hmay : Stage.may codec registry (.loaded { row with id := id }) effect) :
        Ends codec registry (.loaded { row with id := id }) (outcome (Attempt.perform effect)) := by
      have hperform : Ends codec registry (.loaded { row with id := id })
          (Attempt.perform effect : Agent ℕ) := .perform hmay (fun _ => trivial) fun _ => trivial
      exact hperform.kept.mono (fun _ _ _ => trivial) fun _ _ h => h
    split_ifs with hdigest
    · refine Stays.nowUnix.then (fun _ => trivial) fun now => ?_
      exact (hfail (.failIntegrity id now) ⟨_, rfl, rfl⟩).bind fun _ _ _ =>
        Typestate.Tries.throw_then trivial
    · split
      · next args hparsed => exact .pure ⟨_, rfl, rfl, rfl, hparsed, not_not.mp hdigest⟩
      · refine Stays.nowUnix.then (fun _ => trivial) fun now => ?_
        exact (hfail (.failUnreadable id now) ⟨_, rfl, rfl⟩).bind fun _ _ _ => .throw trivial

/-- A request that passed its re-checks is one the program has claimed. -/
theorem startApproved_tries (id : String) : (stages codec registry).Tries
    (fun k' started => ∀ approved, started = some approved → ∃ row, k' = .loaded row ∧
      row.id = approved.approvalId ∧ row.Runs codec approved.toolName approved.arguments)
    (fun _ _ => True) .idle (startApproved codec registry inApp id) := by
  refine (claim_tries id).bind ?_
  rintro _ claimed ⟨row, rfl, rfl, hruns⟩
  have hfail (detail : String) : (stages codec registry).Tries
      (fun k' started => ∀ approved, started = some approved → ∃ row, k' = .loaded row ∧
        row.id = approved.approvalId ∧ row.Runs codec approved.toolName approved.arguments)
      (fun _ _ => True) (.loaded row) (failApproved codec row.id detail) := by
    refine (failApproved_tries detail).mono (fun k' started hnone approved hsome =>
      ?_) fun _ _ h => h
    rw [hnone] at hsome
    cases hsome
  have henabled : Stays codec registry (.loaded row) (Attempt.ask .enabled : Agent Bool) :=
    .ask trivial fun _ => rfl
  have hpermissions : Stays codec registry (.loaded row)
      (Attempt.perform (.activePermissions claimed.clientId) : Agent (Option ToolPermissions)) :=
    .perform trivial fun _ => rfl
  have hbegin : Stays codec registry (.loaded row) (Attempt.ask .beginTool : Agent Bool) :=
    .ask trivial fun _ => rfl
  refine henabled.then (fun _ => trivial) fun enabled => ?_
  split_ifs
  · exact hfail _
  · refine hpermissions.then (fun _ => trivial) fun permissions => ?_
    split
    · exact hfail _
    · split
      · exact hfail _
      · split_ifs
        · exact hfail _
        · refine hbegin.then (fun _ => trivial) fun open_ => ?_
          split_ifs
          · exact hfail _
          · refine .pure fun approved happroved => ?_
            obtain rfl := Option.some.inj happroved
            exact ⟨row, rfl, rfl, hruns⟩

theorem approve_ends (id : String) :
    Ends codec registry .idle (approve codec registry inApp id) := by
  refine (startApproved_tries id).bind fun k' started h => ?_
  cases started with
  | none => exact .pure trivial
  | some approved =>
    obtain ⟨row, rfl, hid, hruns⟩ := h approved rfl
    exact run_ends hid hruns

theorem submit_ends (clientId : String) (tool : Tool) (args : Json) (correlationId : String) :
    Ends codec registry .idle (submit codec clientId tool args correlationId) := by
  let binding : Binding :=
    ⟨clientId, tool.definition.name, codec.digestOf (codec.canonicalize args)⟩
  have hsubmit : (stages codec registry).Tries (fun k' handle => handle.created = true →
      ∃ row, k' = .submitted row ∧ row.id = handle.tradeId ∧
        row.Runs codec tool.definition.name args) (fun _ _ => True) .idle
      (submitOrReuse codec clientId tool.definition.name args correlationId) := by
    refine Stays.nowUnix.then (fun _ => trivial) fun now => ?_
    have hperform : (stages codec registry).Tries
        (fun k' r => k' = Stage.idle.afterSubmit binding (.ok r)) (fun _ _ => True) .idle
        (Attempt.perform (.submitOrReuse binding correlationId now) : Agent
          (SubmissionRow × Bool)) :=
      .perform rfl (fun _ => rfl) fun _ => trivial
    refine hperform.bind ?_
    rintro _ ⟨row, created⟩ rfl
    refine .pure fun hcreated => ?_
    obtain rfl : created = true := hcreated
    exact ⟨_, rfl, rfl, rfl, rfl⟩
  refine hsubmit.bind fun k' handle h => ?_
  cases hcreated : handle.created with
  | false => exact .pure trivial
  | true =>
    obtain ⟨row, rfl, hid, hruns⟩ := h hcreated
    show Ends codec registry (.submitted row)
      (runSubmitted codec handle.tradeId tool.definition.name
      args >>= _)
    rw [← hid]
    exact (runSubmitted_ends hruns).bind fun _ _ _ => .pure trivial

theorem callTool_ends (clientId secret name : String) (args : Json) (correlationId : String) :
    Ends codec registry .idle
      (callTool codec registry inApp clientId secret name args correlationId) := by
  rw [callTool]
  split_ifs
  · refine (verify_stays clientId secret).then (fun _ => trivial) fun client => ?_
    exact ((tradeStatus_stays _ _).bind fun _ => .pure _).ends
  · refine (verify_stays clientId secret).then (fun _ => trivial) fun client => ?_
    split
    · exact .pure trivial
    · next tool htool =>
      have hbegin : Stays codec registry .idle (Attempt.ask .beginTool : Agent Bool) :=
        .ask trivial fun _ => rfl
      split
      · exact .pure trivial
      · refine hbegin.then (fun _ => trivial) fun open_ => ?_
        split_ifs with hopen hsends
        · exact .pure trivial
        · exact submit_ends _ tool args correlationId
        · have hexecute : Stays codec registry .idle
              (Attempt.ask (.execute name args) : Agent ToolResult) := by
            refine .ask (fun other hother => ?_) fun _ => rfl
            obtain rfl := Option.some.inj (htool.symm.trans hother)
            exact Bool.eq_false_iff.mpr hsends
          exact (hexecute.bind fun _ => .pure _).ends
      · exact ((createOrReuse_stays _ _ _ _).bind fun _ => .pure _).ends

end Runs

theorem discard_obeys {call : Agent α} (h : Ends codec registry .idle call) :
    (stages codec registry).Obeys (fun _ _ => True) .idle (discard call) :=
  Typestate.Obeys.bind h fun _ _ _ => .done trivial

/-- Whatever runs over the store keeps to the stages. -/
theorem spawned_obeys {program : Program AgentCall Unit}
    (h : Spawned codec registry inApp program) :
    (stages codec registry).Obeys (fun _ _ => True) .idle program := by
  cases h with
  | callTool clientId secret name args correlationId =>
    exact discard_obeys (callTool_ends clientId secret name args correlationId)
  | approvalStatus clientId secret approvalId =>
    exact discard_obeys (approvalStatus_stays clientId secret approvalId).ends
  | approve id => exact discard_obeys (approve_ends id)
  | denyApproval id => exact discard_obeys ((deny_stays id).bind fun _ => .pure _).ends
  | sweep => exact discard_obeys sweep_stays.ends

theorem Valid.empty : Valid codec registry .empty where
  approvals := by constructor <;> simp [AgentState.empty]
  trades := by constructor <;> simp [AgentState.empty]
  starts := by constructor <;> simp [AgentState.empty]

/-- The protocol of the bridge over its store. -/
def protocol (codec : Codec) (registry : ToolRegistry) (inApp : ToolPermissions) :
    (bridge codec registry inApp).Protocol (stages codec registry) where
  valid := Valid codec registry
  means := Stage.Means
  apart := Stage.Apart
  idle := .idle
  symm _ _ h := h.symm
  idle_means _ := trivial
  idle_apart _ _ h := by cases h
  starts _ h := h ▸ .empty
  spawns _ h := spawned_obeys h
  step hvalid hmeans hmay hanswer := step_kept hvalid hmeans hmay hanswer
  restart hvalid h := hvalid.restart h

end ScreenerBot.AgentControl
