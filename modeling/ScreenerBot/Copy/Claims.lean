import ScreenerBot.Copy.Service
import ScreenerBot.Library.Fallible

/-! A copy task spends live on one target transaction at most once: every live submission is made
under a claim, and a claim is granted once for good. -/
namespace ScreenerBot.Copy
open Library

/-- A live submission needs the claim of its task and target transaction. -/
def copyPermits : Permits CopyCall (ℤ × String) where
  needs
    | .submitEntry plan => some (plan.taskId, plan.targetSignature)
    | .submitExit plan => some (plan.taskId, plan.targetSignature)
    | _ => none
  grants
    | .claimLiveActivity taskId signature, .ok true => some (taskId, signature)
    | _, _ => none

/-- A store operation that a call carried out, or did not where the call was answered with an
error. -/
def Carried {β : Type} (operation : Except CopyError (β × CopyStore)) (db : CopyStore)
    (answer : Except CopyError β) (db' : CopyStore) : Prop :=
  (∃ b, operation = .ok (b, db') ∧ (answer = .ok b ∨ answer = .error .database)) ∨
    answer = .error .database ∧ db' = db

/-- How the store answers the calls of the service; every other reading answers as it likes. -/
def Answers (db : CopyStore) {β : Type} (call : CopyCall β) (answer : β) (db' : CopyStore) : Prop :=
  match call with
  | .tasksForSubject subject => Carried (.ok (db.tasksForSubject subject, db)) db answer db'
  | .observeTargetInventory taskId signature mint tokenDelta =>
    Carried (db.observeTargetInventory taskId signature mint tokenDelta) db answer db'
  | .record outcome => Carried (db.recordOutcome outcome) db answer db'
  | .claimLiveActivity taskId signature =>
    ∃ now, Carried (db.claimLiveActivity taskId signature now) db answer db'
  | .pauseTask taskId => Carried (.ok (db.pauseTask taskId)) db answer db'
  | _ => db' = db

/-- What changes the store beside the processing of activities: the reconciliation of stale claims,
the outcomes of paper work and of confirmations, and the edits of tasks. -/
inductive CopyMove (db : CopyStore) : CopyStore → Prop
  | reconcile (graceSeconds : ℕ) (now : ℤ) : CopyMove db (db.reconcileStaleClaims graceSeconds now)
  | recorded (outcome : CopyOutcome) {fresh : Bool} {db' : CopyStore}
      (h : db.recordOutcome outcome = .ok (fresh, db')) : CopyMove db db'
  | inserted (task : CopyTask) : CopyMove db (db.insertTask task)
  | updated (taskId : ℤ) (task : CopyTask) : CopyMove db (db.updateTask taskId task)
  | paused (taskId : ℤ) : CopyMove db (db.pauseTask taskId).2
  | deleted (taskId : ℤ) : CopyMove db (db.deleteTask taskId)

namespace CopyStore

variable {db db' : CopyStore}

/-- Ids below the next one are the only ones stored or claimed for. -/
structure Valid (db : CopyStore) : Prop where
  tasks : ∀ taskId task, db.tasks.lookup taskId = some task → taskId < db.nextTaskId
  claims : ∀ key claim, db.claims.lookup key = some claim → key.1 < db.nextTaskId

/-- The claims that were ever granted: a row holds them, or their task is gone for good. -/
def granted (db : CopyStore) : Set (ℤ × String) :=
  {key | (db.claims.lookup key).isSome ∨ key.1 < db.nextTaskId ∧ db.tasks.lookup key.1 = none}

/-- The ids, the stored tasks' ids and the claimed keys are as they were. -/
structure SameKeys (db db' : CopyStore) : Prop where
  nextTaskId : db'.nextTaskId = db.nextTaskId
  tasks : ∀ taskId, (db'.tasks.lookup taskId).isSome = (db.tasks.lookup taskId).isSome
  claims : ∀ key, (db'.claims.lookup key).isSome = (db.claims.lookup key).isSome

theorem SameKeys.refl (db : CopyStore) : db.SameKeys db := ⟨rfl, fun _ => rfl, fun _ => rfl⟩

theorem SameKeys.trans {db'' : CopyStore} (h : db.SameKeys db') (h' : db'.SameKeys db'') :
    db.SameKeys db'' where
  nextTaskId := h'.nextTaskId.trans h.nextTaskId
  tasks taskId := (h'.tasks taskId).trans (h.tasks taskId)
  claims key := (h'.claims key).trans (h.claims key)

theorem SameKeys.valid (h : db.SameKeys db') (hvalid : db.Valid) : db'.Valid where
  tasks taskId task htask := by
    have hsome := h.tasks taskId
    rw [htask] at hsome
    obtain ⟨old, hold⟩ := Option.isSome_iff_exists.mp hsome.symm
    rw [h.nextTaskId]
    exact hvalid.tasks taskId old hold
  claims key claim hclaim := by
    have hsome := h.claims key
    rw [hclaim] at hsome
    obtain ⟨old, hold⟩ := Option.isSome_iff_exists.mp hsome.symm
    rw [h.nextTaskId]
    exact hvalid.claims key old hold

theorem SameKeys.granted (h : db.SameKeys db') : db'.granted = db.granted := by
  ext key
  simp only [CopyStore.granted, Set.mem_ofPred_eq, h.claims, h.nextTaskId,
    ← Option.isNone_iff_eq_none,
    ← Option.not_isSome, h.tasks]

theorem setClaim_sameKeys (key : ℤ × String) (state : ClaimState) :
    db.SameKeys (db.setClaim key state) := by
  unfold setClaim
  cases hclaim : db.claims.lookup key with
  | none => exact .refl db
  | some claim =>
    refine ⟨rfl, fun _ => rfl, fun other => ?_⟩
    by_cases hother : other = key
    · subst hother
      simp [hclaim]
    · simp [AList.lookup_insert_ne hother]

theorem recordOutcome_sameKeys {outcome : CopyOutcome} {fresh : Bool}
    (h : db.recordOutcome outcome = .ok (fresh, db')) : db.SameKeys db' := by
  obtain ⟨-, -, h⟩ := bind_eq_ok.mp h
  obtain ⟨-, rfl⟩ := Prod.mk.inj (Except.ok.inj h)
  cases claimState outcome with
  | none =>
    change db.SameKeys (Prod.snd _)
    split <;> exact ⟨rfl, fun _ => rfl, fun _ => rfl⟩
  | some state =>
    refine SameKeys.trans ?_ (setClaim_sameKeys _ _)
    split <;> exact ⟨rfl, fun _ => rfl, fun _ => rfl⟩

theorem reconcileStaleClaims_sameKeys (graceSeconds : ℕ) (now : ℤ) :
    db.SameKeys (db.reconcileStaleClaims graceSeconds now) := by
  unfold reconcileStaleClaims
  dsimp only
  refine List.foldlRecOn (motive := db.SameKeys) _ _ ?_ fun s hs key _ => hs.trans ?_
  · refine ⟨rfl, fun _ => rfl, fun key => ?_⟩
    simp [lookup_mapWithKey]
  · refine SameKeys.trans ?_ (setClaim_sameKeys _ _)
    split <;> exact ⟨rfl, fun _ => rfl, fun _ => rfl⟩

theorem observeTargetInventory_sameKeys {taskId : ℤ} {signature mint : String}
    {tokenDelta before : ℚ}
    (h : db.observeTargetInventory taskId signature mint tokenDelta = .ok (before, db')) :
    db.SameKeys db' := by
  obtain ⟨-, -, h⟩ := bind_eq_ok.mp h
  dsimp only at h
  split at h
  · cases h
    exact .refl db
  · obtain ⟨-, rfl⟩ := Prod.mk.inj (Except.ok.inj h)
    unfold updateTargetHolding
    split <;> exact ⟨rfl, fun _ => rfl, fun _ => rfl⟩

/-- A task written in the place of a stored one. -/
theorem replaceTask_sameKeys {taskId : ℤ} {old : CopyTask}
    (hold : db.tasks.lookup taskId = some old)
    (task : CopyTask) : db.SameKeys { db with tasks := db.tasks.insert taskId task } := by
  refine ⟨rfl, fun other => ?_, fun _ => rfl⟩
  by_cases hother : other = taskId
  · subst hother
    simp [hold]
  · simp [AList.lookup_insert_ne hother]

theorem updateTask_sameKeys (taskId : ℤ) (task : CopyTask) :
    db.SameKeys (db.updateTask taskId task) := by
  unfold updateTask
  split
  · exact .refl db
  next old hold => exact replaceTask_sameKeys hold _

theorem pauseTask_sameKeys (taskId : ℤ) : db.SameKeys (db.pauseTask taskId).2 := by
  unfold pauseTask
  split
  next old hold =>
    split
    · exact replaceTask_sameKeys hold _
    · exact .refl db
  · exact .refl db

/-- A claim is granted only to a stored task whose target transaction has none. -/
theorem claimLiveActivity_cases {taskId now : ℤ} {signature : String} {granted : Bool}
    (h : db.claimLiveActivity taskId signature now = .ok (granted, db')) :
    (∃ task, db.tasks.lookup taskId = some task) ∧
      (granted = false ∧ db' = db ∧ (db.claims.lookup (taskId, signature)).isSome ∨
        granted = true ∧ db.claims.lookup (taskId, signature) = none ∧
          db' = { db with claims := db.claims.insert (taskId, signature) ⟨now, .claimed⟩ }) := by
  obtain ⟨_, hreferences, h⟩ := bind_eq_ok.mp h
  constructor
  · unfold references at hreferences
    split at hreferences
    next hsome => exact Option.isSome_iff_exists.mp hsome
    next => cases hreferences
  · split at h
    next claim hclaim =>
      cases h
      exact .inl ⟨rfl, rfl, by rw [hclaim]; rfl⟩
    next hclaim =>
      cases h
      exact .inr ⟨rfl, hclaim, rfl⟩

/-- A claim that was ever granted is refused from then on. -/
theorem claimLiveActivity_refused {key : ℤ × String} (hkey : key ∈ db.granted) (now : ℤ)
    (db' : CopyStore) : db.claimLiveActivity key.1 key.2 now ≠ .ok (true, db') := by
  intro h
  obtain ⟨⟨task, htask⟩, hcases⟩ := claimLiveActivity_cases h
  rcases hkey with hclaim | ⟨-, hgone⟩
  · rcases hcases with ⟨hfalse, -⟩ | ⟨-, hnone, -⟩
    · cases hfalse
    · rw [hnone] at hclaim
      cases hclaim
  · rw [hgone] at htask
    cases htask

/-- What a claim does to the store: it keeps every claim granted before. -/
theorem claimLiveActivity_keeps {taskId now : ℤ} {signature : String} {granted : Bool}
    (hvalid : db.Valid) (h : db.claimLiveActivity taskId signature now = .ok (granted, db')) :
    db'.Valid ∧ db.granted ⊆ db'.granted := by
  obtain ⟨⟨task, htask⟩, ⟨-, rfl, -⟩ | ⟨-, -, rfl⟩⟩ := claimLiveActivity_cases h
  · exact ⟨hvalid, fun _ hkey => hkey⟩
  · refine ⟨⟨hvalid.tasks, fun key claim hclaim => ?_⟩, fun key hkey => ?_⟩
    · rcases lookup_insert_cases hclaim with ⟨rfl, -⟩ | ⟨-, hold⟩
      · exact hvalid.tasks taskId task htask
      · exact hvalid.claims key claim hold
    · refine hkey.imp_left fun hclaim => ?_
      by_cases hother : key = (taskId, signature)
      · subst hother
        simp
      · simpa [AList.lookup_insert_ne hother] using hclaim

theorem insertTask_keeps (hvalid : db.Valid) (task : CopyTask) :
    (db.insertTask task).Valid ∧ db.granted ⊆ (db.insertTask task).granted := by
  refine ⟨⟨fun taskId found hfound => ?_, fun key claim hclaim => ?_⟩, fun key hkey => ?_⟩
  · rcases lookup_insert_cases hfound with ⟨rfl, -⟩ | ⟨-, hold⟩
    · exact Int.lt_succ _
    · exact (hvalid.tasks taskId found hold).trans (Int.lt_succ _)
  · exact (hvalid.claims key claim hclaim).trans (Int.lt_succ _)
  · rcases hkey with hclaim | ⟨hlt, hgone⟩
    · exact .inl hclaim
    · refine .inr ⟨hlt.trans (Int.lt_succ _), ?_⟩
      exact (AList.lookup_insert_ne hlt.ne).trans hgone

/-- The claims of a deleted task stay granted: its id is never taken again. -/
theorem deleteTask_keeps (hvalid : db.Valid) (taskId : ℤ) :
    (db.deleteTask taskId).Valid ∧ db.granted ⊆ (db.deleteTask taskId).granted := by
  refine ⟨⟨fun other task htask => ?_, fun key claim hclaim => ?_⟩, fun key hkey => ?_⟩
  · exact hvalid.tasks other task (lookup_erase_cases htask).2
  · exact hvalid.claims key claim (lookup_retainKeys_eq_some.mp hclaim).1
  · by_cases hother : key.1 = taskId
    · refine .inr ⟨?_, by rw [hother]; exact AList.lookup_erase _ _⟩
      rcases hkey with hclaim | ⟨hlt, -⟩
      · obtain ⟨claim, hclaim⟩ := Option.isSome_iff_exists.mp hclaim
        exact hvalid.claims key claim hclaim
      · exact hlt
    · rcases hkey with hclaim | ⟨hlt, hgone⟩
      · obtain ⟨claim, hclaim⟩ := Option.isSome_iff_exists.mp hclaim
        refine .inl (Option.isSome_iff_exists.mpr ⟨claim, ?_⟩)
        exact lookup_retainKeys_eq_some.mpr ⟨hclaim, by simp [hother]⟩
      · exact .inr ⟨hlt, (AList.lookup_erase_ne hother).trans hgone⟩

end CopyStore

/-- The store keeps what a call or a move finds granted, and stays valid. -/
def Keeps (db db' : CopyStore) : Prop := db'.Valid ∧ db.granted ⊆ db'.granted

theorem Keeps.same {db db' : CopyStore} (hvalid : db.Valid) (h : db.SameKeys db') : Keeps db db' :=
  ⟨h.valid hvalid, h.granted.ge⟩

theorem Carried.keeps {β : Type} {operation : Except CopyError (β × CopyStore)} {db db' : CopyStore}
    {answer : Except CopyError β} (hvalid : db.Valid) (h : Carried operation db answer db')
    (hoperation : ∀ b next, operation = .ok (b, next) → Keeps db next) : Keeps db db' := by
  rcases h with ⟨b, hok, -⟩ | ⟨-, rfl⟩
  · exact hoperation b db' hok
  · exact .same hvalid (.refl _)

theorem Answers.keeps {db db' : CopyStore} {β : Type} {call : CopyCall β} {answer : β}
    (hvalid : db.Valid) (h : Answers db call answer db') : Keeps db db' := by
  cases call with
  | tasksForSubject subject =>
    refine Carried.keeps hvalid h fun b next hok => ?_
    obtain ⟨-, rfl⟩ := Prod.mk.inj (Except.ok.inj hok)
    exact .same hvalid (.refl db)
  | observeTargetInventory =>
    exact Carried.keeps hvalid h fun b next hok =>
      .same hvalid (CopyStore.observeTargetInventory_sameKeys hok)
  | record outcome =>
    exact Carried.keeps hvalid h fun b next hok =>
      .same hvalid (CopyStore.recordOutcome_sameKeys hok)
  | claimLiveActivity =>
    obtain ⟨now, h⟩ := h
    exact h.keeps hvalid fun b next hok => CopyStore.claimLiveActivity_keeps hvalid hok
  | pauseTask taskId =>
    refine Carried.keeps hvalid h fun b next hok => ?_
    have hnext : (db.pauseTask taskId).2 = next := congrArg Prod.snd (Except.ok.inj hok)
    exact .same hvalid (hnext ▸ CopyStore.pauseTask_sameKeys taskId)
  | _ =>
    obtain rfl : db' = db := h
    exact .same hvalid (.refl _)

theorem CopyMove.keeps {db db' : CopyStore} (hvalid : db.Valid) (h : CopyMove db db') :
    Keeps db db' := by
  cases h with
  | reconcile graceSeconds now =>
    exact .same hvalid (CopyStore.reconcileStaleClaims_sameKeys graceSeconds now)
  | recorded outcome h => exact .same hvalid (CopyStore.recordOutcome_sameKeys h)
  | inserted task => exact CopyStore.insertTask_keeps hvalid task
  | updated taskId task => exact .same hvalid (CopyStore.updateTask_sameKeys taskId task)
  | paused taskId => exact .same hvalid (CopyStore.pauseTask_sameKeys taskId)
  | deleted taskId => exact CopyStore.deleteTask_keeps hvalid taskId

/-- What the service runs for an observed activity. -/
def serve (observed : WalletActivity) : Program CopyCall Unit := do
  let _ ← (processActivity observed).run

/-- The copy store under any number of activities processed beside each other, delivered any number
of times and interrupted anywhere. -/
def copyWorld : World CopyCall CopyStore where
  starts := CopyStore.Valid
  answers := Answers
  moves := CopyMove
  spawns program := ∃ observed, program = serve observed

theorem copyWorld_remembers :
    copyPermits.Remembers copyWorld CopyStore.Valid CopyStore.granted where
  starts _ h := h
  valid_answer hvalid h := (Answers.keeps hvalid h).1
  valid_move hvalid h := (CopyMove.keeps hvalid h).1
  kept hvalid h := (Answers.keeps hvalid h).2
  kept_move hvalid h := (CopyMove.keeps hvalid h).2
  fresh := by
    intro db db' β call answer key hvalid hanswer hgrants
    cases call with
    | claimLiveActivity taskId signature =>
      match answer, hgrants with
      | .ok true, hgrants =>
        cases hgrants
        obtain ⟨now, ⟨granted, hok, hanswer | hanswer⟩ | ⟨hanswer, -⟩⟩ := hanswer
        · cases hanswer
          refine ⟨fun hkey => CopyStore.claimLiveActivity_refused hkey now db' hok, .inl ?_⟩
          obtain ⟨-, ⟨hfalse, -⟩ | ⟨-, -, rfl⟩⟩ := CopyStore.claimLiveActivity_cases hok
          · cases hfalse
          · simp
        · cases hanswer
        · cases hanswer
    | _ => cases hgrants

section Guarded

variable {held : Set (ℤ × String)}

theorem record_idle (outcome : CopyOutcome) : copyPermits.Idle held (record outcome) :=
  (Permits.Idle.perform rfl fun _ => rfl).then fun _ => Permits.Tries.pure rfl

theorem recordSkip_idle (task : CopyTask) (activity : WalletActivity) (mint : Option String)
    (reason : CopySkip) : copyPermits.Idle held (recordSkip task activity mint reason) :=
  record_idle _

theorem recordUncopyable_idle (activity : WalletActivity) (mint : Option String) (reason : CopySkip)
    (copyEnabled : Bool) :
    copyPermits.Idle held (recordUncopyable activity mint reason copyEnabled) := by
  unfold recordUncopyable
  split
  · exact Permits.Tries.pure rfl
  · apply (Permits.Idle.perform rfl fun _ => rfl).then
    intro watching
    exact Permits.Idle.each _ fun task _ => recordSkip_idle task activity mint reason

theorem observeTargetInventory_idle (activity : WalletActivity) (tasks : List CopyTask) :
    copyPermits.Idle held (observeTargetInventory activity tasks) := by
  unfold observeTargetInventory
  split
  · apply Permits.Idle.collect
    intro task _
    apply (Permits.Idle.perform rfl fun _ => rfl).then
    intro before
    exact Permits.Tries.pure rfl
  · exact Permits.Tries.pure rfl

theorem rejectStaleBackfill_idle (config : CopyConfig) (activity : WalletActivity)
    (tasks : List CopyTask) (mint : String) :
    copyPermits.Idle held (rejectStaleBackfill config activity tasks mint) := by
  unfold rejectStaleBackfill
  split
  · exact Permits.Tries.pure rfl
  · apply (Permits.Idle.each _ fun task _ => recordSkip_idle task activity _ _).then
    intro _
    exact Permits.Tries.pure rfl

theorem applyLatencyKillSwitch_idle (config : CopyConfig) (activity : WalletActivity)
    (mint : String)
    (tasks : List CopyTask) :
    copyPermits.Idle held (applyLatencyKillSwitch config activity mint tasks) := by
  unfold applyLatencyKillSwitch
  split
  · exact Permits.Tries.pure rfl
  · apply Permits.Idle.collect
    intro task _
    split
    · exact Permits.Tries.pure rfl
    · apply (Permits.Idle.perform rfl fun _ => rfl).then
      intro overLimit
      cases overLimit with
      | none => exact Permits.Tries.pure rfl
      | some averageMs =>
        apply (Permits.Idle.perform rfl fun _ => rfl).then
        intro _
        apply (recordSkip_idle task activity _ _).then
        intro _
        exact Permits.Tries.pure rfl

theorem admitStableQuoted_idle (config : CopyConfig) (activity : WalletActivity) (mint : String)
    (tasks : List CopyTask) :
    copyPermits.Idle held (admitStableQuoted config activity mint tasks) := by
  unfold admitStableQuoted
  apply Permits.Idle.collect
  intro task _
  split
  · exact Permits.Tries.pure rfl
  · apply (recordSkip_idle task activity _ _).then
    intro _
    exact Permits.Tries.pure rfl

theorem enqueuePaper_idle (task : CopyTask) (activity : WalletActivity) (mint : String)
    (targetHolding : ℚ) :
      copyPermits.Idle held (enqueuePaper task activity mint targetHolding) := by
  unfold enqueuePaper
  apply (Permits.Idle.ask rfl fun _ => rfl).then
  intro refusal
  cases refusal with
  | none => exact Permits.Tries.pure rfl
  | some reason => exact record_idle _

theorem actsOn_idle (copyEnabled selling : Bool) (mint : String) (task : CopyTask) :
    copyPermits.Idle held (actsOn copyEnabled selling mint task) := by
  unfold actsOn
  split
  · exact Permits.Tries.pure rfl
  · split
    · exact Permits.Tries.pure rfl
    · split
      · exact Permits.Tries.pure rfl
      · exact Permits.Idle.ask rfl fun _ => rfl

theorem actingTasks_idle (copyEnabled selling : Bool) (mint : String) (watching : List CopyTask) :
    copyPermits.Idle held (actingTasks copyEnabled selling mint watching) := by
  apply Permits.Idle.collect
  intro task _
  apply (actsOn_idle copyEnabled selling mint task).then
  intro acts
  exact Permits.Tries.pure rfl

theorem consentingTasks_idle (config : CopyConfig) (activity : WalletActivity) (mint : String)
    (stableQuoted selling : Bool) (tasks : List CopyTask) :
    copyPermits.Idle held (consentingTasks config activity mint stableQuoted selling tasks) := by
  unfold consentingTasks
  split
  · exact admitStableQuoted_idle config activity mint tasks
  · exact Permits.Tries.pure rfl

theorem prepareEntry_idle (activity : WalletActivity) (task : CopyTask) :
    copyPermits.Tries (fun left r => left = held ∧ ∀ plan, r = .ok plan →
      plan.taskId = task.id ∧ plan.targetSignature = activity.signature) held
      (prepareEntry activity task) := by
  unfold prepareEntry
  split
  · apply (Permits.Idle.ask rfl fun _ => rfl).then
    intro size
    refine Permits.Tries.pure ⟨rfl, fun plan hplan => ?_⟩
    cases size with
    | error reason => cases hplan
    | ok sizeNative =>
      cases hplan
      exact ⟨rfl, rfl⟩
  · exact Permits.Tries.pure ⟨rfl, nofun⟩

/-- A claim that was answered `true` is held, and one that was not changes nothing. -/
theorem claim_tries (taskId : ℤ) (signature : String) :
    copyPermits.Tries (fun left granted => granted = true → (taskId, signature) ∈ left) held
      (Attempt.perform (.claimLiveActivity taskId signature) : Copying Bool) := by
  refine .call nofun fun answer => .done fun granted hanswer hgranted => ?_
  subst hanswer hgranted
  exact .inr rfl

/-- A live entry is submitted only under the claim of its task and target transaction. -/
theorem executeLive_tries {plan : PreparedEntry} (h : (plan.taskId, plan.targetSignature) ∈ held) :
    copyPermits.Tries (fun _ _ => True) held (executeLive plan) := by
  unfold executeLive
  apply (Permits.Idle.ask rfl fun _ => rfl).then
  intro block
  cases block with
  | some block => exact Permits.Tries.pure trivial
  | none =>
    refine .call (fun key hkey => ?_) fun result => .done fun _ _ => trivial
    cases hkey
    exact h

theorem enterLive_tries (activity : WalletActivity) (mint : String) (task : CopyTask) :
    copyPermits.Tries (fun _ _ => True) held (enterLive activity mint task) := by
  unfold enterLive
  apply (prepareEntry_idle activity task).bind
  rintro left planned ⟨rfl, hplanned⟩
  cases planned with
  | error reason => exact (record_idle _).any
  | ok plan =>
    obtain ⟨htask, hsignature⟩ := hplanned plan rfl
    apply (claim_tries task.id activity.signature).bind
    intro left granted hgranted
    cases granted with
    | false => exact Permits.Tries.pure trivial
    | true =>
      have hheld : (plan.taskId, plan.targetSignature) ∈ left := by
        rw [htask, hsignature]
        exact hgranted rfl
      apply (executeLive_tries hheld).bind
      intro left outcome _
      exact (record_idle outcome).any

theorem exitLive_tries (activity : WalletActivity) (mint : String) (targetHolding : ℚ)
    (task : CopyTask) :
    copyPermits.Tries (fun _ _ => True) held (exitLive activity mint targetHolding task) := by
  unfold exitLive
  apply (claim_tries task.id activity.signature).bind
  intro left granted hgranted
  cases granted with
  | false => exact Permits.Tries.pure trivial
  | true =>
    apply (Permits.Idle.ask rfl fun _ => rfl).then
    rintro ⟨position, forceStopped⟩
    dsimp only
    split
    · exact (record_idle _).any
    next plan hplan =>
      obtain ⟨htask, hsignature⟩ := prepareCopySell_key hplan
      have hheld : (plan.taskId, plan.targetSignature) ∈ left := by
        rw [htask, hsignature]
        exact hgranted rfl
      refine .call (fun key hkey => ?_) fun result => ?_
      · cases hkey
        exact hheld
      · exact (record_idle _).any

theorem processSellActivity_tries (activity : WalletActivity) (tasks : List CopyTask)
    (mint : String)
    (targetHoldingsBefore : List (ℤ × ℚ)) :
    copyPermits.Tries (fun _ _ => True) held
      (processSellActivity activity tasks mint targetHoldingsBefore) := by
  unfold processSellActivity
  apply (Permits.Idle.each _ fun task _ => enqueuePaper_idle task activity mint _).then
  intro _
  exact Permits.Tries.each _ fun task _ _ => exitLive_tries activity mint _ task

theorem processBuyActivity_tries (activity : WalletActivity) (tasks : List CopyTask)
    (mint : String) :
    copyPermits.Tries (fun _ _ => True) held (processBuyActivity activity tasks mint) := by
  unfold processBuyActivity
  apply (Permits.Idle.each _ fun task _ => enqueuePaper_idle task activity mint _).then
  intro _
  dsimp only
  split
  · exact Permits.Tries.pure trivial
  · apply (Permits.Idle.perform rfl fun _ => rfl).then
    intro _
    exact Permits.Tries.each _ fun task _ _ => enterLive_tries activity mint task

theorem processSwap_tries (config : CopyConfig) (activity : WalletActivity) (stableQuoted : Bool)
    (mint : String) (side : SwapSide) :
    copyPermits.Tries (fun _ _ => True) held
      (processSwap config activity stableQuoted mint side) := by
  unfold processSwap
  apply (Permits.Idle.perform rfl fun _ => rfl).then
  intro stored
  dsimp only
  split
  · exact Permits.Tries.pure trivial
  apply (observeTargetInventory_idle activity _).then
  intro targetHoldingsBefore
  split
  · exact Permits.Tries.pure trivial
  apply (actingTasks_idle _ _ mint _).then
  intro acting
  split
  · exact Permits.Tries.pure trivial
  apply (rejectStaleBackfill_idle config activity acting mint).then
  intro rejected
  split
  · exact Permits.Tries.pure trivial
  apply (applyLatencyKillSwitch_idle config activity mint acting).then
  intro fast
  apply (consentingTasks_idle config activity mint _ _ fast).then
  intro tasks
  split
  · exact Permits.Tries.pure trivial
  split
  · exact processSellActivity_tries activity tasks mint targetHoldingsBefore
  · exact processBuyActivity_tries activity tasks mint

theorem processActivity_tries (observed : WalletActivity) :
    copyPermits.Tries (fun _ _ => True) held (processActivity observed) := by
  unfold processActivity
  apply (Permits.Idle.ask rfl fun _ => rfl).then
  intro config
  split
  · exact Permits.Tries.pure trivial
  split
  · exact processSwap_tries config observed false _ _
  · apply (Permits.Idle.ask rfl fun _ => rfl).then
    intro nativeUsd
    split
    · exact (recordUncopyable_idle observed _ _ _).any
    · exact processSwap_tries config _ true _ _
  · exact (recordUncopyable_idle observed _ _ _).any
  · exact Permits.Tries.pure trivial
  · exact Permits.Tries.pure trivial

end Guarded

theorem serve_guarded (observed : WalletActivity) :
    copyPermits.Guarded (fun _ _ => True) ∅ (serve observed) :=
  ((processActivity_tries observed).guarded fun _ _ => trivial).bind fun _ _ _ => .done trivial

/-- However the activities of the targets are delivered, delivered again and processed beside each
other, wherever their processing stops and however stale claims are reconciled in between, no claim
is granted twice, no two live submissions share a task and a target transaction, each was made under
a claim of its own, and a claim once granted is refused from then on. -/
theorem live_spends_once {db : CopyStore} {running : List (Program CopyCall Unit)}
    {claimed spent : List (ℤ × String)}
    (h : copyPermits.Reached copyWorld db running claimed spent) :
    claimed.Nodup ∧ spent.Nodup ∧ (∀ key ∈ spent, key ∈ claimed) ∧
      ∀ key ∈ claimed, ∀ now db', db.claimLiveActivity key.1 key.2 now ≠ .ok (true, db') := by
  have hspawns : ∀ program, copyWorld.spawns program →
      copyPermits.Guarded (fun _ _ => True) ∅ program := by
    rintro program ⟨observed, rfl⟩
    exact serve_guarded observed
  obtain ⟨-, hgranted, holders, -, haccounted⟩ := h.accounted copyWorld_remembers hspawns
  refine ⟨haccounted.given_once, haccounted.once, haccounted.spent, fun key hkey now db' => ?_⟩
  exact CopyStore.claimLiveActivity_refused (hgranted key hkey) now db'

/-- A buy of 100 tokens by that task's target. -/
def targetBuy : WalletActivity where
  subject := "target"
  signature := "buy"
  blockTime := some 10
  detectedAt := 10500
  kind := .swap "mint" .buy 2 100 (some (1 / 50))
  sources := [.copy 1]
  backfill := false

/-- A store operation that is carried out, and what is answered for it. -/
def carryOut {β : Type} (operation : Except CopyError (β × CopyStore)) (db : CopyStore) :
    Except CopyError β × CopyStore :=
  match operation with
  | .ok (b, db') => (.ok b, db')
  | .error _ => (.error .database, db)

theorem carryOut_carried {β : Type} (operation : Except CopyError (β × CopyStore))
    (db : CopyStore) :
    Carried operation db (carryOut operation db).1 (carryOut operation db).2 := by
  cases operation with
  | ok r => exact .inl ⟨r.1, rfl, .inl rfl⟩
  | error error => exact .inr ⟨rfl, rfl⟩

/-- Every store call carried out, every entry admitted and submitted. -/
def willing {β : Type} (call : CopyCall β) (db : CopyStore) : β × CopyStore :=
  match call with
  | .tasksForSubject subject => carryOut (.ok (db.tasksForSubject subject, db)) db
  | .observeTargetInventory taskId signature mint tokenDelta =>
    carryOut (db.observeTargetInventory taskId signature mint tokenDelta) db
  | .record outcome => carryOut (db.recordOutcome outcome) db
  | .claimLiveActivity taskId signature => carryOut (db.claimLiveActivity taskId signature 11) db
  | .pauseTask taskId => carryOut (.ok (db.pauseTask taskId)) db
  | .config => (⟨true, false, false, 60000, false⟩, db)
  | .nativePrice => (100, db)
  | .holdsOpenCopies .. => (false, db)
  | .latencyOverLimit .. => (.ok none, db)
  | .enqueuePaper .. => (none, db)
  | .entryContext .. => (.ok (), db)
  | .sizeEntry .. => (.ok 1, db)
  | .admitEntry _ => (none, db)
  | .submitEntry _ => (.submitted "swap", db)
  | .sellPosition _ => ((none, false), db)
  | .submitExit _ => (.submitted "swap", db)

theorem willing_answers {β : Type} (call : CopyCall β) (db : CopyStore) :
    Answers db call (willing call db).1 (willing call db).2 := by
  cases call with
  | claimLiveActivity taskId signature => exact ⟨11, carryOut_carried _ db⟩
  | _ => first | exact carryOut_carried _ db | rfl

theorem liveStore_valid : liveStore.Valid := by
  have hempty : CopyStore.empty.Valid := by
    constructor <;> intro _ _ h <;> simp [CopyStore.empty] at h
  exact (CopyStore.insertTask_keeps hempty liveTask).1

/-- The buy is delivered, copied live, and delivered again: one claim, one submission. -/
theorem live_spends_once_redelivered :
    let first := copyPermits.follow willing 30 (serve targetBuy) liveStore [] []
    first.2.2 = ([(1, "buy")], [(1, "buy")]) ∧
      ∀ now db', first.1.claimLiveActivity 1 "buy" now ≠ .ok (true, db') := by
  have hreached : copyPermits.Reached copyWorld liveStore [serve targetBuy] [] [] :=
    .spawn (.start liveStore_valid) ⟨targetBuy, rfl⟩
  have hrun := Permits.Reached.follow copyPermits willing willing_answers 30 hreached
  have hlogs : (copyPermits.follow willing 30 (serve targetBuy) liveStore [] []).2.2 =
      ([(1, "buy")], [(1, "buy")]) := by decide +kernel
  refine ⟨hlogs, ?_⟩
  rw [hlogs] at hrun
  exact (live_spends_once hrun).2.2.2 (1, "buy") List.mem_cons_self

end ScreenerBot.Copy
