import ScreenerBot.Copy.Claims
import ScreenerBot.Copy.Sizing
import ScreenerBot.Library.Run
import ScreenerBot.Swaps.Outcome

/-! The live spend ledger of a copy task: what it records of what the task submitted. -/
namespace ScreenerBot.Copy
open Library Swaps

/-- A row of the ledger, for one token. -/
structure SpendRow where
  spentNative : ℚ
  buyCount : ℕ
  deriving DecidableEq, Repr

/-- The live rows of one task. -/
abbrev SpendTable := AList fun _ : String => SpendRow

def addLiveSpend (spend : SpendTable) (mint : String) (spentNative : ℚ) : SpendTable :=
  match spend.lookup mint with
  | none => spend.insert mint ⟨spentNative, 1⟩
  | some row => spend.insert mint ⟨Binary64.add row.spentNative spentNative, row.buyCount + 1⟩

/-- The live buy an outcome reports, where it reports one. -/
def CopyOutcome.liveBuy : CopyOutcome → Option LiveDecision
  | .liveSubmitted decision | .liveConfirmed decision => some decision
  | _ => none

/-- Applies a newly recorded decision to the ledger. -/
def bookOutcome (spend : SpendTable) (outcome : CopyOutcome) : SpendTable :=
  match outcome.liveBuy with
  | some decision => addLiveSpend spend decision.mint decision.sizedNative
  | none => spend

/-- How the opening of a live round ends: refused before its swap, or as its swap ended. -/
inductive Opening where
  | refused (error : String)
  | swapped (result : Except Swaps.Error String) (error : String)

namespace Opening

def submitResult : Opening → LiveSubmitResult
  | refused error => .failed error
  | swapped (.ok signature) _ => .confirmed signature
  | swapped (.error swapError) error =>
    match failedSwap swapError with
    | .reconcile signature => .submitted signature
    | _ => .failed error

/-- The swap was sent, or nothing proves that it was not. -/
def sent : Opening → Bool
  | refused _ => false
  | swapped (.ok _) _ => true
  | swapped (.error swapError) _ => failedSwap swapError != .resendable

/-- The swap ended with its signature. -/
def signed (opening : Opening) : Bool := !opening.submitResult matches .failed _

theorem sent_of_signed {opening : Opening} (h : opening.signed) : opening.sent := by
  cases opening with
  | refused error => cases h
  | swapped result error =>
    cases result with
    | ok signature => rfl
    | error swapError =>
      revert h
      cases herror : failedSwap swapError <;> simp [signed, submitResult, sent, herror]

end Opening

/-- One delivery of a buy of the target to a live task: what the guards before the entry decide, the
readings the entry is planned and admitted on, the trader's opening, and whether the store carries
out the claim and the recording. -/
structure BuyDelivery where
  signature : String
  mint : String
  targetSizeNative : ℚ
  enabled : Bool
  guard : Option CopySkip
  context : RiskContext
  policy : PipelinePolicy
  /-- When the claim is asked for; `none` where the store fails. -/
  claimedAt : Option ℤ
  admission : Option String
  opening : Opening
  recorded : Bool

/-- What happens to the ledger of a task: deliveries of buys, the reconciliation of stale claims,
and the confirmation of a submitted buy. -/
inductive SpendEvent where
  | delivered (delivery : BuyDelivery)
  | reconciled (graceSeconds : ℕ) (now : ℤ)
  | confirmed (signature : String) (recorded : Bool)

/-- The store, the ledger, and the buys the task submitted live. -/
structure SpendStore where
  db : CopyStore
  spend : SpendTable := ∅
  submitted : List PreparedEntry := []

/-- Records an outcome and, with a first decision, its live spend. -/
def SpendStore.record (s : SpendStore) (outcome : CopyOutcome) (recorded : Bool) : SpendStore :=
  if recorded then
    match s.db.recordOutcome outcome with
    | .error _ => s
    | .ok (_, db) =>
      { s with
        db
        spend := if (s.db.decisions.lookup outcome.key).isNone then bookOutcome s.spend outcome
          else s.spend }
  else s

/-- The task whose ledger is kept, its limits, and what the store answers for the sum of its
rows. -/
structure SpendingTask where
  task : CopyTask
  limits : CopyLimits
  sum : SpendTable → ℚ

/-- What a delivery leads to: its outcome, the store with the claim it took, and the buy it
submits. -/
structure Delivered where
  outcome : Option CopyOutcome
  db : CopyStore
  submitted : Option PreparedEntry := none

namespace SpendingTask

variable (task : SpendingTask)

/-- The sum over no rows is taken as zero. -/
def totalSpent (spend : SpendTable) : ℚ := if spend.entries.isEmpty then 0 else task.sum spend

def liveSpendState (spend : SpendTable) (mint : String) : SpendState where
  totalSpentNative := task.totalSpent spend
  tokenSpentNative := ((spend.lookup mint).map (·.spentNative)).getD 0
  tokenBuyCount := ((spend.lookup mint).map (·.buyCount)).getD 0

def prepareEntry (spend : SpendTable) (delivery : BuyDelivery) :
    Except EntryRefusal PreparedEntry := do
  let state := task.liveSpendState spend delivery.mint
  precheck { task.task with enabled := delivery.enabled } task.limits
    delivery.targetSizeNative state
    delivery.context delivery.policy
  let sizeNative ← sizeFor task.limits delivery.targetSizeNative state
    delivery.policy.engineTradeSizeNative
  return { taskId := task.task.id, targetSignature := delivery.signature, mint
    := delivery.mint, sizeNative }

def skip (delivery : BuyDelivery) (reason : CopySkip) : CopyOutcome :=
  .skipped task.task.id delivery.signature (some delivery.mint) reason false

def deliver (s : SpendStore) (delivery : BuyDelivery) : Delivered :=
  match delivery.guard with
  | some reason => { outcome := some (task.skip delivery reason), db := s.db }
  | none =>
    match task.prepareEntry s.spend delivery with
    | .error refusal => { outcome := some (task.skip delivery refusal.toSkip), db := s.db }
    | .ok plan =>
      match delivery.claimedAt.map (s.db.claimLiveActivity task.task.id delivery.signature) with
      | some (.ok (true, db)) =>
        match delivery.admission with
        | some block => { outcome := some (task.skip delivery (.entryBlocked block)), db }
        | none =>
          { outcome := some (liveOutcome plan delivery.opening.submitResult)
            db
            submitted := if delivery.opening.sent then some plan else none }
      | _ => { outcome := none, db := s.db }

def step (s : SpendStore) : SpendEvent → SpendStore
  | .delivered delivery =>
    let delivered := task.deliver s delivery
    let after := { s with db := delivered.db, submitted := s.submitted ++
      delivered.submitted.toList }
    match delivered.outcome with
    | none => after
    | some outcome => after.record outcome delivery.recorded
  | .reconciled graceSeconds now => { s with db := s.db.reconcileStaleClaims graceSeconds now }
  | .confirmed signature recorded =>
    match s.db.decisions.lookup (task.task.id, signature) with
    | some (.liveSubmitted decision) => s.record (.liveConfirmed decision) recorded
    | _ => s

/-- A store that holds the task and nothing of it yet. -/
def start : SpendStore where
  db := { CopyStore.empty with tasks := CopyStore.empty.tasks.insert task.task.id task.task }

/-- The ledger records what the task submitted, and that is within the limits. -/
structure Accounted (s : SpendStore) : Prop where
  total : task.totalSpent s.spend = (s.submitted.map (·.sizeNative)).sum
  spent : ∀ mint, (task.liveSpendState s.spend mint).tokenSpentNative =
    ((s.submitted.filter (·.mint = mint)).map (·.sizeNative)).sum
  count : ∀ mint, (task.liveSpendState s.spend mint).tokenBuyCount =
    (s.submitted.filter (·.mint = mint)).length
  budget : (s.submitted.map (·.sizeNative)).sum ≤ task.limits.totalBudgetNative
  cap : ∀ mint, ((s.submitted.filter (·.mint = mint)).map (·.sizeNative)).sum ≤
    task.limits.maxNativePerToken
  once : task.limits.buyOncePerToken → ∀ mint, (s.submitted.filter (·.mint = mint)).length ≤ 1

/-- The buy ends with its signature, is the first decision on its transaction, and is recorded. -/
def Recorded (s : SpendStore) (delivery : BuyDelivery) : Prop :=
  delivery.opening.signed ∧ s.db.decisions.lookup (task.task.id, delivery.signature) = none ∧
    delivery.recorded

/-- Adding a size to the ledger rounds neither the token's row nor the sum of the rows. -/
def AddsExactly (spend : SpendTable) (plan : PreparedEntry) : Prop :=
  (task.liveSpendState (addLiveSpend spend plan.mint plan.sizeNative) plan.mint).tokenSpentNative =
      (task.liveSpendState spend plan.mint).tokenSpentNative + plan.sizeNative ∧
    task.totalSpent (addLiveSpend spend plan.mint plan.sizeNative) =
      task.totalSpent spend + plan.sizeNative

/-- One of the bounds of a size lies within the exact rest of the budget, and one within that of the
token's cap: no rest that was rounded up decides the size. -/
def Fits (spend : SpendTable) (delivery : BuyDelivery) : Prop :=
  let state := task.liveSpendState spend delivery.mint
  ∀ requested, requestedSize task.limits.sizing delivery.targetSizeNative = .ok requested →
    (∃ bound ∈ sizeBounds task.limits requested state delivery.policy.engineTradeSizeNative,
      bound ≤ task.limits.totalBudgetNative - state.totalSpentNative) ∧
    ∃ bound ∈ sizeBounds task.limits requested state delivery.policy.engineTradeSizeNative,
      bound ≤ task.limits.maxNativePerToken - state.tokenSpentNative

/-- What a delivery submits is recorded, without rounding. -/
def Books (s : SpendStore) : SpendEvent → Prop
  | .delivered delivery => ∀ plan, (task.deliver s delivery).submitted = some plan →
    task.Recorded s delivery ∧ task.AddsExactly s.spend plan ∧ task.Fits s.spend delivery
  | _ => True

variable {task}

theorem liveSpendState_other {spend : SpendTable} {mint other : String} (h : mint ≠ other)
    (spentNative : ℚ) :
    (task.liveSpendState (addLiveSpend spend mint spentNative) other).tokenSpentNative =
        (task.liveSpendState spend other).tokenSpentNative ∧
      (task.liveSpendState (addLiveSpend spend mint spentNative) other).tokenBuyCount =
        (task.liveSpendState spend other).tokenBuyCount := by
  have hlookup : (addLiveSpend spend mint spentNative).lookup other = spend.lookup other := by
    unfold addLiveSpend
    split
    · exact AList.lookup_insert_ne h.symm
    · exact AList.lookup_insert_ne h.symm
  simp only [liveSpendState, hlookup, and_self]

theorem liveSpendState_count (spend : SpendTable) (mint : String) (spentNative : ℚ) :
    (task.liveSpendState (addLiveSpend spend mint spentNative) mint).tokenBuyCount =
      (task.liveSpendState spend mint).tokenBuyCount + 1 := by
  unfold addLiveSpend
  split
  next hnone => simp [liveSpendState, hnone]
  next row hrow => simp [liveSpendState, hrow]

/-- A delivery ends without an outcome, is skipped, or is answered by the trader. -/
theorem deliver_cases (s : SpendStore) (delivery : BuyDelivery) :
    (task.deliver s delivery).db.decisions = s.db.decisions ∧
      (task.deliver s delivery).db.tasks = s.db.tasks ∧
      ((task.deliver s delivery).submitted = none ∧ ((task.deliver s delivery).outcome = none ∨
          ∃ reason, (task.deliver s delivery).outcome = some (task.skip delivery reason)) ∨
        ∃ plan, task.prepareEntry s.spend delivery = .ok plan ∧
          (task.deliver s delivery).outcome =
            some (liveOutcome plan delivery.opening.submitResult) ∧
          (task.deliver s delivery).submitted =
            if delivery.opening.sent then some plan else none) := by
  unfold deliver
  split
  · exact ⟨rfl, rfl, .inl ⟨rfl, .inr ⟨_, rfl⟩⟩⟩
  · split
    · exact ⟨rfl, rfl, .inl ⟨rfl, .inr ⟨_, rfl⟩⟩⟩
    · rename_i plan hplan
      split
      · rename_i db hclaim
        obtain ⟨now, -, hclaim⟩ := Option.map_eq_some_iff.mp hclaim
        obtain ⟨-, hcases⟩ := CopyStore.claimLiveActivity_cases hclaim
        have hsame : db.decisions = s.db.decisions ∧ db.tasks = s.db.tasks := by
          rcases hcases with ⟨hfalse, -⟩ | ⟨-, -, rfl⟩
          · cases hfalse
          · exact ⟨rfl, rfl⟩
        split
        · exact ⟨hsame.1, hsame.2, .inl ⟨rfl, .inr ⟨_, rfl⟩⟩⟩
        · exact ⟨hsame.1, hsame.2, .inr ⟨plan, hplan, rfl, rfl⟩⟩
      · exact ⟨rfl, rfl, .inl ⟨rfl, .inl rfl⟩⟩

/-- A planned buy carries the keys of its delivery and is worth trading; its size is within what one
of its bounds is within. -/
theorem prepareEntry_spec {spend : SpendTable} {delivery : BuyDelivery} {plan : PreparedEntry}
    (h : task.prepareEntry spend delivery = .ok plan) :
    plan.taskId = task.task.id ∧ plan.targetSignature = delivery.signature ∧
      plan.mint = delivery.mint ∧
      0 < plan.sizeNative ∧
      (task.Fits spend delivery ↔
        task.totalSpent spend + plan.sizeNative ≤ task.limits.totalBudgetNative ∧
        (task.liveSpendState spend plan.mint).tokenSpentNative + plan.sizeNative ≤
          task.limits.maxNativePerToken) ∧
      (task.limits.buyOncePerToken → (task.liveSpendState spend plan.mint).tokenBuyCount = 0) := by
  obtain ⟨_, hprecheck, h⟩ := bind_eq_ok.mp h
  obtain ⟨size, hsize, h⟩ := bind_eq_ok.mp h
  cases h
  obtain ⟨hpos, requested, hrequested, hbounds⟩ := sizeFor_spec hsize
  refine ⟨rfl, rfl, rfl, hpos, ?_, precheck_once hprecheck⟩
  have hfits : task.Fits spend delivery ↔
      size ≤ task.limits.totalBudgetNative - task.totalSpent spend ∧
      size ≤ task.limits.maxNativePerToken -
        (task.liveSpendState spend delivery.mint).tokenSpentNative := by
    rw [hbounds, hbounds, Fits]
    constructor
    · exact fun h => h requested hrequested
    · intro h other hother
      obtain rfl := Except.ok.inj (hrequested.symm.trans hother)
      exact h
  rw [hfits, le_sub_iff_add_le', le_sub_iff_add_le']

/-- The outcome of a live entry stands under the keys of its plan, and reports a buy where the swap
ended with its signature. -/
theorem liveOutcome_spec (plan : PreparedEntry) (opening : Opening) :
    (liveOutcome plan opening.submitResult).key = (plan.taskId, plan.targetSignature) ∧
      (opening.signed = false ∧ (liveOutcome plan opening.submitResult).liveBuy = none ∨
        opening.signed = true ∧ ∃ decision, (liveOutcome plan opening.submitResult).liveBuy =
          some decision ∧
          decision.mint = plan.mint ∧ decision.sizedNative = plan.sizeNative) := by
  unfold Opening.signed
  cases opening.submitResult with
  | confirmed | submitted => exact ⟨rfl, .inr ⟨rfl, _, rfl, rfl, rfl⟩⟩
  | failed => exact ⟨rfl, .inl ⟨rfl, rfl⟩⟩

/-- The task is stored, and every decision stands under its own key. -/
structure Stored (task : SpendingTask) (db : CopyStore) : Prop where
  stored : (db.tasks.lookup task.task.id).isSome
  keyed : ∀ key outcome, db.decisions.lookup key = some outcome → outcome.key = key

theorem setClaim_decisions (db : CopyStore) (key : ℤ × String) (state : ClaimState) :
    (db.setClaim key state).decisions = db.decisions := by
  unfold CopyStore.setClaim
  split <;> rfl

theorem recordOutcome_decisions {db db' : CopyStore} {outcome : CopyOutcome} {fresh : Bool}
    (h : db.recordOutcome outcome = .ok (fresh, db')) :
    db'.decisions = db.decisions ∨ db'.decisions = db.decisions.insert outcome.key outcome := by
  obtain ⟨-, -, h⟩ := bind_eq_ok.mp h
  obtain ⟨-, rfl⟩ := Prod.mk.inj (Except.ok.inj h)
  cases CopyStore.claimState outcome with
  | none =>
    dsimp only
    split
    · exact .inr rfl
    · exact .inr rfl
    · exact .inl rfl
  | some state =>
    dsimp only
    rw [setClaim_decisions]
    split
    · exact .inr rfl
    · exact .inr rfl
    · exact .inl rfl

theorem stored_of_recordOutcome {db db' : CopyStore} {outcome : CopyOutcome} {fresh : Bool}
    (h : task.Stored db) (hrecord : db.recordOutcome outcome = .ok (fresh, db')) :
      task.Stored db' := by
  refine ⟨by rw [(CopyStore.recordOutcome_sameKeys hrecord).tasks]; exact h.stored, ?_⟩
  intro key outcome' hlookup
  obtain hsame | hinsert := recordOutcome_decisions hrecord
  · rw [hsame] at hlookup
    exact h.keyed _ _ hlookup
  · rw [hinsert] at hlookup
    rcases lookup_insert_cases hlookup with ⟨rfl, rfl⟩ | ⟨-, hlookup⟩
    · rfl
    · exact h.keyed _ _ hlookup

theorem recordOutcome_ok {db : CopyStore} {outcome : CopyOutcome} (h : task.Stored db)
    (hkey : outcome.key.1 = task.task.id) :
      ∃ fresh db', db.recordOutcome outcome = .ok (fresh, db') := by
  have hreferences : db.references outcome.key.1 = .ok () := by
    rw [hkey, CopyStore.references, if_pos h.stored]
  simp only [CopyStore.recordOutcome, hreferences]
  exact ⟨_, _, rfl⟩

/-- Recording an outcome of the task books its live buy with a first decision, and no other. -/
theorem record_spec {s : SpendStore} {outcome : CopyOutcome} (h : task.Stored s.db)
    (hkey : outcome.key.1 = task.task.id) (recorded : Bool) :
    task.Stored (s.record outcome recorded).db ∧
      (s.record outcome recorded).submitted = s.submitted ∧
      (s.record outcome recorded).spend =
        if recorded ∧ s.db.decisions.lookup outcome.key = none then bookOutcome s.spend outcome
        else s.spend := by
  cases recorded with
  | false => exact ⟨h, rfl, rfl⟩
  | true =>
    obtain ⟨fresh, db, hrecord⟩ := recordOutcome_ok h hkey
    simp only [SpendStore.record, if_true, hrecord, true_and, Option.isNone_iff_eq_none]
    exact ⟨stored_of_recordOutcome h hrecord, trivial⟩

theorem stored_reconcile {db : CopyStore} (h : task.Stored db) (graceSeconds : ℕ) (now : ℤ) :
    task.Stored (db.reconcileStaleClaims graceSeconds now) := by
  refine ⟨by rw [(CopyStore.reconcileStaleClaims_sameKeys graceSeconds now).tasks]; exact
    h.stored, ?_⟩
  unfold CopyStore.reconcileStaleClaims
  dsimp only
  refine List.foldlRecOn (motive := fun db : CopyStore => ∀ key outcome,
    db.decisions.lookup key = some outcome → outcome.key = key) _ _ h.keyed fun db hdb key _ => ?_
  rw [setClaim_decisions]
  split
  · exact hdb
  · intro key' outcome hlookup
    rcases lookup_insert_cases hlookup with ⟨rfl, rfl⟩ | ⟨-, hlookup⟩
    · rfl
    · exact hdb key' outcome hlookup

/-- What a step does to the ledger: a buy is submitted, and booked where it is recorded, or the
ledger and the submissions are as they were. -/
theorem step_cases {s : SpendStore} (h : task.Stored s.db) (event : SpendEvent) :
    task.Stored (task.step s event).db ∧
      (((task.step s event).submitted = s.submitted ∧ (task.step s event).spend = s.spend ∧
          task.Books s event) ∨
        ∃ delivery plan, event = .delivered delivery ∧
          (task.deliver s delivery).submitted = some plan ∧
          task.prepareEntry s.spend delivery = .ok plan ∧
          (task.step s event).submitted = s.submitted ++ [plan] ∧
          (task.Recorded s delivery ∧
              (task.step s event).spend = addLiveSpend s.spend plan.mint plan.sizeNative ∨
            ¬task.Recorded s delivery ∧ (task.step s event).spend = s.spend)) := by
  cases event with
  | reconciled graceSeconds now =>
      exact ⟨stored_reconcile h graceSeconds now, .inl ⟨rfl, rfl, trivial⟩⟩
  | confirmed signature recorded =>
    simp only [step]
    split
    · rename_i decision hlookup
      -- a confirmation stands over the decision it confirms
      have hkey : (CopyOutcome.liveSubmitted decision).key = (task.task.id, signature) :=
        h.keyed _ _ hlookup
      replace hkey : (CopyOutcome.liveConfirmed decision).key = (task.task.id, signature) := hkey
      obtain ⟨hstored, hsubmitted, hspend⟩ := record_spec h (by rw [hkey]) recorded
      rw [hkey, hlookup, if_neg (by simp)] at hspend
      exact ⟨hstored, .inl ⟨hsubmitted, hspend, trivial⟩⟩
    · exact ⟨h, .inl ⟨rfl, rfl, trivial⟩⟩
  | delivered delivery =>
    obtain ⟨hdecisions, htasks, hcases⟩ := @deliver_cases task s delivery
    have hdb : task.Stored (task.deliver s delivery).db :=
      ⟨by rw [htasks]; exact h.stored, by rw [hdecisions]; exact h.keyed⟩
    obtain ⟨hnone, houtcome | ⟨reason, houtcome⟩⟩ | ⟨plan, hplan, houtcome, hsubmits⟩ := hcases
    · simp only [step, houtcome, hnone, Books]
      exact ⟨hdb, .inl ⟨List.append_nil _, trivial, nofun⟩⟩
    · simp only [step, houtcome, hnone, Books]
      obtain ⟨hstored, hsubmitted, hspend⟩ := @record_spec task
        { s with db := (task.deliver s delivery).db, submitted := s.submitted ++ [] }
        (task.skip delivery reason) hdb rfl delivery.recorded
      refine ⟨hstored, .inl ⟨hsubmitted.trans (List.append_nil _), ?_, nofun⟩⟩
      rw [Option.toList_none, hspend]
      split <;> rfl
    · obtain ⟨htask, hsignature, -⟩ := prepareEntry_spec hplan
      obtain ⟨hkey, hbuy⟩ := liveOutcome_spec plan delivery.opening
      rw [htask, hsignature] at hkey
      obtain ⟨hstored, hsubmitted, hspend⟩ := @record_spec task
        { s with
          db := (task.deliver s delivery).db
          submitted := s.submitted ++ (task.deliver s delivery).submitted.toList }
        (liveOutcome plan delivery.opening.submitResult) hdb (by rw [hkey]) delivery.recorded
      simp only [step, houtcome]
      rw [hkey, hdecisions] at hspend
      refine ⟨hstored, ?_⟩
      by_cases hsent : delivery.opening.sent = true
      · rw [if_pos hsent] at hsubmits
        refine .inr ⟨delivery, plan, rfl, hsubmits, hplan, hsubmitted.trans ?_, ?_⟩
        · rw [hsubmits]
          rfl
        · rw [hspend, bookOutcome]
          obtain ⟨hsigned, hbuy⟩ | ⟨hsigned, decision, hbuy, hmint, hsize⟩ := hbuy
          · right
            rw [hbuy]
            refine ⟨fun hrecorded => ?_, by split <;> rfl⟩
            cases hsigned.symm.trans hrecorded.1
          · rw [hbuy, ← hmint, ← hsize]
            by_cases hbooked : delivery.recorded = true ∧
                s.db.decisions.lookup (task.task.id, delivery.signature) = none
            · rw [if_pos hbooked]
              exact .inl ⟨⟨hsigned, hbooked.2, hbooked.1⟩, rfl⟩
            · rw [if_neg hbooked]
              exact .inr ⟨fun hrecorded => hbooked ⟨hrecorded.2.2, hrecorded.2.1⟩, rfl⟩
      · -- what was not sent has no signature to book
        rw [if_neg hsent] at hsubmits
        refine .inl ⟨hsubmitted.trans ?_, ?_, ?_⟩
        · rw [hsubmits]
          exact List.append_nil _
        · obtain ⟨-, hbuy⟩ | ⟨hsigned, -⟩ := hbuy
          · rw [hspend, bookOutcome, hbuy]
            split <;> rfl
          · exact absurd (Opening.sent_of_signed hsigned) hsent
        · intro plan hplan
          cases hsubmits.symm.trans hplan

theorem accounted_start : task.Accounted task.start := by
  have htrade := task.limits.trade_pos
  have htoken := task.limits.trade_le
  have hbudget := task.limits.token_le
  constructor
  · rfl
  · intro mint; rfl
  · intro mint; rfl
  · show (0 : ℚ) ≤ _
    linarith
  · intro mint
    show (0 : ℚ) ≤ _
    linarith
  · intro _ mint
    exact Nat.zero_le _

theorem stored_start : task.Stored task.start.db := by
  refine ⟨by simp [start], ?_⟩
  intro key outcome hlookup
  cases hlookup

/-- A step that books what it submits keeps the ledger. -/
theorem accounted_step {s : SpendStore} {event : SpendEvent} (hstored : task.Stored s.db)
    (h : task.Accounted s) (hbooks : task.Books s event) : task.Accounted (task.step s event) := by
  obtain ⟨-, ⟨hsubmitted, hspend, -⟩ | ⟨delivery, plan, rfl, hsubmits, hplan,
      hsubmitted, hspend⟩⟩ :=
    step_cases hstored event
  · obtain ⟨htotal, hspent, hcount, hbudget, hcap, honce⟩ := h
    constructor <;> rw [hsubmitted] <;> try rw [hspend]
    all_goals assumption
  · obtain ⟨hrecorded, ⟨hrow, htotal⟩, hfits⟩ := hbooks plan hsubmits
    replace hspend := hspend.resolve_right fun h => h.1 hrecorded
    obtain ⟨-, -, -, -, hwithin, hfirst⟩ := prepareEntry_spec hplan
    obtain ⟨hbudget, hcap⟩ := hwithin.mp hfits
    rw [h.total] at hbudget htotal
    rw [h.spent] at hcap hrow
    rw [h.count] at hfirst
    constructor
    · rw [hspend.2, hsubmitted, htotal]
      simp
    · intro mint
      rw [hspend.2, hsubmitted, List.filter_append]
      by_cases hother : plan.mint = mint
      · subst hother
        rw [hrow]
        simp
      · rw [(liveSpendState_other hother _).1, h.spent]
        simp [hother]
    · intro mint
      rw [hspend.2, hsubmitted, List.filter_append]
      by_cases hother : plan.mint = mint
      · subst hother
        rw [liveSpendState_count, h.count]
        simp
      · rw [(liveSpendState_other hother _).2, h.count]
        simp [hother]
    · rw [hsubmitted]
      simpa using hbudget
    · intro mint
      rw [hsubmitted, List.filter_append]
      by_cases hother : plan.mint = mint
      · subst hother
        simpa using hcap
      · simpa [hother] using h.cap mint
    · intro hbuyonce mint
      rw [hsubmitted, List.filter_append]
      by_cases hother : plan.mint = mint
      · subst hother
        rw [List.length_append, hfirst hbuyonce]
        simp
      · simpa [hother] using h.once hbuyonce mint

/-- A step that keeps the ledger booked what it submitted. -/
theorem books_of_accounted {s : SpendStore} {event : SpendEvent} (hstored : task.Stored s.db)
    (h : task.Accounted s) (h' : task.Accounted (task.step s event)) : task.Books s event := by
  obtain ⟨-, ⟨-, -, hbooks⟩ | ⟨delivery, plan, rfl, hsubmits, hplan, hsubmitted, hspend⟩⟩ :=
    step_cases hstored event
  · exact hbooks
  obtain ⟨-, -, -, hpos, hwithin, -⟩ := prepareEntry_spec hplan
  have htotal := h'.total
  have hspent := h'.spent plan.mint
  have hbudget := h'.budget
  have hcap := h'.cap plan.mint
  rw [hsubmitted] at htotal hspent hbudget hcap
  rw [List.map_append, List.sum_append, ← h.total, List.map_singleton,
    List.sum_singleton] at htotal hbudget
  have hself : [plan].filter (·.mint = plan.mint) = [plan] :=
    List.filter_cons_of_pos (decide_eq_true rfl)
  rw [List.filter_append, hself, List.map_append, List.sum_append, ← h.spent, List.map_singleton,
    List.sum_singleton] at hspent hcap
  obtain ⟨hrecorded, hspend⟩ | ⟨-, hspend⟩ := hspend
  · intro other hother
    obtain rfl := Option.some.inj (hsubmits.symm.trans hother)
    rw [hspend] at htotal hspent
    exact ⟨hrecorded, ⟨hspent, htotal⟩, hwithin.mpr ⟨hbudget, hcap⟩⟩
  · -- an unrecorded buy is missing in the total
    rw [hspend] at htotal
    linarith

end SpendingTask

namespace DeliveredAgain

/-- A task that copies an eighth of a coin, once per token. -/
def spending : SpendingTask where
  task := liveTask
  limits :=
    { sizing := .fixed (1 / 8)
      maxNativePerTrade := 1 / 8
      maxNativePerToken := 1 / 8
      totalBudgetNative := 1 / 8
      minTargetTradeNative := none
      maxTargetTradeNative := none
      buyOncePerToken := true
      trade_pos := by norm_num
      trade_le := le_refl _
      token_le := le_refl _ }
  sum spend := ((values spend).map (·.spentNative)).foldl Binary64.add 0

def delivery (guard : Option CopySkip) : BuyDelivery where
  signature := "buy"
  mint := "mint"
  targetSizeNative := 1
  enabled := true
  guard
  context := ⟨false, false, true⟩
  policy := ⟨false, 1⟩
  claimedAt := some 0
  admission := none
  opening := .swapped (.ok "swap") ""
  recorded := true

/-- A buy skipped by a guard before its claim, and copied when it is delivered again. -/
def events : List SpendEvent :=
  [.delivered (delivery (some .unknownObservationTime)), .delivered (delivery none)]

end DeliveredAgain

end ScreenerBot.Copy
