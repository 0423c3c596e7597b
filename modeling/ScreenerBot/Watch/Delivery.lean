import ScreenerBot.Watch.HighActivity

/-! Over every run of a wallet's worker a signature is published at most once, and the durable
cursor does not pass one that is not dealt with. -/
namespace ScreenerBot.Watch
open Library WatchStore

variable {κ : Type} {history : List SignaturePageItem} {own : Bool} {ok : Prop}

/-- What the worker remembers between two programs: the range it pages, outside high activity. -/
structure Remembered (history : List SignaturePageItem) (own : Bool) (ok : Prop) (s : WatchStore κ)
    (r : TargetRuntime) : Prop where
  sources : r.target.isOwn = own
  external : r.highActivity = true → own = false ∧ r.catchUp = none
  range : ok → ∀ state, r.catchUp = some state → Ranged history own s state r.baselineOnly

namespace Remembered

variable {s s' : WatchStore κ} {r : TargetRuntime}

theorem grows (h : Remembered history own ok s r) (hgrows : s.Grows s') :
    Remembered history own ok s' r :=
  ⟨h.sources, h.external, fun hok state hstate => (h.range hok state hstate).grows hgrows⟩

/-- Without a range there is nothing to remember. -/
theorem forget {r' : TargetRuntime} (hown : r'.target.isOwn = own)
    (hexternal : r'.highActivity = true → own = false) (hnone : r'.catchUp = none) :
    Remembered history own ok s r' := by
  refine ⟨hown, fun hhigh => ⟨hexternal hhigh, hnone⟩, fun _ state hstate => ?_⟩
  cases hnone.symm.trans hstate

/-- A change of neither the range nor the mode. -/
theorem congr (h : Remembered history own ok s r) {r' : TargetRuntime}
    (hown : r'.target.isOwn = r.target.isOwn) (hmode : r'.highActivity = r.highActivity)
    (hrange : r'.catchUp = r.catchUp) (hbaseline : r'.baselineOnly = r.baselineOnly) :
    Remembered history own ok s r' := by
  refine ⟨hown.trans h.sources, ?_, ?_⟩
  · rw [hmode, hrange]
    exact h.external
  · rw [hrange, hbaseline]
    exact h.range

end Remembered

theorem fetchPages_works (hnodup : (history.map (·.signature)).Nodup) {baselineOnly : Bool}
    (pages : ℕ) :
    ∀ {state : CatchUpState} {s : WatchStore κ}, state.complete = false →
      (ok → Ranged history own s state baselineOnly) →
        Works history own ok (fun s' fetched => ok → Ranged history own s' fetched.1 baselineOnly)
          (fetchPages pages state) s := by
  induction pages with
  | zero => exact fun _ hrange => hrange
  | succ pages ih =>
    intro state s hincomplete hrange
    apply works_call
    intro s₁ result s₂ hgrows _ hkept hanswer hkeeps
    have hrange₁ (hok : ok) := (hrange hok).grows hgrows
    obtain ⟨⟨error, rfl⟩, rfl⟩ | ⟨seen, hknown, rfl, rfl⟩ := hanswer
    · exact ⟨hkept, hrange₁⟩
    have hrange₂ (hok : ok) := (hrange₁ hok).page hnodup hincomplete (hkept.2 hok)
      (List.take_prefix seen history) rfl rfl hknown (hkeeps hok)
    have hkept₂ : Kept history own ok
        (s₁.opened own (history.take seen) pageSize state.before state.durableUntil) := by
      unfold opened
      split
      next hnone =>
        -- a first window is opened while there is no cursor
        refine ⟨⟨hkept.1.distinct, hkept.1.known, hkept.1.cached⟩, fun _ signature hsome => ?_⟩
        cases hnone.2.2.1.symm.trans hsome
      next => exact hkept
    refine ⟨hkept₂, ?_⟩
    dsimp only
    split
    · exact hrange₂
    next hnot => exact ih (Bool.not_eq_true _ ▸ hnot) hrange₂

theorem advanceCatchUp_works (hnodup : (history.map (·.signature)).Nodup) {baselineOnly : Bool}
    {state : CatchUpState} {pageBudget : ℕ} {s : WatchStore κ} (hkept : s.Kept history own ok)
    (hrange : ok → Ranged history own s state baselineOnly) :
    Works history own ok (fun s' advanced => (ok → Ranged history own s' advanced.1 baselineOnly) ∧
        ∀ completed, advanced.2 = .ok completed → completed = advanced.1.completed)
      (advanceCatchUp state pageBudget) s := by
  unfold advanceCatchUp
  split
  · refine ⟨hrange, fun completed hsome => ?_⟩
    exact (Except.ok.inj hsome).symm
  next hnot =>
    apply (fetchPages_works hnodup _ (Bool.not_eq_true _ ▸ hnot) hrange).bind hkept
    rintro s' ⟨state', result⟩ _ hrange'
    refine ⟨hrange', fun completed hsome => ?_⟩
    cases result with
    | error error => cases hsome
    | ok done => exact (Except.ok.inj hsome).symm

theorem openCatchUp_works {r : TargetRuntime} {backfill : Bool} {s : WatchStore κ}
    (h : Remembered history own ok s r) (hmode : r.highActivity = false) :
    Works history own ok
      (fun s' r' => Remembered history own ok s' r' ∧ r'.highActivity = false)
      (openCatchUp r backfill) s := by
  unfold openCatchUp
  split
  · exact ⟨h.congr rfl rfl rfl rfl, hmode⟩
  apply works_read
  · exact fun _ _ _ hanswer => hanswer.1
  intro s₁ cursor hgrows _ hkept hanswer _
  have hread (signature : String) (hsome : cursor.toOption.join = some signature) :
      s₁.cursor = some (some signature) := by
    cases cursor with
    | error error => cases hsome
    | ok read =>
      have hread := hanswer.2 read rfl
      rw [← Option.join_eq_some_iff, ← hread]
      exact hsome
  have hboundary (hok : ok) (signature : String) (hsome : cursor.toOption.join = some signature) :
      s₁.SettledTo history own signature := hkept.2 hok signature (hread signature hsome)
  dsimp only
  split
  · refine ⟨⟨h.sources, fun hhigh => ?_, fun hok state hstate => ?_⟩, hmode⟩
    · cases hmode.symm.trans hhigh
    · cases hstate
      exact ranged_new (hboundary hok) nofun
  next hexternal =>
    rw [h.sources, Bool.not_eq_true] at hexternal
    apply works_read
    · exact fun _ _ _ hanswer => hanswer.1
    intro s₂ row hgrows₂ _ _ hrow hkeeps
    refine ⟨⟨h.sources, fun hhigh => ?_, fun hok state hstate => ?_⟩, hmode⟩
    · cases hmode.symm.trans hhigh
    · cases hstate
      refine ranged_new (fun signature hsome => (hboundary hok signature hsome).grows hgrows₂)
        fun hbaseline => ?_
      have hnone : s₂.cursor = none := by
        cases row with
        | error error => exact hkeeps hok
        | ok row =>
          have hrow : s₂.cursor.isSome = false := by
            rw [← hrow.2 row rfl]
            exact Bool.not_eq_true' _ ▸ hbaseline
          exact Option.isNone_iff_eq_none.mp (Option.isSome_eq_false_iff.mp hrow)
      refine ⟨hexternal, hnone, ?_⟩
      cases hjoin : cursor.toOption.join with
      | none => rfl
      | some signature =>
        rw [hgrows₂.cursor] at hnone
        cases hnone.symm.trans (hread signature hjoin)

theorem replay_works {target : WatchTarget} {backfill : Bool} (hown : target.isOwn = own)
    (signatures : List SignaturePageItem) : ∀ {complete : Bool} {s : WatchStore κ},
      s.Kept history own ok →
        Works history own ok
          (fun s' replayed => s.Grows s' ∧ (ok → replayed = true → complete = true ∧
          ∀ x ∈ signatures, s'.Settled own x)) (replay target backfill signatures complete) s := by
  induction signatures with
  | nil => exact fun _ => ⟨.refl _, fun _ hcomplete => ⟨hcomplete, nofun⟩⟩
  | cons seen rest ih =>
    intro complete s hkept
    unfold replay
    split
    next hskip =>
      refine (ih hkept).mono fun s' replayed h => ⟨h.1, fun hok hreplayed => ?_⟩
      obtain ⟨hcomplete, hrest⟩ := h.2 hok hreplayed
      rw [skipKnownFailedExternal, hown, Bool.and_eq_true, Bool.not_eq_true'] at hskip
      refine ⟨hcomplete, fun x hx => ?_⟩
      obtain rfl | hx := List.mem_cons.mp hx
      · exact .inr (.inl hskip)
      · exact hrest x hx
    next =>
      apply (processSignature_works s).bind hkept
      intro s₁ outcome hkept₁ hfunnelled
      obtain ⟨hgrows, hknown⟩ := hfunnelled
      refine (ih hkept₁).mono fun s' replayed h => ⟨hgrows.trans h.1, fun hok hreplayed => ?_⟩
      obtain ⟨hcomplete, hrest⟩ := h.2 hok hreplayed
      rw [Bool.and_eq_true, beq_iff_eq] at hcomplete
      refine ⟨hcomplete.1, fun x hx => ?_⟩
      obtain rfl | hx := List.mem_cons.mp hx
      · exact .inl (h.1.known _ (hknown hok hcomplete.2))
      · exact hrest x hx

section Polls

variable {s : WatchStore κ} {r : TargetRuntime}

/-- A write of the cursor, after which there is nothing to remember unless it failed. -/
theorem cursorWrite_works {effect : WatchCall κ (Except Unit Unit)} {r' : TargetRuntime}
    (hwrite : ∀ (s₁ : WatchStore κ) result s₂, s.Grows s₁ → s₁.Kept history own ok →
      s₁.answers history own effect result s₂ →
        s₂.Kept history own ok ∧ Remembered history own ok s₂ r)
    (hnext : ∀ (s : WatchStore κ), Remembered history own ok s r') :
    Works history own ok (fun s' r => Remembered history own ok s' r)
      (do match ← Program.perform effect with
        | .error _ => return r
        | .ok _ => return r') s := by
  apply works_call
  intro s₁ result s₂ hgrows _ hkept hanswer _
  obtain ⟨hkept₂, hremembered⟩ := hwrite s₁ result s₂ hgrows hkept hanswer
  refine ⟨hkept₂, ?_⟩
  cases result with
  | error error => exact hremembered
  | ok done => exact hnext s₂

/-- A complete range at whose newest signature the cursor may stand. -/
theorem completed_settled (h : Remembered history own ok s r) {state : CatchUpState}
    (hstate : r.catchUp = some state) {completed : CompletedCatchUp}
    (hcompleted : state.completed = some completed) (hok : ok)
    (hreplayed : r.baselineOnly = false → ∀ x ∈ completed.signatures, s.Settled own x)
    {newest : String} (hnewest : completed.newestSignature = some newest) :
    s.SettledTo history own newest := by
  have hrange := h.range hok state hstate
  unfold CatchUpState.completed at hcompleted
  split at hcompleted
  next hcomplete =>
    cases hcompleted
    refine ⟨(hrange.read newest hnewest).1, fun x hx => ?_⟩
    obtain ⟨hbaseline, hin⟩ | hsettled := hrange.rest hcomplete newest hnewest x hx
    · exact hreplayed hbaseline x (List.mem_reverse.mpr hin)
    · exact hsettled
  next => cases hcompleted

theorem completed_complete {state : CatchUpState} {completed : CompletedCatchUp}
    (h : state.completed = some completed) : state.complete = true := by
  unfold CatchUpState.completed at h
  split at h
  next hcomplete => exact hcomplete
  next => cases h

/-- A worker whose range is complete does not look at the cursor any more. -/
theorem Remembered.setCursor (h : Remembered history own ok s r) {state : CatchUpState}
    (hstate : r.catchUp = some state) (hcomplete : state.complete = true)
    (cursor : Option (Option String)) :
    Remembered history own ok { s with cursor := cursor } r := by
  refine ⟨h.sources, h.external, fun hok state' hstate' => ?_⟩
  cases hstate.symm.trans hstate'
  exact (h.range hok state hstate).setCursor hcomplete cursor

/-- Saves the cursor at the newest signature of a range that is dealt with. -/
theorem advance_kept (h : Remembered history own ok s r) {state : CatchUpState}
    (hstate : r.catchUp = some state) (hcomplete : state.complete = true) {newest : String}
    (hsettled : ok → s.SettledTo history own newest) {s₁ s₂ : WatchStore κ}
    {result : Except Unit Unit} (hgrows : s.Grows s₁) (hkept : s₁.Kept history own ok)
    (hanswer : s₁.answers history own (.setCursor newest) result s₂) :
    s₂.Kept history own ok ∧ Remembered history own ok s₂ r := by
  refine ⟨(setCursor_kept hkept (fun hok => (hsettled hok).grows hgrows) hanswer).1, ?_⟩
  obtain rfl | ⟨-, rfl⟩ := hanswer
  · exact (h.grows hgrows).setCursor hstate hcomplete _
  · exact h.grows hgrows

theorem establishBaseline_works (h : Remembered history own ok s r) (hmode : r.highActivity = false)
    {state : CatchUpState} (hstate : r.catchUp = some state) {completed : CompletedCatchUp}
    (hcompleted : state.completed = some completed) (hbaseline : r.baselineOnly = true) :
    Works history own ok (fun s' r => Remembered history own ok s' r)
      (establishBaseline r completed) s := by
  have hcomplete := completed_complete hcompleted
  have hnext (s : WatchStore κ) : Remembered history own ok s
      { r with catchUp := none, baselineOnly := false } :=
    .forget h.sources (fun hhigh => absurd (hmode.symm.trans hhigh) Bool.false_ne_true) rfl
  unfold establishBaseline
  cases hnewest : completed.newestSignature with
  | some newest =>
    refine cursorWrite_works (fun s₁ result s₂ hgrows hkept hanswer => ?_) hnext
    refine advance_kept h hstate hcomplete (fun hok => ?_) hgrows hkept hanswer
    exact completed_settled h hstate hcompleted hok
      (fun hnot => absurd (hbaseline.symm.trans hnot) Bool.noConfusion) hnewest
  | none =>
    refine cursorWrite_works (fun s₁ result s₂ hgrows hkept hanswer => ?_) hnext
    obtain rfl | ⟨-, rfl⟩ := hanswer
    · exact ⟨hkept.initialized, (h.grows hgrows).setCursor hstate hcomplete _⟩
    · exact ⟨hkept, h.grows hgrows⟩

theorem finishReplay_works (hkept : s.Kept history own ok) (h : Remembered history own ok s r)
    (hmode : r.highActivity = false) {state : CatchUpState} (hstate : r.catchUp = some state)
    {completed : CompletedCatchUp} (hcompleted : state.completed = some completed) :
    Works history own ok (fun s' r => Remembered history own ok s' r)
      (finishReplay r completed) s := by
  have hnext (s : WatchStore κ) : Remembered history own ok s { r with catchUp := none } :=
    .forget h.sources (fun hhigh => absurd (hmode.symm.trans hhigh) Bool.false_ne_true) rfl
  apply (replay_works h.sources completed.signatures hkept).bind hkept
  intro s₁ replayed _ hreplayed
  have hremembered := h.grows hreplayed.1
  cases replayed with
  | false => exact hremembered.congr rfl rfl rfl rfl
  | true =>
    simp only [if_true]
    cases hnewest : completed.newestSignature with
    | none => exact hnext s₁
    | some newest =>
      refine cursorWrite_works (fun s₂ result s₃ hgrows hkept hanswer => ?_) hnext
      refine advance_kept hremembered hstate (completed_complete hcompleted)
        (fun hok => ?_) hgrows hkept
        hanswer
      exact completed_settled hremembered hstate hcompleted hok
        (fun _ => (hreplayed.2 hok rfl).2) hnewest

theorem pauseFor_works {reason : WatchDisableReason}
    (h : ∀ (s : WatchStore κ) (r' : TargetRuntime), r'.target.isOwn = r.target.isOwn →
      r'.highActivity = r.highActivity → r'.catchUp = r.catchUp → r'.baselineOnly = r.baselineOnly →
        Remembered history own ok s r') :
    Works history own ok (fun s' r => Remembered history own ok s' r) (pauseFor r reason) s := by
  unfold pauseFor
  split
  · exact h s r rfl rfl rfl rfl
  · apply works_read
    · exact fun _ _ _ hanswer => hanswer
    intro s₁ result _ _ _ _ _
    cases result with
    | error error => exact h s₁ r rfl rfl rfl rfl
    | ok done => exact h s₁ _ rfl rfl rfl rfl

theorem pollHighActivityTarget_works (hnodup : (history.map (·.signature)).Nodup)
    (hown : own = false)
    (hsources : r.target.isOwn = own) (hnone : r.catchUp = none) :
    Works history own ok (fun _ polled => polled.1.target.isOwn = own ∧ polled.1.catchUp = none)
      (pollHighActivityTarget r) s := by
  apply works_read
  · exact fun _ _ _ hanswer => hanswer.1
  intro s₁ cursor _ _ hkept hanswer _
  cases cursor with
  | error error => exact ⟨hsources, hnone⟩
  | ok cursor =>
    have hcursor (hok : ok) (signature : String) (hsome : cursor = some signature) :
        s₁.SettledTo history own signature := by
      refine hkept.2 hok signature ?_
      rw [← Option.join_eq_some_iff, ← hanswer.2 cursor rfl]
      exact hsome
    apply (highActivityPages_works hnodup hown _ hcursor).bind hkept
    rintro s₂ ⟨result, caughtUp⟩ _ _
    cases result with
    | checked => exact ⟨hsources, hnone⟩
    | providerFailed => exact ⟨hsources, hnone⟩
    | processingFailed => exact ⟨hsources, hnone⟩

theorem pollHighActivity_works (hnodup : (history.map (·.signature)).Nodup)
    (h : Remembered history own ok s r) (hmode : r.highActivity = true) :
    Works history own ok (fun s' r => Remembered history own ok s' r) (pollHighActivity r) s := by
  obtain ⟨hown, hnone⟩ := h.external hmode
  apply works_read
  · exact fun _ _ _ hanswer => hanswer
  intro s₁ supported hgrows _ hkept₁ _ _
  cases supported with
  | false =>
    exact pauseFor_works fun s r' hsources _ hrange _ =>
      .forget (hsources.trans h.sources) (fun _ => hown) (hrange.trans hnone)
  | true =>
    apply (pollHighActivityTarget_works hnodup hown h.sources hnone).bind hkept₁
    rintro s₂ ⟨r₂, result⟩ _ ⟨hsources, hnone₂⟩
    dsimp only
    split
    · exact .forget hsources (fun _ => hown) hnone₂
    · split
      · exact pauseFor_works fun s r' hsources' _ hrange _ =>
          .forget (hsources'.trans hsources) (fun _ => hown) (hrange.trans hnone₂)
      · exact .forget hsources (fun _ => hown) hnone₂

theorem handleOverflow_works (h : Remembered history own ok s r) (hmode : r.highActivity = false) :
    Works history own ok (fun s' r => Remembered history own ok s' r) (handleOverflow r) s := by
  have hnext (s : WatchStore κ) (r' : TargetRuntime) (hsources : r'.target.isOwn = r.target.isOwn)
      (hmode' : r'.highActivity = r.highActivity) (hnone : r'.catchUp = none) :
      Remembered history own ok s r' := by
    refine .forget (hsources.trans h.sources) (fun hhigh => ?_) hnone
    rw [hmode', hmode] at hhigh
    cases hhigh
  unfold handleOverflow
  split
  · exact h
  · split
    · exact hnext s _ rfl rfl rfl
    · apply works_read
      · exact fun _ _ _ hanswer => hanswer
      intro s₁ result _ _ _ _ _
      cases result with
      | error error => exact hnext s₁ _ rfl rfl rfl
      | ok done => exact hnext s₁ _ rfl rfl rfl

theorem overBudget_works (hnodup : (history.map (·.signature)).Nodup)
    (h : Remembered history own ok s r) (hmode : r.highActivity = false) :
    Works history own ok (fun s' r => Remembered history own ok s' r) (overBudget r) s := by
  unfold overBudget
  split
  · exact h
  next hexternal =>
    rw [h.sources, Bool.not_eq_true] at hexternal
    split
    · apply works_read
      · exact fun _ _ _ hanswer => hanswer
      intro s₁ supported hgrows _ hkept₁ _ _
      cases supported with
      | false => exact handleOverflow_works (h.grows hgrows) hmode
      | true =>
        have hpolled : Works history own ok
            (fun _ polled => polled.1.target.isOwn = own ∧ polled.1.catchUp = none)
            (pollHighActivityTarget
              { r with catchUp := none, highActivity := true, highActivityCatchingUp
                := true }) s₁ :=
          pollHighActivityTarget_works hnodup hexternal h.sources rfl
        apply hpolled.bind hkept₁
        rintro s₂ ⟨r₂, result⟩ _ ⟨hsources, hnone⟩
        dsimp only
        split
        · exact .forget hsources (fun _ => hexternal) hnone
        · exact .forget hsources (fun _ => hexternal) hnone
    · exact handleOverflow_works h hmode

theorem pollStandard_works (hnodup : (history.map (·.signature)).Nodup)
    (hkept : s.Kept history own ok)
    (h : Remembered history own ok s r) (hmode : r.highActivity = false) {backfill : Bool} :
    Works history own ok (fun s' r => Remembered history own ok s' r)
      (pollStandard r backfill) s := by
  apply (openCatchUp_works h hmode).bind hkept
  rintro s₁ r₁ hkept₁ ⟨h₁, hmode₁⟩
  dsimp only
  split
  · exact h₁
  next state hstate =>
    apply (advanceCatchUp_works hnodup hkept₁ fun hok => h₁.range hok state hstate).bind hkept₁
    rintro s₂ ⟨state₂, result⟩ hkept₂ ⟨hrange, hcompleted⟩
    have h₂ (backfill : Bool) : Remembered history own ok s₂
        { r₁ with catchUp := some state₂, backfill := backfill } := by
      refine ⟨h₁.sources, fun hhigh => ?_, fun hok state' hstate' => ?_⟩
      · cases hmode₁.symm.trans hhigh
      · cases hstate'
        exact hrange hok
    dsimp only
    split
    · exact h₂ true
    · exact overBudget_works hnodup (h₂ r₁.backfill) hmode₁
    next completed =>
      split
      next hbaseline =>
        exact establishBaseline_works (h₂ r₁.backfill) hmode₁ rfl (hcompleted _ rfl).symm hbaseline
      next => exact finishReplay_works hkept₂ (h₂ r₁.backfill) hmode₁ rfl (hcompleted _ rfl).symm

theorem dropUnapproved_remembered (h : Remembered history own ok s r) :
    Remembered history own ok s r.dropUnapproved := by
  unfold TargetRuntime.dropUnapproved
  split
  · exact .forget h.sources nofun rfl
  · exact h

theorem pollTarget_works (hnodup : (history.map (·.signature)).Nodup)
    (h : Remembered history own ok s r) (backfill : Bool) :
    Works history own ok (fun s' r => Remembered history own ok s' r)
      (pollTarget r backfill) s := by
  unfold pollTarget
  split
  · apply works_read
    · exact fun _ _ _ hanswer => hanswer
    intro s₁ resolves hgrows _ hkept₁ _ _
    have h₁ := h.grows hgrows
    cases resolves with
    | false => exact h₁
    | true =>
      have hdropped := dropUnapproved_remembered h₁
      simp only [if_true]
      split
      next hmode => exact pollHighActivity_works hnodup hdropped hmode
      next hmode => exact pollStandard_works hnodup hkept₁ hdropped (Bool.not_eq_true _ ▸ hmode)
  · exact h

end Polls

section Runs

variable {s : WatchStore κ} {r : TargetRuntime}

theorem queueRetry_remembered (h : Remembered history own ok s r) (retry : WsRetry) :
    Remembered history own ok s (queueRetry r retry) := by
  unfold queueRetry
  split
  · exact h.congr rfl rfl rfl rfl
  · exact h

theorem processEvent_works (hkept : s.Kept history own ok) (h : Remembered history own ok s r)
    (signature : String) (failed : Bool) :
    Works history own ok (fun s' r => Remembered history own ok s' r)
      (processEvent r signature failed) s := by
  unfold processEvent
  split
  · exact h
  split
  · exact h
  split
  · exact h.congr rfl rfl rfl rfl
  · apply (processSignature_works s).bind hkept
    intro s₁ outcome _ hfunnelled
    have h₁ := h.grows hfunnelled.1
    cases outcome with
    | terminal => exact h₁
    | retryable => exact queueRetry_remembered h₁ _

theorem runRetries_works (due : WsRetry → Bool) (pending : List WsRetry) :
    ∀ {s : WatchStore κ} {r : TargetRuntime}, s.Kept history own ok →
      Remembered history own ok s r →
      Works history own ok (fun s' r => Remembered history own ok s' r)
        (runRetries due pending r) s := by
  induction pending with
  | nil => exact fun _ h => h
  | cons retry rest ih =>
    intro s r hkept h
    unfold runRetries
    split
    · apply (processSignature_works s).bind hkept
      intro s₁ outcome hkept₁ hfunnelled
      have h₁ := h.grows hfunnelled.1
      cases outcome with
      | terminal => exact ih hkept₁ h₁
      | retryable => exact ih hkept₁ (queueRetry_remembered h₁ _)
    · exact ih hkept (h.congr rfl rfl rfl rfl)

theorem tick_works (hnodup : (history.map (·.signature)).Nodup) (hkept : s.Kept history own ok)
    (h : Remembered history own ok s r) (due : WsRetry → Bool) (poll : Bool) :
    Works history own ok (fun s' r => Remembered history own ok s' r) (tick r due poll) s := by
  have hretries : Works history own ok (fun s' r => Remembered history own ok s' r)
      (processRetries r due) s := by
    unfold processRetries
    split
    · exact h.congr rfl rfl rfl rfl
    · exact runRetries_works due r.retries hkept (h.congr rfl rfl rfl rfl)
  apply hretries.bind hkept
  intro s₁ r₁ hkept₁ h₁
  cases poll with
  | true =>
    have hclean : Remembered history own ok s₁ { r₁ with highActivityDirty := false } :=
      h₁.congr rfl rfl rfl rfl
    exact pollTarget_works hnodup hclean false
  | false => exact h₁

theorem turns_works (hnodup : (history.map (·.signature)).Nodup) (hkept : s.Kept history own ok)
    (h : Remembered history own ok s r) {program : Program (WatchCall κ) TargetRuntime}
    (hturn : Turns r program) :
    Works history own ok (fun s' r => Remembered history own ok s' r) program s := by
  cases hturn with
  | gapFill => exact pollTarget_works hnodup h true
  | event signature failed => exact processEvent_works hkept h signature failed
  | tick due poll => exact tick_works hnodup hkept h due poll
  | update target hown => exact h.congr hown rfl rfl rfl

/-- What holds in every state of a run, the cursor's part where the exchanges keep up. -/
theorem reached_kept (hnodup : (history.map (·.signature)).Nodup)
    {running : Worker (WatchCall κ) TargetRuntime}
    (h : (worker history own).Reached (fun s x => ok → s.KeepsUp history own x.effect x.answer)
      s running) :
    s.Kept history own ok := by
  refine (@Machine.Reached.invariant _ _ _ (worker history own) _ (Kept history own ok)
    (fun s r => Remembered history own ok s r) ?_ ?_ ?_ ?_ ?_ s running h).1
  · rintro _ rfl
    exact ⟨⟨List.nodup_nil, fun _ hin => absurd hin List.not_mem_nil,
      fun _ hin => absurd hin List.not_mem_nil⟩, fun _ _ hsome =>
        absurd hsome (Option.some_ne_none _).symm⟩
  · rintro s _ _ ⟨target, hown, rfl⟩
    exact pollTarget_works hnodup
      (.forget hown (fun hhigh => absurd hhigh Bool.false_ne_true) rfl) true
  · exact fun s r program hkept hremembered hturn => turns_works hnodup hkept hremembered hturn
  · intro s s' hkept hmove
    exact ⟨moves_kept hkept hmove, fun r hremembered =>
      hremembered.grows (moves_grows (.single hmove)).1⟩
  · rintro s _ hkept ⟨cached, hsub, rfl⟩
    refine ⟨⟨hkept.1.distinct, hkept.1.known, fun key hkey => hkept.1.cached key (hsub hkey)⟩, ?_⟩
    exact fun hok => (hkept.2 hok).grows ⟨rfl, fun _ h => h, rfl⟩

def ownTarget : WatchTarget := ⟨none, [.ownWallet], true, 5, false, none⟩

/-- Two transactions of the own wallet. -/
def twoSignatures : List SignaturePageItem := [⟨"first", false⟩, ⟨"second", false⟩]

def activityOf (signature : String) : WalletActivity Unit := ⟨signature, (), [.ownWallet], true⟩

/-- The stores once both are published: the first could not be decoded before the gap-fill. -/
def bothPublished : WatchStore Unit where
  cursor := some (some "second")
  known := ["first", "second"]
  cached := ["first", "second"]
  published := [activityOf "second", activityOf "first"]
  baselined := some []

theorem bothPublished_reached : ∃ running, (worker twoSignatures true).Reached
    (fun s x => s.KeepsUp twoSignatures true x.effect x.answer) bothPublished running := by
  have hstart : (worker twoSignatures true).Reached
      (fun s x => s.KeepsUp twoSignatures true x.effect x.answer)
      (WatchStore.start : WatchStore Unit)
      (.busy (pollTarget (.register ownTarget) true)) := .start rfl ⟨ownTarget, rfl, rfl⟩
  have hresolved := hstart.answer (b := true) rfl (by trivial)
  have hread := hresolved.answer (b := .ok none) ⟨rfl, fun _ h => (Except.ok.inj h).symm⟩
    (by trivial)
  have hpage := hread.answer (b := .ok twoSignatures.reverse) (.inr ⟨2, nofun, rfl, rfl⟩)
    fun newest hnewest x hx => by
      cases hnewest
      exact .inl (List.mem_reverse.mpr hx)
  -- the first signature has to wait, the second is published
  have hfunnel := hpage.answer (b := true) rfl rfl
  have hunseen := hfunnel.answer (b := .ok false) ⟨rfl, fun _ h => by cases h; decide⟩ (by trivial)
  have hdeferred := hunseen.answer (b := .error .indexingDelay) rfl (by trivial)
  have hfunnel₂ := hdeferred.answer (b := true) rfl rfl
  have hunseen₂ := hfunnel₂.answer (b := .ok false) ⟨rfl, fun _ h => by
    cases h; decide⟩ (by trivial)
  have hdecoded₂ := hunseen₂.answer (b := .ok ⟨true, some ()⟩) rfl (by trivial)
  have hrecorded₂ := hdecoded₂.answer (b := .ok ()) rfl (by trivial)
  have hknown₂ := hrecorded₂.answer (b := .ok ()) (.inl ⟨⟨(), rfl⟩, rfl⟩) (by trivial)
  have hpublished₂ := (hknown₂.answer (b := ()) rfl (by trivial)).finish
  -- the gap-fill feeds the same range again
  have hagain := (hpublished₂.turn (.gapFill _)).answer (b := true) rfl (by trivial)
  have hfunnel₃ := hagain.answer (b := true) rfl rfl
  have hunseen₃ := hfunnel₃.answer (b := .ok false) ⟨rfl, fun _ h => by
    cases h; decide⟩ (by trivial)
  have hdecoded₃ := hunseen₃.answer (b := .ok ⟨true, some ()⟩) rfl (by trivial)
  have hrecorded₃ := hdecoded₃.answer (b := .ok ()) rfl (by trivial)
  have hknown₃ := hrecorded₃.answer (b := .ok ()) (.inl ⟨⟨(), rfl⟩, rfl⟩) (by trivial)
  have hpublished₃ := hknown₃.answer (b := ()) rfl (by trivial)
  have hfunnel₄ := hpublished₃.answer (b := true) rfl rfl
  have hseen₄ := hfunnel₄.answer (b := .ok true) ⟨rfl, fun _ h => by cases h; decide⟩ (by trivial)
  exact ⟨_, hseen₄.answer (b := .ok ()) (.inl rfl) (by trivial)⟩

/-- The transactions of a busy wallet, all successful. -/
def numbered (n : ℕ) : SignaturePageItem := ⟨String.ofList (List.replicate n '1'), false⟩

def busyHistory : List SignaturePageItem :=
  numbered 0 :: (List.range 100).map fun n => numbered (n + 1)

theorem numbered_injective {m n : ℕ} (h : (numbered m).signature = (numbered n).signature) :
    m = n := by
  have hlist := congrArg (fun signature => signature.toList.length) h
  simpa [numbered] using hlist

theorem busyHistory_nodup : (busyHistory.map (·.signature)).Nodup := by
  rw [busyHistory, List.map_cons, List.map_map, List.nodup_cons]
  constructor
  · rw [List.mem_map]
    rintro ⟨n, -, hsame⟩
    exact Nat.succ_ne_zero n (numbered_injective hsame)
  · exact List.nodup_range.map fun m n hsame => Nat.succ_injective (numbered_injective hsame)

theorem busyHistory_page : ∃ older : List SignaturePageItem,
    signaturesPage busyHistory pageSize none none = numbered 100 :: older ∧
      ∀ item ∈ numbered 100 :: older, item.signature ≠ (numbered 0).signature := by
  let newestHundred : List SignaturePageItem := (List.range 100).map fun n => numbered (n + 1)
  have hlength : newestHundred.reverse.length = pageSize := by simp [newestHundred, pageSize]
  have hpage : signaturesPage busyHistory pageSize none none = newestHundred.reverse := by
    rw [signaturesPage_window, busyHistory, List.reverse_cons, ← hlength]
    exact List.take_left
  have hlast : newestHundred = (List.range 99).map (fun n => numbered (n + 1)) ++
      [numbered 100] := by
    rw [show newestHundred = (List.range (99 + 1)).map fun n =>
      numbered (n + 1) from rfl, List.range_succ,
      List.map_append, List.map_singleton]
  refine ⟨((List.range 99).map fun n => numbered (n + 1)).reverse, ?_, fun item hitem hsame => ?_⟩
  · rw [hpage, hlast, List.reverse_append, List.reverse_singleton, List.singleton_append]
  · obtain ⟨n, rfl⟩ : ∃ n, item = numbered (n + 1) := by
      obtain rfl | hitem := List.mem_cons.mp hitem
      · exact ⟨99, rfl⟩
      · obtain ⟨n, -, rfl⟩ := List.mem_map.mp (List.mem_reverse.mp hitem)
        exact ⟨n, rfl⟩
    exact Nat.succ_ne_zero n (numbered_injective hsame)

/-- Feeds signatures without an activity to the funnel; they and no others become known. -/
theorem replay_reached {history : List SignaturePageItem}
    {f : Bool → Program (WatchCall Unit) TargetRuntime} (signatures : List SignaturePageItem) :
    ∀ {s : WatchStore Unit}, (worker history true).Reached (fun _ _ => True) s
        (.busy (replay ownTarget true signatures true >>= f)) →
      ∃ s', (worker history true).Reached (fun _ _ => True) s' (.busy (f true)) ∧
        s'.baselined = s.baselined ∧
        ∀ signature ∈ s'.known, signature ∈ s.known ∨ signature ∈ signatures.map (·.signature) := by
  induction signatures with
  | nil => exact fun h => ⟨_, h, rfl, fun _ hin => .inl hin⟩
  | cons item rest ih =>
    intro s h
    have hown : skipKnownFailedExternal ownTarget item.failed = false := Bool.and_false _
    rw [replay, if_neg (by rw [hown]; exact Bool.false_ne_true)] at h
    have hfunnel := h.answer (b := true) rfl trivial
    by_cases hin : item.signature ∈ s.cached ∨ item.signature ∈ s.known
    · have hseen := hfunnel.answer (b := .ok true) ⟨rfl, fun _ h => by
        cases h; exact iff_of_true rfl hin⟩
        trivial
      obtain ⟨s', hreached, hbaselined, hknown⟩ := ih hseen
      refine ⟨s', hreached, hbaselined, fun signature hsignature => ?_⟩
      exact (hknown signature hsignature).imp_right (List.mem_cons_of_mem _)
    · have hunseen := hfunnel.answer (b := .ok false)
        ⟨rfl, fun _ h => by cases h; exact iff_of_false Bool.false_ne_true hin⟩ trivial
      have hdecoded := hunseen.answer (b := .ok ⟨true, none⟩) rfl trivial
      have hcommitted := hdecoded.answer (b := .ok ()) (.inl ⟨⟨(), rfl⟩, rfl⟩) trivial
      obtain ⟨s', hreached, hbaselined, hknown⟩ := ih hcommitted
      refine ⟨s', hreached, hbaselined, fun signature hsignature => ?_⟩
      obtain hold | hrest := hknown signature hsignature
      · obtain rfl | hold := List.mem_cons.mp hold
        · exact .inr List.mem_cons_self
        · exact .inl hold
      · exact .inr (List.mem_cons_of_mem _ hrest)

/-- A restarted worker of the own wallet reads one more window, and moves the cursor to its newest
signature. -/
theorem second_window_reached {history : List SignaturePageItem} {seen : ℕ}
    {newest : SignaturePageItem}
    {older : List SignaturePageItem} {s : WatchStore Unit}
    (hpage : signaturesPage (history.take seen) pageSize none none = newest :: older)
    (hcursor : s.cursor = none) (hbaselined : s.baselined ≠ none)
    (h : (worker history true).Reached (fun _ _ => True) s
      (.busy (pollTarget (.register ownTarget) true))) :
    ∃ (s' : WatchStore Unit) (running : _),
      (worker history true).Reached (fun _ _ => True) s' running ∧
      s'.cursor = some (some newest.signature) ∧ s'.baselined = s.baselined ∧
      ∀ signature ∈ s'.known, signature ∈ s.known ∨
        signature ∈ (newest :: older).map (·.signature) := by
  have hresolved := h.answer (b := true) rfl trivial
  have hread := hresolved.answer (b := .ok none)
    ⟨rfl, fun _ h => by cases h; rw [hcursor]; rfl⟩ trivial
  have hopened := @opened_same Unit true s (history.take seen) pageSize none none
    (.inr (.inr (.inr fun hfirst => hbaselined (hfirst rfl))))
  have hwindow := hread.answer (b := .ok (newest :: older))
    (.inr ⟨seen, nofun, congrArg Except.ok hpage.symm, hopened.symm⟩) trivial
  obtain ⟨s', hreplayed, hsame, hknown⟩ := replay_reached (newest :: older).reverse hwindow
  refine ⟨_, _, hreplayed.answer (b := .ok ()) (.inl rfl) trivial, rfl, hsame,
    fun signature hin => ?_⟩
  refine (hknown signature hin).imp_right fun hin => ?_
  rwa [List.map_reverse, List.mem_reverse] at hin

end Runs

end ScreenerBot.Watch
