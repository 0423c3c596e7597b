import ScreenerBot.Positions.Adds
import ScreenerBot.Positions.Idempotence

/-! Automatic adds are sent one at a time: in a run that keeps track of every add, an add that is
not settled has its marker. -/
namespace ScreenerBot.Positions
open Library

/-- The markers an add, or a settlement, holds on their way. -/
def AddStage.entries : AddStage → List PendingDcaSwap
  | .sent entry => [entry]
  | .saving pending => pending
  | _ => []

def SettleStage.entries : SettleStage → List PendingDcaSwap
  | .saving pending => pending
  | _ => []

/-- An add that has not sent its swap. -/
def AddTask.waiting (task : AddTask) : Bool :=
  match task.stage with
  | .checked | .admitted _ => true
  | _ => false

namespace AddDesk

/-- Memory as it is once it has adopted the rows at `ids`: each row is the stored one or was
there. -/
def Adopts (rows before after : AList fun _ : ℤ => Position) (ids : Option ℤ) : Prop :=
  ∀ id row, after.lookup id = some row → (ids = some id ∧ rows.lookup id = some row) ∨
    ((ids = some id → rows.lookup id = none) ∧ before.lookup id = some row)

theorem adopts_none (rows memory : AList fun _ : ℤ => Position) : Adopts rows memory memory none :=
  fun _ _ h => .inr ⟨nofun, h⟩

/-- Adopting a row changes nothing but memory. -/
theorem adopt_eq (s : AddDesk) (id : ℤ) :
    ∃ memory, s.adopt id = { s with memory := memory } ∧
      Adopts s.store.rows s.memory memory (some id) := by
  unfold adopt
  split
  next old row hold hrow =>
    refine ⟨_, rfl, fun id' row' h => ?_⟩
    obtain ⟨rfl, rfl⟩ | ⟨hne, hlookup⟩ := lookup_insert_cases h
    · exact .inl ⟨rfl, hrow⟩
    · exact .inr ⟨fun he => absurd (Option.some.inj he).symm hne, hlookup⟩
  next hnone =>
    refine ⟨s.memory, rfl, fun id' row' h => .inr ⟨fun he => ?_, h⟩⟩
    cases he
    cases hrow : s.store.rows.lookup id with
    | none => rfl
    | some row => exact absurd hrow (hnone row' row h)

/-- What a step does when it does anything. -/
inductive Change (settings : DcaSettings) (s : AddDesk) : AddEvent → AddDesk → Prop
  | same (e : AddEvent) : Change settings s e s
  | called (origin : TradeOrigin) (htask : s.task = none)
      (hfree : s.refuseWhilePending origin = .ok ()) :
      Change settings s (.call origin) { s with task := some ⟨origin, .checked⟩ }
  | admitted (origin : TradeOrigin) (positionId now : ℤ) (htask : s.task = some ⟨origin, .checked⟩)
      (hadmits : s.admitAdd settings origin now = .ok positionId) :
      Change settings s (.read now) { s with task := some ⟨origin, .admitted positionId⟩ }
  | ended (e : AddEvent) (htask : ∀ origin entry, s.task ≠ some ⟨origin, .sent entry⟩) :
      Change settings s e { s with task := none }
  | sent (e : AddEvent) (origin : TradeOrigin) (positionId : ℤ) (entry : PendingDcaSwap)
      (htask : s.task = some ⟨origin, .admitted positionId⟩)
      (hfresh : s.fresh entry.signature = true)
      (hmint : entry.mint = s.mint) (hposition : entry.positionId = positionId) :
      Change settings s e { s with
        task := some ⟨origin, .sent entry⟩
        sent := s.sent ++ [⟨entry.signature, positionId, origin⟩] }
  | unresolved (result : Except Swaps.Error String) (onChain signature : String)
      (expiryHeight : Option ℕ) (size : ℚ) (sent : List SentAdd)
      (hsending : sending result onChain = .unresolved signature) :
      Change settings s (.swap result onChain expiryHeight size)
        { s with task := none, sent := sent }
  | registered (origin : TradeOrigin) (entry : PendingDcaSwap)
      (htask : s.task = some ⟨origin, .sent entry⟩) :
      Change settings s .register { s with
        adds := s.adds.insert PendingDcaSwap.signature entry
        task := some ⟨origin, .registered⟩ }
  | snapshot (origin : TradeOrigin) (htask : s.task = some ⟨origin, .registered⟩) :
      Change settings s .snapshot { s with task := some ⟨origin, .saving (values s.adds.map)⟩ }
  | wrote (origin : TradeOrigin) (pending : List PendingDcaSwap)
      (htask : s.task = some ⟨origin, .saving pending⟩) :
      Change settings s .write { s with adds := { s.adds with stored := pending }, task := none }
  | landed (signature : String) (hdead : s.dead.contains signature = false) :
      Change settings s (.lands signature) { s with landed := s.landed ++ [signature] }
  | died (signature : String) (hlanded : s.landed.contains signature = false) :
      Change settings s (.dies signature) { s with dead := s.dead ++ [signature] }
  | booked (d : Delivery) (signature : String) (entry : PendingDcaSwap) (row : Position)
      (store : Store) (late : Option LateFill)
      (hsignature : d.transition.signature s.store = some signature)
      (hmarker : s.adds.map.lookup signature = some entry) (hverifies : s.verifies d entry = true)
      (memory : AList fun _ : ℤ => Position)
      (happlied : applyTransition s.store d.readings d.transition = .ok (.written row store late))
      (hmemory : Adopts store.rows s.memory memory (some d.transition.positionId)) :
      Change settings s (.book d) { s with
        store := store
        memory := memory
        settling := s.settling.insert signature (.booked (late.bind (·.handedTo))) }
  | skipped (d : Delivery) (signature : String) (entry : PendingDcaSwap)
      (hsignature : d.transition.signature s.store = some signature)
      (hmarker : s.adds.map.lookup signature = some entry) (hverifies : s.verifies d entry = true)
      (happlied : applyTransition s.store d.readings d.transition = .ok .skipped) :
      Change settings s (.book d) { s with settling := s.settling.insert signature .published }
  | published (signature : String) (handedTo : Option ℤ)
      (memory : AList fun _ : ℤ => Position)
      (hstage : s.settling.lookup signature = some (.booked handedTo))
      (hmemory : Adopts s.store.rows s.memory memory handedTo) :
      Change settings s (.publish signature)
        { s with memory := memory, settling := s.settling.insert signature .published }
  | failed (e : AddEvent) (signature : String) (hdead : s.dead.contains signature = true)
      (hstage : s.settling.lookup signature = none) :
      Change settings s e { s with settling := s.settling.insert signature .published }
  | cleared (signature : String) (hstage : s.settling.lookup signature = some .published) :
      Change settings s (.clear signature) { s with
        adds := s.adds.remove signature
        settling := s.settling.insert signature .cleared }
  | forgotten (signature : String) (hstage : s.settling.lookup signature = some .published) :
      Change settings s (.clear signature) { s with settling := s.settling.erase signature }
  | clearSnapshot (signature : String) (hstage : s.settling.lookup signature = some .cleared) :
      Change settings s (.clearSnapshot signature)
        { s with settling := s.settling.insert signature (.saving (values s.adds.map)) }
  | clearWrote (signature : String) (pending : List PendingDcaSwap)
      (hstage : s.settling.lookup signature = some (.saving pending)) :
      Change settings s (.clearWrite signature) { s with
        adds := { s.adds with stored := pending }
        settling := s.settling.erase signature }
  | delivered (d : Delivery) (memory : AList fun _ : ℤ => Position)
      (hdca : d.transition.isDca = false)
      (hother : ∀ a ∈ s.sent, some a.signature ≠ d.transition.signature s.store)
      (hmemory : Adopts (Positions.deliver s.store d).rows s.memory memory
        (some d.transition.positionId)) :
      Change settings s (.deliver d)
        { s with store := Positions.deliver s.store d, memory := memory }
  | adopted (e : AddEvent) (positionId : ℤ) (memory : AList fun _ : ℤ => Position)
      (hmemory : Adopts s.store.rows s.memory memory (some positionId)) :
      Change settings s e { s with memory := memory }
  | opened (positionId : ℤ) (row : Position) (hopens : s.opens positionId row = true) :
      Change settings s (.opened positionId row) { s with
        store := { s.store with rows := s.store.rows.insert positionId row }
        memory := s.memory.insert positionId row }
  | removed (positionId : ℤ) (row : Position) (hrow : s.store.rows.lookup positionId = some row)
      (htask : s.task = none) (hunlanded : s.unlanded positionId row = true) :
      Change settings s (.removed positionId) { s with
        store := { s.store with rows := s.store.rows.erase positionId }
        memory := s.memory.erase positionId }
  | restarted : Change settings s .restart { s with
        memory := s.store.rows
        adds := ⟨s.rehydrated, values s.rehydrated⟩
        task := none
        settling := ∅ }

variable {settings : DcaSettings} {s : AddDesk}

/-- An add that ends before its swap is sent. -/
theorem ended_change {e : AddEvent} {origin : TradeOrigin} {stage : AddStage}
    (htask : s.task = some ⟨origin, stage⟩) (hstage : ∀ entry, stage ≠ .sent entry) :
    Change settings s e { s with task := none } := by
  refine .ended e fun origin' entry h => ?_
  rw [htask] at h
  cases h
  exact hstage entry rfl

theorem swap_change {origin : TradeOrigin} {positionId : ℤ} {result : Except Swaps.Error String}
    {onChain : String} {expiryHeight : Option ℕ} {size : ℚ}
    (htask : s.task = some ⟨origin, .admitted positionId⟩) :
    Change settings s (.swap result onChain expiryHeight size)
      (s.swap origin positionId (sending result onChain) expiryHeight size) := by
  unfold swap
  split
  next => exact ended_change htask nofun
  next signature hsending =>
    split
    · exact .unresolved result onChain signature expiryHeight size _ hsending
    · exact .same _
  next signature hsending =>
    split
    next hfresh => exact .sent _ origin positionId ⟨signature, s.mint, _, _, _⟩ htask hfresh rfl rfl
    · exact .same _

theorem bookAdd_change {d : Delivery} {signature : String} {entry : PendingDcaSwap}
    (hsignature : d.transition.signature s.store = some signature)
    (hmarker : s.adds.map.lookup signature = some entry) (hverifies : s.verifies d entry = true) :
    Change settings s (.book d) (s.bookAdd d signature) := by
  unfold bookAdd
  split
  next => exact .same _
  next happlied => exact .skipped d signature entry hsignature hmarker hverifies happlied
  next row store late happlied =>
    obtain ⟨memory, heq, hmemory⟩ := adopt_eq { s with store := store } d.transition.positionId
    rw [heq]
    exact .booked d signature entry row store late hsignature hmarker hverifies memory
      happlied hmemory

/-- A failure is applied only to an add that is dead. -/
theorem settle_change {item : VerificationItem} {verdict : SignatureVerdict} :
    Change settings s (.settle item verdict) (s.settle item verdict) := by
  unfold settle
  split
  next hready =>
    simp only [Bool.and_eq_true, Option.isNone_iff_eq_none] at hready
    obtain ⟨⟨hmarker, hstage⟩, htruthful⟩ := hready
    split
    next positionId signature reason hdisposition =>
      obtain ⟨-, found, evidence, hshows, hnot⟩ := disposition_apply hdisposition
      have hsignature : signature = item.signature := by
        unfold notLandedDisposition at hnot
        split at hnot
        · split at hnot
          · cases hnot
            rfl
          · split at hnot <;> cases hnot
        · split at hnot <;> cases hnot
      subst hsignature
      refine .failed _ _ ?_ hstage
      cases evidence with
      | failedOnChain =>
        rw [show verdict = .failedOnChain from hshows] at htruthful
        exact htruthful
      | expired =>
        rw [hshows.1, truthful, hshows.2] at htruthful
        exact htruthful
    next => exact .same _
  next => exact .same _

theorem step_change (e : AddEvent) : Change settings s e (step settings s e) := by
  cases e with
  | call origin =>
    simp only [step]
    split
    next htask hfree => exact .called origin htask hfree
    next => exact .same _
  | read now =>
    simp only [step]
    split
    next origin htask =>
      split
      next positionId hadmits => exact .admitted origin positionId now htask hadmits
      next => exact ended_change htask nofun
    next => exact .same _
  | fail =>
    simp only [step]
    split
    next htask => exact ended_change htask nofun
    next htask => exact ended_change htask nofun
    next => exact .same _
  | swap result onChain expiryHeight size =>
    simp only [step]
    split
    next htask => exact swap_change htask
    next => exact .same _
  | register =>
    simp only [step]
    split
    next origin entry htask => exact .registered origin entry htask
    next => exact .same _
  | snapshot =>
    simp only [step]
    split
    next origin htask => exact .snapshot origin htask
    next => exact .same _
  | write =>
    simp only [step]
    split
    next origin pending htask => exact .wrote origin pending htask
    next => exact .same _
  | lands signature =>
    simp only [step]
    split
    next h =>
      rw [Bool.and_eq_true, Bool.not_eq_true'] at h
      exact .landed signature h.2
    next => exact .same _
  | dies signature =>
    simp only [step]
    split
    next h =>
      rw [Bool.and_eq_true, Bool.not_eq_true'] at h
      exact .died signature h.2
    next => exact .same _
  | book d =>
    simp only [step]
    split
    next => exact .same _
    next signature hsignature =>
      split
      next => exact .same _
      next entry hmarker =>
        split
        next hverifies => exact bookAdd_change hsignature hmarker hverifies
        next => exact .same _
  | publish signature =>
    simp only [step, publish]
    split
    next handedTo hstage =>
      cases handedTo with
      | none => exact .published signature none s.memory hstage (adopts_none _ _)
      | some id =>
        obtain ⟨memory, heq, hmemory⟩ := s.adopt_eq id
        dsimp only
        rw [heq]
        exact .published signature (some id) memory hstage hmemory
    next => exact .same _
  | settle item verdict => exact settle_change
  | clear signature =>
    simp only [step, clear]
    split
    next hstage =>
      split
      next => exact .forgotten signature hstage
      next => exact .cleared signature hstage
    next => exact .same _
  | clearSnapshot signature =>
    simp only [step]
    split
    next hstage => exact .clearSnapshot signature hstage
    next => exact .same _
  | clearWrite signature =>
    simp only [step]
    split
    next pending hstage => exact .clearWrote signature pending hstage
    next => exact .same _
  | deliver d =>
    simp only [step]
    split
    next => exact .same _
    next h =>
      rw [Bool.or_eq_true, not_or, Bool.not_eq_true, List.any_eq_true] at h
      obtain ⟨memory, heq, hmemory⟩ :=
        adopt_eq { s with store := Positions.deliver s.store d } d.transition.positionId
      rw [heq]
      refine .delivered d memory h.1 (fun a ha hsame => h.2 ⟨a, ha, ?_⟩) hmemory
      rw [hsame]
      exact beq_self_eq_true _
  | adopt positionId =>
    obtain ⟨memory, heq, hmemory⟩ := s.adopt_eq positionId
    change Change settings s _ (s.adopt positionId)
    rw [heq]
    exact .adopted _ positionId memory hmemory
  | opened positionId row =>
    simp only [step]
    split
    next hopens => exact .opened positionId row hopens
    next => exact .same _
  | removed positionId =>
    simp only [step]
    split
    next row hrow =>
      split
      next h =>
        simp only [Bool.and_eq_true, Option.isNone_iff_eq_none] at h
        exact .removed positionId row hrow h.1.1 h.1.2
      next => exact .same _
    next => exact .same _
  | restart => exact .restarted

/-- The marker of an add of the run. -/
def Known (s : AddDesk) (entry : PendingDcaSwap) : Prop :=
  entry.mint = s.mint ∧ ∃ a ∈ s.sent, a.signature = entry.signature ∧
    a.positionId = entry.positionId

/-- Every marker, in memory, in storage or on its way there, is that of an add of the run. -/
structure Marked (s : AddDesk) : Prop where
  keyed : ∀ key entry, s.adds.map.lookup key = some entry → entry.signature = key
  map : ∀ key entry, s.adds.map.lookup key = some entry → s.Known entry
  stored : ∀ entry ∈ s.adds.stored, s.Known entry
  task : ∀ origin stage, s.task = some ⟨origin, stage⟩ → ∀ entry ∈ stage.entries, s.Known entry
  settling : ∀ signature stage, s.settling.lookup signature = some stage →
    ∀ entry ∈ stage.entries, s.Known entry

namespace Marked

theorem values_known (h : s.Marked) : ∀ entry ∈ values s.adds.map, s.Known entry := by
  intro entry hentry
  obtain ⟨key, hlookup⟩ := mem_values.mp hentry
  exact h.map key entry hlookup

/-- A stage that holds no marker, or the markers in memory. -/
theorem settling_insert (h : s.Marked) {signature : String} {stage : SettleStage}
    (hstage : ∀ entry ∈ stage.entries, s.Known entry) :
    ∀ signature' stage', (s.settling.insert signature stage).lookup signature' = some stage' →
      ∀ entry ∈ stage'.entries, s.Known entry := by
  intro signature' stage' hlookup
  obtain ⟨rfl, rfl⟩ | ⟨-, hlookup⟩ := lookup_insert_cases hlookup
  · exact hstage
  · exact h.settling signature' stage' hlookup

theorem settling_erase (h : s.Marked) {signature : String} :
    ∀ signature' stage', (s.settling.erase signature).lookup signature' = some stage' →
      ∀ entry ∈ stage'.entries, s.Known entry :=
  fun signature' stage' hlookup => h.settling signature' stage' (lookup_erase_cases hlookup).2

/-- A change of anything but the markers, the mint and the sent adds. -/
theorem congr (h : s.Marked) {s' : AddDesk} (hmint : s'.mint = s.mint) (hsent : s'.sent = s.sent)
    (hadds : s'.adds = s.adds)
    (htask : ∀ origin stage, s'.task = some ⟨origin, stage⟩ → ∀ entry ∈ stage.entries,
      s.Known entry)
    (hsettling : ∀ signature stage, s'.settling.lookup signature = some stage →
      ∀ entry ∈ stage.entries, s.Known entry) : s'.Marked := by
  have hknown (entry : PendingDcaSwap) (hentry : s.Known entry) : s'.Known entry := by
    rw [Known, hmint, hsent]
    exact hentry
  constructor
  · rw [hadds]
    exact h.keyed
  · rw [hadds]
    exact fun key entry hlookup => hknown entry (h.map key entry hlookup)
  · rw [hadds]
    exact fun entry hentry => hknown entry (h.stored entry hentry)
  · exact fun origin stage hstage entry hentry =>
      hknown entry (htask origin stage hstage entry hentry)
  · exact fun signature stage hstage entry hentry =>
      hknown entry (hsettling signature stage hstage entry hentry)

end Marked

theorem change_marked {e : AddEvent} {s' : AddDesk} (h : s.Marked)
    (hchange : Change settings s e s')
    (hkeeps : s.keepsTrack e = true) : s'.Marked := by
  cases hchange with
  | same => exact h
  | called origin htask hfree =>
    refine h.congr rfl rfl rfl ?_ h.settling
    rintro _ _ ⟨⟩ entry hentry
    cases hentry
  | admitted origin positionId now htask hadmits =>
    refine h.congr rfl rfl rfl ?_ h.settling
    rintro _ _ ⟨⟩ entry hentry
    cases hentry
  | ended => exact h.congr rfl rfl rfl nofun h.settling
  | sent _ origin positionId entry htask hfresh hmint hposition =>
    have hknown (e : PendingDcaSwap) (he : s.Known e) : Known { s with
        task := some ⟨origin, .sent entry⟩
        sent := s.sent ++ [⟨entry.signature, positionId, origin⟩] } e := by
      obtain ⟨hm, a, ha, hsame⟩ := he
      exact ⟨hm, a, List.mem_append_left _ ha, hsame⟩
    refine ⟨h.keyed, fun key e hlookup => hknown e (h.map key e hlookup),
      fun e he => hknown e (h.stored e he), ?_,
      fun signature stage hstage e he => hknown e (h.settling signature stage hstage e he)⟩
    rintro _ _ ⟨⟩ e he
    rw [AddStage.entries, List.mem_singleton] at he
    subst he
    exact ⟨hmint, _, List.mem_append_right _ (List.mem_singleton_self _), rfl, hposition.symm⟩
  | unresolved result onChain signature expiryHeight size sent hsending =>
    rw [keepsTrack, hsending] at hkeeps
    cases hkeeps
  | registered origin entry htask =>
    have hentry := h.task origin _ htask entry (List.mem_singleton_self entry)
    refine ⟨fun key e hlookup => ?_, fun key e hlookup => ?_, h.stored, ?_, h.settling⟩
    · obtain ⟨rfl, rfl⟩ | ⟨-, hlookup⟩ := lookup_insert_cases hlookup
      · rfl
      · exact h.keyed key e hlookup
    · obtain ⟨rfl, rfl⟩ | ⟨-, hlookup⟩ := lookup_insert_cases hlookup
      · exact hentry
      · exact h.map key e hlookup
    · rintro _ _ ⟨⟩ e he
      cases he
  | snapshot origin htask =>
    refine h.congr rfl rfl rfl ?_ h.settling
    rintro _ _ ⟨⟩
    exact h.values_known
  | wrote origin pending htask =>
    exact ⟨h.keyed, h.map, h.task origin _ htask, nofun, h.settling⟩
  | landed | died | delivered | adopted | opened | removed =>
    exact h.congr rfl rfl rfl h.task h.settling
  | booked | skipped | published | failed =>
    exact h.congr rfl rfl rfl h.task (h.settling_insert nofun)
  | cleared signature hstage =>
    exact ⟨fun key e hlookup => h.keyed key e (lookup_erase_cases hlookup).2,
      fun key e hlookup => h.map key e (lookup_erase_cases hlookup).2, h.stored, h.task,
      h.settling_insert nofun⟩
  | forgotten => exact h.congr rfl rfl rfl h.task h.settling_erase
  | clearSnapshot => exact h.congr rfl rfl rfl h.task (h.settling_insert h.values_known)
  | clearWrote signature pending hstage =>
    exact ⟨h.keyed, h.map, h.settling signature _ hstage, h.task, h.settling_erase⟩
  | restarted =>
    have hmap (key : String) (entry : PendingDcaSwap)
      (hlookup : s.rehydrated.lookup key = some entry) :
        entry.signature = key ∧ entry ∈ s.adds.stored := by
      obtain ⟨hkey, hmem⟩ | hnone := lookup_insertAll hlookup
      · exact ⟨hkey, (List.mem_filter.mp hmem).1⟩
      · cases hnone
    refine ⟨fun key entry hlookup => (hmap key entry hlookup).1,
      fun key entry hlookup => h.stored entry (hmap key entry hlookup).2, fun entry hentry => ?_,
      nofun, ?_⟩
    · obtain ⟨key, hlookup⟩ := mem_values.mp hentry
      exact h.stored entry (hmap key entry hlookup).2
    · intro signature stage hlookup
      cases hlookup

/-- The rows of memory stand in storage, open or closed as there, and the target of an add is of
the mint. -/
structure Targeted (s : AddDesk) : Prop where
  memory : ∀ id row, s.memory.lookup id = some row → ∃ row', s.store.rows.lookup id = some row' ∧
    row'.mint = row.mint ∧ row'.exitTime = row.exitTime
  admitted : ∀ origin id, s.task = some ⟨origin, .admitted id⟩ →
    ∃ row, s.store.rows.lookup id = some row ∧ row.mint = s.mint
  sent : ∀ a ∈ s.sent, ∀ row, s.store.rows.lookup a.positionId = some row → row.mint = s.mint

/-- The round an add is admitted on is an open one of the mint in memory. -/
theorem admitAdd_ok {origin : TradeOrigin} {now id : ℤ}
    (h : s.admitAdd settings origin now = .ok id) :
    ∃ p, s.memory.lookup id = some p ∧ p.mint = s.mint ∧ p.exitTime = none ∧
      (origin = .auto → checkAutoAdd settings now p s.mint = .ok ()) := by
  unfold admitAdd at h
  split at h
  · cases h
  next positionId p hchosen =>
    have hmem := (mem_sortBy _ _ _).mp (List.mem_of_mem_head? (Option.mem_def.mpr hchosen))
    obtain ⟨hrow, hkeep⟩ := List.mem_filter.mp hmem
    obtain ⟨e, he, hpair⟩ := List.mem_map.mp hrow
    cases hpair
    simp only [isOpenRound, Bool.and_eq_true, beq_iff_eq, Option.isNone_iff_eq_none] at hkeep
    split at h
    · cases h
    obtain ⟨_, hactive, h⟩ := bind_eq_ok.mp h
    obtain ⟨_, hauto, h⟩ := bind_eq_ok.mp h
    cases h
    refine ⟨e.2, AList.mem_lookup_iff.mpr he, hkeep.1, hkeep.2.1, fun horigin => ?_⟩
    rw [if_pos horigin] at hauto
    exact hauto

namespace Targeted

/-- A change of neither storage nor memory, that admits no add. -/
theorem congr (h : s.Targeted) {s' : AddDesk} (hmint : s'.mint = s.mint)
    (hstore : s'.store = s.store)
    (hmemory : s'.memory = s.memory) (hsent : s'.sent = s.sent)
    (htask : ∀ origin id, s'.task = some ⟨origin, .admitted id⟩ →
      ∃ row, s.store.rows.lookup id = some row ∧ row.mint = s.mint) : s'.Targeted := by
  refine ⟨?_, ?_, ?_⟩
  · rw [hmemory, hstore]
    exact h.memory
  · rw [hstore, hmint]
    exact htask
  · rw [hstore, hmint, hsent]
    exact h.sent

theorem adopt (h : s.Targeted) {memory : AList fun _ : ℤ => Position} {ids : Option ℤ}
    (hmemory : Adopts s.store.rows s.memory memory ids) : Targeted { s with memory := memory } := by
  refine ⟨fun id row hlookup => ?_, h.admitted, h.sent⟩
  obtain ⟨-, hrow⟩ | ⟨-, hold⟩ := hmemory id row hlookup
  · exact ⟨row, hrow, rfl, rfl⟩
  · exact h.memory id row hold

/-- A booking, with the row it books published. -/
theorem book (h : s.Targeted) (d : Delivery) {memory : AList fun _ : ℤ => Position}
    (hmemory : Adopts (Positions.deliver s.store d).rows s.memory memory
      (some d.transition.positionId)) :
    Targeted { s with store := Positions.deliver s.store d, memory := memory } := by
  have hframe := deliver_addFrame s.store d
  have hgrows := deliver_grows s.store d
  refine ⟨fun id row hlookup => ?_, fun origin id htask => ?_, fun a ha row hrow => ?_⟩
  · obtain ⟨-, hrow⟩ | ⟨hstale, hold⟩ := hmemory id row hlookup
    · exact ⟨row, hrow, rfl, rfl⟩
    · obtain ⟨old, hold', hmint, hexit⟩ := h.memory id row hold
      obtain ⟨row', hrow', -⟩ := hgrows.rows id old hold'
      obtain ⟨before, hbefore, hmint', -, hsame, -⟩ := hframe.rows id row' hrow'
      cases hold'.symm.trans hbefore
      have hne : id ≠ d.transition.positionId := by
        rintro rfl
        cases hrow'.symm.trans (hstale rfl)
      exact ⟨row', hrow', hmint'.trans hmint, (hsame hne).trans hexit⟩
  · obtain ⟨row, hrow, hmint⟩ := h.admitted origin id htask
    obtain ⟨row', hrow', hkeeps⟩ := hgrows.rows id row hrow
    exact ⟨row', hrow', hkeeps.mint.trans hmint⟩
  · obtain ⟨before, hbefore, hmint, -⟩ := hframe.rows a.positionId row hrow
    exact hmint.trans (h.sent a ha before hbefore)

end Targeted

theorem deliver_of_written {d : Delivery} {row : Position} {store : Store} {late : Option LateFill}
    (h : applyTransition s.store d.readings d.transition = .ok (.written row store late)) :
    Positions.deliver s.store d = store := by
  rw [Positions.deliver, h]

theorem verifies_ok {d : Delivery} {signature : String} {entry : PendingDcaSwap}
    (hsignature : d.transition.signature s.store = some signature) (h : s.verifies d entry = true) :
    ∃ fill price heldAfter,
      d.transition = .dcaVerified entry.positionId fill price signature heldAfter ∧
      s.landed.contains signature = true ∧ s.settling.lookup signature = none ∧
      0 < fill.tokensBought ∧ 0 < fill.nativeSpent := by
  unfold verifies at h
  split at h
  next positionId fill price signature' heldAfter htransition =>
    rw [htransition] at hsignature ⊢
    cases hsignature
    simp only [Bool.and_eq_true, beq_iff_eq, Option.isNone_iff_eq_none, decide_eq_true_eq] at h
    obtain ⟨⟨⟨⟨rfl, hlanded⟩, hstage⟩, hbought⟩, hspent⟩ := h
    exact ⟨fill, price, heldAfter, rfl, hlanded, hstage, hbought, hspent⟩
  · cases h

theorem change_targeted {e : AddEvent} {s' : AddDesk} (h : s.Targeted)
    (hchange : Change settings s e s') (hkeeps : s.keepsTrack e = true) : s'.Targeted := by
  cases hchange with
  | same | landed | died | skipped | failed | cleared | forgotten | clearSnapshot | clearWrote =>
    exact h.congr rfl rfl rfl rfl h.admitted
  | called | ended | registered | snapshot | wrote => exact h.congr rfl rfl rfl rfl nofun
  | admitted origin positionId now htask hadmits =>
    refine h.congr rfl rfl rfl rfl ?_
    rintro _ _ ⟨⟩
    obtain ⟨p, hp, hmint, -⟩ := admitAdd_ok hadmits
    obtain ⟨row, hrow, hsame, -⟩ := h.memory positionId p hp
    exact ⟨row, hrow, hsame.trans hmint⟩
  | sent _ origin positionId entry htask hfresh hmint hposition =>
    refine ⟨h.memory, nofun, fun a ha row hrow => ?_⟩
    obtain ha | ha := List.mem_append.mp ha
    · exact h.sent a ha row hrow
    · rw [List.mem_singleton] at ha
      subst ha
      obtain ⟨row', hrow', hrowMint⟩ := h.admitted origin positionId htask
      cases hrow'.symm.trans hrow
      exact hrowMint
  | unresolved result onChain signature expiryHeight size sent hsending =>
    rw [keepsTrack, hsending] at hkeeps
    cases hkeeps
  | booked d signature entry row store late hsignature hmarker hverifies memory happlied hmemory =>
    obtain rfl := deliver_of_written happlied
    have hbook := h.book d hmemory
    exact hbook.congr rfl rfl rfl rfl hbook.admitted
  | published signature handedTo memory hstage hmemory =>
    exact (h.adopt hmemory).congr rfl rfl rfl rfl h.admitted
  | delivered d memory hdca hother hmemory => exact h.book d hmemory
  | adopted _ positionId memory hmemory => exact h.adopt hmemory
  | opened positionId row hopens =>
    simp only [opens, Bool.and_eq_true, Option.isNone_iff_eq_none, beq_iff_eq, Bool.not_eq_true',
      List.any_eq_false] at hopens
    obtain ⟨⟨⟨⟨⟨⟨htask, hnone⟩, hmint⟩, -⟩, -⟩, htargets⟩, -⟩ := hopens
    refine ⟨fun id row' hlookup => ?_, fun origin id hadmitted => ?_, fun a ha row' hlookup => ?_⟩
    · obtain ⟨rfl, rfl⟩ | ⟨hne, hlookup⟩ := lookup_insert_cases hlookup
      · exact ⟨row', AList.lookup_insert _, rfl, rfl⟩
      · obtain ⟨row'', hrow'', hsame⟩ := h.memory id row' hlookup
        exact ⟨row'', (AList.lookup_insert_ne hne).trans hrow'', hsame⟩
    · cases htask.symm.trans hadmitted
    · obtain ⟨rfl, rfl⟩ | ⟨-, hlookup⟩ := lookup_insert_cases hlookup
      · exact hmint
      · exact h.sent a ha row' hlookup
  | removed positionId row hrow htask hunlanded =>
    refine ⟨fun id row' hlookup => ?_, fun origin id hadmitted => ?_, fun a ha row' hlookup => ?_⟩
    · obtain ⟨hne, hlookup⟩ := lookup_erase_cases hlookup
      obtain ⟨row'', hrow'', hsame⟩ := h.memory id row' hlookup
      exact ⟨row'', (AList.lookup_erase_ne hne).trans hrow'', hsame⟩
    · cases htask.symm.trans hadmitted
    · exact h.sent a ha row' (lookup_erase_cases hlookup).2
  | restarted => exact ⟨fun id row hlookup => ⟨row, hlookup, rfl, rfl⟩, nofun, h.sent⟩

theorem entryRecordedForMint_insert {store : Store} {id : ℤ} {row : Position}
    {mint signature : String}
    (hnone : store.rows.lookup id = none) (h : store.entryRecordedForMint mint signature = true) :
    Store.entryRecordedForMint { store with rows := store.rows.insert id row } mint
      signature = true := by
  obtain ⟨r, hr, hsignature, row', hrow', hmint⟩ := entryRecordedForMint_iff.mp h
  have hne : r.positionId ≠ id := by
    rintro rfl
    cases hnone.symm.trans hrow'
  exact entryRecordedForMint_iff.mpr
    ⟨r, hr, hsignature, row', (AList.lookup_insert_ne hne).trans hrow', hmint⟩

theorem entryRecordedForMint_erase {store : Store} {id : ℤ} {mint signature : String}
    (hentries : ∀ r ∈ store.entries, r.positionId ≠ id)
    (h : store.entryRecordedForMint mint signature = true) :
    Store.entryRecordedForMint
      { store with rows := store.rows.erase id } mint signature = true := by
  obtain ⟨r, hr, hsignature, row', hrow', hmint⟩ := entryRecordedForMint_iff.mp h
  exact entryRecordedForMint_iff.mpr
    ⟨r, hr, hsignature, row', (AList.lookup_erase_ne (hentries r hr)).trans hrow', hmint⟩

theorem unlanded_entries {positionId : ℤ} {row : Position} (h : s.unlanded positionId row = true) :
    row.dcaCount = 0 ∧ ∀ r ∈ s.store.entries, r.positionId ≠ positionId := by
  simp only [unlanded, Bool.and_eq_true, beq_iff_eq, Bool.not_eq_true', List.any_eq_false] at h
  exact ⟨h.1.1.1.2, h.1.2⟩

theorem settledAdd_of_store {s' : AddDesk} {a : SentAdd} (h : s.settledAdd a = true)
    (hdead : s'.dead = s.dead) (hbooked : s.bookedAdd a = true → s'.bookedAdd a = true) :
    s'.settledAdd a = true := by
  rw [settledAdd, Bool.or_eq_true] at h ⊢
  rw [hdead]
  exact h.imp_left hbooked

/-- A settled add stays settled. -/
theorem change_settled {e : AddEvent} {s' : AddDesk} {a : SentAdd}
    (hchange : Change settings s e s')
    (h : s.settledAdd a = true) : s'.settledAdd a = true := by
  cases hchange with
  | same | called | admitted | ended | sent | unresolved | registered | snapshot | wrote | landed |
    skipped | published | failed | cleared | forgotten | clearSnapshot | clearWrote | adopted |
    restarted => exact h
  | died signature =>
    rw [settledAdd, Bool.or_eq_true] at h ⊢
    refine h.imp_right fun hdead => ?_
    rw [List.contains_iff_mem] at hdead ⊢
    exact List.mem_append_left _ hdead
  | booked d signature entry row store late hsignature hmarker hverifies memory happlied =>
    obtain rfl := deliver_of_written happlied
    refine settledAdd_of_store h rfl ?_
    exact entryRecordedForMint_grows (deliver_grows s.store d)
  | delivered d =>
    refine settledAdd_of_store h rfl ?_
    exact entryRecordedForMint_grows (deliver_grows s.store d)
  | opened positionId row hopens =>
    simp only [opens, Bool.and_eq_true, Option.isNone_iff_eq_none] at hopens
    refine settledAdd_of_store h rfl ?_
    exact entryRecordedForMint_insert hopens.1.1.1.1.1.2
  | removed positionId row hrow htask hunlanded =>
    refine settledAdd_of_store h rfl ?_
    exact entryRecordedForMint_erase (unlanded_entries hunlanded).2

/-- Every add that is not settled has its marker, or is the one under the lock; none is unsettled
while an automatic add waits to be sent. -/
structure Tracked (s : AddDesk) : Prop where
  marked : s.Marked
  targeted : s.Targeted
  held : ∀ a ∈ s.sent, s.settledAdd a = false → (s.adds.map.lookup a.signature).isSome = true ∨
    ∃ origin entry, s.task = some ⟨origin, .sent entry⟩ ∧ entry.signature = a.signature
  quiet : ∀ task, s.task = some task → task.origin = .auto → task.waiting = true →
    (∀ a ∈ s.sent, s.settledAdd a = true) ∧ s.isDcaPending = false
  done : ∀ a, (s.settling.lookup a.signature).isSome = true → s.settledAdd a = true
  apart : ∀ signature, s.landed.contains signature = true → s.dead.contains signature = false

theorem isDcaPending_of_lookup (h : s.Marked) {key : String}
    (hlookup : (s.adds.map.lookup key).isSome = true) :
    s.isDcaPending = true := by
  obtain ⟨entry, hentry⟩ := Option.isSome_iff_exists.mp hlookup
  rw [isDcaPending, List.any_eq_true]
  refine ⟨entry, mem_values.mpr ⟨key, hentry⟩, ?_⟩
  rw [(h.map key entry hentry).1]
  exact beq_self_eq_true _

theorem isDcaPending_of_subset {s' : AddDesk} (h : s.isDcaPending = false)
    (hmint : s'.mint = s.mint)
    (hsub : ∀ entry ∈ values s'.adds.map, entry ∈ values s.adds.map) :
    s'.isDcaPending = false := by
  rw [isDcaPending, List.any_eq_false] at h ⊢
  rw [hmint]
  exact fun entry hentry => h entry (hsub entry hentry)

/-- An add booked on the position of its marker is booked. -/
theorem booked_of_settled (hmarked : s.Marked) (htargeted : s.Targeted) {signature : String}
    {entry : PendingDcaSwap} (hmarker : s.adds.map.lookup signature = some entry)
    (h : Settled s.store (.add entry.positionId signature)) :
    s.store.entryRecordedForMint s.mint signature = true := by
  obtain ⟨row, hrow, hrecorded⟩ := h
  obtain ⟨-, a, ha, -, hposition⟩ := hmarked.map signature entry hmarker
  rw [← hposition] at hrow
  rwa [htargeted.sent a ha row hrow] at hrecorded

theorem change_held {e : AddEvent} {s' : AddDesk} (h : s.Tracked) (hmarked : s'.Marked)
    (hchange : Change settings s e s') (hkeeps : s.keepsTrack e = true) :
    ∀ a ∈ s'.sent, s'.settledAdd a = false → (s'.adds.map.lookup a.signature).isSome = true ∨
      ∃ origin entry, s'.task = some ⟨origin, .sent entry⟩ ∧ entry.signature = a.signature := by
  intro a ha hunsettled
  have hbefore : s.settledAdd a = false := by
    cases hsettled : s.settledAdd a with
    | false => rfl
    | true => rw [change_settled hchange hsettled] at hunsettled; cases hunsettled
  cases hchange with
  | same | landed | died | booked | skipped | published | failed | forgotten | clearSnapshot |
    clearWrote | delivered | adopted | opened | removed => exact h.held a ha hbefore
  | called origin htask hfree =>
    exact (h.held a ha hbefore).imp_right fun ⟨_, _, htask', _⟩ => by cases htask.symm.trans htask'
  | admitted origin positionId now htask hadmits =>
    exact (h.held a ha hbefore).imp_right fun ⟨_, _, htask', _⟩ => by cases htask.symm.trans htask'
  | ended _ htask =>
    exact (h.held a ha hbefore).imp_right fun ⟨origin, entry, htask', _⟩ =>
      absurd htask' (htask _ _)
  | sent _ origin positionId entry htask hfresh hmint hposition =>
    obtain ha | ha := List.mem_append.mp ha
    · exact (h.held a ha hbefore).imp_right fun ⟨_, _, htask', _⟩ => by
        cases htask.symm.trans htask'
    · rw [List.mem_singleton] at ha
      subst ha
      exact .inr ⟨origin, entry, rfl, rfl⟩
  | unresolved result onChain signature expiryHeight size sent hsending =>
    rw [keepsTrack, hsending] at hkeeps
    cases hkeeps
  | registered origin entry htask =>
    refine .inl ?_
    change ((s.adds.map.insert entry.signature entry).lookup a.signature).isSome = true
    by_cases he : a.signature = entry.signature
    · rw [he, AList.lookup_insert]
      rfl
    · rw [AList.lookup_insert_ne he]
      obtain hmarker | ⟨_, entry', htask', hsame⟩ := h.held a ha hbefore
      · exact hmarker
      · cases htask.symm.trans htask'
        exact absurd hsame.symm he
  | snapshot origin htask =>
    exact (h.held a ha hbefore).imp_right fun ⟨_, _, htask', _⟩ => by cases htask.symm.trans htask'
  | wrote origin pending htask =>
    exact (h.held a ha hbefore).imp_right fun ⟨_, _, htask', _⟩ => by cases htask.symm.trans htask'
  | cleared signature hstage =>
    have hne : a.signature ≠ signature := by
      intro he
      have hdone := h.done a (by rw [he, hstage]; rfl)
      rw [hdone] at hbefore
      cases hbefore
    refine (h.held a ha hbefore).imp_left fun hmarker => ?_
    change ((s.adds.map.erase signature).lookup a.signature).isSome = true
    rwa [AList.lookup_erase_ne hne]
  | restarted =>
    rw [keepsTrack, List.all_eq_true] at hkeeps
    have hrestored := hkeeps a ha
    rw [hbefore, Bool.false_or, List.any_eq_true] at hrestored
    obtain ⟨entry, hentry, hsame⟩ := hrestored
    obtain ⟨key, hlookup⟩ := mem_values.mp hentry
    have hkey := hmarked.keyed key entry hlookup
    rw [beq_iff_eq, hkey] at hsame
    refine .inl (Option.isSome_iff_exists.mpr ⟨entry, ?_⟩)
    rw [← hsame]
    exact hlookup

theorem change_quiet {e : AddEvent} {s' : AddDesk} (h : s.Tracked)
    (hchange : Change settings s e s') (task : AddTask) (htask' : s'.task = some task)
    (hauto : task.origin = .auto) (hwaiting : task.waiting = true) :
    (∀ a ∈ s'.sent, s'.settledAdd a = true) ∧ s'.isDcaPending = false := by
  have hsettles (a : SentAdd) : s.settledAdd a = true → s'.settledAdd a = true :=
    change_settled hchange
  have hsettled (hsent : s'.sent = s.sent) (hall : ∀ a ∈ s.sent, s.settledAdd a = true) :
      ∀ a ∈ s'.sent, s'.settledAdd a = true := by
    rw [hsent]
    exact fun a ha => hsettles a (hall a ha)
  cases hchange with
  | same | landed | died | booked | skipped | published | failed | forgotten | clearSnapshot |
    clearWrote | delivered | adopted | opened | removed =>
    obtain ⟨hall, hpending⟩ := h.quiet task htask' hauto hwaiting
    exact ⟨hsettled rfl hall, hpending⟩
  | called origin htask hfree =>
    cases htask'
    have hpending : s.isDcaPending = false := by
      rw [refuseWhilePending, show origin = .auto from hauto] at hfree
      split at hfree
      · cases hfree
      next hnot =>
        simp only [true_and, Bool.not_eq_true] at hnot
        exact hnot
    refine ⟨fun a ha => ?_, hpending⟩
    by_contra hunsettled
    rw [Bool.not_eq_true] at hunsettled
    obtain hmarker | ⟨_, _, hsending, -⟩ := h.held a ha hunsettled
    · rw [isDcaPending_of_lookup h.marked hmarker] at hpending
      cases hpending
    · cases htask.symm.trans hsending
  | admitted origin positionId now htask hadmits =>
    cases htask'
    exact h.quiet _ htask hauto rfl
  | ended => cases htask'
  | unresolved => cases htask'
  | wrote => cases htask'
  | restarted => cases htask'
  | sent =>
    cases htask'
    cases hwaiting
  | registered =>
    cases htask'
    cases hwaiting
  | snapshot =>
    cases htask'
    cases hwaiting
  | cleared signature hstage =>
    obtain ⟨hall, hpending⟩ := h.quiet task htask' hauto hwaiting
    refine ⟨hsettled rfl hall, isDcaPending_of_subset hpending rfl fun entry hentry => ?_⟩
    obtain ⟨key, hlookup⟩ := mem_values.mp hentry
    exact mem_values.mpr ⟨key, (lookup_erase_cases hlookup).2⟩

/-- Only what is booked or dead is being settled. -/
theorem change_done {e : AddEvent} {s' : AddDesk} (h : s.Tracked) (hmarked : s'.Marked)
    (htargeted : s'.Targeted) (hchange : Change settings s e s') (a : SentAdd)
    (hstage' : (s'.settling.lookup a.signature).isSome = true) : s'.settledAdd a = true := by
  have hsettles : s.settledAdd a = true → s'.settledAdd a = true := change_settled hchange
  -- a stage inserted for `key`, which is settled
  have hinsert {key : String} {stage : SettleStage}
      (hsettling : s'.settling = s.settling.insert key stage)
      (hkey : a.signature = key → s'.settledAdd a = true) : s'.settledAdd a = true := by
    by_cases he : a.signature = key
    · exact hkey he
    · rw [hsettling, AList.lookup_insert_ne he] at hstage'
      exact hsettles (h.done a hstage')
  -- a further stage of a settlement
  have hfurther {key : String} {stage stage' : SettleStage}
      (hstage : s.settling.lookup key = some stage')
      (hsettling : s'.settling = s.settling.insert key stage) : s'.settledAdd a = true := by
    refine hinsert hsettling fun he => hsettles (h.done a ?_)
    rw [he, hstage]
    rfl
  have hbooked {key : String} {entry : PendingDcaSwap}
      (hmarker : s'.adds.map.lookup key = some entry)
      (hsettled : Settled s'.store (.add entry.positionId key)) (he : a.signature = key) :
      s'.settledAdd a = true := by
    rw [settledAdd, bookedAdd, he, booked_of_settled hmarked htargeted hmarker hsettled,
      Bool.true_or]
  cases hchange with
  | same | called | admitted | ended | sent | unresolved | registered | snapshot | wrote | landed |
    died | delivered | adopted | opened | removed => exact hsettles (h.done a hstage')
  | booked d key entry row store late hsignature hmarker hverifies memory happlied hmemory =>
    obtain ⟨fill, price, heldAfter, htransition, -, -, hbought, -⟩ :=
      verifies_ok hsignature hverifies
    have hbooks : books s.store d = true := by rw [books, happlied]
    have hstore := deliver_of_written happlied
    obtain ⟨t, readings⟩ := d
    obtain rfl : t = _ := htransition
    have hsettled := add_recorded hbought hbooks
    rw [hstore] at hsettled
    exact hinsert rfl (hbooked hmarker hsettled)
  | skipped d key entry hsignature hmarker hverifies happlied =>
    obtain ⟨fill, price, heldAfter, htransition, -⟩ := verifies_ok hsignature hverifies
    obtain ⟨t, readings⟩ := d
    obtain rfl : t = _ := htransition
    refine hinsert rfl (hbooked hmarker ?_)
    unfold applyTransition commitBooking at happlied
    cases hrow : s.store.rows.lookup entry.positionId with
    | none =>
      simp only [Transition.positionId, hrow] at happlied
      cases happlied
    | some row =>
      simp only [Transition.positionId, hrow] at happlied
      obtain ⟨booking, hbooking, hret⟩ := bind_eq_ok.mp happlied
      cases booking with
      | write => cases hret
      | skip =>
        have hown : s.store.rows.lookup
          (Transition.positionId (.dcaVerified entry.positionId fill price
          key heldAfter)) = some row := hrow
        exact (book_skip hown hbooking).resolve_right fun haway => Bool.false_ne_true haway.2
  | published key handedTo memory hstage => exact hfurther hstage rfl
  | failed _ key hdead hstage =>
    refine hinsert rfl fun he => ?_
    rw [settledAdd, Bool.or_eq_true]
    exact .inr (he ▸ hdead)
  | cleared key hstage => exact hfurther hstage rfl
  | forgotten key hstage =>
    obtain ⟨stage, hlookup⟩ := Option.isSome_iff_exists.mp hstage'
    exact hsettles (h.done a (Option.isSome_iff_exists.mpr ⟨stage, (lookup_erase_cases hlookup).2⟩))
  | clearSnapshot key hstage => exact hfurther hstage rfl
  | clearWrote key pending hstage =>
    obtain ⟨stage, hlookup⟩ := Option.isSome_iff_exists.mp hstage'
    exact hsettles (h.done a (Option.isSome_iff_exists.mpr ⟨stage, (lookup_erase_cases hlookup).2⟩))
  | restarted => cases hstage'

theorem change_apart {e : AddEvent} {s' : AddDesk} (h : s.Tracked)
    (hchange : Change settings s e s')
    (signature : String) (hlanded : s'.landed.contains signature = true) :
    s'.dead.contains signature = false := by
  cases hchange with
  | same | called | admitted | ended | sent | unresolved | registered | snapshot | wrote | booked |
    skipped | published | failed | cleared | forgotten | clearSnapshot | clearWrote | delivered |
    adopted | opened | removed | restarted =>
    exact h.apart signature hlanded
  | landed added hdead =>
    rw [List.contains_iff_mem, List.mem_append, List.mem_singleton] at hlanded
    obtain hlanded | rfl := hlanded
    · exact h.apart signature (List.contains_iff_mem.mpr hlanded)
    · exact hdead
  | died added hnot =>
    have hbefore := h.apart signature hlanded
    rw [← Bool.not_eq_true, List.contains_iff_mem] at hbefore ⊢
    rw [List.mem_append, List.mem_singleton, not_or]
    refine ⟨hbefore, ?_⟩
    rintro rfl
    cases hnot.symm.trans hlanded

theorem change_tracked {e : AddEvent} {s' : AddDesk} (h : s.Tracked)
    (hchange : Change settings s e s')
    (hkeeps : s.keepsTrack e = true) : s'.Tracked := by
  have hmarked := change_marked h.marked hchange hkeeps
  have htargeted := change_targeted h.targeted hchange hkeeps
  exact ⟨hmarked, htargeted, change_held h hmarked hchange hkeeps, change_quiet h hchange,
    change_done h hmarked htargeted hchange, change_apart h hchange⟩

theorem start_tracked (mint : String) (store : Store) : (start mint store).Tracked where
  marked := by
    refine ⟨fun key entry h => ?_, fun key entry h => ?_, nofun, nofun, fun signature stage h => ?_⟩
    · cases h
    · cases h
    · cases h
  targeted := ⟨fun id row h => ⟨row, h, rfl, rfl⟩, nofun, nofun⟩
  held := nofun
  quiet := nofun
  done a h := by cases h
  apart := nofun

/-- An automatic add is sent only from a desk whose adds are all settled. -/
theorem settled_of_sendsAuto {e : AddEvent} (h : s.Tracked) (hsends : s.sendsAuto e = true) :
    ∀ a ∈ s.sent, s.settledAdd a = true := by
  unfold sendsAuto at hsends
  split at hsends
  · split at hsends
    next positionId htask => exact (h.quiet _ htask rfl rfl).1
    · cases hsends
  · cases hsends

/-- In a run that keeps track of every add, automatic adds are sent one at a time. -/
theorem run_serial (mint : String) (store : Store) {events : List AddEvent}
    (hkeeps : ∀ p ∈ visited (step settings) (start mint store) events, p.1.keepsTrack p.2 = true) :
    Serial settings (start mint store) events := by
  intro p hp hsends
  refine settled_of_sendsAuto (visited_invariant (step settings) Tracked events _
    (start_tracked mint store) (fun q hq hbefore => ?_) p hp) hsends
  exact change_tracked hbefore (step_change q.2) (hkeeps q hq)

end AddDesk

end ScreenerBot.Positions
