import ScreenerBot.Positions.SettlementReads

/-! The verification worker settles no swap against its reads, over every run. -/
namespace ScreenerBot.Positions

open ScreenerBot.Library VerificationQueue

namespace Worker

/-- The candidates whose verdicts are read and which are queued still. -/
def candidates (w : Worker) : List (VerificationItem × SignatureVerdict) :=
  match w.phase with
  | .settling candidates => candidates
  | _ => []

/-- The items under a verdict that was just read. -/
def underRead (w : Worker) : List (VerificationItem × SignatureVerdict) :=
  match w.phase with
  | .settling candidates => candidates
  | .resolving items => items
  | _ => []

/-- The items of the batch, with those given up on. -/
def verifying (w : Worker) : List VerificationItem :=
  match w.phase with
  | .verifying batch unresolved => batch ++ unresolved
  | _ => []

/-- The signatures of items with their verdicts. -/
def readSignatures (read : List (VerificationItem × SignatureVerdict)) : List String :=
  signatures (read.map Prod.fst)

/-- An emission that neither follows a confirming read nor removes an unproved entry. -/
def SafeEvent (before : List Event) (event : Event) : Prop :=
  NeverConfirmed before event ∧ OrphanOnlyProved before event

/-- Every swap has one item at most, which knows what was read of it, and the log is safe. -/
structure Sound (w : Worker) : Prop where
  distinct : (signatures (w.queue.items ++ w.held)).Nodup
  candidates : (readSignatures w.candidates).Nodup ∧ ∀ c ∈ w.candidates, c.1 ∈ w.queue.items
  read : ∀ c ∈ w.underRead, ReadNow w.log c.1 c.2
  plain : ∀ item ∈ w.queue.items ++ w.verifying,
    item.signature ∉ readSignatures w.candidates → Plain w.log item
  safe : EachAfter SafeEvent w.log

/-- A swap is queued anew only while no read confirmed it and the worker holds no item of it, and
an attempt that reads a swap as confirmed is tried again only where the swap was known to be. -/
def Covers (w : Worker) : WorkerAction → Prop
  | .enqueue _ submission =>
    ¬ Confirmed w.log submission.signature ∧ submission.signature ∉ signatures w.held
  | .verify _ (.retryTransient true) => ∀ item ∈ w.next, item.swapConfirmed = true
  | _ => True

instance (w : Worker) : DecidablePred w.Covers
  | .enqueue .. => inferInstanceAs (Decidable (_ ∧ _))
  | .verify _ (.retryTransient true) =>
    inferInstanceAs (Decidable (∀ item ∈ w.next, item.swapConfirmed = true))
  | .verify _ (.retryTransient false) => .isTrue trivial
  | .verify _ (.transition _) => .isTrue trivial
  | .assignExpiryBound .. => .isTrue trivial
  | .readQueued .. => .isTrue trivial
  | .settleQueued .. => .isTrue trivial
  | .poll .. => .isTrue trivial
  | .readUnresolved .. => .isTrue trivial
  | .settleUnresolved .. => .isTrue trivial
  | .restart => .isTrue trivial

theorem initial_sound : initial.Sound where
  distinct := List.nodup_nil
  candidates := ⟨List.nodup_nil, by intro c hc; cases hc⟩
  read := by intro c hc; cases hc
  plain := by intro item hitem; cases hitem
  safe := EachAfter.nil

/-- An item queued by any task, with nothing known against it. -/
theorem Sound.enqueue {w : Worker} (h : w.Sound) {item : VerificationItem}
    (hplain : Plain w.log item) (hheld : item.signature ∉ signatures w.held) :
    ({ w with queue := w.queue.enqueue item } : Worker).Sound := by
  rcases enqueue_items w.queue item with hsame | ⟨hadded, hnew⟩
  · refine ⟨?_, ?_, h.read, ?_, h.safe⟩
    · change (signatures ((w.queue.enqueue item).items ++ w.held)).Nodup
      rw [hsame]
      exact h.distinct
    · refine ⟨h.candidates.1, fun c hc => ?_⟩
      change c.1 ∈ (w.queue.enqueue item).items
      rw [hsame]
      exact h.candidates.2 c hc
    · intro found hfound
      change found ∈ (w.queue.enqueue item).items ++ w.verifying at hfound
      rw [hsame] at hfound
      exact h.plain found hfound
  · refine ⟨?_, ?_, h.read, ?_, h.safe⟩
    · change (signatures ((w.queue.enqueue item).items ++ w.held)).Nodup
      rw [hadded]
      have hperm : (w.queue.items ++ [item] ++ w.held).Perm
          (item :: (w.queue.items ++ w.held)) := by
        rw [List.append_assoc]
        exact List.perm_middle
      refine (hperm.map VerificationItem.signature).nodup_iff.mpr
        (List.nodup_cons.mpr ⟨?_, h.distinct⟩)
      intro hmem
      change item.signature ∈ signatures (w.queue.items ++ w.held) at hmem
      rw [signatures, List.map_append] at hmem
      rcases List.mem_append.mp hmem with hmem | hmem
      · exact hnew hmem
      · exact hheld hmem
    · refine ⟨h.candidates.1, fun c hc => ?_⟩
      change c.1 ∈ (w.queue.enqueue item).items
      rw [hadded]
      exact List.mem_append_left _ (h.candidates.2 c hc)
    · intro found hfound hread
      change found ∈ (w.queue.enqueue item).items ++ w.verifying at hfound
      rw [hadded, List.append_assoc] at hfound
      rcases List.mem_append.mp hfound with hfound | hfound
      · exact h.plain found (List.mem_append_left _ hfound) hread
      · rcases List.mem_cons.mp hfound with rfl | hfound
        · exact hplain
        · exact h.plain found (List.mem_append_right _ hfound) hread

section Steps

variable {jitter : String → ℕ → ℤ} {queue queue' : VerificationQueue} {log more : List Event}
  {item : VerificationItem} {verdict : SignatureVerdict}

/-- Events that are no emission are safe wherever they stand. -/
theorem safe_append (h : EachAfter SafeEvent log)
    (hmore : ∀ event ∈ more, ∀ before, SafeEvent before event) :
      EachAfter SafeEvent (log ++ more) := by
  induction more generalizing log with
  | nil =>
    rw [List.append_nil]
    exact h
  | cons event more ih =>
    have hone := h.concat (hmore event List.mem_cons_self log)
    have hrest := ih hone fun e he => hmore e (List.mem_cons_of_mem event he)
    rwa [List.append_assoc] at hrest

theorem safe_dust (h : EachAfter SafeEvent log) (item : VerificationItem)
    (verdict : SignatureVerdict) (dust : Option Bool) :
    EachAfter SafeEvent (log ++ dustEvents item verdict dust) := by
  apply safe_append h
  intro event hevent before
  unfold dustEvents at hevent
  split at hevent
  · rw [List.mem_singleton.mp hevent]
    exact ⟨trivial, trivial⟩
  · cases hevent

theorem safe_reads (h : EachAfter SafeEvent log)
    (read : List (VerificationItem × SignatureVerdict)) :
    EachAfter SafeEvent (log ++ reads read) := by
  apply safe_append h
  intro event hevent before
  obtain ⟨c, -, rfl⟩ := List.mem_map.mp hevent
  exact ⟨trivial, trivial⟩

/-- A queue after a settlement holds what it held, and the item again when it was refused. -/
theorem afterSettlement_items (jitter : String → ℕ → ℤ) (queue : VerificationQueue) (now : ℤ)
    (item : VerificationItem) (applied : Applied) :
    (afterSettlement jitter queue now item applied).items = queue.items ∨
      ∃ again : VerificationItem, again.signature = item.signature ∧
        again.swapConfirmed = item.swapConfirmed ∧
        (afterSettlement jitter queue now item applied).items = queue.items ++ [again] ∧
        item.signature ∉ signatures queue.items := by
  have henqueue : ∀ kept : VerificationItem, kept.signature = item.signature →
      kept.swapConfirmed = item.swapConfirmed →
      (queue.enqueue kept).items = queue.items ∨
        ∃ again : VerificationItem, again.signature = item.signature ∧
          again.swapConfirmed = item.swapConfirmed ∧
          (queue.enqueue kept).items = queue.items ++ [again] ∧
          item.signature ∉ signatures queue.items := by
    intro kept hsignature hconfirmed
    rcases enqueue_items queue kept with hsame | ⟨hadded, hnew⟩
    · exact .inl hsame
    · rw [hsignature] at hnew
      exact .inr ⟨kept, hsignature, hconfirmed, hadded, hnew⟩
  unfold afterSettlement
  cases applied with
  | ok => exact .inl rfl
  | refused error =>
    dsimp only
    split
    · exact .inl rfl
    · exact henqueue (item.deferred jitter now) rfl rfl
    · exact henqueue ((item.renewed now).deferred jitter now) rfl rfl

section Settling

variable {rest : List (VerificationItem × SignatureVerdict)}
  (h : Sound ⟨queue, .settling ((item, verdict) :: rest), log⟩)

include h

/-- The candidate at the head is settled: its queued item leaves or changes, the others stay. -/
theorem Sound.settled (hdistinct : (signatures queue'.items).Nodup)
    (hfrom : ∀ found ∈ queue'.items, found ∈ queue.items ∧ found.signature ≠ item.signature ∨
      Plain (log ++ more) found)
    (hkeep : ∀ found ∈ queue.items, found.signature ≠ item.signature → found ∈ queue'.items)
    (hquiet : ∀ signature, Quiet more signature) (hsafe : EachAfter SafeEvent (log ++ more)) :
    Sound ⟨queue', .settling rest, log ++ more⟩ := by
  obtain ⟨hhead, hrest⟩ := List.nodup_cons.mp h.candidates.1
  refine ⟨?_, ⟨hrest, ?_⟩, ?_, ?_, hsafe⟩
  · simpa only [held, List.append_nil] using hdistinct
  · intro c hc
    refine hkeep c.1 (h.candidates.2 c (List.mem_cons_of_mem _ hc)) fun hsame => hhead ?_
    rw [← hsame]
    exact signature_mem (List.mem_map_of_mem hc)
  · intro c hc
    exact (h.read c (List.mem_cons_of_mem _ hc)).extend (hquiet _)
  · intro found hfound hread
    simp only [Worker.verifying, List.append_nil] at hfound
    rcases hfrom found hfound with ⟨hmem, hne⟩ | hplain
    · refine (h.plain found (List.mem_append_left _ hmem) ?_).extend (hquiet _)
      intro hin
      rcases List.mem_cons.mp hin with hin | hin
      · exact hne hin
      · exact hread hin
    · exact hplain

/-- The queued item of the candidate at the head is changed by `f`. -/
theorem Sound.updated {f : VerificationItem → VerificationItem}
    (hf : ∀ found, (f found).signature = found.signature) (hplain : Plain log (f item))
    (dust : Option Bool) :
    Sound ⟨{ queue with items := updateFirst f item.signature queue.items }, .settling rest,
      log ++ dustEvents item verdict dust⟩ := by
  have hdistinct : (signatures queue.items).Nodup := by
    have hall := h.distinct
    simpa only [held, List.append_nil] using hall
  have hitem : item ∈ queue.items := h.candidates.2 (item, verdict) List.mem_cons_self
  apply h.settled
  · rw [signatures_updateFirst hf]
    exact hdistinct
  · intro found hfound
    rcases mem_updateFirst hdistinct hitem rfl hfound with hother | rfl
    · exact .inl hother
    · exact .inr (hplain.extend (quiet_dust ..))
  · intro found hfound hne
    exact mem_updateFirst_of_ne hfound hne
  · intro signature
    exact quiet_dust ..
  · exact safe_dust h.safe item verdict dust

/-- The transition of the candidate at the head is applied, and its item leaves the queue. -/
theorem Sound.applied (hread : ReadNow log item verdict) {now : ℤ} {dust : Option Bool}
    {applied : Applied} {transition : NotLandedTransition}
    (hdisposition : disposition item verdict (readDust item verdict dust) = .apply transition) :
    Sound ⟨afterSettlement jitter (queue.remove item.signature).2 now item applied, .settling rest,
      log ++ dustEvents item verdict dust ++ [.emitted item.signature transition]⟩ := by
  have hdistinct : (signatures queue.items).Nodup := by
    have hall := h.distinct
    simpa only [held, List.append_nil] using hall
  have hremoved : (signatures (queue.remove item.signature).2.items).Nodup :=
    hdistinct.sublist ((remove_sublist queue item.signature).map _)
  have hquiet : ∀ signature, Quiet (dustEvents item verdict dust ++
      [.emitted item.signature transition]) signature :=
    fun signature => (quiet_dust ..).append (quiet_emitted ..)
  obtain ⟨-, positionId, evidence, hshows, -⟩ := disposition_apply hdisposition
  have hsafe : EachAfter SafeEvent (log ++ (dustEvents item verdict dust ++
      [.emitted item.signature transition])) := by
    rw [← List.append_assoc]
    exact (safe_dust h.safe item verdict dust).concat (hread.safe hdisposition)
  have hkept : ∀ found ∈ (queue.remove item.signature).2.items,
      found ∈ queue.items ∧ found.signature ≠ item.signature := by
    intro found hfound
    exact ⟨(remove_sublist queue item.signature).subset hfound,
      signature_ne_of_remove hdistinct hfound⟩
  rw [List.append_assoc]
  rcases afterSettlement_items jitter (queue.remove item.signature).2 now item applied
    with hsame | ⟨again, hsignature, hconfirmed, hadded, hnew⟩
  · apply h.settled
    · rw [hsame]
      exact hremoved
    · intro found hfound
      rw [hsame] at hfound
      exact .inl (hkept found hfound)
    · intro found hfound hne
      rw [hsame]
      exact mem_remove_of_ne hfound hne
    · exact hquiet
    · exact hsafe
  · apply h.settled
    · rw [hadded, signatures, List.map_append]
      refine List.nodup_append.mpr ⟨hremoved, List.nodup_singleton _, ?_⟩
      rintro signature hmem _ hagain rfl
      rw [List.mem_singleton.mp hagain, hsignature] at hmem
      exact hnew hmem
    · intro found hfound
      rw [hadded] at hfound
      rcases List.mem_append.mp hfound with hfound | hfound
      · exact .inl (hkept found hfound)
      · rw [List.mem_singleton.mp hfound]
        refine .inr ((hread.counted hshows.didNotLand hsignature hconfirmed).extend ?_)
        exact hquiet _
    · intro found hfound hne
      rw [hadded]
      exact List.mem_append_left _ (mem_remove_of_ne hfound hne)
    · exact hquiet
    · exact hsafe

end Settling

/-- Between its phases the worker holds nothing, and every item is queued at rest. -/
structure AtRest (w : Worker) : Prop where
  distinct : (signatures w.queue.items).Nodup
  plain : ∀ found ∈ w.queue.items, Plain w.log found
  safe : EachAfter SafeEvent w.log

theorem Sound.atRest {w : Worker} (h : w.Sound) (hdone : w.phase.done = true) : w.AtRest := by
  obtain ⟨queue, phase, log⟩ := w
  have hnone : Worker.held ⟨queue, phase, log⟩ = [] ∧
      Worker.candidates ⟨queue, phase, log⟩ = [] := by
    cases phase with
    | idle => exact ⟨rfl, rfl⟩
    | settling read => exact ⟨rfl, List.isEmpty_iff.mp hdone⟩
    | verifying batch unresolved =>
      simp only [Phase.done, Bool.and_eq_true, List.isEmpty_iff] at hdone
      exact ⟨by simp [Worker.held, hdone.1, hdone.2], rfl⟩
    | resolving items =>
      simp only [Phase.done, List.isEmpty_iff] at hdone
      exact ⟨by simp [Worker.held, hdone], rfl⟩
  refine ⟨?_, ?_, h.safe⟩
  · have hall := h.distinct
    rwa [hnone.1, List.append_nil] at hall
  · intro found hfound
    refine h.plain found (List.mem_append_left _ hfound) ?_
    rw [hnone.2]
    exact List.not_mem_nil

theorem AtRest.sound {w : Worker} (h : w.AtRest) (hheld : w.held = []) (hread : w.underRead = [])
    (hcandidates : w.candidates = []) (hverifying : w.verifying = []) : w.Sound := by
  refine ⟨?_, ?_, ?_, ?_, h.safe⟩
  · rw [hheld, List.append_nil]
    exact h.distinct
  · rw [hcandidates]
    exact ⟨List.nodup_nil, by intro c hc; cases hc⟩
  · rw [hread]
    intro c hc
    cases hc
  · rw [hverifying, List.append_nil]
    intro found hfound _
    exact h.plain found hfound

theorem Sound.assignExpiryBound {w : Worker} (h : w.Sound) (hdone : w.phase.done = true)
    (bound : ℕ) (bounded : List String) :
    ({ w with queue := w.queue.assignExpiryBound bound bounded } : Worker).Sound := by
  obtain ⟨queue, phase, log⟩ := w
  have hrest := h.atRest hdone
  have hsignatures : signatures (queue.assignExpiryBound bound bounded).items =
      signatures queue.items := by
    simp only [signatures, VerificationQueue.assignExpiryBound, List.map_map]
    refine List.map_congr_left fun found _ => ?_
    simp only [Function.comp_apply]
    split <;> rfl
  have hatRest : AtRest ⟨queue.assignExpiryBound bound bounded, phase, log⟩ := by
    refine ⟨hsignatures ▸ hrest.distinct, ?_, hrest.safe⟩
    intro found hfound
    obtain ⟨before, hbefore, rfl⟩ := List.mem_map.mp hfound
    refine (hrest.plain before hbefore).congr ?_ ?_ ?_ <;> (split <;> rfl)
  cases phase with
  | idle => exact hatRest.sound rfl rfl rfl rfl
  | settling read =>
    obtain rfl : read = [] := List.isEmpty_iff.mp hdone
    exact hatRest.sound rfl rfl rfl rfl
  | verifying batch unresolved =>
    simp only [Phase.done, Bool.and_eq_true, List.isEmpty_iff] at hdone
    obtain ⟨rfl, rfl⟩ := hdone
    exact hatRest.sound rfl rfl rfl rfl
  | resolving items =>
    obtain rfl : items = [] := List.isEmpty_iff.mp hdone
    exact hatRest.sound rfl rfl rfl rfl

/-- What a batched read adds to what is known of a signature. -/
theorem readsOf_reads {read : List (VerificationItem × SignatureVerdict)}
    {c : VerificationItem × SignatureVerdict} (hdistinct : (readSignatures read).Nodup)
    (hc : c ∈ read) : readsOf c.1.signature (reads read) = [c.2] := by
  induction read with
  | nil => cases hc
  | cons first read ih =>
    obtain ⟨hnew, hdistinct⟩ := List.nodup_cons.mp hdistinct
    have hothers : ∀ signature, signature ∉ readSignatures read →
        readsOf signature (reads read) = [] := by
      intro signature hsignature
      refine List.filterMap_eq_nil_iff.mpr fun event hevent => ?_
      obtain ⟨other, hother, rfl⟩ := List.mem_map.mp hevent
      refine if_neg fun hsame => hsignature ?_
      rw [← hsame]
      exact signature_mem (List.mem_map_of_mem hother)
    rcases List.mem_cons.mp hc with rfl | hc
    · have htail := hothers _ hnew
      simp only [reads, List.map_cons, readsOf, List.filterMap_cons, if_true] at htail ⊢
      rw [htail]
    · have hne : first.1.signature ≠ c.1.signature := by
        intro hsame
        refine hnew ?_
        change first.1.signature ∈ readSignatures read
        rw [hsame]
        exact signature_mem (List.mem_map_of_mem hc)
      have htail := ih hdistinct hc
      simp only [reads, List.map_cons, readsOf, List.filterMap_cons, if_neg hne] at htail ⊢
      exact htail

/-- A batched read of items at rest: each reads its own verdict, after what it knew. -/
theorem readNow_reads {read : List (VerificationItem × SignatureVerdict)}
    (hdistinct : (readSignatures read).Nodup) (hplain : ∀ c ∈ read, Plain log c.1) :
    ∀ c ∈ read, ReadNow (log ++ reads read) c.1 c.2 := by
  intro c hc
  have hown := readsOf_reads hdistinct hc
  have hitem := hplain c hc
  constructor
  · intro hconfirmed
    rcases confirmed_append.mp hconfirmed with hbefore | hnow
    · exact .inl (hitem.confirmed hbefore)
    · right
      rcases hnow with hread | hverified
      · have hmem : SignatureVerdict.landed ∈ readsOf c.1.signature (reads read) :=
          List.mem_filterMap.mpr ⟨_, hread, if_pos rfl⟩
        rw [hown] at hmem
        exact (List.mem_singleton.mp hmem).symm
      · obtain ⟨other, -, he⟩ := List.mem_map.mp hverified
        cases he
  · intro hunconfirmed _
    refine ⟨readsOf c.1.signature log, by rw [readsOf_append, hown], ?_⟩
    intro hseen
    exact hitem.seen hunconfirmed hseen

theorem quiet_reads {read : List (VerificationItem × SignatureVerdict)} {signature : String}
    (h : signature ∉ readSignatures read) : Quiet (reads read) signature := by
  have hnone : ∀ verdict, Event.read signature verdict ∉ reads read := by
    intro verdict hmem
    obtain ⟨other, hother, he⟩ := List.mem_map.mp hmem
    cases he
    exact h (signature_mem (List.mem_map_of_mem hother))
  constructor
  · refine List.filterMap_eq_nil_iff.mpr fun event hevent => ?_
    obtain ⟨other, hother, rfl⟩ := List.mem_map.mp hevent
    refine if_neg fun hsame => h ?_
    rw [← hsame]
    exact signature_mem (List.mem_map_of_mem hother)
  · rintro (hread | hverified)
    · exact hnone .landed hread
    · obtain ⟨other, -, he⟩ := List.mem_map.mp hverified
      cases he

theorem Sound.readQueued {w : Worker} (h : w.Sound) (now : ℤ)
    (verdict : VerificationItem → SignatureVerdict) : (w.readQueued now verdict).Sound := by
  unfold Worker.readQueued
  split
  next hdone =>
    have hrest := h.atRest hdone
    have hsublist : (w.queue.settlementCandidates now).Sublist w.queue.items := List.filter_sublist
    have hread : ((w.queue.settlementCandidates now).map fun item => (item, verdict item)).map
        Prod.fst = w.queue.settlementCandidates now := by
      simp [Function.comp_def]
    have hdistinct : (readSignatures ((w.queue.settlementCandidates now).map
        fun item => (item, verdict item))).Nodup := by
      rw [readSignatures, hread]
      exact hrest.distinct.sublist (hsublist.map _)
    have hmem : ∀ c ∈ (w.queue.settlementCandidates now).map fun item => (item, verdict item),
        c.1 ∈ w.queue.items := by
      intro c hc
      obtain ⟨found, hfound, rfl⟩ := List.mem_map.mp hc
      exact hsublist.subset hfound
    refine ⟨?_, ⟨hdistinct, hmem⟩, ?_, ?_, safe_reads h.safe _⟩
    · simpa only [held, List.append_nil] using hrest.distinct
    · exact readNow_reads hdistinct fun c hc => hrest.plain c.1 (hmem c hc)
    · intro found hfound hunread
      simp only [Worker.verifying, List.append_nil] at hfound
      exact (hrest.plain found hfound).extend (quiet_reads hunread)
  next => exact h

theorem Sound.settleQueued {w : Worker} (h : w.Sound) (now : ℤ) (dust : Option Bool)
    (locked : Bool) (applied : Applied) :
    (w.settleQueued jitter now dust locked applied).Sound := by
  obtain ⟨queue, phase, log⟩ := w
  unfold Worker.settleQueued
  dsimp only
  split
  next item verdict rest =>
    have hread : ReadNow log item verdict := h.read (item, verdict) List.mem_cons_self
    cases hdisposition : disposition item verdict (readDust item verdict dust) with
    | requeue swapConfirmed =>
      cases swapConfirmed with
      | true =>
        exact h.updated (f := fun item => { item with swapConfirmed := true }) (fun _ => rfl)
          (plain_of_confirmed rfl) dust
      | false =>
        dsimp only
        split
        · exact h.updated (f := fun item => { item with notLandedReads := 0 }) (fun _ => rfl)
            (hread.restarted hdisposition rfl (Bool.or_false _).symm rfl) dust
        next hseen =>
          have hunseen : item.notLandedReads = 0 := by
            simpa [VerificationItem.notLandedSeen] using hseen
          have hplain : Plain log item :=
            hread.restarted hdisposition rfl (Bool.or_false _).symm hunseen
          have hdistinct : (signatures queue.items).Nodup := by
            have hall := h.distinct
            simpa only [Worker.held, List.append_nil] using hall
          have hitem : item ∈ queue.items := h.candidates.2 (item, verdict) List.mem_cons_self
          apply h.settled hdistinct
          · intro found hfound
            by_cases hsame : found.signature = item.signature
            · rw [List.inj_on_of_nodup_map hdistinct hfound hitem hsame]
              exact .inr (hplain.extend (quiet_dust ..))
            · exact .inl ⟨hfound, hsame⟩
          · intro found hfound _
            exact hfound
          · intro signature
            exact quiet_dust ..
          · exact safe_dust h.safe item verdict dust
    | defer =>
      exact h.updated (f := fun item => item.deferred jitter now) (fun _ => rfl)
        (hread.counted (disposition_defer hdisposition) rfl rfl) dust
    | apply transition =>
      obtain ⟨-, positionId, evidence, hshows, -⟩ := disposition_apply hdisposition
      dsimp only
      split
      · have hitem : item ∈ queue.items := h.candidates.2 (item, verdict) List.mem_cons_self
        have hqueued : (queue.remove item.signature).1 = true :=
          List.any_eq_true.mpr ⟨item, hitem, beq_self_eq_true _⟩
        rw [if_pos hqueued]
        exact h.applied hread hdisposition
      · exact h.updated (f := fun item => item.deferred jitter now) (fun _ => rfl)
          (hread.counted hshows.didNotLand rfl rfl) dust
  next => exact h

theorem Sound.poll {w : Worker} (h : w.Sound) (now : ℤ) (limit : ℕ) : (w.poll now limit).Sound := by
  unfold Worker.poll
  split
  next hdone =>
    have hrest := h.atRest hdone
    have hperm := pollBatch_perm w.queue now limit
    have hplain : ∀ found ∈ (w.queue.pollBatch now limit).1 ++
      (w.queue.pollBatch now limit).2.items,
        Plain w.log found := fun found hfound => hrest.plain found (hperm.mem_iff.mp hfound)
    refine ⟨?_, ⟨List.nodup_nil, by intro c hc; cases hc⟩, (by intro c hc; cases hc), ?_, h.safe⟩
    · simp only [Worker.held, List.append_nil]
      refine ((List.perm_append_comm.trans hperm).map VerificationItem.signature).nodup_iff.mpr ?_
      exact hrest.distinct
    · intro found hfound _
      simp only [Worker.verifying, List.append_nil] at hfound
      rcases List.mem_append.mp hfound with hfound | hfound
      · exact hplain found (List.mem_append_right _ hfound)
      · exact hplain found (List.mem_append_left _ hfound)
  next => exact h

section Verifying

variable {batch unresolved unresolved' : List VerificationItem}
  (h : Sound ⟨queue, .verifying (item :: batch) unresolved, log⟩)

include h

/-- The item at the head of the batch is done with: it left, or it is at rest elsewhere. -/
theorem Sound.verified
    (hdistinct : (signatures (queue'.items ++ (batch ++ unresolved'))).Nodup)
    (hfrom : ∀ found ∈ queue'.items ++ (batch ++ unresolved'),
      found ∈ queue.items ++ (batch ++ unresolved) ∨ Plain (log ++ more) found)
    (hquiet : ∀ signature ≠ item.signature, Quiet more signature)
    (hsafe : EachAfter SafeEvent (log ++ more)) :
    Sound ⟨queue', .verifying batch unresolved', log ++ more⟩ := by
  have hperm : (queue.items ++ (item :: batch ++ unresolved)).Perm
      (item :: (queue.items ++ (batch ++ unresolved))) := List.perm_middle
  have hitem := (hperm.map VerificationItem.signature).nodup_iff.mp h.distinct
  refine ⟨hdistinct, ⟨List.nodup_nil, by
    intro c hc; cases hc⟩, (by intro c hc; cases hc), ?_, hsafe⟩
  intro found hfound _
  rcases hfrom found hfound with hmem | hplain
  · have hne : found.signature ≠ item.signature := by
      intro hsame
      refine (List.nodup_cons.mp hitem).1 ?_
      rw [← hsame]
      exact signature_mem hmem
    have hheld : found ∈ queue.items ++ (item :: batch ++ unresolved) :=
      hperm.mem_iff.mpr (List.mem_cons_of_mem item hmem)
    exact (h.plain found hheld List.not_mem_nil).extend (hquiet _ hne)
  · exact hplain

/-- The item leaves the worker, and nothing is queued for it. -/
theorem Sound.verified_gone (hitems : queue'.items.Sublist queue.items)
    (hquiet : ∀ signature ≠ item.signature, Quiet more signature)
    (hsafe : EachAfter SafeEvent (log ++ more)) :
    Sound ⟨queue', .verifying batch unresolved, log ++ more⟩ := by
  refine h.verified ?_ ?_ hquiet hsafe
  · exact h.distinct.sublist ((hitems.append ((List.sublist_cons_self item batch).append
      (List.Sublist.refl unresolved))).map VerificationItem.signature)
  · intro found hfound
    rcases List.mem_append.mp hfound with hfound | hfound
    · exact .inl (List.mem_append_left _ (hitems.subset hfound))
    · exact .inl (List.mem_append_right _ hfound)

/-- The item goes back to the queue. -/
theorem Sound.verified_requeued (jitter : String → ℕ → ℤ) (now : ℤ) {again : VerificationItem}
    (hsignature : again.signature = item.signature) (hplain : Plain (log ++ more) again)
    (hquiet : ∀ signature ≠ item.signature, Quiet more signature)
    (hsafe : EachAfter SafeEvent (log ++ more)) :
    Sound ⟨queue.requeue jitter now again, .verifying batch unresolved, log ++ more⟩ := by
  have hitems : (queue.requeue jitter now again).items =
      queue.items ++ [again.withRetry jitter now] := rfl
  refine h.verified ?_ ?_ hquiet hsafe
  · have hall := h.distinct
    simp only [Worker.held, signatures, List.map_append, List.map_cons, List.cons_append] at hall
    rw [hitems]
    simp only [signatures, List.map_append, List.map_cons, List.map_nil, List.append_assoc]
    rw [show (again.withRetry jitter now).signature = item.signature from hsignature]
    exact hall
  · intro found hfound
    rw [hitems, List.append_assoc] at hfound
    rcases List.mem_append.mp hfound with hfound | hfound
    · exact .inl (List.mem_append_left _ hfound)
    · rcases List.mem_cons.mp hfound with rfl | hfound
      · exact .inr (hplain.congr rfl rfl rfl)
      · exact .inl (List.mem_append_right _ hfound)

/-- The item is given up on, to be settled by its verdict. -/
theorem Sound.verified_unresolved {again : VerificationItem}
    (hsignature : again.signature = item.signature) (hplain : Plain (log ++ more) again)
    (hquiet : ∀ signature ≠ item.signature, Quiet more signature)
    (hsafe : EachAfter SafeEvent (log ++ more)) :
    Sound ⟨queue, .verifying batch (unresolved ++ [again]), log ++ more⟩ := by
  refine h.verified ?_ ?_ hquiet hsafe
  · have hperm : (queue.items ++ (batch ++ (unresolved ++ [again]))).Perm
        (queue.items ++ (again :: batch ++ unresolved)) := by
      refine List.Perm.append_left _ ?_
      rw [← List.append_assoc]
      exact List.perm_append_comm
    refine (hperm.map VerificationItem.signature).nodup_iff.mpr ?_
    have hall := h.distinct
    simp only [Worker.held, signatures, List.map_append, List.map_cons, List.cons_append] at hall ⊢
    rw [hsignature]
    exact hall
  · intro found hfound
    rcases List.mem_append.mp hfound with hfound | hfound
    · exact .inl (List.mem_append_left _ hfound)
    · rw [← List.append_assoc] at hfound
      rcases List.mem_append.mp hfound with hfound | hfound
      · exact .inl (List.mem_append_right _ hfound)
      · rw [List.mem_singleton.mp hfound]
        exact .inr hplain

end Verifying

theorem Sound.verify {w : Worker} (h : w.Sound) {now : ℤ} {outcome : VerificationOutcome}
    (hcovers : w.Covers (.verify now outcome)) : (w.verify jitter now outcome).Sound := by
  obtain ⟨queue, phase, log⟩ := w
  unfold Worker.verify
  dsimp only
  split
  next item batch unresolved =>
    have hitem : Plain log item :=
      h.plain item (List.mem_append_right _ List.mem_cons_self) List.not_mem_nil
    have hverified : ∀ signature ≠ item.signature, Quiet [.verified item.signature] signature :=
      fun signature hne => quiet_verified (Ne.symm hne)
    have hsafe : EachAfter SafeEvent (log ++ [.verified item.signature]) :=
      h.safe.concat ⟨trivial, trivial⟩
    have hsilent : EachAfter SafeEvent (log ++ []) := by
      rw [List.append_nil]
      exact h.safe
    cases outcome with
    | transition applied =>
      cases applied with
      | ok => exact h.verified_gone (remove_sublist queue item.signature) hverified hsafe
      | refused error =>
        dsimp only
        split
        · exact h.verified_requeued jitter now rfl (plain_of_confirmed rfl) hverified hsafe
        · exact h.verified_unresolved rfl (plain_of_confirmed rfl) hverified hsafe
        · exact h.verified_gone (List.Sublist.refl _) hverified hsafe
    | retryTransient confirmed =>
      cases confirmed with
      | true =>
        have hknown : item.swapConfirmed = true := hcovers item rfl
        dsimp only
        split
        · exact h.verified_unresolved rfl (plain_of_confirmed hknown) hverified hsafe
        · exact h.verified_requeued jitter now rfl (plain_of_confirmed hknown) hverified hsafe
      | false =>
        have hplain : Plain (log ++ []) item := hitem.extend quiet_nil
        dsimp only
        split
        · exact h.verified_unresolved rfl hplain (fun _ _ => quiet_nil) hsilent
        · exact h.verified_requeued jitter now rfl hplain (fun _ _ => quiet_nil) hsilent
  next => exact h

theorem Sound.readUnresolved {w : Worker} (h : w.Sound)
    (verdict : Option (VerificationItem → SignatureVerdict)) :
    (w.readUnresolved verdict).Sound := by
  obtain ⟨queue, phase, log⟩ := w
  unfold Worker.readUnresolved
  dsimp only
  split
  next unresolved =>
    have hplain : ∀ found ∈ unresolved, Plain log found := fun found hfound =>
      h.plain found (List.mem_append_right _ hfound) List.not_mem_nil
    have hqueued : ∀ found ∈ queue.items, Plain log found := fun found hfound =>
      h.plain found (List.mem_append_left _ hfound) List.not_mem_nil
    have hall := h.distinct
    simp only [Worker.held, List.nil_append, signatures, List.map_append] at hall
    obtain ⟨-, hunresolved, hapart⟩ := List.nodup_append.mp hall
    cases verdict with
    | some verdict =>
      have hread : ((unresolved.map fun item => (item, verdict item)).map Prod.fst) =
          unresolved := by
        simp [Function.comp_def]
      have hdistinct : (readSignatures (unresolved.map fun item =>
          (item, verdict item))).Nodup := by
        rw [readSignatures, hread]
        exact hunresolved
      refine ⟨?_, ⟨List.nodup_nil, by intro c hc; cases hc⟩, ?_, ?_, safe_reads h.safe _⟩
      · simp only [Worker.held, hread, signatures, List.map_append]
        exact hall
      · refine readNow_reads hdistinct fun c hc => ?_
        obtain ⟨found, hfound, rfl⟩ := List.mem_map.mp hc
        exact hplain found hfound
      · intro found hfound _
        simp only [Worker.verifying, List.append_nil] at hfound
        refine (hqueued found hfound).extend (quiet_reads ?_)
        rw [readSignatures, hread]
        intro hin
        exact hapart _ (signature_mem hfound) _ hin rfl
    | none =>
      have hread : ((unresolved.map fun item => (item, SignatureVerdict.pending)).map Prod.fst) =
          unresolved := by
        simp [Function.comp_def]
      refine ⟨?_, ⟨List.nodup_nil, by intro c hc; cases hc⟩, ?_, ?_, h.safe⟩
      · simp only [Worker.held, hread, signatures, List.map_append]
        exact hall
      · intro c hc
        obtain ⟨found, hfound, rfl⟩ := List.mem_map.mp hc
        exact ⟨fun hc => .inl ((hplain found hfound).confirmed hc), fun _ hne => absurd rfl hne⟩
      · intro found hfound _
        simp only [Worker.verifying, List.append_nil] at hfound
        exact hqueued found hfound
  next => exact h

section Resolving

variable {rest : List (VerificationItem × SignatureVerdict)}
  (h : Sound ⟨queue, .resolving ((item, verdict) :: rest), log⟩)

include h

/-- The item at the head is settled: it leaves, or it is queued again at rest. -/
theorem Sound.resolved (hitems : queue'.items = queue.items ∨
      ∃ again : VerificationItem, again.signature = item.signature ∧
        queue'.items = queue.items ++ [again] ∧ Plain (log ++ more) again)
    (hquiet : ∀ signature, Quiet more signature) (hsafe : EachAfter SafeEvent (log ++ more)) :
    Sound ⟨queue', .resolving rest, log ++ more⟩ := by
  have hall := h.distinct
  simp only [Worker.held, signatures, List.map_append, List.map_cons] at hall
  have hread : ∀ c ∈ rest, ReadNow (log ++ more) c.1 c.2 := by
    intro c hc
    exact (h.read c (List.mem_cons_of_mem _ hc)).extend (hquiet _)
  have hqueued : ∀ found ∈ queue.items, Plain (log ++ more) found := by
    intro found hfound
    exact (h.plain found (List.mem_append_left _ hfound) List.not_mem_nil).extend (hquiet _)
  rcases hitems with hsame | ⟨again, hsignature, hadded, hagain⟩
  · refine ⟨?_, ⟨List.nodup_nil, by intro c hc; cases hc⟩, hread, ?_, hsafe⟩
    · simp only [Worker.held, signatures, List.map_append, hsame]
      exact hall.sublist ((List.Sublist.refl _).append (List.sublist_cons_self _ _))
    · intro found hfound _
      simp only [Worker.verifying, List.append_nil, hsame] at hfound
      exact hqueued found hfound
  · refine ⟨?_, ⟨List.nodup_nil, by intro c hc; cases hc⟩, hread, ?_, hsafe⟩
    · simp only [Worker.held, signatures, List.map_append, hadded, List.map_cons, List.map_nil,
        hsignature, List.append_assoc]
      exact hall
    · intro found hfound _
      simp only [Worker.verifying, List.append_nil, hadded] at hfound
      rcases List.mem_append.mp hfound with hfound | hfound
      · exact hqueued found hfound
      · rw [List.mem_singleton.mp hfound]
        exact hagain

/-- It is queued again, unless its signature is refused. -/
theorem Sound.resolved_again (again : VerificationItem)
    (hsignature : again.signature = item.signature)
    (hplain : Plain log again) (dust : Option Bool) :
    Sound ⟨queue.enqueue again, .resolving rest, log ++ dustEvents item verdict dust⟩ := by
  refine h.resolved ?_ (fun _ => quiet_dust ..) (safe_dust h.safe item verdict dust)
  rcases enqueue_items queue again with hsame | ⟨hadded, -⟩
  · exact .inl hsame
  · exact .inr ⟨again, hsignature, hadded, hplain.extend (quiet_dust ..)⟩

end Resolving

theorem Sound.settleUnresolved {w : Worker} (h : w.Sound) (now : ℤ) (dust : Option Bool)
    (locked : Bool) (applied : Applied) :
    (w.settleUnresolved jitter now dust locked applied).Sound := by
  obtain ⟨queue, phase, log⟩ := w
  unfold Worker.settleUnresolved
  dsimp only
  split
  next item verdict rest =>
    have hread : ReadNow log item verdict := h.read (item, verdict) List.mem_cons_self
    cases hdisposition : disposition item verdict (readDust item verdict dust) with
    | requeue swapConfirmed =>
      exact h.resolved_again { item.renewed now with
          swapConfirmed := (item.renewed now).swapConfirmed || swapConfirmed
          notLandedReads := 0 } rfl (hread.restarted hdisposition rfl rfl rfl) dust
    | defer =>
      exact h.resolved_again ((item.renewed now).deferred jitter now) rfl
        (hread.counted (disposition_defer hdisposition) rfl rfl) dust
    | apply transition =>
      obtain ⟨-, positionId, evidence, hshows, -⟩ := disposition_apply hdisposition
      dsimp only
      split
      · have hquiet : ∀ signature, Quiet (dustEvents item verdict dust ++
            [.emitted item.signature transition]) signature :=
          fun signature => (quiet_dust ..).append (quiet_emitted ..)
        rw [List.append_assoc]
        refine h.resolved ?_ hquiet ?_
        · rcases afterSettlement_items jitter queue now (item.renewed now) applied
            with hsame | ⟨again, hsignature, hconfirmed, hadded, -⟩
          · exact .inl hsame
          · refine .inr ⟨again, hsignature, hadded, ?_⟩
            exact (hread.counted hshows.didNotLand hsignature hconfirmed).extend (hquiet _)
        · rw [← List.append_assoc]
          exact (safe_dust h.safe item verdict dust).concat (hread.safe hdisposition)
      · exact h.resolved_again ((item.renewed now).deferred jitter now) rfl
          (hread.counted hshows.didNotLand rfl rfl) dust
  next => exact h

theorem Sound.step {w : Worker} {action : WorkerAction} (h : w.Sound) (hcovers : w.Covers action) :
    (w.step jitter action).Sound := by
  cases action with
  | enqueue now submission =>
    have hsignature : (submission.item now).signature = submission.signature := by
      cases submission <;> rfl
    apply h.enqueue
    · apply plain_of_unread
      · rw [hsignature]
        exact hcovers.1
      · cases submission <;> rfl
    · rw [hsignature]
      exact hcovers.2
  | assignExpiryBound bound bounded =>
    unfold Worker.step
    dsimp only
    split
    next hdone => exact h.assignExpiryBound hdone bound bounded
    next => exact h
  | readQueued now verdict => exact h.readQueued now verdict
  | settleQueued now dust locked applied => exact h.settleQueued now dust locked applied
  | poll now limit => exact h.poll now limit
  | verify now outcome => exact h.verify hcovers
  | readUnresolved verdict => exact h.readUnresolved verdict
  | settleUnresolved now dust locked applied => exact h.settleUnresolved now dust locked applied
  | restart =>
    exact AtRest.sound ⟨List.nodup_nil, (by intro found hfound; cases hfound), h.safe⟩
      rfl rfl rfl rfl

end Steps

/-- Over every run whose steps are all covered, no not-landed transition follows a read that
confirmed its swap, and no entry is removed as orphan before the reads that prove it never
landed. -/
theorem settlement_safe (jitter : String → ℕ → ℤ) (actions : List WorkerAction)
    (h : ∀ p ∈ visited (step jitter) initial actions, p.1.Covers p.2) :
    EachAfter (fun before event => NeverConfirmed before event ∧ OrphanOnlyProved before event)
      (actions.foldl (step jitter) initial).log := by
  have hsound := run_invariant (step jitter) Sound actions initial initial_sound
    fun p hp hinv => hinv.step (h p hp)
  exact hsound.safe

/-- A close whose transaction is found confirmed without a swap analysis, and reads as not landed
twice after it. -/
def closeConfirmedUnread : List WorkerAction :=
  [.enqueue 0 (.swap "exit-sig" "mint" (some 7) .exit (some 100)),
    .poll 1 10, .verify 1 (.retryTransient true), .readUnresolved none,
    .readQueued 100 fun _ => .notLanded, .settleQueued 100 none true .ok,
    .readQueued 1000 fun _ => .notLanded, .settleQueued 1000 none true .ok]

/-- A close that landed before a restart, and reads as not landed twice after it. -/
def closeAcrossRestart : List WorkerAction :=
  [.enqueue 0 (.swap "exit-sig" "mint" (some 7) .exit (some 100)),
    .readQueued 1 fun _ => .landed, .settleQueued 1 none true .ok, .restart,
    .enqueue 10 (.swap "exit-sig" "mint" (some 7) .exit none),
    .assignExpiryBound 200 ["exit-sig"],
    .readQueued 11 fun _ => .notLanded, .settleQueued 11 none true .ok,
    .readQueued 1000 fun _ => .notLanded, .settleQueued 1000 none true .ok]

/-- A verification attempt that read a swap as confirmed and is tried again forgets it, and so does
a restart: later reads settle the swap as not landed. -/
theorem confirmation_not_kept :
    ¬ EachAfter NeverConfirmed (closeConfirmedUnread.foldl (step fun _ _ => 0) initial).log ∧
    ¬ EachAfter NeverConfirmed (closeAcrossRestart.foldl (step fun _ _ => 0) initial).log := by
  constructor
  · intro h
    refine h [.verified "exit-sig", .read "exit-sig" .notLanded, .read "exit-sig" .notLanded]
      (.emitted "exit-sig" (.exitFailedClearForRetry 7 "exit-sig")) [] (by decide +kernel) ?_
    exact .inr (by decide)
  · intro h
    refine h [.read "exit-sig" .landed, .read "exit-sig" .notLanded, .read "exit-sig" .notLanded]
      (.emitted "exit-sig" (.exitFailedClearForRetry 7 "exit-sig")) [] (by decide) ?_
    exact .inl (by decide)

/-- An entry that never landed, removed on its second such read with nothing held. -/
theorem settlement_safe_orphan :
    EachAfter (fun before event => NeverConfirmed before event ∧ OrphanOnlyProved before event)
      (List.foldl (step fun _ _ => 0) initial
        [.enqueue 0 (.swap "entry-sig" "mint" (some 7) .entry (some 100)),
          .readQueued 1 fun _ => .notLanded, .settleQueued 1 none true .ok,
          .readQueued 1000 fun _ => .notLanded, .settleQueued 1000 (some true) true .ok]).log :=
  settlement_safe (fun _ _ => 0) _ (by decide)

end Worker

end ScreenerBot.Positions
