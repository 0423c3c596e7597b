import ScreenerBot.Library.Lists
import ScreenerBot.Positions.Worker

/-! What an item knows of the reads of its signature, and what the disposition makes of it. -/
namespace ScreenerBot.Positions

open ScreenerBot.Library VerificationQueue

section Reads

variable {log more : List Event} {item item' : VerificationItem} {verdict : SignatureVerdict}
  {signature : String}

theorem readsOf_append (log more : List Event) :
    readsOf signature (log ++ more) = readsOf signature log ++ readsOf signature more :=
  List.filterMap_append

theorem dustOf_append (log more : List Event) :
    dustOf signature (log ++ more) = dustOf signature log ++ dustOf signature more :=
  List.filterMap_append

theorem confirmed_append : Confirmed (log ++ more) signature ↔
    Confirmed log signature ∨ Confirmed more signature := by
  simp only [Confirmed, List.mem_append]
  tauto

/-- Events that read nothing of a signature. -/
structure Quiet (more : List Event) (signature : String) : Prop where
  reads : readsOf signature more = []
  confirmed : ¬ Confirmed more signature

theorem quiet_nil : Quiet [] signature := ⟨rfl, by simp [Confirmed]⟩

theorem Quiet.append {first second : List Event} (h : Quiet first signature)
    (h' : Quiet second signature) : Quiet (first ++ second) signature where
  reads := by rw [readsOf_append, h.reads, h'.reads]; rfl
  confirmed := by
    rw [confirmed_append]
    rintro (hc | hc)
    · exact h.confirmed hc
    · exact h'.confirmed hc

theorem quiet_dust (item : VerificationItem) (verdict : SignatureVerdict) (dust : Option Bool) :
    Quiet (Worker.dustEvents item verdict dust) signature := by
  unfold Worker.dustEvents
  split
  · exact ⟨rfl, by simp [Confirmed]⟩
  · exact quiet_nil

theorem quiet_emitted (owner : String) (transition : NotLandedTransition) :
    Quiet [.emitted owner transition] signature := ⟨rfl, by simp [Confirmed]⟩

theorem quiet_verified {owner : String} (h : owner ≠ signature) :
    Quiet [.verified owner] signature := ⟨rfl, by simpa [Confirmed] using Ne.symm h⟩

/-- What an item at rest knows: a confirmed swap is marked, and a count of not-landed reads stands
for a last read that found the swap did not land. -/
structure Plain (log : List Event) (item : VerificationItem) : Prop where
  confirmed : Confirmed log item.signature → item.swapConfirmed = true
  seen : item.swapConfirmed = false → item.notLandedSeen = true →
    ∃ earlier last, readsOf item.signature log = earlier ++ [last] ∧ last.didNotLand = true

/-- The same of an item whose verdict was just read. -/
structure ReadNow (log : List Event) (item : VerificationItem) (verdict : SignatureVerdict) :
    Prop where
  confirmed : Confirmed log item.signature → item.swapConfirmed = true ∨ verdict = .landed
  read : item.swapConfirmed = false → verdict ≠ .pending →
    ∃ earlier, readsOf item.signature log = earlier ++ [verdict] ∧ (item.notLandedSeen = true →
      ∃ before previous, earlier = before ++ [previous] ∧ previous.didNotLand = true)

theorem Plain.extend (h : Plain log item) (hquiet : Quiet more item.signature) :
    Plain (log ++ more) item where
  confirmed := by
    rw [confirmed_append]
    rintro (hc | hc)
    · exact h.confirmed hc
    · exact absurd hc hquiet.confirmed
  seen := by
    rw [readsOf_append, hquiet.reads, List.append_nil]
    exact h.seen

theorem ReadNow.extend (h : ReadNow log item verdict) (hquiet : Quiet more item.signature) :
    ReadNow (log ++ more) item verdict where
  confirmed := by
    rw [confirmed_append]
    rintro (hc | hc)
    · exact h.confirmed hc
    · exact absurd hc hquiet.confirmed
  read := by
    rw [readsOf_append, hquiet.reads, List.append_nil]
    exact h.read

/-- Only the signature, the confirmation and the count of not-landed reads matter. -/
theorem Plain.congr (h : Plain log item) (hsignature : item'.signature = item.signature)
    (hconfirmed : item'.swapConfirmed = item.swapConfirmed)
    (hreads : item'.notLandedReads = item.notLandedReads) : Plain log item' := by
  obtain ⟨hc, hs⟩ := h
  unfold VerificationItem.notLandedSeen at hs
  constructor
  · rw [hsignature, hconfirmed]
    exact hc
  · unfold VerificationItem.notLandedSeen
    rw [hsignature, hconfirmed, hreads]
    exact hs

theorem plain_of_confirmed (h : item.swapConfirmed = true) : Plain log item where
  confirmed := fun _ => h
  seen := by
    intro hfalse
    rw [h] at hfalse
    cases hfalse

/-- A fresh item of a swap no read confirmed. -/
theorem plain_of_unread (hconfirmed : ¬ Confirmed log item.signature)
    (hreads : item.notLandedReads = 0) : Plain log item where
  confirmed := fun hc => absurd hc hconfirmed
  seen := by
    intro _ hseen
    simp [VerificationItem.notLandedSeen, hreads] at hseen

/-- A read that found the swap did not land leaves any count of such reads true. -/
theorem ReadNow.counted (h : ReadNow log item verdict) (hverdict : verdict.didNotLand = true)
    (hsignature : item'.signature = item.signature)
    (hconfirmed : item'.swapConfirmed = item.swapConfirmed) : Plain log item' := by
  constructor
  · rw [hsignature, hconfirmed]
    intro hc
    rcases h.confirmed hc with hc | rfl
    · exact hc
    · cases hverdict
  · rw [hsignature, hconfirmed]
    intro hfalse _
    have hpending : verdict ≠ .pending := by
      rintro rfl
      cases hverdict
    obtain ⟨earlier, hreads, -⟩ := h.read hfalse hpending
    exact ⟨earlier, verdict, hreads, hverdict⟩

/-- A requeued item that keeps its confirmation and starts a new count. -/
theorem ReadNow.restarted (h : ReadNow log item verdict) {dust : Option Bool} {swapConfirmed : Bool}
    (hdisposition : disposition item verdict dust = .requeue swapConfirmed)
    (hsignature : item'.signature = item.signature)
    (hconfirmed : item'.swapConfirmed = (item.swapConfirmed || swapConfirmed))
    (hreads : item'.notLandedReads = 0) : Plain log item' := by
  have hmark := disposition_requeue hdisposition
  constructor
  · rw [hsignature, hconfirmed]
    intro hc
    rcases h.confirmed hc with hc | rfl
    · rw [hc, Bool.true_or]
    · rw [hmark]
      simp
  · intro _ hseen
    simp [VerificationItem.notLandedSeen, hreads] at hseen

/-- A settlement acts only where the reads before it prove its case. -/
theorem ReadNow.safe (h : ReadNow log item verdict) {dust : Option Bool}
    {transition : NotLandedTransition}
    (hdisposition : disposition item verdict (Worker.readDust item verdict dust) =
      .apply transition) :
    NeverConfirmed (log ++ Worker.dustEvents item verdict dust)
      (.emitted item.signature transition) ∧
    OrphanOnlyProved (log ++ Worker.dustEvents item verdict dust)
      (.emitted item.signature transition) := by
  obtain ⟨hunconfirmed, positionId, evidence, hshows, happly⟩ := disposition_apply hdisposition
  have hdidNotLand := hshows.didNotLand
  have hquiet : Quiet (Worker.dustEvents item verdict dust) item.signature := quiet_dust ..
  have hpending : verdict ≠ .pending := by
    rintro rfl
    cases hdidNotLand
  obtain ⟨earlier, hreads, hearlier⟩ := h.read hunconfirmed hpending
  constructor
  · intro hconfirmed
    rcases confirmed_append.mp hconfirmed with hc | hc
    · rcases h.confirmed hc with hc | rfl
      · rw [hunconfirmed] at hc
        cases hc
      · cases hdidNotLand
    · exact hquiet.confirmed hc
  · cases transition with
    | dcaFailed | partialExitFailed | exitFailedClearForRetry => trivial
    | removeOrphanEntry owner removed found =>
      obtain ⟨rfl, rfl, hkind, hdca, hdust⟩ := notLanded_orphan happly
      refine ⟨rfl, ?_⟩
      cases found with
      | failedOnChain =>
        rw [show verdict = .failedOnChain from hshows] at hreads hquiet ⊢
        exact ⟨earlier, by rw [readsOf_append, hquiet.reads, List.append_nil, hreads]⟩
      | expired =>
        obtain ⟨rfl, hseen⟩ := hshows
        obtain ⟨before, previous, rfl, hprevious⟩ := hearlier hseen
        have hneeds : needsDust item .notLanded = true := by
          simp [needsDust, hkind, hdca, hseen]
        refine ⟨⟨before, previous, ?_, hprevious⟩, ?_⟩
        · rw [readsOf_append, hquiet.reads, List.append_nil, hreads, List.append_assoc]
          rfl
        · have hread := hdust rfl
          simp only [Worker.readDust, hneeds, if_true] at hread
          rw [dustOf_append, Worker.dustEvents, if_pos hneeds, hread]
          simp [dustOf]

end Reads

end ScreenerBot.Positions
