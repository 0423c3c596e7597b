import Mathlib
import ScreenerBot.Storage.PlanSafety

/-!
Retention is monotone: a higher tier keeps no more, and what a step keeps it keeps when other files
are gone. So a pass on what the last one left deletes nothing.
-/
namespace ScreenerBot.Storage
open Library

section

variable {V : Type} [LinearOrder V] {parse : String → Option V} {input next : PlanInput}

/-- Inputs under which the retention steps see each file alike. -/
structure SameFacts (input next : PlanInput) : Prop where
  now_eq : next.now = input.now
  activeLog_eq : next.activeLog = input.activeLog
  downloads_eq : next.downloads = input.downloads

/-- No more kept, by count and by bytes. -/
def Kept.AtMost (kept kept' : Kept) : Prop := kept.count ≤ kept'.count ∧ kept.bytes ≤ kept'.bytes

theorem pastBound_mono {now : SystemTime} {maxAge : Option Duration}
    {maxCount total total' : Option ℕ}
    (htotal : ∀ n, total = some n → ∃ n' ≤ n, total' = some n') {kept kept' : Kept}
    (h : kept.AtMost kept') {entry : FileEntry}
    (hpast : pastBound now maxAge maxCount total kept entry = true) :
    pastBound now maxAge maxCount total' kept' entry = true := by
  obtain ⟨hcount, hbytes⟩ := h
  simp only [pastBound, Bool.or_eq_true] at hpast ⊢
  obtain (hage | hmany) | hlarge := hpast
  · exact .inl (.inl hage)
  · refine .inl (.inr ?_)
    cases maxCount with
    | none => cases hmany
    | some count =>
      have hle : kept.count ≥ count := of_decide_eq_true hmany
      exact decide_eq_true (hle.trans hcount)
  · refine .inr ?_
    cases total with
    | none => cases hlarge
    | some n =>
      obtain ⟨n', hn, rfl⟩ := htotal n rfl
      have hlt : saturatingAddU64 kept.bytes entry.bytes > n := of_decide_eq_true hlarge
      have hmore : saturatingAddU64 kept.bytes entry.bytes ≤
          saturatingAddU64 kept'.bytes entry.bytes :=
        min_le_min (Nat.add_le_add_right hbytes _) le_rfl
      exact decide_eq_true (hn.trans_lt (hlt.trans_le hmore))

theorem candidate_congr (h : SameFacts input next) :
    FileEntry.candidate next = FileEntry.candidate input := by
  funext entry
  rw [FileEntry.candidate, FileEntry.candidate, h.activeLog_eq]

/-- A bounded step gives up nothing of fewer files that a step of tighter bounds keeps. -/
theorem select_bounded_mono {maxAge maxAge' : Option Duration}
    {maxCount maxCount' total total' : Option ℕ}
    (h : SameFacts input next)
    (hpast : ∀ kept kept' entry, Kept.AtMost kept kept' →
      pastBound input.now maxAge maxCount total kept entry = true →
        pastBound input.now maxAge' maxCount' total' kept' entry = true)
    (entries : List FileEntry) (left : FileEntry → Bool) :
    ∀ entry ∈ select parse (.bounded maxAge maxCount total) (entries.filter left) next,
      entry ∈ select parse (.bounded maxAge' maxCount' total') entries input := by
  have hsub : (newestFirst ((entries.filter left).filter (FileEntry.candidate input))).Sublist
      (newestFirst (entries.filter (FileEntry.candidate input))) := by
    rw [List.filter_comm, newestFirst, sortBy_filter]
    exact List.filter_sublist
  simp only [select, candidate_congr h, h.now_eq]
  refine spill_subset (R := Kept.AtMost) hpast ?_ ?_ hsub ⟨le_rfl, le_rfl⟩
  · exact fun kept kept' entry hle =>
      ⟨Nat.add_le_add_right hle.1 1, Nat.add_le_add_right hle.2 entry.bytes⟩
  · exact fun kept kept' entry hle => ⟨Nat.le_succ_of_le hle.1, Nat.le_add_right_of_le hle.2⟩

/-- A step gives up nothing of fewer files that it keeps. -/
theorem select_filter (h : SameFacts input next) (keep : Keep) (entries : List FileEntry)
    (left : FileEntry → Bool) :
    ∀ entry ∈ select parse keep (entries.filter left) next,
      entry ∈ select parse keep entries input := by
  intro entry hentry
  cases keep with
  | forever => cases hentry
  | remove =>
    simp only [select, candidate_congr h, List.mem_filter] at hentry ⊢
    exact ⟨hentry.1.1, hentry.2⟩
  | whileNotEmpty =>
    simp only [select, candidate_congr h, List.mem_filter] at hentry ⊢
    exact ⟨⟨hentry.1.1.1, hentry.1.2⟩, hentry.2⟩
  | downloads retention =>
    simp only [select, candidate_congr h, h.now_eq, h.downloads_eq, List.mem_filter] at hentry ⊢
    exact ⟨⟨hentry.1.1.1, hentry.1.2⟩, hentry.2⟩
  | bounded maxAge maxCount total =>
    refine select_bounded_mono h (fun kept kept' other hle hpast => ?_) entries left entry hentry
    exact pastBound_mono (fun n hn => ⟨n, le_rfl, hn⟩) hle hpast

theorem keepsDownload_mono {name : String} {age limit : Duration} {facts : DownloadFacts}
    (h : keepsDownload parse name age facts .inFlightOnly limit = true) :
    keepsDownload parse name age facts .keepPending limit = true := by
  simp only [keepsDownload] at h ⊢
  split at h
  · cases h
  · split at h
    · simp only [Bool.and_eq_true, Bool.or_eq_true] at h ⊢
      obtain ⟨hname, hdownloading | ⟨hkeep, _⟩⟩ := h
      · exact ⟨hname, .inl hdownloading⟩
      · cases hkeep
    · cases h

theorem ladder_shapes : ∀ spec ∈ families, spec.ladder = .same spec.ladder.normal ∨
    spec.ladder = keepPendingDownloads ∨ spec.ladder = logRetention := by decide

/-- A family gives up at a higher tier what it gives up at a lower one, also of fewer files. -/
theorem select_tier_mono (h : SameFacts input next) {spec : FamilySpec} (hspec : spec ∈ families)
    {tier tier' : Tier} (htier : tier ≤ tier') (entries : List FileEntry)
    (left : FileEntry → Bool) :
    ∀ entry ∈ select parse (spec.ladder.at tier) (entries.filter left) next,
      entry ∈ select parse (spec.ladder.at tier') entries input := by
  by_cases hsame : spec.ladder.at tier = spec.ladder.at tier'
  · rw [hsame]
    exact select_filter h _ entries left
  · obtain hladder | hladder | hladder := ladder_shapes spec hspec
    · rw [hladder] at hsame
      cases tier <;> cases tier' <;> exact absurd rfl hsame
    · have hkeeps : spec.ladder.at tier = .downloads .keepPending ∧
          spec.ladder.at tier' = .downloads .inFlightOnly := by
        rw [hladder] at hsame ⊢
        revert htier hsame
        cases tier <;> cases tier' <;> decide
      rw [hkeeps.1, hkeeps.2]
      intro entry hentry
      have hfewer := select_filter h _ entries left entry hentry
      simp only [select, List.mem_filter, Bool.not_eq_true'] at hfewer ⊢
      refine ⟨hfewer.1, Bool.eq_false_iff.mpr fun hkept => ?_⟩
      exact Bool.eq_false_iff.mp hfewer.2 (keepsDownload_mono hkept)
    · have hkeeps : spec.ladder.at tier = logRetention.at tier ∧
          spec.ladder.at tier' = logRetention.at tier' ∧
          (tier' = .low ∧ tier = .normal ∨ tier' = .critical) := by
        rw [hladder] at hsame ⊢
        revert htier hsame
        cases tier <;> cases tier' <;> decide
      obtain ⟨hlower, hhigher, ⟨rfl, rfl⟩ | rfl⟩ := hkeeps
      · rw [hlower, hhigher]
        refine select_bounded_mono h (fun kept kept' other hle hpast => ?_) entries left
        exact pastBound_mono (fun n hn => ⟨128 * mib, Option.some.inj hn ▸ by
          decide, rfl⟩) hle hpast
      · rw [hhigher]
        obtain ⟨maxAge, maxCount, total, hbounded⟩ : ∃ maxAge maxCount total,
            logRetention.at tier = .bounded maxAge maxCount total := by
          cases tier <;> exact ⟨_, _, _, rfl⟩
        rw [hlower, hbounded]
        -- a step of count 0 is past its bound at every entry
        refine select_bounded_mono h (fun kept kept' other hle hpast => ?_) entries left
        exact rfl

theorem afterDeletions_sameFacts (input : PlanInput) (plan : Plan) :
    SameFacts input (input.afterDeletions plan) := ⟨rfl, rfl, rfl⟩

/-- Where every path is measured once, what goes is what the deletions free. -/
theorem afterDeletions_usage (hpaths : (input.entries.map FileEntry.path).Nodup) :
    (input.afterDeletions (input.plan parse)).usage
      = input.usage - (input.selection parse).freed := by
  have hsound : Selection.Sound parse input input.tier (input.selection parse) := selection_sound
  let deleted : FileEntry → Bool := fun entry =>
    decide (entry.path ∈ (input.plan parse).actions.filterMap Action.deletedPath)
  have hnodup : ((input.entries.filter deleted).map fun entry =>
      (entry.path, entry.bytes)).Nodup := by
    apply List.Nodup.of_map Prod.fst
    rw [List.map_map]
    exact (List.filter_sublist.map FileEntry.path).nodup hpaths
  have hnodup' : ((input.selection parse).deleted.map fun d => (d.path, d.bytes)).Nodup := by
    apply List.Nodup.of_map Prod.fst
    rw [List.map_map]
    exact hsound.nodup
  have hperm : ((input.entries.filter deleted).map fun entry => (entry.path, entry.bytes)).Perm
      ((input.selection parse).deleted.map fun d => (d.path, d.bytes)) := by
    rw [List.perm_ext_iff_of_nodup hnodup hnodup']
    intro pair
    rw [List.mem_map, List.mem_map]
    constructor
    · rintro ⟨entry, hentry, rfl⟩
      obtain ⟨hmem, hgone⟩ := List.mem_filter.mp hentry
      obtain ⟨d, hd, hpath⟩ := List.mem_map.mp (mem_plan_deletedPaths.mp (of_decide_eq_true hgone))
      obtain ⟨_, entry', hdue, he⟩ := hsound.due d hd
      have hpath' : entry'.path = entry.path := by rw [← hpath, he]
      obtain rfl := List.inj_on_of_nodup_map hpaths hdue.mem_entries hmem hpath'
      exact ⟨d, hd, by rw [he]⟩
    · rintro ⟨d, hd, rfl⟩
      obtain ⟨_, entry, hdue, he⟩ := hsound.due d hd
      have hgone : entry.path ∈ (input.plan parse).actions.filterMap Action.deletedPath := by
        apply mem_plan_deletedPaths.mpr
        exact List.mem_map.mpr ⟨d, hd, by rw [he]⟩
      exact ⟨entry, List.mem_filter.mpr ⟨hdue.mem_entries, decide_eq_true hgone⟩, by rw [he]⟩
  have hfreed : ((input.entries.filter deleted).map FileEntry.bytes).sum
      = (input.selection parse).freed := by
    have hsum := (hperm.map Prod.snd).sum_eq
    rw [List.map_map, List.map_map] at hsum
    exact hsum.trans hsound.freed_eq.symm
  have hsplit := ((List.filter_append_perm deleted input.entries).map FileEntry.bytes).sum_eq
  rw [List.map_append, List.sum_append, hfreed] at hsplit
  have hleft : input.entries.filter (fun entry => !deleted entry)
      = (input.afterDeletions (input.plan parse)).entries := by
    refine List.filter_congr fun entry _ => ?_
    exact (decide_not).symm
  rw [hleft] at hsplit
  have husage : (input.afterDeletions (input.plan parse)).usage
      = ((input.afterDeletions (input.plan parse)).entries.map FileEntry.bytes).sum
        + (input.stores.map StoreUsage.bytes).sum := rfl
  have husage' : input.usage = (input.entries.map FileEntry.bytes).sum
      + (input.stores.map StoreUsage.bytes).sum := rfl
  omega

theorem saturatingAddU64_moved {usage freed : ℕ} (h : freed ≤ usage) (free : ℕ) :
    saturatingAddU64 (usage - freed) (saturatingAddU64 free freed) =
      saturatingAddU64 usage free := by
  simp only [saturatingAddU64]
  omega

/-- What deletions free leaves the budget as it is. -/
theorem afterDeletions_budget (hpaths : (input.entries.map FileEntry.path).Nodup) :
    (input.afterDeletions (input.plan parse)).budget = input.budget := by
  have hfreed : (input.selection parse).freed ≤ input.usage := selection_freed_le
  have hmoved := saturatingAddU64_moved hfreed
  rw [PlanInput.budget, PlanInput.budget, afterDeletions_usage hpaths]
  cases hdisk : input.disk with
  | none => simp only [PlanInput.afterDeletions, hdisk, Option.map_none, Storage.budget]
  | some disk =>
    simp only [PlanInput.afterDeletions, hdisk, Option.map_some, Storage.budget, plan_deletedBytes,
      hmoved disk.free]

theorem afterDeletions_free : (input.afterDeletions (input.plan parse)).free
    = input.free.map fun free => saturatingAddU64 free (input.selection parse).freed := by
  rw [PlanInput.free, PlanInput.free, PlanInput.afterDeletions, Option.map_map, Option.map_map,
    plan_deletedBytes]
  rfl

theorem afterDeletions_fits (hpaths : (input.entries.map FileEntry.path).Nodup) :
    (input.afterDeletions (input.plan parse)).fits 0
      = input.fits (input.selection parse).freed := by
  have hidle (free : ℕ) : saturatingAddU64 (saturatingAddU64 free (input.selection parse).freed) 0
      = saturatingAddU64 free (input.selection parse).freed := by
    simp only [saturatingAddU64]
    omega
  rw [PlanInput.fits, PlanInput.fits, afterDeletions_usage hpaths, afterDeletions_budget hpaths,
    afterDeletions_free, Option.map_map, Nat.sub_zero]
  simp only [Function.comp_def, hidle]

theorem afterDeletions_tier (hpaths : (input.entries.map FileEntry.path).Nodup) :
    (input.afterDeletions (input.plan parse)).tier ≤ input.tier := by
  rw [PlanInput.tier, PlanInput.tier, afterDeletions_usage hpaths, afterDeletions_budget hpaths,
    afterDeletions_free]
  refine max_le_max ?_ (budgetTier_mono (Nat.sub_le _ _))
  cases input.free with
  | none => exact le_rfl
  | some free =>
    rw [Option.map_some]
    by_cases hbounded : free ≤ u64Max
    · exact diskTier_anti (le_min (Nat.le_add_right _ _) hbounded)
    · have hfull : saturatingAddU64 free (input.selection parse).freed = u64Max :=
        min_eq_right (by omega)
      rw [hfull]
      exact Nat.zero_le _

namespace Selection

/-- A step with nothing to give up changes nothing. -/
theorem escalate_nothing {tier : Tier} {fits : ℕ → Bool} {steps : List (Tier × Category)}
    {s : Selection}
    (h : ∀ step ∈ steps, step.1 ≤ tier → fits s.freed = false →
      selected parse input step.1 (some step.2) = []) :
    escalate parse input tier fits steps s = s := by
  induction steps with
  | nil => rfl
  | cons step rest ih =>
    rw [escalate]
    split_ifs with hover hfits
    · rfl
    · rfl
    · have hnone := h step List.mem_cons_self (not_lt.mp hover) (Bool.not_eq_true _ ▸ hfits)
      rw [apply, hnone]
      exact ih fun step hstep => h step (List.mem_cons_of_mem _ hstep)

theorem selected_afterDeletions {tier : Tier} {category : Option Category}
    (h : ∀ spec ∈ families, (∀ c, category = some c → spec.category = c) →
      ∀ entry ∈ select parse (spec.ladder.at tier)
        (input.entries.filter fun entry => entry.family = spec.id) input,
        entry.path ∈ (input.selection parse).deleted.map Deletion.path) :
    selected parse (input.afterDeletions (input.plan parse)) tier category = [] := by
  refine List.eq_nil_iff_forall_not_mem.mpr fun entry hentry => ?_
  obtain ⟨spec, hspec, hcategory, hselect⟩ := mem_selected.mp hentry
  have hleft : entry ∈ (input.afterDeletions (input.plan parse)).entries :=
    (List.mem_filter.mp (mem_select hselect).1).1
  have hkept := of_decide_eq_true (List.mem_filter.mp hleft).2
  rw [PlanInput.afterDeletions, List.filter_comm] at hselect
  have hbefore := select_filter (afterDeletions_sameFacts input (input.plan parse)) _ _ _
    entry hselect
  exact hkept (mem_plan_deletedPaths.mpr (h spec hspec hcategory entry hbefore))

end Selection

/-- A pass over what the deletions of the last one left deletes nothing, under the same budget and a
tier that is no higher. -/
theorem second_pass (parse : String → Option V) (input : PlanInput)
    (hpaths : (input.entries.map FileEntry.path).Nodup) :
    let plan := input.plan parse
    let next := (input.afterDeletions plan).plan parse
    next.actions.filterMap Action.deletedPath = [] ∧ next.limit = plan.limit ∧
      next.usage = plan.usage - plan.deletedBytes ∧ next.tier ≤ plan.tier := by
  intro plan next
  refine ⟨?_, afterDeletions_budget hpaths, ?_, afterDeletions_tier hpaths⟩
  · have hnormal : Selection.selected parse (input.afterDeletions plan) .normal none = [] :=
      Selection.selected_afterDeletions fun spec hspec hcategory entry hentry =>
        selection_normal (Selection.mem_selected.mpr ⟨spec, hspec, hcategory, hentry⟩)
    have hfirst : Selection.new.apply parse (input.afterDeletions plan) .normal none = .new := by
      rw [Selection.apply, hnormal]
      rfl
    have hnone : (input.afterDeletions plan).selection parse = .new := by
      rw [PlanInput.selection, hfirst]
      refine Selection.escalate_nothing fun step hstep htier hfits => ?_
      have hbefore : input.fits (input.selection parse).freed = false := by
        rw [← afterDeletions_fits hpaths]
        exact hfits
      refine Selection.selected_afterDeletions fun spec hspec hcategory entry hentry => ?_
      have hfamily := of_decide_eq_true (List.mem_filter.mp (mem_select hentry).1).2
      have hdown : spec.category ∈ escalationOrder := by
        rw [hcategory step.2 rfl]
        exact Selection.mem_escalationSteps hstep
      exact selection_all hbefore (htier.trans (afterDeletions_tier hpaths))
        ⟨spec, hspec, hfamily.symm, .inr hdown, hentry⟩
    rw [plan_deletedPaths, hnone]
    rfl
  · rw [plan_deletedBytes]
    exact afterDeletions_usage hpaths

end

theorem second_pass_crowded :
    let plan := crowded.plan fun _ => (none : Option ℕ)
    ((crowded.afterDeletions plan).plan fun _ => (none : Option ℕ)).actions.filterMap
      Action.deletedPath = [] :=
  (second_pass _ crowded (by decide)).1

/-- A log kept at the normal tier and given up at the low one is given up at the critical one. -/
theorem select_tier_mono_logs :
    (⟨["logs", "2026-01-01.log"], .logs, 200 * mib, 0, false, false, false⟩ : FileEntry) ∈
      select (fun _ => (none : Option ℕ)) (logRetention.at .critical) crowded.entries crowded := by
  have hspec : (⟨.logs, .logs, logRetention⟩ : FamilySpec) ∈ families := by decide
  exact select_tier_mono ⟨rfl, rfl, rfl⟩ hspec (by decide) crowded.entries
    (fun entry => entry.family = .logs) _ (by decide : _ ∈ select (fun _ => (none : Option ℕ))
      (logRetention.at .low) (crowded.entries.filter fun entry => entry.family = .logs) crowded)

end ScreenerBot.Storage
