import Mathlib
import ScreenerBot.Storage.Plan

/-!
What a plan may contain: deletions only of what a retention step gives up, evictions only of what is
not protected, rewrites only of stores that may be rewritten.

What a plan frees: the bytes of its deletions and evictions, no more evictions than it takes to fit,
and everything that may go when that is not enough.
-/
namespace ScreenerBot.Storage
open Library

section

variable {V : Type} [LinearOrder V] {parse : String → Option V} {input : PlanInput}

/-- A step selects nothing but entries it may delete, and a step that keeps forever selects none. -/
theorem mem_select {keep : Keep} {entries : List FileEntry} {entry : FileEntry}
    (h : entry ∈ select parse keep entries input) :
    entry ∈ entries ∧ entry.candidate input = true ∧ keep ≠ .forever ∧
      (keep = .whileNotEmpty → entry.empty = true) := by
  have hcandidate : entry ∈ entries.filter (FileEntry.candidate input) → entry ∈ entries ∧
      entry.candidate input = true := List.mem_filter.mp
  cases keep with
  | forever => cases h
  | remove =>
    obtain ⟨hmem, hok⟩ := hcandidate h
    exact ⟨hmem, hok, by simp, by simp⟩
  | whileNotEmpty =>
    obtain ⟨h, hempty⟩ := List.mem_filter.mp h
    obtain ⟨hmem, hok⟩ := hcandidate h
    exact ⟨hmem, hok, by simp, fun _ => hempty⟩
  | downloads retention =>
    obtain ⟨hmem, hok⟩ := hcandidate (List.mem_filter.mp h).1
    exact ⟨hmem, hok, by simp, by simp⟩
  | bounded maxAge maxCount maxTotalBytes =>
    have hsorted := (spill_suffix _ _ _ _).subset h
    rw [newestFirst, mem_sortBy] at hsorted
    obtain ⟨hmem, hok⟩ := hcandidate hsorted
    exact ⟨hmem, hok, by simp, by simp⟩

namespace Selection

/-- The retention step of its family gives an entry up at a tier, and the family is one that steps
down if the tier is above normal. -/
def Due (parse : String → Option V) (input : PlanInput) (tier : Tier) (entry : FileEntry) : Prop :=
  ∃ spec ∈ families, spec.id = entry.family ∧ (tier = .normal ∨ spec.category ∈ escalationOrder) ∧
    entry ∈ select parse (spec.ladder.at tier)
      (input.entries.filter fun entry => entry.family = spec.id) input

theorem mem_selected {tier : Tier} {category : Option Category} {entry : FileEntry} :
    entry ∈ selected parse input tier category ↔
      ∃ spec ∈ families, (∀ c, category = some c → spec.category = c) ∧
        entry ∈ select parse (spec.ladder.at tier)
          (input.entries.filter fun entry => entry.family = spec.id) input := by
  rw [selected, List.mem_flatMap]
  refine exists_congr fun spec => ?_
  rw [List.mem_filter, and_assoc]
  cases category <;> simp

theorem due_of_selected {tier : Tier} {category : Option Category} {entry : FileEntry}
    (hstep : tier = .normal ∨ ∃ c ∈ escalationOrder, category = some c)
    (h : entry ∈ selected parse input tier category) : Due parse input tier entry := by
  obtain ⟨spec, hspec, hcategory, hselect⟩ := mem_selected.mp h
  obtain ⟨hmem, _⟩ := mem_select hselect
  have hfamily := of_decide_eq_true (List.mem_filter.mp hmem).2
  refine ⟨spec, hspec, hfamily.symm, ?_, hselect⟩
  obtain hnormal | ⟨c, hc, hsome⟩ := hstep
  · exact .inl hnormal
  · exact .inr (hcategory c hsome ▸ hc)

theorem Due.mem_entries {tier : Tier} {entry : FileEntry} (h : Due parse input tier entry) :
    entry ∈ input.entries := by
  obtain ⟨_, _, _, _, hselect⟩ := h
  exact (List.mem_filter.mp (mem_select hselect).1).1

/-- What holds of the deletions decided up to a tier. -/
structure Sound (parse : String → Option V) (input : PlanInput) (bound : Tier) (s : Selection) :
    Prop where
  nodup : (s.deleted.map Deletion.path).Nodup
  freed_eq : s.freed = (s.deleted.map Deletion.bytes).sum
  due : ∀ d ∈ s.deleted, d.tier ≤ bound ∧
    ∃ entry, Due parse input d.tier entry ∧ d = ⟨entry.path, entry.family, entry.bytes, d.tier⟩

variable {s : Selection} {bound tier : Tier}

theorem new_sound : Sound parse input bound new where
  nodup := List.nodup_nil
  freed_eq := rfl
  due _ hd := by cases hd

theorem insert_sound (h : Sound parse input bound s) (htier : tier ≤ bound) {entry : FileEntry}
    (hdue : Due parse input tier entry) : Sound parse input bound (s.insert tier entry) := by
  rw [insert]
  split_ifs with hmem
  · exact h
  · constructor
    · rw [List.map_append, List.map_singleton, ← List.concat_eq_append]
      exact h.nodup.concat hmem
    · rw [List.map_append, List.sum_append, ← h.freed_eq, List.map_singleton, List.sum_singleton]
    · intro d hd
      obtain hd | hd := List.mem_append.mp hd
      · exact h.due d hd
      · obtain rfl := List.mem_singleton.mp hd
        exact ⟨htier, entry, hdue, rfl⟩

theorem foldl_insert_sound {entries : List FileEntry} (h : Sound parse input bound s)
    (htier : tier ≤ bound) (hdue : ∀ entry ∈ entries, Due parse input tier entry) :
    Sound parse input bound (entries.foldl (insert tier) s) := by
  induction entries generalizing s with
  | nil => exact h
  | cons entry entries ih =>
    exact ih (insert_sound h htier (hdue entry List.mem_cons_self))
      fun other hother => hdue other (List.mem_cons_of_mem entry hother)

theorem apply_sound {category : Option Category} (h : Sound parse input bound s)
    (htier : tier ≤ bound)
    (hstep : tier = .normal ∨ ∃ c ∈ escalationOrder, category = some c) :
    Sound parse input bound (s.apply parse input tier category) :=
  foldl_insert_sound h htier fun _ hentry => due_of_selected hstep hentry

theorem escalate_sound {fits : ℕ → Bool} {steps : List (Tier × Category)}
    (hsteps : ∀ step ∈ steps, step.2 ∈ escalationOrder) (h : Sound parse input bound s) :
    Sound parse input bound (escalate parse input bound fits steps s) := by
  induction steps generalizing s with
  | nil => exact h
  | cons step rest ih =>
    obtain ⟨tier, category⟩ := step
    rw [escalate]
    split_ifs with hover
    · exact h
    · exact h
    · apply ih fun other hother => hsteps other (List.mem_cons_of_mem _ hother)
      exact apply_sound h (not_lt.mp hover)
        (.inr ⟨category, hsteps (tier, category) List.mem_cons_self, rfl⟩)

theorem mem_escalationSteps {step : Tier × Category} (h : step ∈ escalationSteps) :
    step.2 ∈ escalationOrder := by
  obtain ⟨tier, _, hstep⟩ := List.mem_flatMap.mp h
  obtain ⟨category, hcategory, rfl⟩ := List.mem_map.mp hstep
  exact hcategory

end Selection

theorem selection_sound : Selection.Sound parse input input.tier (input.selection parse) := by
  have hnormal : Tier.normal ≤ input.tier := Nat.zero_le _
  exact Selection.escalate_sound (fun _ => Selection.mem_escalationSteps)
    (Selection.apply_sound Selection.new_sound hnormal (.inl rfl))

theorem mem_of_maxByKey {α : Type} {key : α → ℕ} {l : List α} {a : α}
    (h : maxByKey key l = some a) :
    a ∈ l := by
  induction l generalizing a with
  | nil => cases h
  | cons b l ih =>
    rw [maxByKey] at h
    cases hrest : maxByKey key l with
    | none =>
      rw [hrest] at h
      obtain rfl := Option.some.inj h
      exact List.mem_cons_self
    | some c =>
      rw [hrest] at h
      simp only at h
      split_ifs at h
      · obtain rfl := Option.some.inj h
        exact List.mem_cons_of_mem b (ih hrest)
      · obtain rfl := Option.some.inj h
        exact List.mem_cons_self

/-- Whether a pass may take a step. -/
def Allowed (parse : String → Option V) (input : PlanInput) (evictions : List Evictable) :
    Action → Prop
  | .delete path family bytes step =>
    step ≤ input.tier ∧ ∃ entry ∈ input.entries,
      entry.path = path ∧ entry.family = family ∧ entry.bytes = bytes ∧
      entry.isSymlink = false ∧ (entry.isDir = true → entry.empty = true) ∧
      input.activeLog ≠ some path ∧ Selection.Due parse input step entry ∧
      ∀ spec ∈ families, spec.id = family → spec.ladder.at step ≠ .forever
  | .evict store path unit bytes =>
    ∃ e ∈ input.evictables, e.protection = none ∧ e.action = .evict store path unit bytes
  | .checkpoint store path =>
    ∃ u ∈ input.stores, u.spec.id = store ∧ u.path = path ∧ 0 < u.walBytes
  | .convertToIncremental store path =>
    input.compactionDue = true ∧ ∃ u ∈ input.stores, u.spec.id = store ∧ u.path = path ∧
      u.spec.compaction = .incremental ∧ u.incremental = false ∧ u.liveBytes ≤ rebuildMaxLiveBytes
  | .reclaim store path =>
    ∃ u ∈ input.stores, u.spec.id = store ∧ u.path = path ∧ u.spec.compaction = .incremental ∧
      (input.compactionDue = true ∧ worthCompacting u = true ∨
        u.incremental = true ∧ ∃ e ∈ evictions, e.path = u.path)

theorem families_unique : (families.map FamilySpec.id).Nodup := by decide

theorem spec_unique {spec spec' : FamilySpec} (h : spec ∈ families) (h' : spec' ∈ families)
    (hid : spec.id = spec'.id) : spec = spec' :=
  List.inj_on_of_nodup_map families_unique h h' hid

theorem deletion_allowed {d : Deletion} (evictions : List Evictable)
    (h : d ∈ (input.selection parse).deleted) : Allowed parse input evictions d.action := by
  obtain ⟨htier, entry, hdue, hd⟩ := selection_sound.due d h
  rw [hd]
  obtain ⟨spec, hspec, hid, _, hselect⟩ := id hdue
  obtain ⟨_, hcandidate, hforever, _⟩ := mem_select hselect
  simp only [FileEntry.candidate, Bool.and_eq_true, Bool.or_eq_true, Bool.not_eq_true', bne_iff_ne,
    ne_eq] at hcandidate
  obtain ⟨⟨hsymlink, hdir⟩, hlog⟩ := hcandidate
  refine ⟨htier, entry, hdue.mem_entries, rfl, rfl, rfl, hsymlink, fun hisDir => ?_, hlog, hdue, ?_⟩
  · exact hdir.resolve_left fun hnot => by rw [hisDir] at hnot; cases hnot
  · intro other hother hfamily
    rw [spec_unique hother hspec (hfamily.trans hid.symm)]
    exact hforever

/-- The operations a pass takes on its stores whatever it evicts. -/
theorem mem_storeActions {stores : List StoreUsage} {compactionDue : Bool} {action : Action}
    (h : action ∈ storeActions stores compactionDue) :
    (∃ u ∈ stores, action = .checkpoint u.spec.id u.path ∧ 0 < u.walBytes) ∨
    (compactionDue = true ∧ ∃ u ∈ stores, action = .convertToIncremental u.spec.id u.path ∧
      u.spec.compaction = .incremental ∧ u.incremental = false ∧
        u.liveBytes ≤ rebuildMaxLiveBytes) ∨
    (compactionDue = true ∧ ∃ u ∈ stores, action = .reclaim u.spec.id u.path ∧
      u.spec.compaction = .incremental ∧ worthCompacting u = true) := by
  have hcheckpoint : action ∈ (stores.filter fun store => store.walBytes > 0).map
      (fun store => Action.checkpoint store.spec.id store.path) →
      ∃ u ∈ stores, action = .checkpoint u.spec.id u.path ∧ 0 < u.walBytes := by
    intro haction
    obtain ⟨store, hstore, rfl⟩ := List.mem_map.mp haction
    obtain ⟨hstore, hwal⟩ := List.mem_filter.mp hstore
    exact ⟨store, hstore, rfl, of_decide_eq_true hwal⟩
  rw [storeActions] at h
  split_ifs at h with hdue
  · exact .inl (hcheckpoint h)
  · rw [Bool.not_eq_true, Bool.not_eq_false'] at hdue
    dsimp only at h
    split at h
    next store hconvert =>
      obtain h | h := List.mem_append.mp h
      · exact .inl (hcheckpoint h)
      · obtain rfl := List.mem_singleton.mp h
        have hmem := mem_of_maxByKey hconvert
        simp only [List.mem_filter, Bool.and_eq_true, Bool.not_eq_true', decide_eq_true_iff] at hmem
        obtain ⟨⟨hstore, hcompaction, _⟩, hincremental, hlive⟩ := hmem
        exact .inr (.inl ⟨hdue, store, hstore, rfl, hcompaction, hincremental, hlive⟩)
    next =>
      split at h
      next store hreclaim =>
        obtain h | h := List.mem_append.mp h
        · exact .inl (hcheckpoint h)
        · obtain rfl := List.mem_singleton.mp h
          have hmem := mem_of_maxByKey hreclaim
          simp only [List.mem_filter, Bool.and_eq_true, decide_eq_true_iff] at hmem
          obtain ⟨⟨hstore, hcompaction, _⟩, hworth⟩ := hmem
          exact .inr (.inr ⟨hdue, store, hstore, rfl, hcompaction, hworth⟩)
      next => exact .inl (hcheckpoint h)

/-- Evictions add to the operations the reclaim of stores that lost a unit. -/
theorem mem_reclaimEvicted {actions operations : List Action} {stores : List StoreUsage}
    {action : Action} (h : action ∈ stores.foldl (reclaimEvicted actions) operations) :
    action ∈ operations ∨ ∃ u ∈ stores, action = .reclaim u.spec.id u.path ∧
      actions.any (Action.evicts u.path) = true ∧ u.spec.compaction = .incremental ∧
      u.incremental = true := by
  induction stores generalizing operations with
  | nil => exact .inl h
  | cons store stores ih =>
    obtain h | ⟨u, hu, hrest⟩ := ih h
    · rw [reclaimEvicted] at h
      split_ifs at h with hlost
      · obtain h | h := List.mem_append.mp h
        · exact .inl h
        · simp only [Bool.and_eq_true, decide_eq_true_iff] at hlost
          obtain ⟨⟨⟨hevicted, _⟩, hcompaction⟩, hincremental⟩ := hlost
          exact .inr ⟨store, List.mem_cons_self, List.mem_singleton.mp h, hevicted, hcompaction,
            hincremental⟩
      · exact .inl h
    · exact .inr ⟨u, List.mem_cons_of_mem store hu, hrest⟩

/-- What the deletions and evictions of a plan are, in order. -/
def PlanInput.removals (parse : String → Option V) (input : PlanInput) : List Action :=
  (sortBy Deletion.path (input.selection parse).deleted).map Deletion.action ++
    (input.evicted (input.selection parse).freed).map Evictable.action

theorem removals_evict {path : FilePath}
    (h : (input.removals parse).any (Action.evicts path) = true) :
    ∃ e ∈ input.evicted (input.selection parse).freed, e.path = path := by
  obtain ⟨action, haction, hevicts⟩ := List.any_eq_true.mp h
  obtain haction | haction := List.mem_append.mp haction
  · obtain ⟨d, _, rfl⟩ := List.mem_map.mp haction
    cases hevicts
  · obtain ⟨e, he, rfl⟩ := List.mem_map.mp haction
    exact ⟨e, he, of_decide_eq_true hevicts⟩

theorem mem_evictionOrder {e : Evictable} (h : e ∈ evictionOrder input.evictables) :
    e ∈ input.evictables ∧ e.protection = none := by
  rw [evictionOrder, mem_sortBy, List.mem_filter, Option.isNone_iff_eq_none] at h
  exact h

/-- The store operations of a plan. -/
def PlanInput.operations (parse : String → Option V) (input : PlanInput) : List Action :=
  input.stores.foldl (reclaimEvicted (input.removals parse))
    (storeActions input.stores input.compactionDue)

theorem plan_actions :
    (input.plan parse).actions = input.removals parse ++ input.operations parse := rfl

/-- An operation on a store is a checkpoint, a conversion or a reclaim. -/
theorem operation_kind {action : Action} (h : action ∈ input.operations parse) :
    (∃ store path, action = .checkpoint store path) ∨
      (∃ store path, action = .convertToIncremental store path) ∨
        ∃ store path, action = .reclaim store path := by
  obtain h | ⟨u, _, h, _⟩ := mem_reclaimEvicted h
  · obtain ⟨u, _, h, _⟩ | ⟨_, u, _, h, _⟩ | ⟨_, u, _, h, _⟩ := mem_storeActions h
    · exact .inl ⟨_, _, h⟩
    · exact .inr (.inl ⟨_, _, h⟩)
    · exact .inr (.inr ⟨_, _, h⟩)
  · exact .inr (.inr ⟨_, _, h⟩)

theorem operation_deletedPath {action : Action} (h : action ∈ input.operations parse) :
    action.deletedPath = none := by
  obtain ⟨_, _, rfl⟩ | ⟨_, _, rfl⟩ | ⟨_, _, rfl⟩ := operation_kind h
  all_goals rfl

theorem operation_allowed {action : Action} (h : action ∈ input.operations parse) :
    Allowed parse input (input.evicted (input.selection parse).freed) action := by
  obtain h | ⟨u, hu, rfl, hevicted, hcompaction, hincremental⟩ := mem_reclaimEvicted h
  · obtain ⟨u, hu, rfl, hwal⟩ | ⟨hdue, u, hu, rfl, hcompaction, hincremental, hlive⟩ |
      ⟨hdue, u, hu, rfl, hcompaction, hworth⟩ := mem_storeActions h
    · exact ⟨u, hu, rfl, rfl, hwal⟩
    · exact ⟨hdue, u, hu, rfl, rfl, hcompaction, hincremental, hlive⟩
    · exact ⟨u, hu, rfl, rfl, hcompaction, .inl ⟨hdue, hworth⟩⟩
  · exact ⟨u, hu, rfl, rfl, hcompaction, .inr ⟨hincremental, removals_evict hevicted⟩⟩

theorem plan_deletedPaths : (input.plan parse).actions.filterMap Action.deletedPath
    = (sortBy Deletion.path (input.selection parse).deleted).map Deletion.path := by
  have hoperations : (input.operations parse).filterMap Action.deletedPath = [] :=
    List.filterMap_eq_nil_iff.mpr fun _ => operation_deletedPath
  have hevictions : ((input.evicted (input.selection parse).freed).map Evictable.action).filterMap
      Action.deletedPath = [] := by
    rw [List.filterMap_map]
    exact List.filterMap_eq_nil_iff.mpr fun e _ => rfl
  have hdeletions : ((sortBy Deletion.path (input.selection parse).deleted).map
      Deletion.action).filterMap Action.deletedPath
        = (sortBy Deletion.path (input.selection parse).deleted).map Deletion.path := by
    rw [List.filterMap_map]
    exact congrFun List.filterMap_eq_map _
  rw [plan_actions, List.filterMap_append, hoperations, List.append_nil, PlanInput.removals,
    List.filterMap_append, hevictions, List.append_nil, hdeletions]

theorem mem_plan_deletedPaths {path : FilePath} :
    path ∈ (input.plan parse).actions.filterMap Action.deletedPath ↔
      path ∈ (input.selection parse).deleted.map Deletion.path := by
  rw [plan_deletedPaths]
  exact ((sortBy_perm Deletion.path _).map Deletion.path).mem_iff

/-- A pass takes only steps it may take, and deletes no path twice. -/
theorem plan_allowed (parse : String → Option V) (input : PlanInput) :
    (∀ action ∈ (input.plan parse).actions,
      Allowed parse input (input.evicted (input.selection parse).freed) action) ∧
    ((input.plan parse).actions.filterMap Action.deletedPath).Nodup := by
  constructor
  · intro action haction
    rw [plan_actions] at haction
    obtain haction | haction := List.mem_append.mp haction
    · obtain haction | haction := List.mem_append.mp haction
      · obtain ⟨d, hd, rfl⟩ := List.mem_map.mp haction
        exact deletion_allowed _ ((mem_sortBy _ _ d).mp hd)
      · obtain ⟨e, he, rfl⟩ := List.mem_map.mp haction
        obtain ⟨hmem, hprotection⟩ := mem_evictionOrder ((takeUntil_initial _ _ _ _).subset he)
        exact ⟨e, hmem, hprotection, rfl⟩
    · exact operation_allowed haction
  · rw [plan_deletedPaths]
    exact ((sortBy_perm _ _).map _).nodup_iff.mpr selection_sound.nodup

end

section

variable {V : Type} [LinearOrder V] {parse : String → Option V} {input : PlanInput}

theorem diskTier_anti {free free' : ℕ} (h : free ≤ free') :
    diskTier (some free') ≤ diskTier (some free) := by
  have hbounds : criticalFreeBytes ≤ lowFreeBytes := by decide
  simp only [diskTier]
  split_ifs
  all_goals first | exact le_rfl | exact Nat.zero_le _ | omega | decide

theorem budgetTier_mono {usage usage' limit : ℕ} (h : usage ≤ usage') :
    budgetTier usage limit ≤ budgetTier usage' limit := by
  simp only [budgetTier]
  split_ifs
  all_goals first | exact le_rfl | exact Nat.zero_le _ | omega | decide

/-- Usage that fits still fits when more goes. -/
theorem fits_mono {freed freed' : ℕ} (h : freed ≤ freed') (hfits : input.fits freed = true) :
    input.fits freed' = true := by
  simp only [PlanInput.fits, Bool.and_eq_true, decide_eq_true_iff] at hfits ⊢
  obtain ⟨husage, hdisk⟩ := hfits
  refine ⟨(Nat.sub_le_sub_left h _).trans husage, ?_⟩
  cases hfree : input.free with
  | none => rfl
  | some free =>
    rw [hfree, Option.map_some] at hdisk
    have hmore : saturatingAddU64 free freed ≤ saturatingAddU64 free freed' :=
      min_le_min (Nat.add_le_add_left h free) le_rfl
    exact le_antisymm (hdisk ▸ diskTier_anti hmore) (Nat.zero_le _)

namespace Selection
variable {s : Selection} {tier : Tier}

theorem mem_insert_paths {entry : FileEntry} {path : FilePath} :
    path ∈ (s.insert tier entry).deleted.map Deletion.path ↔
      path ∈ s.deleted.map Deletion.path ∨ path = entry.path := by
  rw [insert]
  split_ifs with hmem
  · exact ⟨.inl, fun h => h.elim id fun he => he ▸ hmem⟩
  · rw [List.map_append, List.mem_append, List.map_singleton, List.mem_singleton]

theorem mem_foldl_insert_paths {entries : List FileEntry} {path : FilePath} :
    path ∈ (entries.foldl (insert tier) s).deleted.map Deletion.path ↔
      path ∈ s.deleted.map Deletion.path ∨ path ∈ entries.map FileEntry.path := by
  induction entries generalizing s with
  | nil => simp
  | cons entry entries ih =>
    rw [List.foldl_cons, ih, mem_insert_paths, List.map_cons, List.mem_cons, or_assoc]

theorem mem_apply_paths {category : Option Category} {path : FilePath} :
    path ∈ (s.apply parse input tier category).deleted.map Deletion.path ↔
      path ∈ s.deleted.map Deletion.path ∨
        path ∈ (selected parse input tier category).map FileEntry.path :=
  mem_foldl_insert_paths

theorem escalate_keeps {fits : ℕ → Bool} {steps : List (Tier × Category)} {path : FilePath}
    (h : path ∈ s.deleted.map Deletion.path) :
    path ∈ (escalate parse input tier fits steps s).deleted.map Deletion.path := by
  induction steps generalizing s with
  | nil => exact h
  | cons step rest ih =>
    rw [escalate]
    split_ifs
    · exact h
    · exact h
    · exact ih (mem_apply_paths.mpr (.inl h))

/-- What does not fit after the escalation went through every step up to the tier. -/
theorem escalate_all {fits : ℕ → Bool} {steps : List (Tier × Category)}
    (hsteps : steps.Pairwise fun a b => a.1 ≤ b.1)
    (hfits : fits (escalate parse input tier fits steps s).freed = false) :
    ∀ step ∈ steps, step.1 ≤ tier → ∀ entry ∈ selected parse input step.1 (some step.2),
      entry.path ∈ (escalate parse input tier fits steps s).deleted.map Deletion.path := by
  induction steps generalizing s with
  | nil => exact fun step hstep => absurd hstep List.not_mem_nil
  | cons first rest ih =>
    obtain ⟨hfirst, hrest⟩ := List.pairwise_cons.mp hsteps
    intro step hstep htier entry hentry
    rw [escalate] at hfits ⊢
    split_ifs at hfits ⊢ with hover hnow
    · have hle : first.1 ≤ step.1 := by
        obtain rfl | hstep := List.mem_cons.mp hstep
        · exact le_rfl
        · exact hfirst step hstep
      exact absurd (hle.trans htier) (not_le.mpr hover)
    · rw [hnow] at hfits
      cases hfits
    · obtain rfl | hstep := List.mem_cons.mp hstep
      · exact escalate_keeps (mem_apply_paths.mpr (.inr (List.mem_map_of_mem hentry)))
      · exact ih hrest hfits step hstep htier entry hentry

end Selection

theorem escalationSteps_sorted : escalationSteps.Pairwise fun a b => a.1 ≤ b.1 := by decide

theorem selection_normal {entry : FileEntry}
    (h : entry ∈ Selection.selected parse input .normal none) :
    entry.path ∈ (input.selection parse).deleted.map Deletion.path :=
  Selection.escalate_keeps (Selection.mem_apply_paths.mpr (.inr (List.mem_map_of_mem h)))

/-- Files that do not fit are all deleted that any step up to the tier of the pass gives up. -/
theorem selection_all (hfits : input.fits (input.selection parse).freed = false) {tier : Tier}
    (htier : tier ≤ input.tier) {entry : FileEntry} (h : Selection.Due parse input tier entry) :
    entry.path ∈ (input.selection parse).deleted.map Deletion.path := by
  obtain ⟨spec, hspec, hid, hcategory, hselect⟩ := h
  obtain rfl | hcategory := hcategory
  · exact selection_normal (Selection.mem_selected.mpr ⟨spec, hspec, by simp, hselect⟩)
  · cases tier with
    | normal => exact selection_normal (Selection.mem_selected.mpr ⟨spec, hspec, by simp, hselect⟩)
    | low =>
      have hstep : (Tier.low, spec.category) ∈ escalationSteps :=
        List.mem_flatMap.mpr ⟨.low, by simp, List.mem_map_of_mem hcategory⟩
      exact Selection.escalate_all escalationSteps_sorted hfits _ hstep htier entry
        (Selection.mem_selected.mpr ⟨spec, hspec, by simp, hselect⟩)
    | critical =>
      have hstep : (Tier.critical, spec.category) ∈ escalationSteps :=
        List.mem_flatMap.mpr ⟨.critical, by simp, List.mem_map_of_mem hcategory⟩
      exact Selection.escalate_all escalationSteps_sorted hfits _ hstep htier entry
        (Selection.mem_selected.mpr ⟨spec, hspec, by simp, hselect⟩)

/-- No more is freed by deletions than the entries take. -/
theorem selection_freed_le : (input.selection parse).freed ≤ input.usage := by
  have hsound : Selection.Sound parse input input.tier (input.selection parse) := selection_sound
  have hsub : ((input.selection parse).deleted.map fun d => (d.path, d.bytes)).Subperm
      (input.entries.map fun entry => (entry.path, entry.bytes)) := by
    apply List.Nodup.subperm
    · apply List.Nodup.of_map Prod.fst
      rw [List.map_map]
      exact hsound.nodup
    · intro pair hpair
      obtain ⟨d, hd, rfl⟩ := List.mem_map.mp hpair
      obtain ⟨_, entry, hdue, he⟩ := hsound.due d hd
      rw [he]
      exact List.mem_map_of_mem hdue.mem_entries
  obtain ⟨kept, hperm, hsublist⟩ := hsub
  have hfreed : (kept.map Prod.snd).sum = (input.selection parse).freed := by
    rw [(hperm.map Prod.snd).sum_eq, List.map_map, hsound.freed_eq]
    rfl
  have hle : (kept.map Prod.snd).sum ≤ (input.entries.map FileEntry.bytes).sum := by
    have hentries : (input.entries.map fun entry => (entry.path, entry.bytes)).map Prod.snd
        = input.entries.map FileEntry.bytes := List.map_map
    rw [← hentries]
    exact (hsublist.map Prod.snd).sum_le_sum fun n _ => Nat.zero_le n
  exact hfreed ▸ hle.trans (Nat.le_add_right _ _)

/-- The figures of a plan are those of its actions. -/
theorem removals_freed : ((input.removals parse).map Action.freed).sum
    = (input.selection parse).freed
      + ((input.evicted (input.selection parse).freed).map Evictable.bytes).sum := by
  have hsound : Selection.Sound parse input input.tier (input.selection parse) := selection_sound
  have hdeletions : (((sortBy Deletion.path (input.selection parse).deleted).map
      Deletion.action).map Action.freed).sum = (input.selection parse).freed := by
    rw [List.map_map, hsound.freed_eq]
    exact ((sortBy_perm Deletion.path _).map _).sum_eq
  rw [PlanInput.removals, List.map_append, List.sum_append, hdeletions, List.map_map]
  rfl

theorem operation_freed {action : Action} (h : action ∈ input.operations parse) :
    action.freed = 0 ∧ action.isEviction = false := by
  obtain ⟨_, _, rfl⟩ | ⟨_, _, rfl⟩ | ⟨_, _, rfl⟩ := operation_kind h
  all_goals exact ⟨rfl, rfl⟩

theorem actions_freed : ((input.plan parse).actions.map Action.freed).sum
    = (input.selection parse).freed
      + ((input.evicted (input.selection parse).freed).map Evictable.bytes).sum := by
  have hoperations : ((input.operations parse).map Action.freed).sum = 0 := by
    rw [List.sum_eq_zero_iff]
    intro n hn
    obtain ⟨action, haction, rfl⟩ := List.mem_map.mp hn
    exact (operation_freed haction).1
  rw [plan_actions, List.map_append, List.sum_append, hoperations, Nat.add_zero, removals_freed]

theorem plan_evictions : (input.plan parse).actions.filter Action.isEviction
    = (input.evicted (input.selection parse).freed).map Evictable.action := by
  have hoperations : (input.operations parse).filter Action.isEviction = [] :=
    List.filter_eq_nil_iff.mpr fun action haction => by simp [(operation_freed haction).2]
  have hdeletions : ((sortBy Deletion.path (input.selection parse).deleted).map
      Deletion.action).filter Action.isEviction = [] := by
    rw [List.filter_map]
    exact List.map_eq_nil_iff.mpr (List.filter_eq_nil_iff.mpr fun d _ => Bool.false_ne_true)
  have hevictions : ((input.evicted (input.selection parse).freed).map Evictable.action).filter
      Action.isEviction = (input.evicted (input.selection parse).freed).map Evictable.action := by
    refine List.filter_eq_self.mpr fun action haction => ?_
    obtain ⟨e, _, rfl⟩ := List.mem_map.mp haction
    rfl
  rw [plan_actions, List.filter_append, hoperations, List.append_nil, PlanInput.removals,
    List.filter_append, hdeletions, List.nil_append, hevictions]

theorem plan_deletedBytes : (input.plan parse).deletedBytes = (input.selection parse).freed := by
  have hsplit := (List.filter_append_perm Action.isEviction (input.plan parse).actions).map
    Action.freed
  have hsum := hsplit.sum_eq
  rw [List.map_append, List.sum_append, plan_evictions, actions_freed, List.map_map] at hsum
  have hevicted : ((input.evicted (input.selection parse).freed).map
      (Action.freed ∘ Evictable.action)).sum
        = ((input.evicted (input.selection parse).freed).map Evictable.bytes).sum := rfl
  rw [hevicted, Nat.add_comm] at hsum
  exact Nat.add_right_cancel hsum

/-- The figures of a plan are those of its actions, and its deletions add up to no more than the
usage, so that 64 bits hold them where they hold the usage. It evicts what was used least recently
first, and nothing that its deletions, the free pages of the stores and the evictions before it make
up for. -/
theorem plan_accounts (parse : String → Option V) (input : PlanInput) :
    let plan := input.plan parse
    plan.projectedUsage = plan.usage - (plan.actions.map Action.freed).sum ∧
    plan.shortfall = plan.projectedUsage - plan.limit ∧ plan.deletedBytes ≤ plan.usage ∧
    plan.fits = input.fits
      (saturatingAddU64 (plan.actions.map Action.freed).sum input.reclaimable) ∧
    ∃ evicted kept, evictionOrder input.evictables = evicted ++ kept ∧
      plan.actions.filter Action.isEviction = evicted.map Evictable.action ∧
      (∀ e ∈ evicted, ∀ k ∈ kept, e.lastUsed ≤ k.lastUsed) ∧
      (∀ before e after, evicted = before ++ e :: after → input.fits (saturatingAddU64
        (plan.deletedBytes + (before.map Evictable.bytes).sum) input.reclaimable) = false) ∧
      (plan.fits = false → kept = []) := by
  intro plan
  have hfits : plan.fits = input.fits
      (saturatingAddU64 (plan.actions.map Action.freed).sum input.reclaimable) := by
    rw [actions_freed]
    rfl
  refine ⟨?_, rfl, ?_, hfits, ?_⟩
  · rw [actions_freed]
    rfl
  · rw [plan_deletedBytes]
    exact selection_freed_le
  · obtain ⟨kept, hkept⟩ := takeUntil_initial
      (fun freed => input.fits (saturatingAddU64 freed input.reclaimable)) Evictable.bytes
      (input.selection parse).freed (evictionOrder input.evictables)
    refine ⟨_, kept, hkept.symm, plan_evictions, ?_, ?_, ?_⟩
    · intro e he k hk
      have hsorted : (evictionOrder input.evictables).Pairwise fun a b =>
          toLex (a.lastUsed, toLex (a.path, a.bytes)) ≤
            toLex (b.lastUsed, toLex (b.path, b.bytes)) :=
        sortBy_sorted _ _
      rw [← hkept] at hsorted
      have hle := (List.pairwise_append.mp hsorted).2.2 e he k hk
      obtain hlt | ⟨heq, _⟩ := Prod.Lex.toLex_le_toLex.mp hle
      · exact hlt.le
      · exact heq.le
    · intro before e after he
      rw [plan_deletedBytes]
      exact takeUntil_needed he
    · intro hnot
      by_contra hleft
      have hmore : takeUntil (fun freed => input.fits (saturatingAddU64 freed input.reclaimable))
          Evictable.bytes (input.selection parse).freed (evictionOrder input.evictables)
            ≠ evictionOrder input.evictables := by
        intro hall
        rw [hall] at hkept
        exact hleft (List.append_right_eq_self.mp hkept)
      have henough := takeUntil_enough hmore
      have hplan : plan.fits = true := henough
      rw [hplan] at hnot
      cases hnot

/-- A plan after which usage does not fit deletes all that the retention steps up to its tier give
up: every family's normal step and, of the families that step down, those of the higher tiers. -/
theorem plan_exhausts (parse : String → Option V) (input : PlanInput)
    (husage : input.usage ≤ u64Max) (hfits : (input.plan parse).fits = false) {tier : Tier}
    (htier : tier ≤ (input.plan parse).tier) {entry : FileEntry}
    (hdue : Selection.Due parse input tier entry) :
    entry.path ∈ (input.plan parse).actions.filterMap Action.deletedPath := by
  have hselection : input.fits (input.selection parse).freed = false := by
    rw [← Bool.not_eq_true]
    intro henough
    have hle : (input.selection parse).freed ≤ saturatingAddU64 ((input.selection parse).freed
        + ((input.evicted (input.selection parse).freed).map Evictable.bytes).sum)
        input.reclaimable :=
      le_min (by omega) (selection_freed_le.trans husage)
    have hplan : (input.plan parse).fits = true := fits_mono hle henough
    rw [hplan] at hfits
    cases hfits
  exact mem_plan_deletedPaths.mpr (selection_all hselection htier hdue)

end

/-- A data directory far over a fixed limit: settings, a file of an older version, and a log. -/
def crowded : PlanInput where
  entries := [⟨["data", "mcp.json"], .legacyFiles, 10, 0, false, false, false⟩,
    ⟨["data", "config.toml"], .config, 20, 0, false, false, false⟩,
    ⟨["logs", "2026-01-01.log"], .logs, 200 * mib, 0, false, false, false⟩]
  stores := [⟨⟨"wallet", .checkpointOnly⟩, ["data", "wallet.db"], 1000 * mib, 0, 4096, 1, 0, false⟩]
  evictables := []
  disk := none
  limit := .fixed 0
  now := 0
  activeLog := none
  downloads := ⟨"0.1.0", none, false⟩
  compactionDue := false

theorem plan_exhausts_crowded : ["logs", "2026-01-01.log"] ∈
    (crowded.plan fun _ => (none : Option ℕ)).actions.filterMap Action.deletedPath := by
  have htier : Tier.critical ≤ (crowded.plan fun _ => (none : Option ℕ)).tier := by decide
  have hdue : Selection.Due (fun _ => (none : Option ℕ)) crowded .critical
      ⟨["logs", "2026-01-01.log"], .logs, 200 * mib, 0, false, false, false⟩ :=
    ⟨⟨.logs, .logs, logRetention⟩, by decide, rfl, .inr (by decide), by decide⟩
  exact plan_exhausts _ crowded (by decide) (by decide) htier hdue

end ScreenerBot.Storage
