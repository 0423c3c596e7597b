import ScreenerBot.Copy.Exits
import ScreenerBot.Copy.Store
import ScreenerBot.Library.Fallible
import ScreenerBot.Library.Run

/-! The tracked holdings of a target: what its deliveries apply and what each of them is
answered. -/
namespace ScreenerBot.Copy
open Library

/-- One delivery of a target's swap to a task: what it changes in the target's tokens. -/
structure Observation where
  taskId : ℤ
  signature : String
  mint : String
  tokenDelta : ℚ
  deriving DecidableEq, Repr

namespace Observation

/-- What a delivery is stored under. -/
def key (o : Observation) : ℤ × String := (o.taskId, o.signature)

/-- The change a delivery is of, whichever of its deliveries it is. -/
def change (o : Observation) : ℤ × String × String := (o.taskId, o.signature, o.mint)

theorem change_eq_iff {a o : Observation} :
    a.change = o.change ↔ a.key = o.key ∧ a.mint = o.mint := by
  simp only [change, key, Prod.mk.injEq, and_assoc]

end Observation

/-- A holding after a change of its target's tokens. -/
def changed (holding tokenDelta : ℚ) : ℚ :=
  if tokenDelta = 0 then holding else max 0 (Binary64.add holding tokenDelta)

/-- What the changes of a task's mint among `os` leave of a holding. -/
def settled (taskId : ℤ) (mint : String) (os : List Observation) (holding : ℚ) : ℚ :=
  ((os.filter fun o => o.taskId == taskId && o.mint == mint).map (·.tokenDelta)).foldl
    changed holding

namespace CopyStore

/-- The store after a delivery. -/
def observe (db : CopyStore) (o : Observation) : CopyStore :=
  match db.observeTargetInventory o.taskId o.signature o.mint o.tokenDelta with
  | .ok (_, db') => db'
  | .error _ => db

/-- The holding a delivery is answered with. -/
def holdingBefore (db : CopyStore) (o : Observation) : Except CopyError ℚ :=
  (db.observeTargetInventory o.taskId o.signature o.mint o.tokenDelta).map Prod.fst

/-- Whether a delivery changes the store. -/
def applies (db : CopyStore) (o : Observation) : Bool :=
  (db.tasks.lookup o.taskId).isSome && (db.events.lookup o.key).isNone

/-- The deliveries change each of their changes exactly once, and every delivery of a change is
answered alike. -/
def Tracks (db : CopyStore) (os : List Observation) : Prop :=
  (∀ o ∈ os, (taken observe applies db os).countP (fun a => a.change == o.change) = 1) ∧
    ∀ before o between o' after, os = before ++ o :: (between ++ o' :: after) →
      o'.change = o.change →
      ((before ++ o :: between).foldl observe db).holdingBefore o' =
        (before.foldl observe db).holdingBefore o

section Delivery

variable {db : CopyStore} {o : Observation}

theorem observe_of_applies (h : db.applies o = true) :
    db.observe o = ({ db with events := db.events.insert o.key ⟨o.mint, o.tokenDelta⟩ } :
      CopyStore).updateTargetHolding o.taskId o.mint o.tokenDelta := by
  obtain ⟨hstored, hnew⟩ := Bool.and_eq_true_iff.mp h
  rw [Option.isNone_iff_eq_none] at hnew
  simp only [observe, observeTargetInventory, references, hstored, if_true]
  rw [show db.events.lookup (o.taskId, o.signature) = none from hnew]
  rfl

theorem observe_of_not_applies (h : db.applies o = false) : db.observe o = db := by
  simp only [observe, observeTargetInventory, references]
  by_cases hstored : (db.tasks.lookup o.taskId).isSome = true
  · rw [if_pos hstored]
    cases hevent : db.events.lookup (o.taskId, o.signature) with
    | none =>
      have happlies : db.applies o = true := by
        rw [applies, hstored, Observation.key, hevent]
        rfl
      rw [h] at happlies
      cases happlies
    | some event => rfl
  · rw [if_neg hstored]
    rfl

theorem holdingBefore_stored (h : (db.tasks.lookup o.taskId).isSome) :
    db.holdingBefore o = .ok (db.targetHolding o.taskId o.mint) := by
  simp only [holdingBefore, observeTargetInventory, references, h, if_true]
  cases db.events.lookup (o.taskId, o.signature) <;> rfl

theorem observe_tasks : (db.observe o).tasks = db.tasks := by
  cases h : db.applies o with
  | false => rw [observe_of_not_applies h]
  | true =>
    rw [observe_of_applies h, updateTargetHolding]
    split <;> rfl

theorem observe_events_iff (h : (db.tasks.lookup o.taskId).isSome) (key : ℤ × String) :
    ((db.observe o).events.lookup key).isSome ↔ (db.events.lookup key).isSome ∨ key = o.key := by
  cases happlies : db.applies o with
  | false =>
    have hseen : (db.events.lookup o.key).isSome := by
      rw [applies, h, Bool.true_and, Option.isNone_eq_false_iff] at happlies
      exact happlies
    rw [observe_of_not_applies happlies, or_iff_left_of_imp]
    rintro rfl
    exact hseen
  | true =>
    have hevents : (db.observe o).events = db.events.insert o.key ⟨o.mint, o.tokenDelta⟩ := by
      rw [observe_of_applies happlies, updateTargetHolding]
      split <;> rfl
    rw [hevents]
    by_cases hkey : key = o.key
    · subst hkey
      simp
    · simp [AList.lookup_insert_ne hkey, hkey]

theorem targetHolding_update (taskId : ℤ) (mint : String) (delta : ℚ) (taskId' : ℤ)
    (mint' : String) :
    (db.updateTargetHolding taskId mint delta).targetHolding taskId' mint' =
      if taskId = taskId' ∧ mint = mint' then changed (db.targetHolding taskId mint) delta
      else db.targetHolding taskId' mint' := by
  unfold updateTargetHolding changed
  by_cases hzero : delta = 0
  · rw [if_pos hzero, if_pos hzero]
    split
    next heq => rw [heq.1, heq.2]
    next => rfl
  · rw [if_neg hzero, if_neg hzero]
    split
    next heq =>
      obtain ⟨rfl, rfl⟩ := heq
      simp [targetHolding]
    next hne =>
      have hkey : (taskId', mint') ≠ (taskId, mint) := by
        rintro heq
        cases heq
        exact hne ⟨rfl, rfl⟩
      simp [targetHolding, AList.lookup_insert_ne hkey]

/-- A delivery that applies changes the holding of its own task and mint only. -/
theorem observe_holding (h : db.applies o = true) (taskId : ℤ) (mint : String) :
    (db.observe o).targetHolding taskId mint =
      settled taskId mint [o] (db.targetHolding taskId mint) := by
  rw [observe_of_applies h, targetHolding_update]
  unfold settled
  by_cases hsame : o.taskId = taskId ∧ o.mint = mint
  · obtain ⟨rfl, rfl⟩ := hsame
    simp [targetHolding]
  · rw [if_neg hsame, List.filter_cons_of_neg (by simpa using hsame)]
    rfl

end Delivery

theorem settled_cons (taskId : ℤ) (mint : String) (o : Observation)
    (os : List Observation) (h : ℚ) :
    settled taskId mint (o :: os) h = settled taskId mint os (settled taskId mint [o] h) := by
  unfold settled
  rw [List.filter_cons, List.filter_cons, List.filter_nil]
  split <;> rfl

/-- The deliveries of a run to stored tasks, from a store that has the events of `seen`: those that
apply are the first of each key, every key is known afterwards, and the holdings follow. -/
theorem observed_run : ∀ (os : List Observation) (seen : List (ℤ × String)) (db : CopyStore),
    (∀ o ∈ os, (db.tasks.lookup o.taskId).isSome) →
    (∀ key, (db.events.lookup key).isSome ↔ key ∈ seen) →
      taken observe applies db os = keepFirst Observation.key seen os ∧
      (os.foldl observe db).tasks = db.tasks ∧
      (∀ key, ((os.foldl observe db).events.lookup key).isSome ↔ key ∈ os.map (·.key) ++ seen) ∧
      ∀ taskId mint, (os.foldl observe db).targetHolding taskId mint =
        settled taskId mint (keepFirst Observation.key seen os) (db.targetHolding taskId mint)
  | [], seen, db, _, hseen => ⟨rfl, rfl, hseen, fun _ _ => rfl⟩
  | o :: os, seen, db, hstored, hseen => by
    have ho := hstored o List.mem_cons_self
    have hstored' : ∀ o' ∈ os, ((db.observe o).tasks.lookup o'.taskId).isSome := by
      intro o' ho'
      rw [observe_tasks]
      exact hstored o' (List.mem_cons_of_mem o ho')
    have happlies : db.applies o = true ↔ o.key ∉ seen := by
      rw [applies, ho, Bool.true_and, Option.isNone_iff_eq_none, ← hseen,
        Option.not_isSome_iff_eq_none]
    by_cases hkey : o.key ∈ seen
    · have hidle : db.applies o = false := by
        rw [← Bool.not_eq_true, happlies]
        exact not_not_intro hkey
      obtain ⟨htaken, htasks, hevents, hholding⟩ := observed_run os seen (db.observe o) hstored'
        (by rw [observe_of_not_applies hidle]; exact hseen)
      rw [observe_of_not_applies hidle] at htaken htasks hevents hholding
      rw [taken, hidle, if_neg Bool.false_ne_true, List.foldl_cons, observe_of_not_applies hidle,
        keepFirst, if_pos hkey]
      refine ⟨htaken, htasks, fun key => ?_, hholding⟩
      rw [hevents, List.map_cons, List.cons_append, List.mem_cons, or_iff_right_of_imp]
      rintro rfl
      exact List.mem_append_right _ hkey
    · have hfirst := happlies.mpr hkey
      obtain ⟨htaken, htasks, hevents, hholding⟩ := observed_run os (o.key :: seen) (db.observe o)
        hstored' fun key => by
          rw [observe_events_iff ho, hseen, List.mem_cons, or_comm]
      rw [taken, hfirst, if_pos rfl, List.foldl_cons, keepFirst, if_neg hkey]
      refine ⟨by rw [htaken], htasks.trans observe_tasks, fun key => ?_, fun taskId mint => ?_⟩
      · rw [hevents, List.map_cons, List.cons_append, List.mem_append, List.mem_cons, List.mem_cons,
          List.mem_append, or_left_comm]
      · rw [hholding, observe_holding hfirst, ← settled_cons]

/-- No task and signature come with two mints. -/
def OneMint (os : List Observation) : Prop :=
  ∀ o ∈ os, ∀ o' ∈ os, o'.key = o.key → o'.mint = o.mint

instance : DecidablePred OneMint := fun os =>
  inferInstanceAs (Decidable (∀ o ∈ os, ∀ o' ∈ os, o'.key = o.key → o'.mint = o.mint))

/-- The changes that apply from the delivery `o` up to its redelivery cancel out in the holding it
found. -/
def CancelOut (db : CopyStore) (before : List Observation) (o : Observation)
    (between : List Observation) : Prop :=
  let found := settled o.taskId o.mint (keepFirst Observation.key [] before)
    (db.targetHolding o.taskId o.mint)
  settled o.taskId o.mint (keepFirst Observation.key (before.map (·.key)) (o :: between))
    found = found

/-- Deliveries apply each of their changes once exactly where a signature brings one mint. -/
theorem applied_once_iff (os : List Observation) :
    (∀ o ∈ os, (keepFirst Observation.key [] os).countP (fun a => a.change == o.change) = 1) ↔
      OneMint os := by
  have hnodup : ((keepFirst Observation.key [] os).map Observation.key).Nodup :=
    keepFirst_nodup os []
  have hatMost (o : Observation) :
      (keepFirst Observation.key [] os).countP (fun a => a.change == o.change) ≤ 1 := by
    have hcount := List.nodup_iff_count_le_one.mp hnodup o.key
    refine le_trans ?_ hcount
    rw [List.count, List.countP_map]
    refine List.countP_mono_left fun a _ h => ?_
    exact beq_iff_eq.mpr (Observation.change_eq_iff.mp (eq_of_beq h)).1
  constructor
  · intro h o ho o' ho' hkey
    obtain ⟨a, ha, hchange⟩ := List.countP_pos_iff.mp (h o ho ▸ Nat.one_pos)
    obtain ⟨a', ha', hchange'⟩ := List.countP_pos_iff.mp (h o' ho' ▸ Nat.one_pos)
    obtain ⟨hk, hm⟩ := Observation.change_eq_iff.mp (eq_of_beq hchange)
    obtain ⟨hk', hm'⟩ := Observation.change_eq_iff.mp (eq_of_beq hchange')
    obtain rfl := List.inj_on_of_nodup_map hnodup ha' ha (hk'.trans (hkey.trans hk.symm))
    exact hm'.symm.trans hm
  · intro h o ho
    refine le_antisymm (hatMost o) (List.countP_pos_iff.mpr ?_)
    obtain ⟨a, ha, hkey⟩ : ∃ a ∈ keepFirst Observation.key [] os, a.key = o.key :=
      exists_keepFirst ho List.not_mem_nil
    have hmint := h o ho a (mem_of_keepFirst ha) hkey
    exact ⟨a, ha, beq_iff_eq.mpr (Observation.change_eq_iff.mpr ⟨hkey, hmint⟩)⟩

/-- Two deliveries of a change are answered alike exactly where the changes between them cancel
out. -/
theorem answered_alike_iff {db : CopyStore} {before between : List Observation} {o o' : Observation}
    (hnew : db.events = ∅)
    (hstored : ∀ a ∈ before ++ o :: (between ++ [o']), (db.tasks.lookup a.taskId).isSome)
    (hsame : o'.change = o.change) :
    ((before ++ o :: between).foldl observe db).holdingBefore o' =
        (before.foldl observe db).holdingBefore o ↔ CancelOut db before o between := by
  have hseen : ∀ key, (db.events.lookup key).isSome ↔ key ∈ ([] : List (ℤ × String)) := by
    simp [hnew]
  obtain ⟨-, htasks, hevents, hholding⟩ := observed_run before [] db
    (fun a ha => hstored a (List.mem_append_left _ ha)) hseen
  rw [List.append_nil] at hevents
  obtain ⟨-, htasks', -, hholding'⟩ := observed_run (o :: between) (before.map (·.key))
    (before.foldl observe db) (fun a ha => by
      rw [htasks]
      refine hstored a (List.mem_append_right _ ?_)
      rcases List.mem_cons.mp ha with rfl | ha
      · exact List.mem_cons_self
      · exact List.mem_cons_of_mem o (List.mem_append_left _ ha)) hevents
  have htask : o'.taskId = o.taskId := congrArg Prod.fst hsame
  have hmint : o'.mint = o.mint := congrArg (·.2.2) hsame
  have ho : ((before.foldl observe db).tasks.lookup o.taskId).isSome := by
    rw [htasks]
    exact hstored o (by simp)
  have ho' : (((before ++ o :: between).foldl observe db).tasks.lookup o'.taskId).isSome := by
    rw [List.foldl_append, htasks', htask]
    exact ho
  rw [holdingBefore_stored ho, holdingBefore_stored ho', htask, hmint, List.foldl_append, hholding',
    hholding]
  exact ⟨Except.ok.inj, congrArg Except.ok⟩

/-- Deliveries to stored tasks, from a store that recorded none yet, apply each change exactly once
and answer every delivery of a change alike if and only if no signature brings two mints and the
changes applied from a delivery up to each of its redeliveries cancel out. -/
theorem tracks_iff {db : CopyStore} {os : List Observation} (hnew : db.events = ∅)
    (hstored : ∀ o ∈ os, (db.tasks.lookup o.taskId).isSome) :
    db.Tracks os ↔ OneMint os ∧ ∀ before o between o' after,
      os = before ++ o :: (between ++ o' :: after) → o'.change = o.change →
        CancelOut db before o between := by
  obtain ⟨htaken, -⟩ := observed_run os [] db hstored (by simp [hnew])
  unfold Tracks
  rw [htaken, applied_once_iff]
  refine and_congr_right fun _ => ?_
  refine forall_congr' fun before => forall_congr' fun o => forall_congr' fun between =>
    forall_congr' fun o' => forall_congr' fun after => ?_
  refine imp_congr_right fun hos => imp_congr_right fun hsame => ?_
  refine answered_alike_iff hnew (fun a ha => hstored a ?_) hsame
  rw [hos]
  simp only [List.mem_append, List.mem_cons] at ha ⊢
  tauto

end CopyStore

/-- A buy of 100 tokens and a sale of 30 of them, by a target that task 1 watches. -/
def boughtAndSold : List Observation := [⟨1, "buy", "mint", 100⟩, ⟨1, "sale", "mint", -30⟩]

theorem tracks_iff_delivered_once : liveStore.Tracks boughtAndSold := by
  refine (CopyStore.tracks_iff rfl (by decide +kernel)).mpr ⟨by decide +kernel, ?_⟩
  intro before o between o' after hos hsame
  have hapart : boughtAndSold.Pairwise fun a b => b.change ≠ a.change := by decide +kernel
  rw [hos, List.pairwise_append, List.pairwise_cons] at hapart
  exact absurd hsame (hapart.2.1.1 o' (by simp))

/-- The sale is delivered again: its redelivery is answered with what its first delivery left. -/
theorem redelivered_sale_finds_less :
    ¬ liveStore.Tracks (boughtAndSold ++ [⟨1, "sale", "mint", -30⟩]) := by
  rintro ⟨-, halike⟩
  have hsame := halike [⟨1, "buy", "mint", 100⟩] ⟨1, "sale", "mint", -30⟩ []
    ⟨1, "sale", "mint", -30⟩ [] rfl rfl
  exact absurd hsame (by decide +kernel)

end ScreenerBot.Copy
