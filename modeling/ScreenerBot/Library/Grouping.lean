import ScreenerBot.Library.Sorting

/-!
Sorted lists cut into the classes of a key.

The classes follow each other in the order of their keys and put the list together again, so that a
sorted list can be regrouped by a coarser key class by class.
-/
namespace ScreenerBot.Library

variable {α κ κ' : Type*} [LinearOrder κ] [LinearOrder κ']

/-- The keys a list has, each once. -/
def keysOf (key : α → κ) (l : List α) : List κ := (l.map key).dedup

def classOf (key : α → κ) (l : List α) (k : κ) : List α := l.filter (key · = k)

/-- A filter on keys that survive the map goes before it. -/
theorem filter_filterMap_of_key {β : Type*} {f : α → Option β}
    {key : β → κ} {key' : α → κ} {l : List α} (k : κ)
    (h : ∀ a ∈ l, ∀ b, f a = some b → key b = key' a) :
    (l.filterMap f).filter (key · = k) = (l.filter (key' · = k)).filterMap f := by
  induction l with
  | nil => rfl
  | cons a l ih =>
    have ih := ih fun b hb => h b (List.mem_cons_of_mem a hb)
    cases hf : f a with
    | none =>
      by_cases ha : key' a = k
      · simp [ha, hf, ih]
      · simp [ha, hf, ih]
    | some b =>
      have hb : key b = key' a := h a List.mem_cons_self b hf
      by_cases ha : key' a = k
      · simp [ha, hb, hf, ih]
      · simp [ha, hb, hf, ih]

section Keys
variable {key : α → κ} {l : List α}

@[simp] theorem mem_keysOf {k : κ} : k ∈ keysOf key l ↔ ∃ a ∈ l, key a = k := by
  simp [keysOf]

theorem keysOf_nodup (key : α → κ) (l : List α) : (keysOf key l).Nodup := List.nodup_dedup _

theorem keysOf_sorted (h : l.Pairwise fun a b => key a ≤ key b) :
    (keysOf key l).Pairwise (· < ·) := by
  have hle : (keysOf key l).Pairwise (· ≤ ·) :=
    (List.pairwise_map.mpr h).sublist (List.dedup_sublist _)
  exact hle.imp₂ (fun _ _ => lt_of_le_of_ne) (List.nodup_dedup _)

@[simp] theorem mem_classOf {k : κ} {a : α} : a ∈ classOf key l k ↔ a ∈ l ∧ key a = k := by
  simp [classOf]

theorem classOf_ne_nil {k : κ} (h : k ∈ keysOf key l) : classOf key l k ≠ [] := by
  obtain ⟨a, ha, hkey⟩ := mem_keysOf.mp h
  exact List.ne_nil_of_mem (mem_classOf.mpr ⟨ha, hkey⟩)

theorem classOf_classOf (j k : κ) :
    classOf key (classOf key l j) k = if j = k then classOf key l k else [] := by
  unfold classOf
  rw [List.filter_filter]
  split_ifs with h
  · subst h
    simp
  · rw [List.filter_eq_nil_iff]
    intro a _
    simp only [Bool.and_eq_true, decide_eq_true_eq, not_and]
    rintro rfl rfl
    exact h rfl

theorem filter_flatMap_classOf (k : κ) :
    ∀ {keys : List κ}, keys.Nodup →
      (keys.flatMap (classOf key l)).filter (key · = k) = if k ∈
        keys then classOf key l k else [] := by
  intro keys hnodup
  induction keys with
  | nil => rfl
  | cons j keys ih =>
    obtain ⟨hnew, hnodup⟩ := List.nodup_cons.mp hnodup
    have hhead : classOf key (classOf key l j) k = if j = k then classOf key l k else [] :=
      classOf_classOf j k
    rw [List.flatMap_cons, List.filter_append, ih hnodup]
    change classOf key (classOf key l j) k ++ _ = _
    rw [hhead]
    by_cases hj : j = k
    · subst hj
      simp [hnew]
    · simp [hj, Ne.symm hj]

/-- The classes of a sorted list put it together. -/
theorem flatMap_classOf (h : l.Pairwise fun a b => key a ≤ key b) :
    (keysOf key l).flatMap (classOf key l) = l := by
  refine eq_of_sorted_of_filter key ?_ h ?_
  · rw [List.pairwise_flatMap]
    constructor
    · intro k _
      refine List.pairwise_of_forall_mem_list ?_
      intro a ha b hb
      rw [(mem_classOf.mp ha).2, (mem_classOf.mp hb).2]
    · refine (keysOf_sorted h).imp ?_
      intro j k hjk a ha b hb
      rw [(mem_classOf.mp ha).2, (mem_classOf.mp hb).2]
      exact hjk.le
  · intro k
    rw [filter_flatMap_classOf k (keysOf_nodup key l)]
    split_ifs with hk
    · rfl
    · symm
      rw [List.filter_eq_nil_iff]
      intro a ha hkey
      exact hk (mem_keysOf.mpr ⟨a, ha, by simpa using hkey⟩)

end Keys

section Coarser
variable {key : α → κ} {coarsen : κ → κ'} {l : List α}

/-- The keys of a coarser key are those of the finer one, coarsened. -/
theorem keysOf_coarsen (hcoarsen : Monotone coarsen) (h : l.Pairwise fun a b => key a ≤ key b) :
    keysOf coarsen (keysOf key l) = keysOf (coarsen ∘ key) l := by
  have hfine : (keysOf key l).Pairwise fun a b => coarsen a ≤ coarsen b :=
    (keysOf_sorted h).imp fun hlt => hcoarsen hlt.le
  have hcoarse : l.Pairwise fun a b => (coarsen ∘ key) a ≤ (coarsen ∘ key) b :=
    h.imp fun hle => hcoarsen hle
  refine (keysOf_sorted hfine).eq_of_mem_iff (keysOf_sorted hcoarse) ?_
  intro k
  simp

/-- The finer keys of a coarse class. -/
theorem classOf_keysOf (coarsen : κ → κ') (h : l.Pairwise fun a b => key a ≤ key b) (k : κ') :
    classOf coarsen (keysOf key l) k = keysOf key (classOf (coarsen ∘ key) l k) := by
  have hclass : (classOf (coarsen ∘ key) l k).Pairwise fun a b => key a ≤ key b :=
    h.sublist List.filter_sublist
  have hsub : (classOf coarsen (keysOf key l) k).Pairwise (· < ·) :=
    (keysOf_sorted h).sublist List.filter_sublist
  refine hsub.eq_of_mem_iff (keysOf_sorted hclass) ?_
  intro j
  simp only [mem_classOf, mem_keysOf, Function.comp_apply]
  constructor
  · rintro ⟨⟨a, ha, rfl⟩, hk⟩
    exact ⟨a, ⟨ha, hk⟩, rfl⟩
  · rintro ⟨a, ⟨ha, hk⟩, rfl⟩
    exact ⟨⟨a, ha, rfl⟩, hk⟩

/-- A fine class lies inside its coarse one. -/
theorem classOf_classOf_coarse (coarsen : κ → κ') {j : κ} {k : κ'} (hj : coarsen j = k) :
    classOf key (classOf (coarsen ∘ key) l k) j = classOf key l j := by
  unfold classOf
  rw [List.filter_filter]
  apply List.filter_congr
  intro a _
  by_cases ha : key a = j
  · simp [ha, hj]
  · simp [ha]

end Coarser

/-- Summed class by class, a list sums up to what it does as a whole. -/
theorem sum_classOf {M α κ : Type*} [AddCommMonoid M] [DecidableEq κ] {key : α → κ} (f : α → M)
    {keys : List κ} (hnodup : keys.Nodup) {l : List α} (hcover : ∀ a ∈ l, key a ∈ keys) :
    (keys.map fun k => ((l.filter (key · = k)).map f).sum).sum = (l.map f).sum := by
  induction l with
  | nil => simp
  | cons a l ih =>
    obtain ⟨ha, hl⟩ := List.forall_mem_cons.mp hcover
    have hclass : ∀ k, (((a :: l).filter (key · = k)).map f).sum =
        (if k = key a then f a else 0) + ((l.filter (key · = k)).map f).sum := by
      intro k
      by_cases hk : key a = k
      · simp [hk]
      · simp [hk, Ne.symm hk]
    have hown : (keys.map fun k => if k = key a then f a else 0).sum = f a := by
      clear hcover hclass ih hl
      induction keys with
      | nil => simp at ha
      | cons k keys ih =>
        obtain ⟨hk, hnodup⟩ := List.nodup_cons.mp hnodup
        rcases List.mem_cons.mp ha with rfl | ha
        · have hrest : (keys.map fun k => if k = key a then f a else 0).sum = 0 := by
            apply List.sum_eq_zero
            intro x hx
            obtain ⟨k, hmem, rfl⟩ := List.mem_map.mp hx
            exact if_neg fun h : k = key a => hk (h ▸ hmem)
          simp [hrest]
        · have hne : k ≠ key a := fun h : k = key a => hk (h ▸ ha)
          simp [hne, ih hnodup ha]
    simp only [hclass, List.sum_map_add, hown, ih hl, List.map_cons, List.sum_cons]

end ScreenerBot.Library
