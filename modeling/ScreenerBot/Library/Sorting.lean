import Mathlib.Data.List.Sort
import Mathlib.Tactic

/-! Stable sorting by a key: what the order of the input can still change. -/
namespace ScreenerBot.Library

variable {α β κ : Type*} [LinearOrder κ]

/-- Stable ascending sort by `key`. -/
def sortBy (key : α → κ) (l : List α) : List α := l.insertionSort fun a b => key a ≤ key b

theorem sortBy_perm (key : α → κ) (l : List α) : (sortBy key l).Perm l :=
  List.perm_insertionSort _ l

@[simp] theorem mem_sortBy (key : α → κ) (l : List α) (a : α) : a ∈ sortBy key l ↔ a ∈ l :=
  (sortBy_perm key l).mem_iff

theorem sortBy_sorted (key : α → κ) (l : List α) :
    (sortBy key l).Pairwise fun a b => key a ≤ key b := by
  have : Std.Total fun a b : α => key a ≤ key b := ⟨fun a b => le_total (key a) (key b)⟩
  have : IsTrans α fun a b => key a ≤ key b := ⟨fun _ _ _ => le_trans⟩
  exact List.pairwise_insertionSort _ l

theorem sortBy_of_sorted {key : α → κ} {l : List α} (h : l.Pairwise fun a b => key a ≤ key b) :
    sortBy key l = l := h.insertionSort_eq

theorem map_sortBy (key : β → κ) (f : α → β) (l : List α) :
    (sortBy (key ∘ f) l).map f = sortBy key (l.map f) :=
  List.map_insertionSort _ _ f l fun _ _ _ _ => Iff.rfl

/-- The elements of one key keep their input order. -/
theorem filter_sortBy (key : α → κ) (k : κ) (l : List α) :
    (sortBy key l).filter (key · = k) = l.filter (key · = k) := by
  have hsame : (l.filter (key · = k)).Pairwise fun a b => key a ≤ key b := by
    refine List.pairwise_of_forall_mem_list ?_
    intro a ha b hb
    have ha := (List.mem_filter.mp ha).2
    have hb := (List.mem_filter.mp hb).2
    simp only [decide_eq_true_eq] at ha hb
    exact (ha.trans hb.symm).le
  have hsub := (List.sublist_insertionSort hsame List.filter_sublist).filter
    fun a => decide (key a = k)
  rw [List.filter_filter] at hsub
  simp only [Bool.and_self] at hsub
  exact (hsub.eq_of_length ((sortBy_perm key l).filter _).length_eq.symm).symm

/-- Two sorted lists that agree on every key class are equal. -/
theorem eq_of_sorted_of_filter (key : α → κ) : ∀ {s t : List α},
    (s.Pairwise fun a b => key a ≤ key b) → (t.Pairwise fun a b => key a ≤ key b) →
    (∀ k, s.filter (key · = k) = t.filter (key · = k)) → s = t
  | [], [], _, _, _ => rfl
  | [], b :: t, _, _, h => by simpa using h (key b)
  | a :: s, [], _, _, h => by simpa using h (key a)
  | a :: s, b :: t, hs, ht, h => by
    have hmem (x : α) : x ∈ a :: s ↔ x ∈ b :: t := by
      have hx := congrArg (x ∈ ·) (h (key x))
      simpa [-List.mem_cons] using hx
    have hab : key a ≤ key b := by
      rcases List.mem_cons.mp ((hmem b).mpr List.mem_cons_self) with e | hb
      · rw [e]
      · exact (List.pairwise_cons.mp hs).1 b hb
    have hba : key b ≤ key a := by
      rcases List.mem_cons.mp ((hmem a).mp List.mem_cons_self) with e | ha
      · rw [e]
      · exact (List.pairwise_cons.mp ht).1 a ha
    have he : key a = key b := le_antisymm hab hba
    have hhead := h (key a)
    simp only [List.filter_cons, he, decide_true, if_true] at hhead
    obtain ⟨rfl, -⟩ := List.cons.inj hhead
    congr 1
    refine eq_of_sorted_of_filter key hs.of_cons ht.of_cons fun k => ?_
    have hk := h k
    by_cases e : key a = k <;> simpa [List.filter_cons, e] using hk

/-- What is sorted and then filtered is what is filtered and then sorted. -/
theorem sortBy_filter (key : α → κ) (p : α → Bool) (l : List α) :
    sortBy key (l.filter p) = (sortBy key l).filter p := by
  apply eq_of_sorted_of_filter key
  · exact sortBy_sorted key _
  · exact (sortBy_sorted key l).filter p
  · intro k
    rw [filter_sortBy, List.filter_comm, List.filter_comm _ p, filter_sortBy]

/-- A stable sort only sees the order within each key class. -/
theorem sortBy_eq_of_filter (key : α → κ) {l l' : List α}
    (h : ∀ k, l.filter (key · = k) = l'.filter (key · = k)) : sortBy key l = sortBy key l' := by
  refine eq_of_sorted_of_filter key (sortBy_sorted key l) (sortBy_sorted key l') fun k => ?_
  rw [filter_sortBy, filter_sortBy, h]

/-- Under pairwise distinct keys each key class has at most one element. -/
theorem length_filter_key_le_one (key : α → κ) {l : List α} (hkeys : (l.map key).Nodup) (k : κ) :
    (l.filter (key · = k)).length ≤ 1 := by
  rw [← List.length_map key]
  have hn : ((l.filter (key · = k)).map key).Nodup := hkeys.sublist (List.filter_sublist.map key)
  have hall : ∀ x ∈ (l.filter (key · = k)).map key, x = k := by
    intro x hx
    obtain ⟨a, ha, rfl⟩ := List.mem_map.mp hx
    simpa using (List.mem_filter.mp ha).2
  exact List.nodup_replicate.mp (List.eq_replicate_of_mem hall ▸ hn)

theorem filter_key_of_mem (key : α → κ) {l : List α} (hkeys : (l.map key).Nodup) {a : α}
    (ha : a ∈ l) : l.filter (key · = key a) = [a] := by
  have hmem : a ∈ l.filter (key · = key a) := List.mem_filter.mpr ⟨ha, by simp⟩
  have hlen := length_filter_key_le_one key hkeys (key a)
  match hl : l.filter (key · = key a), hlen with
  | [], _ =>
    rw [hl] at hmem
    cases hmem
  | [b], _ =>
    rw [hl, List.mem_singleton] at hmem
    rw [hmem]

/-- Permutations of a list with pairwise distinct keys agree on every key class. -/
theorem filter_eq_of_perm (key : α → κ) {l l' : List α} (hp : l.Perm l')
    (hkeys : (l.map key).Nodup) (k : κ) :
    l.filter (key · = k) = l'.filter (key · = k) := by
  have hf := hp.filter (key · = k)
  have hlen := length_filter_key_le_one key hkeys k
  match hl : l.filter (key · = k), hlen with
  | [], _ => rw [hl] at hf; rw [hf.nil_eq]
  | [a], _ => rw [hl] at hf; rw [List.singleton_perm.mp hf]

/-- Sorting a list with pairwise distinct keys forgets the input order. -/
theorem sortBy_eq_of_perm (key : α → κ) {l l' : List α} (hp : l.Perm l')
    (hkeys : (l.map key).Nodup) : sortBy key l = sortBy key l' :=
  sortBy_eq_of_filter key fun k => filter_eq_of_perm key hp hkeys k

/-- Reordering a tail of pairwise distinct keys leaves the sorted list as it was. -/
theorem sortBy_append_eq_of_perm (key : α → κ) (front : List α) {l l' : List α} (hp : l.Perm l')
    (hkeys : (l.map key).Nodup) : sortBy key (front ++ l) = sortBy key (front ++ l') :=
  sortBy_eq_of_filter key fun k => by
    rw [List.filter_append, List.filter_append, filter_eq_of_perm key hp hkeys]

end ScreenerBot.Library
