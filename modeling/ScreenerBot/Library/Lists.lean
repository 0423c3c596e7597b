import Mathlib.Data.List.Forall2
import Mathlib.Data.List.Pairwise

/-! Lists whose elements stand in a relation to those before them, and lists that follow another
element by element. -/
namespace ScreenerBot.Library

variable {α β : Type*}

/-- Every element of a list stands in `P` to the elements before it. -/
def EachAfter (P : List α → α → Prop) (l : List α) : Prop :=
  ∀ before a after, l = before ++ a :: after → P before a

theorem EachAfter.nil {P : List α → α → Prop} : EachAfter P [] :=
  fun _ _ _ h => absurd h (List.append_ne_nil_of_right_ne_nil _ (List.cons_ne_nil _ _)).symm

theorem EachAfter.concat {P : List α → α → Prop} {l : List α} {a : α} (h : EachAfter P l)
    (ha : P l a) : EachAfter P (l ++ [a]) := by
  intro before b after he
  rcases List.eq_nil_or_concat after with rfl | ⟨after, c, rfl⟩
  · obtain ⟨rfl, hab⟩ := List.append_inj' he rfl
    cases hab
    exact ha
  · rw [List.concat_eq_append, ← List.cons_append, ← List.append_assoc] at he
    exact h before b after (List.append_inj' he rfl).1

theorem EachAfter.imp {P Q : List α → α → Prop} {l : List α}
    (hpq : ∀ before a, P before a → Q before a) (h : EachAfter P l) : EachAfter Q l :=
  fun before a after he => hpq before a (h before a after he)

theorem mem_of_forall₂ {R : α → β → Prop} {l : List α} {m : List β} (h : List.Forall₂ R l m)
    {b : β} (hb : b ∈ m) : ∃ a ∈ l, R a b := by
  induction h with
  | nil => cases hb
  | @cons a b' l m hab hlm ih =>
    rcases List.mem_cons.mp hb with rfl | hb
    · exact ⟨a, List.mem_cons_self, hab⟩
    · obtain ⟨a', ha', hab'⟩ := ih hb
      exact ⟨a', List.mem_cons_of_mem _ ha', hab'⟩

theorem forall₂_mem {R : α → β → Prop} {l : List α} {m : List β} (h : List.Forall₂ R l m) :
    List.Forall₂ (fun a b => a ∈ l ∧ b ∈ m ∧ R a b) l m := by
  induction h with
  | nil => exact .nil
  | cons hab _ ih =>
    refine .cons ⟨List.mem_cons_self, List.mem_cons_self, hab⟩ (ih.imp fun a b h => ?_)
    exact ⟨List.mem_cons_of_mem _ h.1, List.mem_cons_of_mem _ h.2.1, h.2.2⟩

/-- A list that follows another element by element is pairwise related where the other is. -/
theorem pairwise_of_forall₂ {R : α → β → Prop} {P : α → α → Prop} {Q : β → β → Prop} {l : List α}
    {m : List β} (h : List.Forall₂ R l m) (hl : l.Pairwise P)
    (hpq : ∀ a ∈ l, ∀ a' ∈ l, ∀ b b', P a a' → R a b → R a' b' → Q b b') : m.Pairwise Q := by
  induction h with
  | nil => exact List.Pairwise.nil
  | @cons a b l m hab hlm ih =>
    obtain ⟨hfirst, hrest⟩ := List.pairwise_cons.mp hl
    refine List.pairwise_cons.mpr ⟨fun b' hb' => ?_, ih hrest fun a ha a' ha' =>
      hpq a (List.mem_cons_of_mem _ ha) a' (List.mem_cons_of_mem _ ha')⟩
    obtain ⟨a', ha', hab'⟩ := mem_of_forall₂ hlm hb'
    exact hpq a List.mem_cons_self a' (List.mem_cons_of_mem _ ha') b b' (hfirst a' ha') hab hab'

/-- A list cut into pieces of `size`, the last of which may be shorter. -/
def chunks {α : Type*} (size : ℕ) (l : List α) : List (List α) :=
  (List.range ((l.length + size - 1) / size)).map fun i => (l.drop (i * size)).take size

theorem chunks_flatten {α : Type*} {size : ℕ} (hsize : 0 < size) (l : List α) :
    (chunks size l).flatten = l := by
  have htake : ∀ count, ((List.range count).map fun i =>
      (l.drop (i * size)).take size).flatten = l.take (count * size) := by
    intro count
    induction count with
    | zero => simp
    | succ count ih =>
      rw [List.range_succ, List.map_append, List.flatten_append, ih, Nat.add_one_mul, List.take_add]
      simp
  rw [chunks, htake, List.take_of_length_le]
  have hlast := Nat.lt_mul_div_succ (l.length + size - 1) hsize
  rw [Nat.mul_add, Nat.mul_one, Nat.mul_comm] at hlast
  omega

/-- A predicate that adds at most the element of one key counts at most one more. -/
theorem countP_le_succ {α κ : Type*} {p q : α → Bool} {key : α → κ} {k : κ} {l : List α}
    (hnodup : (l.map key).Nodup) (h : ∀ a ∈ l, p a = true → q a = true ∨ key a = k) :
    l.countP p ≤ l.countP q + 1 := by
  induction l with
  | nil => simp
  | cons a l ih =>
    rw [List.map_cons, List.nodup_cons] at hnodup
    have hrest (b : α) (hb : b ∈ l) := h b (List.mem_cons_of_mem a hb)
    rw [List.countP_cons, List.countP_cons]
    by_cases hkey : key a = k
    · -- no later element has the key
      have hle : l.countP p ≤ l.countP q := by
        refine List.countP_mono_left fun b hb hp => (hrest b hb hp).resolve_right fun he => ?_
        exact hnodup.1 (hkey.trans he.symm ▸ List.mem_map_of_mem hb)
      split <;> omega
    · have hle := ih hnodup.2 hrest
      have hhead := h a List.mem_cons_self
      split
      next hp =>
        rw [if_pos ((hhead hp).resolve_right hkey)]
        omega
      next => omega

end ScreenerBot.Library
