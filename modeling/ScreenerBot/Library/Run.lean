import Mathlib.Data.List.Basic

/-! Runs of a step function: the steps a run visits, and its invariants. -/
namespace ScreenerBot.Library

variable {σ α τ : Type*}

/-- The steps of a run: each action with the state it is taken from. -/
def visited (step : σ → α → σ) : σ → List α → List (σ × α)
  | _, [] => []
  | s, a :: as => (s, a) :: visited step (step s a) as

/-- What every visited step preserves holds at the end of the run. -/
theorem run_invariant (step : σ → α → σ) (Inv : σ → Prop) :
    ∀ (as : List α) (s : σ), Inv s →
      (∀ p ∈ visited step s as, Inv p.1 → Inv (step p.1 p.2)) → Inv (as.foldl step s)
  | [], _, h, _ => h
  | a :: as, s, h, hstep =>
    run_invariant step Inv as (step s a) (hstep (s, a) List.mem_cons_self h)
      fun p hp => hstep p (List.mem_cons_of_mem _ hp)

/-- What every visited step preserves holds at each visited state. -/
theorem visited_invariant (step : σ → α → σ) (Inv : σ → Prop) :
    ∀ (as : List α) (s : σ), Inv s →
      (∀ p ∈ visited step s as, Inv p.1 → Inv (step p.1 p.2)) → ∀ p ∈ visited step s as, Inv p.1
  | [], _, _, _, _, hp => by cases hp
  | a :: as, s, h, hstep, p, hp => by
    rcases List.mem_cons.mp hp with rfl | hp
    · exact h
    · exact visited_invariant step Inv as (step s a) (hstep (s, a) List.mem_cons_self h)
        (fun q hq => hstep q (List.mem_cons_of_mem _ hq)) p hp

/-- What a run has accumulated was there at its start or was made by a visited step. -/
theorem run_accumulates {β : Type*} (step : σ → α → σ) (has : σ → β → Prop)
    (made : σ → α → β → Prop) (h : ∀ s a b, has (step s a) b ↔ has s b ∨ made s a b) :
    ∀ (as : List α) (s : σ) (b : β),
      has (as.foldl step s) b ↔ has s b ∨ ∃ p ∈ visited step s as, made p.1 p.2 b
  | [], _, _ => by simp [visited]
  | a :: as, s, b => by
    rw [List.foldl_cons, run_accumulates step has made h as, h]
    simp only [visited, List.exists_mem_cons_iff, or_assoc]

/-- An invariant that also knows the actions taken so far. -/
theorem run_history (step : σ → α → σ) (Inv : List α → σ → Prop) (all : List α) :
    ∀ (as done : List α) (s : σ), all = done ++ as → Inv done s →
      (∀ done a rest s, all = done ++ a :: rest → Inv done s → Inv (done ++ [a]) (step s a)) →
      Inv all (as.foldl step s)
  | [], done, s, hall, h, _ => by rwa [hall, List.append_nil]
  | a :: as, done, s, hall, h, hstep => by
    refine run_history step Inv all as (done ++ [a]) (step s a) ?_ (hstep done a as s hall h) hstep
    rw [hall, List.append_assoc, List.singleton_append]

/-- A visited step splits its run. -/
theorem visited_split (step : σ → α → σ) : ∀ (as : List α) (s : σ) (p : σ × α),
    p ∈ visited step s as →
      ∃ before after, as = before ++ p.2 :: after ∧ p.1 = before.foldl step s
  | [], _, _, hp => by cases hp
  | a :: as, s, p, hp => by
    rcases List.mem_cons.mp hp with rfl | hp
    · exact ⟨[], as, rfl, rfl⟩
    · obtain ⟨before, after, rfl, he⟩ := visited_split step as (step s a) p hp
      exact ⟨a :: before, after, rfl, he⟩

theorem visited_append (step : σ → α → σ) : ∀ (as bs : List α) (s : σ),
    visited step s (as ++ bs) = visited step s as ++ visited step (as.foldl step s) bs
  | [], _, _ => rfl
  | a :: as, bs, s => by
    rw [List.cons_append, visited, visited, visited_append step as, List.foldl_cons,
      List.cons_append]

/-- What every visited step preserves holds in every state the run reaches. -/
theorem reached_invariant (step : σ → α → σ) (Inv : σ → Prop) {as : List α} {s : σ} (h : Inv s)
    (hstep : ∀ p ∈ visited step s as, Inv p.1 → Inv (step p.1 p.2)) :
    ∀ before, before <+: as → Inv (before.foldl step s) := by
  rintro before ⟨after, rfl⟩
  rw [visited_append] at hstep
  exact run_invariant step Inv before s h fun p hp => hstep p (List.mem_append_left _ hp)

/-- Runs of two step functions that agree through `view` agree through it throughout. -/
theorem foldl_view (step : σ → α → σ) (step' : τ → α → τ) (view : σ → τ)
    (h : ∀ s a, view (step s a) = step' (view s) a) :
    ∀ (as : List α) (s : σ), view (as.foldl step s) = as.foldl step' (view s)
  | [], _ => rfl
  | a :: as, s => by
    rw [List.foldl_cons, List.foldl_cons, foldl_view step step' view h as, h]

/-- They visit the same steps through it. -/
theorem visited_view (step : σ → α → σ) (step' : τ → α → τ) (view : σ → τ)
    (h : ∀ s a, view (step s a) = step' (view s) a) :
    ∀ (as : List α) (s : σ),
      visited step' (view s) as = (visited step s as).map fun p => (view p.1, p.2)
  | [], _ => rfl
  | a :: as, s => by
    rw [visited, visited, List.map_cons, ← visited_view step step' view h as, h]

/-- A visited step is taken in a state that the steps before it lead to. -/
theorem visited_followed (step : σ → α → σ) : ∀ (as : List α) (s : σ),
    (visited step s as).Pairwise fun p q => ∃ between :
      List α, q.1 = between.foldl step (step p.1 p.2)
  | [], _ => List.Pairwise.nil
  | a :: as, s => by
    refine List.Pairwise.cons (fun q hq => ?_) (visited_followed step as (step s a))
    obtain ⟨before, after, -, he⟩ := visited_split step as (step s a) q hq
    exact ⟨before, he⟩

/-- The actions of a run that are taken, in the order they are. -/
def taken (step : σ → α → σ) (takes : σ → α → Bool) : σ → List α → List α
  | _, [] => []
  | s, a :: as =>
    if takes s a then a :: taken step takes (step s a) as else taken step takes (step s a) as

section Taken

variable {step : σ → α → σ} {takes : σ → α → Bool}

/-- Actions that change nothing unless taken may be left out. -/
theorem foldl_taken (h : ∀ s a, takes s a = false → step s a = s) :
    ∀ (as : List α) (s : σ), (taken step takes s as).foldl step s = as.foldl step s
  | [], _ => rfl
  | a :: as, s => by
    cases ht : takes s a with
    | true =>
      rw [taken, if_pos ht, List.foldl_cons, List.foldl_cons, foldl_taken h as]
    | false =>
      rw [taken, if_neg (ht ▸ Bool.false_ne_true), List.foldl_cons, h s a ht, foldl_taken h as]

theorem takes_of_visited (h : ∀ s a, takes s a = false → step s a = s) :
    ∀ (as : List α) (s : σ), ∀ p ∈ visited step s (taken step takes s as), takes p.1 p.2 = true
  | [], _, _, hp => by cases hp
  | a :: as, s, p, hp => by
    cases ht : takes s a with
    | true =>
      rw [taken, if_pos ht] at hp
      rcases List.mem_cons.mp hp with rfl | hp
      · exact ht
      · exact takes_of_visited h as (step s a) p hp
    | false =>
      rw [taken, if_neg (ht ▸ Bool.false_ne_true), h s a ht] at hp
      exact takes_of_visited h as s p hp

theorem mem_of_taken : ∀ (as : List α) (s : σ), ∀ a ∈ taken step takes s as, a ∈ as
  | [], _, _, ha => ha
  | b :: as, s, a, ha => by
    rw [taken] at ha
    split at ha
    · rcases List.mem_cons.mp ha with rfl | ha
      · exact List.mem_cons_self
      · exact List.mem_cons_of_mem b (mem_of_taken as (step s b) a ha)
    · exact List.mem_cons_of_mem b (mem_of_taken as (step s b) a ha)

end Taken

/-- The first action of each key, without those of the keys `seen` before. -/
def keepFirst {κ : Type*} [DecidableEq κ] (key : α → κ) : List κ → List α → List α
  | _, [] => []
  | seen, a :: as =>
    if key a ∈ seen then keepFirst key seen as else a :: keepFirst key (key a :: seen) as

/-- A run whose repeated actions change nothing is the run without them. -/
theorem foldl_keepFirst {κ : Type*} [DecidableEq κ] (step : σ → α → σ) (key : α → κ) :
    ∀ (as : List α) (seen : List κ) (s : σ),
      (visited step s as).Pairwise (fun p q => key p.2 = key q.2 → step q.1 q.2 = q.1) →
      (∀ q ∈ visited step s as, key q.2 ∈ seen → step q.1 q.2 = q.1) →
      as.foldl step s = (keepFirst key seen as).foldl step s
  | [], _, _, _, _ => rfl
  | a :: as, seen, s, h, hseen => by
    obtain ⟨hfirst, hrest⟩ := List.pairwise_cons.mp h
    by_cases ha : key a ∈ seen
    · have hstep : step s a = s := hseen (s, a) List.mem_cons_self ha
      rw [keepFirst, if_pos ha, List.foldl_cons, hstep]
      refine foldl_keepFirst step key as seen s (hstep ▸ hrest) fun q hq => ?_
      exact hseen q (List.mem_cons_of_mem _ (hstep.symm ▸ hq))
    · rw [keepFirst, if_neg ha, List.foldl_cons, List.foldl_cons]
      refine foldl_keepFirst step key as (key a :: seen) (step s a) hrest fun q hq hkey => ?_
      rcases List.mem_cons.mp hkey with hkey | hkey
      · exact hfirst q hq hkey.symm
      · exact hseen q (List.mem_cons_of_mem _ hq) hkey

section KeepFirst

variable {κ : Type*} [DecidableEq κ] {key : α → κ}

theorem mem_of_keepFirst {a : α} :
    ∀ {as : List α} {seen : List κ}, a ∈ keepFirst key seen as → a ∈ as
  | [], _, h => h
  | b :: as, seen, h => by
    rw [keepFirst] at h
    split at h
    · exact List.mem_cons_of_mem b (mem_of_keepFirst h)
    · rcases List.mem_cons.mp h with rfl | h
      · exact List.mem_cons_self
      · exact List.mem_cons_of_mem b (mem_of_keepFirst h)

theorem keepFirst_unseen {a : α} : ∀ {as : List α} {seen : List κ}, a ∈ keepFirst key seen as →
    key a ∉ seen
  | [], _, h => by cases h
  | b :: as, seen, h => by
    rw [keepFirst] at h
    split at h
    · exact keepFirst_unseen h
    next hb =>
      rcases List.mem_cons.mp h with rfl | h
      · exact hb
      · exact fun hseen => keepFirst_unseen h (List.mem_cons_of_mem _ hseen)

theorem keepFirst_nodup : ∀ (as : List α) (seen : List κ), ((keepFirst key seen as).map key).Nodup
  | [], _ => List.nodup_nil
  | b :: as, seen => by
    rw [keepFirst]
    split
    · exact keepFirst_nodup as seen
    · rw [List.map_cons, List.nodup_cons]
      refine ⟨fun hmem => ?_, keepFirst_nodup as _⟩
      obtain ⟨a, ha, hkey⟩ := List.mem_map.mp hmem
      exact keepFirst_unseen ha (hkey ▸ List.mem_cons_self)

/-- An unseen key of the actions is the key of one that is kept. -/
theorem exists_keepFirst {a : α} : ∀ {as : List α} {seen : List κ}, a ∈ as → key a ∉ seen →
    ∃ b ∈ keepFirst key seen as, key b = key a
  | [], _, ha, _ => by cases ha
  | b :: as, seen, ha, hseen => by
    rw [keepFirst]
    by_cases hb : key b = key a
    · rw [if_neg (hb ▸ hseen)]
      exact ⟨b, List.mem_cons_self, hb⟩
    · rcases List.mem_cons.mp ha with rfl | ha
      · exact absurd rfl hb
      split
      · exact exists_keepFirst ha hseen
      · obtain ⟨c, hc, hkey⟩ := @exists_keepFirst a as (key b :: seen) ha fun h =>
          (List.mem_cons.mp h).elim (fun h => hb h.symm) hseen
        exact ⟨c, List.mem_cons_of_mem b hc, hkey⟩

end KeepFirst

end ScreenerBot.Library
