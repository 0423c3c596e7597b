import Mathlib
import ScreenerBot.Library.Typestate

/-! What a shared state owes to all the programs over it together: to how many of them are at each
stage. -/
namespace ScreenerBot.Library

universe u

variable {E : Type → Type} {κ σ : Type u}

/-- What holds of the state and of the stages the programs are at, counted. -/
structure Census (w : System E σ) (t : Typestate E κ) where
  holds : σ → Multiset κ → Prop
  idle : κ
  starts : ∀ s, w.starts s → holds s 0
  spawns : ∀ program, w.spawns program → t.Obeys (fun _ _ => True) idle program
  spawn : ∀ {s : σ} {stages : Multiset κ}, holds s stages → holds s (idle ::ₘ stages)
  step : ∀ {s s' : σ} {k : κ} {stages : Multiset κ} {β : Type} {effect : E β} {b : β},
    holds s (k ::ₘ stages) → t.may k effect → w.answers s effect b s' →
      holds s' (t.after k effect b ::ₘ stages)
  stop : ∀ {s : σ} {k : κ} {stages : Multiset κ}, holds s (k ::ₘ stages) → holds s stages
  restart : ∀ {s s' : σ} {stages : Multiset κ}, holds s stages → w.restarts s s' → holds s' 0

namespace Census

variable {w : System E σ} {t : Typestate E κ} (P : Census w t)

/-- The programs are at stages that the state holds with. -/
def Upheld (c : σ × List (Program E Unit)) : Prop :=
  ∃ stages : List (κ × Program E Unit), stages.map Prod.snd = c.2 ∧
    (∀ x ∈ stages, t.Obeys (fun _ _ => True) x.1 x.2) ∧ P.holds c.1 ↑(stages.map Prod.fst)

variable {P}

/-- A program whose call is next is at a stage that allows it. -/
theorem Upheld.at {s : σ} {running : List (Program E Unit)} {β : Type} {effect : E β}
    {next : β → Program E Unit} (h : P.Upheld (s, running))
    (hmem : Program.call effect next ∈ running) :
    ∃ k others, t.may k effect ∧ P.holds s (k ::ₘ others) := by
  obtain ⟨stages, rfl, hobeys, hholds⟩ := h
  obtain ⟨⟨k, program⟩, hx, rfl⟩ := List.mem_map.mp hmem
  have hmay : t.may k effect := by
    cases hobeys _ hx with
    | call hmay _ => exact hmay
  have hk : k ∈ (↑(stages.map Prod.fst) : Multiset κ) :=
    Multiset.mem_coe.mpr (List.mem_map.mpr ⟨_, hx, rfl⟩)
  obtain ⟨others, hothers⟩ := Multiset.exists_cons_of_mem hk
  exact ⟨k, others, hmay, hothers ▸ hholds⟩

theorem Upheld.holds {c : σ × List (Program E Unit)} (h : P.Upheld c) :
    ∃ stages, P.holds c.1 stages := by
  obtain ⟨stages, -, -, hholds⟩ := h
  exact ⟨_, hholds⟩

/-- The stage of one program, counted beside the stages of the others. -/
theorem counted_middle (front back : List (κ × Program E Unit)) (k : κ) (program : Program E Unit) :
    ((front ++ (k, program) :: back).map Prod.fst : Multiset κ) =
      k ::ₘ ↑((front ++ back).map Prod.fst) := by
  have hperm : ((front ++ (k, program) :: back).map Prod.fst).Perm
      (k :: (front ++ back).map Prod.fst) := List.perm_middle.map Prod.fst
  rw [Multiset.cons_coe]
  exact Multiset.coe_eq_coe.mpr hperm

/-- One of the programs, with the stage it is at. -/
theorem located {stages : List (κ × Program E Unit)} {before after : List (Program E Unit)}
    {program : Program E Unit} (hmap : stages.map Prod.snd = before ++ program :: after) :
    ∃ front k back, stages = front ++ (k, program) :: back ∧ front.map Prod.snd = before ∧
      back.map Prod.snd = after := by
  obtain ⟨front, rest, rfl, hfront, hrest⟩ := List.map_eq_append_iff.mp hmap
  obtain ⟨⟨k, program⟩, back, rfl, rfl, hback⟩ := List.map_eq_cons_iff.mp hrest
  exact ⟨front, k, back, rfl, hfront, hback⟩

theorem Upheld.step {c c' : σ × List (Program E Unit)} (h : P.Upheld c) (hstep : w.Step c c') :
    P.Upheld c' := by
  obtain ⟨stages, hmap, hobeys, hholds⟩ := h
  cases hstep with
  | @spawn _ _ program hspawn =>
    refine ⟨(P.idle, program) :: stages, by rw [List.map_cons, hmap], ?_, ?_⟩
    · rw [List.forall_mem_cons]
      exact ⟨P.spawns _ hspawn, hobeys⟩
    · rw [List.map_cons, ← Multiset.cons_coe]
      exact P.spawn hholds
  | @answer _ _ _ _ _ effect next b hanswer =>
    obtain ⟨front, k, back, rfl, rfl, rfl⟩ := located hmap
    have hself : t.may k effect ∧
        ∀ b, t.Obeys (fun _ _ => True) (t.after k effect b) (next b) := by
      cases hobeys (k, .call effect next) (by simp) with
      | call hmay resume => exact ⟨hmay, resume⟩
    refine ⟨front ++ (t.after k effect b, next b) :: back, by simp, ?_, ?_⟩
    · intro x hx
      simp only [List.mem_append, List.mem_cons] at hx
      obtain hx | rfl | hx := hx
      · exact hobeys x (by simp [hx])
      · exact hself.2 b
      · exact hobeys x (by simp [hx])
    · rw [counted_middle] at hholds ⊢
      exact P.step hholds hself.1 hanswer
  | stop =>
    obtain ⟨front, k, back, rfl, rfl, rfl⟩ := located hmap
    refine ⟨front ++ back, by simp, fun x hx => hobeys x ?_, ?_⟩
    · exact ((List.Sublist.refl front).append (List.sublist_cons_self _ back)).subset hx
    · rw [counted_middle] at hholds
      exact P.stop hholds
  | restart hrestart => exact ⟨[], rfl, by simp, P.restart hholds hrestart⟩

variable (P)

theorem upheld {c : σ × List (Program E Unit)} (h : w.Reached c) : P.Upheld c := by
  obtain ⟨s, hs, hruns⟩ := h
  induction hruns with
  | refl => exact ⟨[], rfl, by simp, P.starts s hs⟩
  | tail _ hstep ih => exact ih.step hstep

/-- What every allowed call and every restart keep to, a whole run keeps to. -/
theorem runs_along {R : σ → σ → Prop} (hrefl : ∀ s, R s s)
    (htrans : ∀ s s' s'', R s s' → R s' s'' → R s s'')
    (hanswer : ∀ {s s' : σ} {k : κ} {others : Multiset κ} {β : Type} {effect : E β} {b : β},
      P.holds s (k ::ₘ others) → t.may k effect → w.answers s effect b s' → R s s')
    (hrestart : ∀ {s s' : σ}, w.restarts s s' → R s s')
    {c c' : σ × List (Program E Unit)} (h : w.Reached c) (hruns : w.Runs c c') : R c.1 c'.1 := by
  induction hruns with
  | refl => exact hrefl _
  | tail hd hstep ih =>
    apply htrans _ _ _ ih
    have hupheld := P.upheld (h.runs hd)
    cases hstep with
    | spawn => exact hrefl _
    | answer hansw =>
      obtain ⟨k, others, hmay, hholds⟩ := hupheld.at (List.mem_append_right _ List.mem_cons_self)
      exact hanswer hholds hmay hansw
    | stop => exact hrefl _
    | restart hrest => exact hrestart hrest

end Census

end ScreenerBot.Library
