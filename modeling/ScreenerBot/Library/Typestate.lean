import Mathlib
import ScreenerBot.Library.Process

/-!
Programs that follow a protocol of their own over a shared state: the stage a program is at says
which calls it may make and what it may rely on, and no call of another program takes that away.
-/
namespace ScreenerBot.Library

universe u

/-- The calls a stage allows, and the stage each answer leads to. -/
structure Typestate (E : Type → Type) (κ : Type u) where
  may : κ → {β : Type} → E β → Prop
  after : κ → {β : Type} → E β → β → κ

namespace Typestate

variable {E : Type → Type} {κ : Type u} (t : Typestate E κ) {α β γ ε : Type}

/-- A program started at a stage makes only the calls its stages allow. What it ends with satisfies
`post`, with the stage it ends at. -/
inductive Obeys (post : κ → α → Prop) : κ → Program E α → Prop
  | done {k : κ} {a : α} (h : post k a) : Obeys post k (.done a)
  | call {k : κ} {β : Type} {effect : E β} {next : β → Program E α} (hmay : t.may k effect)
      (resume : ∀ b, Obeys post (t.after k effect b) (next b)) : Obeys post k (.call effect next)

variable {t} {k : κ}

theorem Obeys.bind {post : κ → α → Prop} {goal : κ → β → Prop} {program : Program E α}
    {f : α → Program E β} (h : t.Obeys post k program)
    (hf : ∀ k a, post k a → t.Obeys goal k (f a)) : t.Obeys goal k (program >>= f) := by
  induction h with
  | done h => exact hf _ _ h
  | call hmay resume ih => exact .call hmay ih

theorem Obeys.mono {post goal : κ → α → Prop} {program : Program E α} (h : t.Obeys post k program)
    (hpost : ∀ k a, post k a → goal k a) : t.Obeys goal k program := by
  induction h with
  | done h => exact .done (hpost _ _ h)
  | call hmay resume ih => exact .call hmay ih

variable (t) in

/-- An attempt that obeys the stages: `ok` where it succeeds and `err` where it fails. -/
def Tries (ok : κ → α → Prop) (err : κ → ε → Prop) (k : κ) (attempt : Attempt E ε α) : Prop :=
  t.Obeys (fun k r => (∀ a, r = .ok a → ok k a) ∧ ∀ e, r = .error e → err k e) k attempt

section Attempts

variable {ok : κ → α → Prop} {err : κ → ε → Prop} {goal : κ → β → Prop}

theorem Tries.pure {a : α} (h : ok k a) : t.Tries ok err k (pure a : Attempt E ε α) := by
  refine .done ⟨fun b hb => ?_, fun e he => ?_⟩
  · cases hb
    exact h
  · cases he

theorem Tries.throw {e : ε} (h : err k e) : t.Tries ok err k (throw e : Attempt E ε α) := by
  refine .done ⟨fun b hb => ?_, fun e' he => ?_⟩
  · cases hb
  · cases he
    exact h

theorem Tries.throw_then {e : ε} {f : α → Attempt E ε β} (h : err k e) :
    t.Tries goal err k ((MonadExcept.throw e : Attempt E ε α) >>= f) :=
  Tries.throw h

theorem Tries.bind {attempt : Attempt E ε α} {f : α → Attempt E ε β} (h : t.Tries ok err k attempt)
    (hf : ∀ k a, ok k a → t.Tries goal err k (f a)) : t.Tries goal err k (attempt >>= f) := by
  refine Obeys.bind h fun k r hr => ?_
  cases r with
  | error e => exact .done ⟨fun b hb => (by cases hb), fun e' he => (by cases he; exact hr.2 e rfl)⟩
  | ok a => exact hf k a (hr.1 a rfl)

theorem Tries.mono {ok' : κ → α → Prop} {err' : κ → ε → Prop} {attempt : Attempt E ε α}
    (h : t.Tries ok err k attempt) (hok : ∀ k a, ok k a → ok' k a)
    (herr : ∀ k e, err k e → err' k e) : t.Tries ok' err' k attempt :=
  Obeys.mono h fun k _ hr => ⟨fun a ha => hok k a (hr.1 a ha), fun e he => herr k e (hr.2 e he)⟩

theorem Tries.ask {effect : E α} (hmay : t.may k effect) (h : ∀ a, ok (t.after k effect a) a) :
    t.Tries ok err k (Attempt.ask effect : Attempt E ε α) := by
  have hcall : t.Obeys (fun k' a => k' = t.after k effect a) k (Program.perform effect) :=
    .call hmay fun a => .done rfl
  refine Obeys.bind hcall ?_
  · rintro _ a rfl
    refine .done ⟨fun b hb => ?_, fun e he => ?_⟩
    · cases hb
      exact h a
    · cases he

theorem Tries.perform {effect : E (Except ε α)} (hmay : t.may k effect)
    (hok : ∀ a, ok (t.after k effect (.ok a)) a)
    (herr : ∀ e, err (t.after k effect (.error e)) e) :
    t.Tries ok err k (Attempt.perform effect : Attempt E ε α) := by
  refine .call hmay fun r => .done ⟨fun a ha => ?_, fun e he => ?_⟩
  · rw [ha]
    exact hok a
  · rw [he]
    exact herr e

/-- An attempt whose failure is kept as an answer. -/
theorem Tries.kept {err' : κ → ε → Prop} {attempt : Attempt E ε α} (h : t.Tries ok err k attempt) :
    t.Tries (fun k r => (∀ a, r = .ok a → ok k a) ∧ ∀ e, r = .error e → err k e) err' k
      (ExceptT.lift attempt.run : Attempt E ε (Except ε α)) := by
  refine Obeys.bind h fun k r hr => ?_
  refine .done ⟨fun r' hr' => ?_, fun e he => ?_⟩
  · cases hr'
    exact hr
  · cases he

end Attempts

end Typestate

/-- A shared state that answers calls, what becomes of it when everything stops and starts anew, and
the programs that may be started over it. -/
structure System (E : Type → Type) (σ : Type u) where
  starts : σ → Prop
  answers : σ → {β : Type} → E β → β → σ → Prop
  restarts : σ → σ → Prop
  spawns : Program E Unit → Prop

namespace System

variable {E : Type → Type} {κ σ : Type u} (w : System E σ)

/-- One step of the programs that run beside each other: one is started, has a call answered, or
stops for good, or all of them stop and the state starts anew. -/
inductive Step : σ × List (Program E Unit) → σ × List (Program E Unit) → Prop
  | spawn {s : σ} {running : List (Program E Unit)} {program : Program E Unit}
      (hspawn : w.spawns program) : Step (s, running) (s, program :: running)
  | answer {s s' : σ} {front back : List (Program E Unit)} {β : Type} {effect : E β}
      {next : β → Program E Unit} {b : β} (hanswer : w.answers s effect b s') :
      Step (s, front ++ .call effect next :: back) (s', front ++ next b :: back)
  | stop {s : σ} {front back : List (Program E Unit)} {program : Program E Unit} :
      Step (s, front ++ program :: back) (s, front ++ back)
  | restart {s s' : σ} {running : List (Program E Unit)} (hrestart : w.restarts s s') :
      Step (s, running) (s', [])

/-- What a run has come to. -/
def Runs : σ × List (Program E Unit) → σ × List (Program E Unit) → Prop :=
  Relation.ReflTransGen w.Step

def Reached (c : σ × List (Program E Unit)) : Prop := ∃ s, w.starts s ∧ w.Runs (s, []) c

section Follow

variable (policy : {β : Type} → E β → σ → β × σ)

/-- Runs a program for at most `fuel` calls, each answered by `policy`. -/
def follow : ℕ → Program E Unit → σ → σ × Program E Unit
  | 0, program, s => (s, program)
  | _ + 1, .done a, s => (s, .done a)
  | fuel + 1, .call effect next, s => follow fuel (next (policy effect s).1) (policy effect s).2

/-- A program started beside others and followed. -/
def followed (fuel : ℕ) (program : Program E Unit) (c : σ × List (Program E Unit)) :
    σ × List (Program E Unit) :=
  ((System.follow policy fuel program c.1).1, (System.follow policy fuel program c.1).2 :: c.2)

variable {w} {policy}

/-- A program followed beside others is a run of the system that answers as `policy` does. -/
theorem Runs.follow (hpolicy : ∀ {β : Type} (effect : E β) (s : σ),
      w.answers s effect (policy effect s).1 (policy effect s).2)
    (fuel : ℕ) (program : Program E Unit) (s : σ) (back : List (Program E Unit)) :
    w.Runs (s, program :: back)
      ((System.follow policy fuel program s).1,
        (System.follow policy fuel program s).2 :: back) := by
  induction fuel generalizing program s with
  | zero => exact .refl
  | succ fuel ih =>
    cases program with
    | done a => exact .refl
    | call effect next =>
      have hstep : w.Step (s, [] ++ .call effect next :: back)
          ((policy effect s).2, [] ++ next (policy effect s).1 :: back) :=
            .answer (hpolicy effect s)
      exact .head hstep (ih _ _)

theorem Runs.followed (hpolicy : ∀ {β : Type} (effect : E β) (s : σ),
      w.answers s effect (policy effect s).1 (policy effect s).2)
    (fuel : ℕ) {program : Program E Unit} (hspawn : w.spawns program)
    (c : σ × List (Program E Unit)) : w.Runs c (System.followed policy fuel program c) :=
  .head (.spawn hspawn) (Runs.follow hpolicy fuel program c.1 c.2)

theorem Reached.runs {c c' : σ × List (Program E Unit)} (h : w.Reached c) (hruns : w.Runs c c') :
    w.Reached c' := by
  obtain ⟨s, hs, hstart⟩ := h
  exact ⟨s, hs, hstart.trans hruns⟩

end Follow

/-- A protocol over the state: what always holds, what a stage relies on, and which stages two
programs can be at beside each other. -/
structure Protocol (t : Typestate E κ) where
  valid : σ → Prop
  means : κ → σ → Prop
  apart : κ → κ → Prop
  idle : κ
  symm : ∀ k k', apart k k' → apart k' k
  idle_means : ∀ s, means idle s
  idle_apart : ∀ k, apart idle k
  starts : ∀ s, w.starts s → valid s
  spawns : ∀ program, w.spawns program → t.Obeys (fun _ _ => True) idle program
  step : ∀ {s s' : σ} {k : κ} {β : Type} {effect : E β} {b : β}, valid s → means k s →
    t.may k effect → w.answers s effect b s' → valid s' ∧ means (t.after k effect b) s' ∧
      ∀ k', apart k k' → means k' s → means k' s' ∧ apart (t.after k effect b) k'
  restart : ∀ {s s' : σ}, valid s → w.restarts s s' → valid s'

namespace Protocol

variable {w} {t : Typestate E κ} (P : w.Protocol t)

/-- The programs are at stages of the protocol that hold beside each other. -/
structure Staged (s : σ) (stages : List (κ × Program E Unit)) : Prop where
  obeys : ∀ x ∈ stages, t.Obeys (fun _ _ => True) x.1 x.2
  means : ∀ x ∈ stages, P.means x.1 s
  apart : stages.Pairwise fun x y => P.apart x.1 y.1

/-- The state is valid and the programs are at stages that hold in it. -/
def Upheld (c : σ × List (Program E Unit)) : Prop :=
  P.valid c.1 ∧ ∃ stages, stages.map Prod.snd = c.2 ∧ P.Staged c.1 stages

variable {P}

theorem Staged.sublist {s : σ} {stages stages' : List (κ × Program E Unit)}
    (h : P.Staged s stages) (hsub : stages'.Sublist stages) : P.Staged s stages' where
  obeys x hx := h.obeys x (hsub.subset hx)
  means x hx := h.means x (hsub.subset hx)
  apart := h.apart.sublist hsub

/-- A call of one program leaves it at a stage of the protocol and the others where they are. -/
theorem Staged.answer {s s' : σ} {front back : List (κ × Program E Unit)} {k : κ} {β : Type}
    {effect : E β} {next : β → Program E Unit} {b : β} (hvalid : P.valid s)
    (h : P.Staged s (front ++ (k, .call effect next) :: back)) (hanswer : w.answers s effect b s') :
    t.may k effect ∧ P.means k s ∧ P.valid s' ∧
      P.Staged s' (front ++ (t.after k effect b, next b) :: back) := by
  have hself := h.means (k, .call effect next) (by simp)
  obtain ⟨hmay, hresume⟩ : t.may k effect ∧
      ∀ b, t.Obeys (fun _ _ => True) (t.after k effect b) (next b) := by
    cases h.obeys (k, .call effect next) (by simp) with
    | call hmay resume => exact ⟨hmay, resume⟩
  obtain ⟨hvalid', hafter, hframe⟩ := P.step hvalid hself hmay hanswer
  have hapart := h.apart
  rw [List.pairwise_append, List.pairwise_cons] at hapart
  obtain ⟨hfront, ⟨hfirst, hback⟩, hcross⟩ := hapart
  have hbeside : ∀ x : κ × Program E Unit, x ∈ front ∨ x ∈ back →
      P.means x.1 s' ∧ P.apart (t.after k effect b) x.1 := by
    rintro x (hx | hx)
    · exact hframe x.1 (P.symm _ _ (hcross x hx _ List.mem_cons_self)) (h.means x (by simp [hx]))
    · exact hframe x.1 (hfirst x hx) (h.means x (by simp [hx]))
  have hcases : ∀ x : κ × Program E Unit, x ∈ front ++ (t.after k effect b, next b) :: back →
      x = (t.after k effect b, next b) ∨ x ∈ front ∨ x ∈ back := by
    intro x hx
    rw [List.mem_append, List.mem_cons] at hx
    tauto
  refine ⟨hmay, hself, hvalid', ?_, ?_, ?_⟩
  · intro x hx
    obtain rfl | hx := hcases x hx
    · exact hresume b
    · exact h.obeys x (by simp only [List.mem_append, List.mem_cons]; tauto)
  · intro x hx
    obtain rfl | hx := hcases x hx
    · exact hafter
    · exact (hbeside x hx).1
  · rw [List.pairwise_append, List.pairwise_cons]
    refine ⟨hfront, ⟨fun y hy => (hbeside y (.inr hy)).2, hback⟩, fun x hx y hy => ?_⟩
    obtain rfl | hy := List.mem_cons.mp hy
    · exact P.symm _ _ (hbeside x (.inl hx)).2
    · exact hcross x hx y (List.mem_cons_of_mem _ hy)

/-- A step keeps the protocol; if it answers a call, then of a program whose stage allows it. -/
theorem Upheld.step {c c' : σ × List (Program E Unit)} (h : P.Upheld c) (hstep : w.Step c c') :
    P.Upheld c' := by
  obtain ⟨hvalid, stages, hmap, hstaged⟩ := h
  cases hstep with
  | @spawn _ _ program hspawn =>
    refine ⟨hvalid, (P.idle, program) :: stages, by rw [List.map_cons, hmap], ?_, ?_, ?_⟩
    · rw [List.forall_mem_cons]
      exact ⟨P.spawns _ hspawn, hstaged.obeys⟩
    · rw [List.forall_mem_cons]
      exact ⟨P.idle_means _, hstaged.means⟩
    · exact List.Pairwise.cons (fun y _ => P.idle_apart y.1) hstaged.apart
  | answer hanswer =>
    obtain ⟨front, rest, rfl, rfl, hrest⟩ := List.map_eq_append_iff.mp hmap
    obtain ⟨⟨k, program⟩, back, rfl, rfl, rfl⟩ := List.map_eq_cons_iff.mp hrest
    obtain ⟨-, -, hvalid', hstaged'⟩ := hstaged.answer hvalid hanswer
    exact ⟨hvalid', _, by simp, hstaged'⟩
  | stop =>
    obtain ⟨front, rest, rfl, rfl, hrest⟩ := List.map_eq_append_iff.mp hmap
    obtain ⟨stopped, back, rfl, rfl, rfl⟩ := List.map_eq_cons_iff.mp hrest
    refine ⟨hvalid, front ++ back, by simp, hstaged.sublist ?_⟩
    exact (List.Sublist.refl front).append (List.sublist_cons_self stopped back)
  | restart hrestart =>
    exact ⟨P.restart hvalid hrestart, [], rfl, by simp, by simp, List.Pairwise.nil⟩

theorem Upheld.runs {c c' : σ × List (Program E Unit)} (h : P.Upheld c) (hruns : w.Runs c c') :
    P.Upheld c' := by
  induction hruns with
  | refl => exact h
  | tail _ hstep ih => exact ih.step hstep

variable (P)

theorem upheld {c : σ × List (Program E Unit)} (h : w.Reached c) : P.Upheld c := by
  obtain ⟨s, hs, hruns⟩ := h
  have hstart : P.Upheld (s, []) :=
    ⟨P.starts s hs, [], rfl, by simp, by simp, List.Pairwise.nil⟩
  exact hstart.runs hruns

/-- What every allowed call and every restart keep to, a whole run keeps to. -/
theorem runs_along {R : σ → σ → Prop} (hrefl : ∀ s, R s s)
    (htrans : ∀ s s' s'', R s s' → R s' s'' → R s s'')
    (hanswer : ∀ {s s' : σ} {k : κ} {β : Type} {effect : E β} {b : β}, P.valid s → P.means k s →
      t.may k effect → w.answers s effect b s' → R s s')
    (hrestart : ∀ {s s' : σ}, P.valid s → w.restarts s s' → R s s')
    {c c' : σ × List (Program E Unit)} (h : w.Reached c) (hruns : w.Runs c c') : R c.1 c'.1 := by
  induction hruns with
  | refl => exact hrefl _
  | @tail d d' hd hstep ih =>
    apply htrans _ _ _ ih
    obtain ⟨hvalid, stages, hmap, hstaged⟩ := (P.upheld h).runs hd
    cases hstep with
    | spawn => exact hrefl _
    | answer hansw =>
      obtain ⟨front, rest, rfl, rfl, hrest⟩ := List.map_eq_append_iff.mp hmap
      obtain ⟨⟨k, program⟩, back, rfl, rfl, rfl⟩ := List.map_eq_cons_iff.mp hrest
      obtain ⟨hmay, hmeans, -, -⟩ := hstaged.answer hvalid hansw
      exact hanswer hvalid hmeans hmay hansw
    | stop => exact hrefl _
    | restart hrest => exact hrestart hvalid hrest

end Protocol
end System
end ScreenerBot.Library
