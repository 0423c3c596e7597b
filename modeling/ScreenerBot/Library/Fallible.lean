import Mathlib.Tactic

/-! Results of computations that may refuse. A loop whose turns may fail has a size that every turn
makes smaller; its rules are those of a `while` loop: an invariant for one run, and a relation for
the runs of two loops side by side. -/
namespace ScreenerBot.Library

universe u

variable {ε : Type*} {α β : Type u}

/-- A bind succeeds when both of its computations do. -/
theorem bind_eq_ok {x : Except ε α} {f : α → Except ε β} {b : β} :
    (x >>= f) = .ok b ↔ ∃ a, x = .ok a ∧ f a = .ok b := by
  cases x with
  | error e => exact ⟨nofun, fun ⟨_, h, _⟩ => nomatch h⟩
  | ok a => exact ⟨fun h => ⟨a, rfl, h⟩, fun ⟨_, h, hf⟩ => Except.ok.inj h ▸ hf⟩

theorem map_eq_ok {x : Except ε α} {f : α → β} {b : β} :
    x.map f = .ok b ↔ ∃ a, x = .ok a ∧ f a = b := by
  cases x with
  | error e => exact ⟨nofun, fun ⟨_, h, _⟩ => nomatch h⟩
  | ok a => exact ⟨fun h => ⟨a, rfl, Except.ok.inj h⟩, fun ⟨_, h, hf⟩ => by cases h; rw [← hf]; rfl⟩

theorem map_eq_error {x : Except ε α} {f : α → β} {e : ε} :
    x.map f = .error e ↔ x = .error e := by
  cases x with
  | error e' => exact ⟨fun h => congrArg Except.error (Except.error.inj h), fun h => by
    cases h; rfl⟩
  | ok a => exact ⟨nofun, nofun⟩

theorem exists_map_eq_ok {x : Except ε α} {f : α → β} :
    (∃ b, x.map f = .ok b) ↔ ∃ a, x = .ok a := by
  constructor
  · rintro ⟨b, h⟩
    obtain ⟨a, ha, -⟩ := map_eq_ok.mp h
    exact ⟨a, ha⟩
  · rintro ⟨a, rfl⟩
    exact ⟨f a, rfl⟩

/-- A refusal guards what follows it. -/
theorem refuse_eq_ok {c : Prop} [Decidable c] {e : ε} {f : α → Except ε β} {k : Except ε β}
    {b : β} : (if c then ((throw e : Except ε α) >>= f) else k) = .ok b ↔ ¬c ∧ k = .ok b := by
  split
  next h => exact ⟨nofun, fun hk => absurd h hk.1⟩
  next h => exact ⟨fun hk => ⟨h, hk⟩, And.right⟩

/-- What is raised is the refusal or comes from what follows it. -/
theorem refuse_eq_error {c : Prop} [Decidable c] {e e' : ε} {f : α → Except ε β} {k : Except ε β} :
    (if c then ((throw e : Except ε α) >>= f) else k) = .error e' ↔
      c ∧ e = e' ∨ ¬c ∧ k = .error e' := by
  split
  next h => exact ⟨fun hk => .inl ⟨h, Except.error.inj hk⟩,
    fun hk => congrArg Except.error (hk.resolve_right fun hk => hk.1 h).2⟩
  next h => exact ⟨fun hk => .inr ⟨h, hk⟩, fun hk => (hk.resolve_left fun hk => h hk.1).2⟩

section Steps

variable {σ α : Type*} {step : σ → α → Option σ} {P Q R : σ → Prop}

/-- From every state of `P` the steps all succeed, and end in `Q`. -/
def Achieves (step : σ → α → Option σ) (P : σ → Prop) (as : List α) (Q : σ → Prop) : Prop :=
  ∀ s, P s → ∃ s', as.foldlM step s = some s' ∧ Q s'

theorem Achieves.nil (h : ∀ s, P s → Q s) : Achieves step P [] Q :=
  fun s hs => ⟨s, rfl, h s hs⟩

theorem Achieves.single {a : α} (h : ∀ s, P s → ∃ s', step s a = some s' ∧ Q s') :
    Achieves step P [a] Q := by
  intro s hs
  obtain ⟨s', hstep, hq⟩ := h s hs
  exact ⟨s', by simp [hstep], hq⟩

theorem Achieves.weaken {as : List α} (hP : ∀ s, P s → R s) (h : Achieves step R as Q) :
    Achieves step P as Q := fun s hs => h s (hP s hs)

/-- What the first steps achieve is where the next ones start. -/
theorem Achieves.append {as bs : List α} (h : Achieves step P as Q) (h' : Achieves step Q bs R) :
    Achieves step P (as ++ bs) R := by
  intro s hs
  obtain ⟨mid, hmid, hq⟩ := h s hs
  obtain ⟨s', hs', hr⟩ := h' mid hq
  exact ⟨s', by rw [List.foldlM_append, hmid]; exact hs', hr⟩

/-- A run that succeeds has succeeded up to each of its steps, and there that step succeeds. -/
theorem foldlM_split {before after : List α} {a : α} {s s' : σ}
    (h : (before ++ a :: after).foldlM step s = some s') :
    ∃ mid next, before.foldlM step s = some mid ∧ step mid a = some next := by
  rw [List.foldlM_append] at h
  obtain ⟨mid, hmid, h⟩ := Option.bind_eq_some_iff.mp h
  rw [List.foldlM_cons] at h
  obtain ⟨next, hnext, -⟩ := Option.bind_eq_some_iff.mp h
  exact ⟨mid, next, hmid, hnext⟩

/-- What every step adds is added up over a run. -/
theorem foldlM_sum {M : Type*} [AddMonoid M] {size : σ → M} {gain : α → M}
    (hstep : ∀ s a s', step s a = some s' → size s' = size s + gain a) {as : List α} {s s' : σ}
    (h : as.foldlM step s = some s') : size s' = size s + (as.map gain).sum := by
  induction as generalizing s with
  | nil =>
    cases h
    simp
  | cons a as ih =>
    rw [List.foldlM_cons] at h
    obtain ⟨next, hnext, h⟩ := Option.bind_eq_some_iff.mp h
    rw [ih h, hstep s a next hnext, List.map_cons, List.sum_cons, add_assoc]

/-- What every step keeps holds where a run ends. -/
theorem foldlM_keeps {as : List α} (hstep : ∀ s, ∀ a ∈ as, ∀ s', step s a = some s' → P s → P s')
    {s s' : σ} (h : as.foldlM step s = some s') (hs : P s) : P s' := by
  induction as generalizing s with
  | nil =>
    cases h
    exact hs
  | cons a as ih =>
    rw [List.foldlM_cons] at h
    obtain ⟨next, hnext, h⟩ := Option.bind_eq_some_iff.mp h
    exact ih (fun s a ha => hstep s a (List.mem_cons_of_mem _ ha)) h
      (hstep s a List.mem_cons_self next hnext hs)

end Steps

structure FallibleLoop (ε σ : Type) where
  done : σ → Bool
  turn : σ → Except ε σ
  size : σ → ℕ
  shrinks : ∀ {s s'}, done s = false → turn s = .ok s' → size s' < size s

namespace FallibleLoop
variable {ε σ : Type} (l : FallibleLoop ε σ)

/-- Turns until the loop is done, or the first error. -/
def run (s : σ) : Except ε σ :=
  if _hdone : l.done s then .ok s
  else
    match _hturn : l.turn s with
    | .error e => .error e
    | .ok s' => run s'
termination_by l.size s
decreasing_by exact l.shrinks (Bool.eq_false_of_not_eq_true _hdone) _hturn

variable {l} {s s' : σ}

theorem run_of_done (h : l.done s = true) : l.run s = .ok s := by
  rw [run, dif_pos h]

theorem run_of_turn (h : l.done s = false) (hturn : l.turn s = .ok s') :
    l.run s = l.run s' := by
  rw [run, dif_neg (by simp [h])]
  split
  · simp_all
  · simp_all

theorem run_of_error {e : ε} (h : l.done s = false) (hturn : l.turn s = .error e) :
    l.run s = .error e := by
  rw [run, dif_neg (by simp [h])]
  split
  · simp_all
  · simp_all

/-- A loop whose first turn cannot succeed refuses. -/
theorem run_refuses (h : l.done s = false) (hno : ∀ s', l.turn s ≠ .ok s') :
    ∃ e, l.run s = .error e := by
  cases hturn : l.turn s with
  | error e => exact ⟨e, run_of_error h hturn⟩
  | ok s' => exact absurd hturn (hno s')

/-- A run that ends is done at once, or ends like the run after its first turn. -/
theorem run_ok {e : σ} (h : l.run s = .ok e) :
    l.done s = true ∧ e = s ∨ l.done s = false ∧ ∃ s', l.turn s = .ok s' ∧ l.run s' = .ok e := by
  cases hdone : l.done s with
  | true =>
    rw [run_of_done hdone] at h
    exact Or.inl ⟨rfl, (Except.ok.inj h).symm⟩
  | false =>
    cases hturn : l.turn s with
    | error err =>
      rw [run_of_error hdone hturn] at h
      cases h
    | ok s' => exact Or.inr ⟨rfl, s', rfl, run_of_turn hdone hturn ▸ h⟩

/-- What every turn keeps holds where the run ends. -/
theorem run_keeps {P : σ → Prop}
    (hturn : ∀ s s', P s → l.done s = false → l.turn s = .ok s' → P s') {e : σ}
    (h : l.run s = .ok e) (hs : P s) : P e ∧ l.done e = true := by
  induction hsize : l.size s using Nat.strong_induction_on generalizing s with
  | _ n ih =>
    rcases run_ok h with ⟨hdone, rfl⟩ | ⟨hdone, s', hstep, hrest⟩
    · exact ⟨hs, hdone⟩
    · exact ih (l.size s') (hsize ▸ l.shrinks hdone hstep) hrest (hturn s s' hs hdone hstep) rfl

/-- Two runs stay related while both go on; where the first is done, the rest of the second is
taken care of at once. -/
theorem run_relates {ε' τ : Type} {k : FallibleLoop ε' τ} {R Q : σ → τ → Prop}
    (hdone : ∀ s t f, R s t → l.done s = true → k.run t = .ok f → Q s f)
    (hturn : ∀ s t s', R s t → l.done s = false → l.turn s = .ok s' →
      k.done t = false ∧ ∀ t', k.turn t = .ok t' → R s' t')
    {e : σ} {t f : τ} (hs : l.run s = .ok e) (ht : k.run t = .ok f) (hst : R s t) : Q e f := by
  induction hsize : l.size s using Nat.strong_induction_on generalizing s t with
  | _ n ih =>
    rcases run_ok hs with ⟨hend, rfl⟩ | ⟨hgoes, s', hstep, hrest⟩
    · exact hdone _ t f hst hend ht
    · obtain ⟨htgoes, hkeeps⟩ := hturn s t s' hst hgoes hstep
      rcases run_ok ht with ⟨htend, _⟩ | ⟨_, t', htstep, htrest⟩
      · rw [htgoes] at htend
        cases htend
      · exact ih (l.size s') (hsize ▸ l.shrinks hgoes hstep) hrest htrest (hkeeps t' htstep) rfl

end FallibleLoop
end ScreenerBot.Library
