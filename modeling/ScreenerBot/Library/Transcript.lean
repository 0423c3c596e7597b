import ScreenerBot.Library.Process

/-! The calls one run of a program makes, each with the answer it is given, and what holds of every
run whatever the answers are. Calls may run beside each other over one shared state, each ending
with a result of its own. -/
namespace ScreenerBot.Library

/-- A call and the answer it was given. -/
structure Exchange (E : Type → Type) : Type 1 where
  {β : Type}
  effect : E β
  answer : β

namespace Program

variable {E : Type → Type} {α β : Type} {program : Program E α} {f : α → Program E β}
  {t : List (Exchange E)}

/-- The runs of a program: what it exchanges, in order, and what it ends with. -/
inductive Answered {α : Type} : Program E α → List (Exchange E) → α → Prop
  | done (a : α) : Answered (.done a) [] a
  | call {β : Type} {effect : E β} {next : β → Program E α} {t : List (Exchange E)} {a : α}
      (b : β) (rest : Answered (next b) t a) : Answered (.call effect next) (⟨effect, b⟩ :: t) a

@[simp] theorem answered_done {a b : α} : (done a : Program E α).Answered t b ↔ t = [] ∧ b = a := by
  constructor
  · intro h
    cases h
    exact ⟨rfl, rfl⟩
  · rintro ⟨rfl, rfl⟩
    exact .done _

@[simp] theorem answered_pure {a b : α} :
    (pure a : Program E α).Answered t b ↔ t = [] ∧ b = a := answered_done

theorem answered_call {effect : E β} {next : β → Program E α} {a : α} :
    (call effect next).Answered t a ↔ ∃ b t', t = ⟨effect, b⟩ :: t' ∧ (next b).Answered t' a := by
  constructor
  · intro h
    cases h with
    | call b rest => exact ⟨b, _, rfl, rest⟩
  · rintro ⟨b, t', rfl, rest⟩
    exact .call b rest

@[simp] theorem answered_perform {effect : E α} {a : α} :
    (perform effect).Answered t a ↔ t = [⟨effect, a⟩] := by
  simp only [perform, answered_call, answered_done]
  constructor
  · rintro ⟨b, t', rfl, rfl, rfl⟩
    rfl
  · rintro rfl
    exact ⟨a, [], rfl, rfl, rfl⟩

/-- A run of one program after another is a run of each. -/
theorem answered_bind {b : β} :
    (program >>= f).Answered t b ↔
      ∃ t₁ a t₂, t = t₁ ++ t₂ ∧ program.Answered t₁ a ∧ (f a).Answered t₂ b := by
  constructor
  · intro h
    induction program generalizing t with
    | done a => exact ⟨[], a, t, rfl, .done a, h⟩
    | call effect next ih =>
      obtain ⟨c, t', rfl, rest⟩ := answered_call.mp h
      obtain ⟨t₁, a, t₂, rfl, h₁, h₂⟩ := ih c rest
      exact ⟨⟨effect, c⟩ :: t₁, a, t₂, rfl, .call c h₁, h₂⟩
  · rintro ⟨t₁, a, t₂, rfl, h₁, h₂⟩
    induction h₁ with
    | done a => exact h₂
    | call c rest ih => exact .call c (ih h₂)

theorem answered_map {g : α → β} {b : β} :
    (g <$> program).Answered t b ↔ ∃ a, program.Answered t a ∧ b = g a := by
  have hmap : g <$> program = program >>= fun a => pure (g a) := rfl
  rw [hmap, answered_bind]
  simp only [answered_pure]
  constructor
  · rintro ⟨t₁, a, t₂, rfl, hprogram, rfl, rfl⟩
    exact ⟨a, by simpa using hprogram, rfl⟩
  · rintro ⟨a, hprogram, rfl⟩
    exact ⟨t, a, [], by simp, hprogram, rfl, rfl⟩

/-- A run that starts with a call goes on from its answer. -/
theorem answered_perform_bind {effect : E α} {b : β} :
    (perform effect >>= f).Answered t b ↔ ∃ a t', t = ⟨effect, a⟩ :: t' ∧ (f a).Answered t' b :=
  answered_call

/-- Whatever the answers, every call of a run satisfies `P`. -/
def Asks (P : Exchange E → Prop) (program : Program E α) : Prop :=
  ∀ t a, program.Answered t a → ∀ x ∈ t, P x

variable {P Q : Exchange E → Prop}

theorem Asks.mono (h : Asks P program) (hPQ : ∀ x, P x → Q x) : Asks Q program :=
  fun t a ht x hx => hPQ x (h t a ht x hx)

theorem Asks.done (a : α) : Asks P (.done a : Program E α) := by
  intro t b hb x hx
  obtain ⟨rfl, rfl⟩ := answered_done.mp hb
  cases hx

theorem Asks.pure (a : α) : Asks P (pure a : Program E α) := .done a

theorem Asks.perform {effect : E α} (h : ∀ a, P ⟨effect, a⟩) : Asks P (perform effect) := by
  intro t a ha x hx
  rw [answered_perform] at ha
  rw [ha, List.mem_singleton] at hx
  exact hx ▸ h a

theorem Asks.bind (h : Asks P program) (hf : ∀ a, Asks P (f a)) : Asks P (program >>= f) := by
  intro t b hb x hx
  obtain ⟨t₁, a, t₂, rfl, h₁, h₂⟩ := answered_bind.mp hb
  rcases List.mem_append.mp hx with hx | hx
  · exact h t₁ a h₁ x hx
  · exact hf a t₂ b h₂ x hx

end Program

namespace Attempt

open Program

variable {E : Type → Type} {ε α β : Type} {attempt : Attempt E ε α} {f : α → Attempt E ε β}
  {t : List (Exchange E)}

/-- The runs of an attempt, with the error it stopped at or its result. -/
abbrev Answered (attempt : Attempt E ε α) (t : List (Exchange E)) (r : Except ε α) : Prop :=
  Program.Answered attempt.run t r

/-- Whatever the answers, every call of a run satisfies `P`. -/
abbrev Asks (P : Exchange E → Prop) (attempt : Attempt E ε α) : Prop :=
  Program.Asks P attempt.run

@[simp] theorem answered_pure {a : α} {r : Except ε α} :
    Answered (pure a : Attempt E ε α) t r ↔ t = [] ∧ r = .ok a := Program.answered_done

@[simp] theorem answered_throw {e : ε} {r : Except ε α} :
    Answered (throw e : Attempt E ε α) t r ↔ t = [] ∧ r = .error e := Program.answered_done

@[simp] theorem answered_perform {effect : E (Except ε α)} {r : Except ε α} :
    Answered (perform effect) t r ↔ t = [⟨effect, r⟩] := Program.answered_perform

/-- A run of one attempt after another stops with the error of the first, or goes on from what the
first ended with. -/
theorem answered_bind {r : Except ε β} :
    Answered (attempt >>= f) t r ↔
      (∃ e, r = .error e ∧ Answered attempt t (.error e)) ∨
      ∃ t₁ a t₂, t = t₁ ++ t₂ ∧ Answered attempt t₁ (.ok a) ∧ Answered (f a) t₂ r := by
  have hbind : (attempt >>= f).run = attempt.run >>= ExceptT.bindCont f := rfl
  rw [Answered, hbind, Program.answered_bind]
  constructor
  · rintro ⟨t₁, a, t₂, rfl, h₁, h₂⟩
    cases a with
    | error e =>
      obtain ⟨rfl, rfl⟩ := Program.answered_done.mp h₂
      exact .inl ⟨e, rfl, by simpa using h₁⟩
    | ok a => exact .inr ⟨t₁, a, t₂, rfl, h₁, h₂⟩
  · rintro (⟨e, rfl, h⟩ | ⟨t₁, a, t₂, rfl, h₁, h₂⟩)
    · exact ⟨t, .error e, [], by simp, h, .done _⟩
    · exact ⟨t₁, .ok a, t₂, rfl, h₁, h₂⟩

@[simp] theorem answered_performWith {ε' : Type} {g : ε' → ε} {effect : E (Except ε' α)}
    {r : Except ε α} :
    Answered (performWith g effect) t r ↔ ∃ a, t = [⟨effect, a⟩] ∧ r = a.mapError g := by
  rw [Answered, performWith, ExceptT.run_mk, Program.answered_map]
  simp only [Program.answered_perform]

theorem answered_lift {program : Program E α} {r : Except ε α} :
    Answered (ExceptT.lift program : Attempt E ε α) t r ↔
      ∃ a, program.Answered t a ∧ r = .ok a := by
  have hlift : (ExceptT.lift program : Attempt E ε α).run
      = program >>= fun a => pure (.ok a) := rfl
  rw [Answered, hlift, Program.answered_bind]
  simp only [Program.answered_pure]
  constructor
  · rintro ⟨t₁, a, t₂, rfl, hprogram, rfl, rfl⟩
    exact ⟨a, by simpa using hprogram, rfl⟩
  · rintro ⟨a, hprogram, rfl⟩
    exact ⟨t, a, [], by simp, hprogram, rfl, rfl⟩

/-- A program that always has a result is run before the attempt that reads it. -/
theorem answered_lift_bind {program : Program E α} {r : Except ε β} :
    Answered (ExceptT.lift program >>= f) t r ↔
      ∃ t₁ a t₂, t = t₁ ++ t₂ ∧ program.Answered t₁ a ∧ Answered (f a) t₂ r := by
  rw [answered_bind]
  simp only [answered_lift]
  constructor
  · rintro (⟨e, rfl, a, -, ⟨⟩⟩ | ⟨t₁, a, t₂, rfl, ⟨a', hprogram, ha⟩, hf⟩)
    cases ha
    exact ⟨t₁, _, t₂, rfl, hprogram, hf⟩
  · rintro ⟨t₁, a, t₂, rfl, hprogram, hf⟩
    exact .inr ⟨t₁, a, t₂, rfl, ⟨a, hprogram, rfl⟩, hf⟩

theorem answered_ask_bind {effect : E α} {r : Except ε β} :
    Answered (ask effect >>= f) t r ↔ ∃ a t', t = ⟨effect, a⟩ :: t' ∧ Answered (f a) t' r := by
  rw [ask, answered_lift_bind]
  simp only [Program.answered_perform]
  constructor
  · rintro ⟨t₁, a, t₂, rfl, rfl, hf⟩
    exact ⟨a, t₂, rfl, hf⟩
  · rintro ⟨a, t', rfl, hf⟩
    exact ⟨_, a, t', rfl, rfl, hf⟩

variable {P : Exchange E → Prop}

theorem Asks.pure (a : α) : Asks P (pure a : Attempt E ε α) := Program.Asks.done _

theorem Asks.throw (e : ε) : Asks P (throw e : Attempt E ε α) := Program.Asks.done _

/-- A result that is already there asks nothing. -/
theorem Asks.of (r : Except ε α) : Asks P (ExceptT.mk (Pure.pure r) : Attempt E ε α) :=
  Program.Asks.done r

theorem Asks.bind (h : Asks P attempt) (hf : ∀ a, Asks P (f a)) : Asks P (attempt >>= f) := by
  intro t r hr x hx
  rcases answered_bind.mp hr with ⟨e, rfl, hrun⟩ | ⟨t₁, a, t₂, rfl, h₁, h₂⟩
  · exact h t _ hrun x hx
  · rcases List.mem_append.mp hx with hx | hx
    · exact h t₁ _ h₁ x hx
    · exact hf a t₂ r h₂ x hx

theorem Asks.performWith {ε' : Type} {g : ε' → ε} {effect : E (Except ε' α)}
    (h : ∀ a, P ⟨effect, a⟩) : Asks P (performWith g effect) := by
  intro t r hr x hx
  obtain ⟨a, rfl, -⟩ := answered_performWith.mp hr
  rw [List.mem_singleton] at hx
  exact hx ▸ h a

theorem Asks.lift {program : Program E α} (h : Program.Asks P program) :
    Asks P (ExceptT.lift program : Attempt E ε α) := by
  intro t r hr x hx
  obtain ⟨a, hrun, -⟩ := answered_lift.mp hr
  exact h t a hrun x hx

end Attempt

section Attributed

variable {E : Type → Type} {ν ε α β : Type} {reads : List (ν × Exchange E)}

/-- A run of a program, each call with the party that answered it. -/
abbrev Program.AnsweredBy (program : Program E α) (reads : List (ν × Exchange E)) (a : α) : Prop :=
  program.Answered (reads.map Prod.snd) a

/-- A run of an attempt, each call with the party that answered it. -/
abbrev Attempt.AnsweredBy (attempt : Attempt E ε α) (reads : List (ν × Exchange E))
    (r : Except ε α) : Prop := Program.AnsweredBy attempt.run reads r

@[simp] theorem Program.answeredBy_pure {a b : α} :
    (pure a : Program E α).AnsweredBy reads b ↔ reads = [] ∧ b = a := by
  simp [Program.AnsweredBy]

theorem Program.answeredBy_bind {program : Program E α} {f : α → Program E β} {b : β} :
    (program >>= f).AnsweredBy reads b ↔ ∃ reads₁ a reads₂, reads = reads₁ ++ reads₂ ∧
      program.AnsweredBy reads₁ a ∧ (f a).AnsweredBy reads₂ b := by
  rw [AnsweredBy, answered_bind]
  constructor
  · rintro ⟨t₁, a, t₂, ht, h₁, h₂⟩
    obtain ⟨reads₁, reads₂, rfl, rfl, rfl⟩ := List.map_eq_append_iff.mp ht
    exact ⟨reads₁, a, reads₂, rfl, h₁, h₂⟩
  · rintro ⟨reads₁, a, reads₂, rfl, h₁, h₂⟩
    exact ⟨_, a, _, List.map_append, h₁, h₂⟩

theorem Program.answeredBy_perform_bind {effect : E α} {f : α → Program E β} {b : β} :
    (perform effect >>= f).AnsweredBy reads b ↔ ∃ party a rest,
      reads = (party, ⟨effect, a⟩) :: rest ∧ (f a).AnsweredBy rest b := by
  rw [AnsweredBy, answered_perform_bind]
  constructor
  · rintro ⟨a, t, ht, h⟩
    obtain ⟨⟨party, exchange⟩, rest, rfl, rfl, rfl⟩ := List.map_eq_cons_iff.mp ht
    exact ⟨party, a, rest, rfl, h⟩
  · rintro ⟨party, a, rest, rfl, h⟩
    exact ⟨a, _, rfl, h⟩

theorem Attempt.answeredBy_bind {attempt : Attempt E ε α} {f : α → Attempt E ε β}
    {r : Except ε β} :
    Attempt.AnsweredBy (attempt >>= f) reads r ↔
      (∃ e, r = .error e ∧ Attempt.AnsweredBy attempt reads (.error e)) ∨
      ∃ reads₁ a reads₂, reads = reads₁ ++ reads₂ ∧ Attempt.AnsweredBy attempt reads₁ (.ok a) ∧
        Attempt.AnsweredBy (f a) reads₂ r := by
  rw [Attempt.AnsweredBy, Program.AnsweredBy, ← Attempt.Answered, answered_bind]
  constructor
  · rintro (⟨e, rfl, h⟩ | ⟨t₁, a, t₂, ht, h₁, h₂⟩)
    · exact .inl ⟨e, rfl, h⟩
    · obtain ⟨reads₁, reads₂, rfl, rfl, rfl⟩ := List.map_eq_append_iff.mp ht
      exact .inr ⟨reads₁, a, reads₂, rfl, h₁, h₂⟩
  · rintro (⟨e, rfl, h⟩ | ⟨reads₁, a, reads₂, rfl, h₁, h₂⟩)
    · exact .inl ⟨e, rfl, h⟩
    · exact .inr ⟨_, a, _, List.map_append, h₁, h₂⟩

/-- An attempt that succeeds has run each of its parts to its result. -/
theorem Attempt.answeredBy_bind_ok {attempt : Attempt E ε α} {f : α → Attempt E ε β} {b : β} :
    Attempt.AnsweredBy (attempt >>= f) reads (.ok b) ↔ ∃ reads₁ a reads₂,
      reads = reads₁ ++ reads₂ ∧ Attempt.AnsweredBy attempt reads₁ (.ok a) ∧
        Attempt.AnsweredBy (f a) reads₂ (.ok b) := by
  rw [answeredBy_bind]
  constructor
  · rintro (⟨e, he, -⟩ | h)
    · cases he
    · exact h
  · exact .inr

theorem Attempt.answeredBy_performWith {ε' : Type} {g : ε' → ε} {effect : E (Except ε' α)}
    {r : Except ε α} :
    Attempt.AnsweredBy (performWith g effect) reads r ↔
      ∃ party a, reads = [(party, ⟨effect, a⟩)] ∧ r = a.mapError g := by
  rw [Attempt.AnsweredBy, Program.AnsweredBy, ← Attempt.Answered, answered_performWith]
  constructor
  · rintro ⟨a, ht, rfl⟩
    obtain ⟨⟨party, exchange⟩, rfl, rfl⟩ := List.map_eq_singleton_iff.mp ht
    exact ⟨party, a, rfl, rfl⟩
  · rintro ⟨party, a, rfl, rfl⟩
    exact ⟨a, rfl, rfl⟩

theorem Attempt.answeredBy_ask_bind {effect : E α} {f : α → Attempt E ε β} {r : Except ε β} :
    Attempt.AnsweredBy (ask effect >>= f) reads r ↔ ∃ party a rest,
      reads = (party, ⟨effect, a⟩) :: rest ∧ Attempt.AnsweredBy (f a) rest r := by
  rw [Attempt.AnsweredBy, Program.AnsweredBy, ← Attempt.Answered, answered_ask_bind]
  constructor
  · rintro ⟨a, t, ht, h⟩
    obtain ⟨⟨party, exchange⟩, rest, rfl, rfl, rfl⟩ := List.map_eq_cons_iff.mp ht
    exact ⟨party, a, rest, rfl, h⟩
  · rintro ⟨party, a, rest, rfl, h⟩
    exact ⟨a, _, rfl, h⟩

theorem Attempt.answeredBy_lift {program : Program E α} {r : Except ε α} :
    Attempt.AnsweredBy (ExceptT.lift program : Attempt E ε α) reads r ↔
      ∃ a, program.AnsweredBy reads a ∧ r = .ok a := answered_lift

end Attributed

variable {E : Type → Type} {σ ρ : Type}

/-- A shared state and the programs that run over it. -/
structure Shared (E : Type → Type) (σ ρ : Type) where
  starts : σ → Prop
  answers : σ → {β : Type} → E β → β → σ → Prop
  spawns : Program E ρ → Prop

/-- The states reached by steps that `allowed` admits, with the programs still running and the
results of the finished ones. `allowed` sees the state before the step and the other programs. -/
inductive Interleaved (w : Shared E σ ρ) (allowed : σ → List (Program E ρ) → Exchange E → Prop) :
    σ → List (Program E ρ) → List ρ → Prop
  | start {s : σ} (h : w.starts s) : Interleaved w allowed s [] []
  | spawn {s : σ} {running : List (Program E ρ)} {results : List ρ} {program : Program E ρ}
      (h : Interleaved w allowed s running results) (hspawn : w.spawns program) :
      Interleaved w allowed s (program :: running) results
  | answer {s s' : σ} {front back : List (Program E ρ)} {results : List ρ} {β : Type}
      {effect : E β} {next : β → Program E ρ} {b : β}
      (h : Interleaved w allowed s (front ++ .call effect next :: back) results)
      (hallowed : allowed s (front ++ back) ⟨effect, b⟩) (hanswer : w.answers s effect b s') :
      Interleaved w allowed s' (front ++ next b :: back) results
  | finish {s : σ} {front back : List (Program E ρ)} {results : List ρ} {r : ρ}
      (h : Interleaved w allowed s (front ++ .done r :: back) results) :
      Interleaved w allowed s (front ++ back) (r :: results)

section Steps

variable {w : Shared E σ ρ} {allowed : σ → List (Program E ρ) → Exchange E → Prop} {s s' : σ}
  {back : List (Program E ρ)} {results : List ρ} {β : Type} {effect : E β}
  {next : β → Program E ρ}

/-- The program started last takes a step. -/
theorem Interleaved.answer_first (b : β)
    (h : Interleaved w allowed s (.call effect next :: back) results)
    (hallowed : allowed s back ⟨effect, b⟩) (hanswer : w.answers s effect b s') :
    Interleaved w allowed s' (next b :: back) results := by
  rw [← List.nil_append (Program.call effect next :: back)] at h
  exact h.answer hallowed hanswer

theorem Interleaved.finish_first {r : ρ} (h : Interleaved w allowed s (.done r :: back) results) :
    Interleaved w allowed s back (r :: results) := by
  rw [← List.nil_append (Program.done r :: back)] at h
  exact h.finish

end Steps

namespace Program

variable {ε α : Type}

/-- Whatever its calls are answered, the program ends in an error. -/
inductive Fails : Program E (Except ε α) → Prop
  | done (e : ε) : Fails (.done (.error e))
  | call {β : Type} {effect : E β} {next : β → Program E (Except ε α)} (h : ∀ b, Fails (next b)) :
      Fails (.call effect next)

/-- Whatever its calls are answered, the program makes a call of `P`. -/
inductive Makes {α : Type} (P : (β : Type) → E β → Prop) : Program E α → Prop
  | now {β : Type} {effect : E β} {next : β → Program E α} (h : P β effect) :
      Makes P (.call effect next)
  | later {β : Type} {effect : E β} {next : β → Program E α} (h : ∀ b, Makes P (next b)) :
      Makes P (.call effect next)

/-- Each call the program makes is followed as `P` asks, whatever it is answered. -/
inductive Follows {α : Type} (P : Exchange E → Program E α → Prop) : Program E α → Prop
  | done (a : α) : Follows P (.done a)
  | call {β : Type} {effect : E β} {next : β → Program E α} (hnext : ∀ b, P ⟨effect, b⟩ (next b))
      (h : ∀ b, Follows P (next b)) : Follows P (.call effect next)

variable {β : Type} {effect : E β} {next : β → Program E (Except ε α)}

theorem Fails.after (h : Fails (.call effect next)) (b : β) : Fails (next b) := by
  cases h with
  | call h => exact h b

theorem Follows.after {P : Exchange E → Program E (Except ε α) → Prop}
    (h : Follows P (.call effect next)) (b : β) : P ⟨effect, b⟩ (next b) ∧ Follows P (next b) := by
  cases h with
  | call hnext h => exact ⟨hnext b, h b⟩

/-- A program that is still to make such a call makes it now or later. -/
theorem Makes.after {P : (β : Type) → E β → Prop} (h : Makes P (.call effect next)) :
    P β effect ∨ ∀ b, Makes P (next b) := by
  cases h with
  | now h => exact .inl h
  | later h => exact .inr h

end Program

end ScreenerBot.Library
