import ScreenerBot.Library.Transcript

/-! One worker that runs programs over a state which changes beside it, and that may be started anew
at any call. -/
namespace ScreenerBot.Library

variable {E : Type → Type} {σ ρ α β : Type}

/-- What answers calls, and the changes beside them. -/
structure Surroundings (E : Type → Type) (σ : Type) where
  answers : σ → {β : Type} → E β → β → σ → Prop
  moves : σ → σ → Prop

namespace Program

/-- From the state on, answered as `allowed` admits, the program keeps `inv` and ends in `post`. -/
def Safe (w : Surroundings E σ) (allowed : σ → Exchange E → Prop) (inv : σ → Prop)
    (post : σ → α → Prop) : Program E α → σ → Prop
  | .done a, s => post s a
  | .call effect next, s => ∀ s₁, Relation.ReflTransGen w.moves s s₁ → inv s₁ → ∀ b s₂,
      w.answers s₁ effect b s₂ → allowed s₁ ⟨effect, b⟩ →
        inv s₂ ∧ Safe w allowed inv post (next b) s₂

variable {w : Surroundings E σ} {allowed : σ → Exchange E → Prop} {inv : σ → Prop}
  {post : σ → α → Prop} {goal : σ → β → Prop} {program : Program E α} {f : α → Program E β} {s : σ}

theorem Safe.bind (h : program.Safe w allowed inv post s) (hinv : inv s)
    (hf : ∀ s a, inv s → post s a → (f a).Safe w allowed inv goal s) :
    (program >>= f).Safe w allowed inv goal s := by
  induction program generalizing s with
  | done a => exact hf s a hinv h
  | call effect next ih =>
    intro s₁ hmoves hinv₁ b s₂ hanswer hallowed
    obtain ⟨hinv₂, hnext⟩ := h s₁ hmoves hinv₁ b s₂ hanswer hallowed
    exact ⟨hinv₂, ih b hnext hinv₂⟩

theorem Safe.mono {post' : σ → α → Prop} (h : program.Safe w allowed inv post s)
    (hpost : ∀ s a, post s a → post' s a) : program.Safe w allowed inv post' s := by
  induction program generalizing s with
  | done a => exact hpost s a h
  | call effect next ih =>
    intro s₁ hmoves hinv₁ b s₂ hanswer hallowed
    obtain ⟨hinv₂, hnext⟩ := h s₁ hmoves hinv₁ b s₂ hanswer hallowed
    exact ⟨hinv₂, ih b hnext⟩

/-- What happens beside a program does not matter to it, when its end does not mind it. -/
theorem Safe.move {s' : σ} (h : program.Safe w allowed inv post s) (hmove : w.moves s s')
    (hpost : ∀ a, post s a → post s' a) : program.Safe w allowed inv post s' := by
  cases program with
  | done a => exact hpost a h
  | call effect next => exact fun s₁ hmoves => h s₁ (.head hmove hmoves)

end Program

/-- Surroundings in which nothing changes beside the program. -/
def Surroundings.alone (answers : σ → {β : Type} → E β → β → σ → Prop) : Surroundings E σ :=
  ⟨answers, fun _ _ => False⟩

section Alone

variable {answers : σ → {β : Type} → E β → β → σ → Prop} {allowed : σ → Exchange E → Prop}
  {inv : σ → Prop} {s : σ}

theorem Program.Safe.alone {post : σ → α → Prop} {effect : E β} {next : β → Program E α}
    (h : ∀ b s', answers s effect b s' → allowed s ⟨effect, b⟩ →
      inv s' ∧ (next b).Safe (.alone answers) allowed inv post s') :
    (Program.call effect next).Safe (.alone answers) allowed inv post s := by
  intro s₁ hmoves hinv b s₂ hanswer hallowed
  have hsame : s₁ = s := by
    cases hmoves with
    | refl => rfl
    | tail _ hmove => exact hmove.elim
  subst hsame
  exact h b s₂ hanswer hallowed

namespace Attempt

variable {ε γ : Type}

/-- What holds of a result, by whether it is a failure. -/
def Either (ok : α → Prop) (err : ε → Prop) : Except ε α → Prop
  | .ok a => ok a
  | .error e => err e

/-- An attempt with nothing beside it: each call it makes keeps `inv`, and it ends in `ok` where it
succeeds and in `err` where it fails. It may stop at any call, and then no more than `inv` is
left. -/
def Safe (answers : σ → {β : Type} → E β → β → σ → Prop) (allowed : σ → Exchange E → Prop)
    (inv : σ → Prop) (ok : σ → α → Prop) (err : σ → ε → Prop) (attempt : Attempt E ε α) (s : σ) :
    Prop :=
  Program.Safe (.alone answers) allowed inv (fun s => Either (ok s) (err s)) attempt.run s

variable {ok : σ → α → Prop} {err : σ → ε → Prop} {goal : σ → β → Prop}

theorem Safe.pure {a : α} (h : ok s a) :
    Safe answers allowed inv ok err (pure a : Attempt E ε α) s := h

theorem Safe.throw {e : ε} (h : err s e) :
    Safe answers allowed inv ok err (throw e : Attempt E ε α) s := h

theorem Safe.bind {attempt : Attempt E ε α} {f : α → Attempt E ε β}
    (h : Safe answers allowed inv ok err attempt s) (hinv : inv s)
    (hf : ∀ s a, inv s → ok s a → Safe answers allowed inv goal err (f a) s) :
    Safe answers allowed inv goal err (attempt >>= f) s := by
  refine Program.Safe.bind h hinv fun s r hinv hr => ?_
  cases r with
  | ok a => exact hf s a hinv hr
  | error e => exact hr

theorem Safe.mono {ok' : σ → α → Prop} {err' : σ → ε → Prop} {attempt : Attempt E ε α}
    (h : Safe answers allowed inv ok err attempt s) (hok : ∀ s a, ok s a → ok' s a)
    (herr : ∀ s e, err s e → err' s e) : Safe answers allowed inv ok' err' attempt s := by
  refine Program.Safe.mono h fun s r hr => ?_
  cases r with
  | ok a => exact hok s a hr
  | error e => exact herr s e hr

theorem Safe.ask {effect : E α} (h : ∀ a s', answers s effect a s' → allowed s ⟨effect, a⟩ →
      inv s' ∧ ok s' a) :
    Safe answers allowed inv ok err (Attempt.ask effect : Attempt E ε α) s :=
  Program.Safe.alone h

/-- A call that may fail, with its failure told in other words. -/
theorem Safe.performWith {f : γ → ε} {effect : E (Except γ α)}
    (hok : ∀ a s', answers s effect (.ok a) s' → allowed s ⟨effect, .ok a⟩ → inv s' ∧ ok s' a)
    (herr : ∀ e s', answers s effect (.error e) s' → allowed s ⟨effect, .error e⟩ →
      inv s' ∧ err s' (f e)) :
    Safe answers allowed inv ok err (Attempt.performWith f effect) s := by
  refine Program.Safe.alone fun r s' hanswer hallowed => ?_
  cases r with
  | ok a => exact hok a s' hanswer hallowed
  | error e => exact herr e s' hanswer hallowed

/-- An attempt whose failure is told in other words. -/
theorem Safe.adapt {err' : σ → γ → Prop} {f : ε → γ} {attempt : Attempt E ε α}
    (h : Safe answers allowed inv ok (fun s e => err' s (f e)) attempt s) (hinv : inv s) :
    Safe answers allowed inv ok err' (ExceptT.adapt f attempt : Attempt E γ α) s := by
  refine Program.Safe.bind h hinv fun s r _ hr => ?_
  cases r with
  | ok a => exact hr
  | error e => exact hr

section Loops

variable {P : σ → Prop} {Q : γ → σ → Prop} {cs : List γ}

/-- What each turn keeps and does, and does not undo for the others, all of them keep and do. -/
theorem Safe.each {body : γ → Attempt E ε Unit} (hinv : ∀ s, P s → inv s)
    (hbody : ∀ c ∈ cs, ∀ s, P s → Safe answers allowed inv
      (fun s' _ => P s' ∧ Q c s' ∧ ∀ d, Q d s → Q d s') err (body c) s) (h : P s) :
    Safe answers allowed inv (fun s' _ => P s' ∧ (∀ c ∈ cs, Q c s') ∧ ∀ d, Q d s → Q d s') err
      (Attempt.each body cs) s := by
  induction cs generalizing s with
  | nil => exact .pure ⟨h, by simp, fun _ hd => hd⟩
  | cons c cs ih =>
    refine (hbody c List.mem_cons_self s h).bind (hinv s h) fun s₁ _ _ hs₁ => ?_
    obtain ⟨hP, hc, hkept⟩ := hs₁
    have hrest := ih (fun d hd => hbody d (List.mem_cons_of_mem _ hd)) hP
    refine hrest.mono (fun s₂ _ hs₂ => ?_) fun _ _ he => he
    obtain ⟨hP₂, hcs, hkept₂⟩ := hs₂
    exact ⟨hP₂, List.forall_mem_cons.mpr ⟨hkept₂ c hc, hcs⟩, fun d hd => hkept₂ d (hkept d hd)⟩

theorem Safe.collect_cons {mid post : σ → Prop} {body : γ → Attempt E ε (Option α)} {c : γ}
    (hinv : inv s) (hbody : Safe answers allowed inv (fun s _ => mid s) err (body c) s)
    (hrest : ∀ s, inv s → mid s →
      Safe answers allowed inv (fun s _ => post s) err (Attempt.collect body cs) s) :
    Safe answers allowed inv (fun s _ => post s) err (Attempt.collect body (c :: cs)) s :=
  hbody.bind hinv fun s _ hinv hmid => (hrest s hinv hmid).bind hinv fun _ _ _ hpost => .pure hpost

end Loops

end Attempt

end Alone

/-- A worker between two programs, with what it remembers, or running one. -/
inductive Worker (E : Type → Type) (ρ : Type) : Type 1 where
  | idle (memory : ρ)
  | busy (program : Program E ρ)

/-- A worker over its surroundings: the programs it starts with, what it may do next, and what is
left of the state when it starts anew. -/
structure Machine (E : Type → Type) (σ ρ : Type) extends Surroundings E σ where
  starts : σ → Prop
  boots : Program E ρ → Prop
  turns : ρ → Program E ρ → Prop
  restarts : σ → σ → Prop

/-- The states a worker reaches by exchanges that `allowed` admits. -/
inductive Machine.Reached (m : Machine E σ ρ) (allowed : σ → Exchange E → Prop) :
    σ → Worker E ρ → Prop
  | start {s : σ} {program : Program E ρ} (h : m.starts s) (hboot : m.boots program) :
      Reached m allowed s (.busy program)
  | turn {s : σ} {memory : ρ} {program : Program E ρ} (h : Reached m allowed s (.idle memory))
      (hturn : m.turns memory program) : Reached m allowed s (.busy program)
  | answer {s s' : σ} {β : Type} {effect : E β} {next : β → Program E ρ} {b : β}
      (h : Reached m allowed s (.busy (.call effect next))) (hanswer : m.answers s effect b s')
      (hallowed : allowed s ⟨effect, b⟩) : Reached m allowed s' (.busy (next b))
  | finish {s : σ} {memory : ρ} (h : Reached m allowed s (.busy (.done memory))) :
      Reached m allowed s (.idle memory)
  | move {s s' : σ} {worker : Worker E ρ} (h : Reached m allowed s worker) (hmove : m.moves s s') :
      Reached m allowed s' worker
  | restart {s s' : σ} {worker : Worker E ρ} {program : Program E ρ}
      (h : Reached m allowed s worker) (hrestart : m.restarts s s') (hboot : m.boots program) :
      Reached m allowed s' (.busy program)

theorem Machine.Reached.mono {m : Machine E σ ρ} {allowed allowed' : σ → Exchange E → Prop} {s : σ}
    {worker : Worker E ρ} (h : m.Reached allowed s worker)
    (hallowed : ∀ s x, allowed s x → allowed' s x) : m.Reached allowed' s worker := by
  induction h with
  | start h hboot => exact .start h hboot
  | turn h hturn ih => exact ih.turn hturn
  | answer h hanswer hadmitted ih => exact ih.answer hanswer (hallowed _ _ hadmitted)
  | finish h ih => exact ih.finish
  | move h hmove ih => exact ih.move hmove
  | restart h hrestart hboot ih => exact ih.restart hrestart hboot

section Follow

variable (policy : {β : Type} → E β → σ → β × σ) (admits : {β : Type} → E β → β → Bool)

/-- Runs a program for at most `fuel` calls, each answered by `policy`, up to an answer that is not
admitted. -/
def Machine.follow : ℕ → Program E ρ → σ → σ × Program E ρ
  | 0, program, s => (s, program)
  | _ + 1, .done a, s => (s, .done a)
  | fuel + 1, .call effect next, s =>
    if admits effect (policy effect s).1 then
      Machine.follow fuel (next (policy effect s).1) (policy effect s).2
    else (s, .call effect next)

variable {policy} {admits} {m : Machine E σ ρ} {allowed : σ → Exchange E → Prop}

theorem Machine.Reached.follow
    (hpolicy : ∀ {β : Type} (effect : E β) (s : σ),
      m.answers s effect (policy effect s).1 (policy effect s).2)
    (hadmits : ∀ {β : Type} (s : σ) (effect : E β) (b : β),
      admits effect b = true → allowed s ⟨effect, b⟩)
    (fuel : ℕ) {program : Program E ρ} {s : σ} (h : m.Reached allowed s (.busy program)) :
    m.Reached allowed (Machine.follow policy admits fuel program s).1
      (.busy (Machine.follow policy admits fuel program s).2) := by
  induction fuel generalizing program s with
  | zero => exact h
  | succ fuel ih =>
    cases program with
    | done a => exact h
    | call effect next =>
      rw [Machine.follow]
      split_ifs with hadmitted
      · exact ih (h.answer (hpolicy effect s) (hadmits s effect _ hadmitted))
      · exact h

end Follow

/-- What every program of the worker keeps holds in every state, and between two programs it
remembers what they end with. -/
theorem Machine.Reached.invariant {m : Machine E σ ρ} {allowed : σ → Exchange E → Prop}
    {inv : σ → Prop} {post : σ → ρ → Prop} (hstarts : ∀ s, m.starts s → inv s)
    (hboots : ∀ s program, inv s → m.boots program →
      program.Safe m.toSurroundings allowed inv post s)
    (hturns : ∀ s memory program, inv s → post s memory → m.turns memory program →
      program.Safe m.toSurroundings allowed inv post s)
    (hmoves : ∀ s s', inv s → m.moves s s' → inv s' ∧ ∀ memory, post s memory → post s' memory)
    (hrestarts : ∀ s s', inv s → m.restarts s s' → inv s') {s : σ} {worker : Worker E ρ}
    (h : m.Reached allowed s worker) :
    inv s ∧ match worker with
      | .idle memory => post s memory
      | .busy program => program.Safe m.toSurroundings allowed inv post s := by
  induction h with
  | start h hboot => exact ⟨hstarts _ h, hboots _ _ (hstarts _ h) hboot⟩
  | turn h hturn ih => exact ⟨ih.1, hturns _ _ _ ih.1 ih.2 hturn⟩
  | answer h hanswer hallowed ih => exact ih.2 _ .refl ih.1 _ _ hanswer hallowed
  | finish h ih => exact ih
  | @move s s' worker h hmove ih =>
    obtain ⟨hinv, hpost⟩ := hmoves _ _ ih.1 hmove
    refine ⟨hinv, ?_⟩
    cases worker with
    | idle memory => exact hpost memory ih.2
    | busy program => exact Program.Safe.move ih.2 hmove hpost
  | restart h hrestart hboot ih =>
    have hinv := hrestarts _ _ ih.1 hrestart
    exact ⟨hinv, hboots _ _ hinv hboot⟩

end ScreenerBot.Library
