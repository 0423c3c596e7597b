import Mathlib

/-! Programs of atomic calls, run beside each other over one shared state, and calls that are made
only under a permit of their own. A program may stop for good before any of its calls. -/
namespace ScreenerBot.Library

universe u

/-- A program that makes calls one after the other, each answered before the next is chosen. -/
inductive Program (E : Type → Type) (α : Type) : Type 1 where
  | done (result : α)
  | call {β : Type} (effect : E β) (next : β → Program E α)

namespace Program

variable {E : Type → Type} {α β γ : Type}

def bind : Program E α → (α → Program E β) → Program E β
  | done a, f => f a
  | call effect next, f => call effect fun b => (next b).bind f

instance : Monad (Program E) where
  pure := done
  bind := bind

/-- The program of a single call. -/
def perform (effect : E α) : Program E α := call effect done

end Program

/-- A program that stops early with an error. -/
abbrev Attempt (E : Type → Type) (ε α : Type) := ExceptT ε (Program E) α

namespace Attempt

variable {E : Type → Type} {ε α γ : Type}

/-- A call that may fail. -/
def perform (effect : E (Except ε α)) : Attempt E ε α := Program.perform effect

/-- A call that may fail, with its failure told in the attempt's own errors. -/
def performWith {ε' : Type} (f : ε' → ε) (effect : E (Except ε' α)) : Attempt E ε α :=
  ExceptT.mk ((Except.mapError f) <$> Program.perform effect)

/-- A call that always has an answer. -/
def ask (effect : E α) : Attempt E ε α := ExceptT.lift (Program.perform effect)

/-- Runs `body` on the elements of a list in turn. -/
def each (body : γ → Attempt E ε Unit) : List γ → Attempt E ε Unit
  | [] => pure ()
  | c :: cs => do
    body c
    each body cs

/-- What `body` finds for the elements of a list, in their order. -/
def collect (body : γ → Attempt E ε (Option α)) : List γ → Attempt E ε (List α)
  | [] => pure []
  | c :: cs => do
    let found ← body c
    let rest ← collect body cs
    return found.toList ++ rest

end Attempt

/-- Calls that need a permit and answers that grant one. -/
structure Permits (E : Type → Type) (κ : Type) where
  needs : {β : Type} → E β → Option κ
  grants : {β : Type} → E β → β → Option κ

namespace Permits

variable {E : Type → Type} {κ : Type} (p : Permits E κ)

/-- The permits held after a call and its answer. -/
def after {β : Type} (held : Set κ) (effect : E β) (b : β) : Set κ :=
  {k | k ∈ held ∧ p.needs effect ≠ some k ∨ p.grants effect b = some k}

/-- A program started with the permits `held` makes each call only under the permit it needs, and
gives that permit up with the call. Whatever it ends with satisfies `post`, with the permits
left. -/
inductive Guarded {α : Type} (post : Set κ → α → Prop) : Set κ → Program E α → Prop
  | done {held : Set κ} {a : α} (h : post held a) : Guarded post held (.done a)
  | call {held : Set κ} {β : Type} {effect : E β} {next : β → Program E α}
      (permitted : ∀ k, p.needs effect = some k → k ∈ held)
      (resume : ∀ b, Guarded post (p.after held effect b) (next b)) :
      Guarded post held (.call effect next)

variable {p} {α β γ : Type} {held : Set κ}

theorem Guarded.bind {post : Set κ → α → Prop} {goal : Set κ → β → Prop} {program : Program E α}
    {f : α → Program E β} (h : p.Guarded post held program)
    (hf : ∀ left a, post left a → p.Guarded goal left (f a)) :
    p.Guarded goal held (program >>= f) := by
  induction h with
  | done h => exact hf _ _ h
  | call permitted resume ih => exact .call permitted ih

theorem Guarded.mono {post goal : Set κ → α → Prop} {program : Program E α}
    (h : p.Guarded post held program) (hpost : ∀ left a, post left a → goal left a) :
    p.Guarded goal held program := by
  induction h with
  | done h => exact .done (hpost _ _ h)
  | call permitted resume ih => exact .call permitted ih

/-- A call that neither needs nor grants a permit. -/
theorem Guarded.free {effect : E α} (hneeds : p.needs effect = none)
    (hgrants : ∀ a, p.grants effect a = none) :
    p.Guarded (fun left _ => left = held) held (Program.perform effect) := by
  refine .call (fun k hk => ?_) fun a => .done ?_
  · rw [hneeds] at hk
    cases hk
  · ext k
    simp [after, hneeds, hgrants]

variable {ε : Type}

variable (p) in

/-- A guarded attempt, which satisfies `post` where it does not fail. -/
def Tries (post : Set κ → α → Prop) (held : Set κ) (attempt : Attempt E ε α) : Prop :=
  p.Guarded (fun left r => ∀ a, r = .ok a → post left a) held attempt

variable (p) in

/-- An attempt that leaves the permits as they are. -/
abbrev Idle (held : Set κ) (attempt : Attempt E ε α) : Prop :=
  p.Tries (fun left _ => left = held) held attempt

theorem Tries.pure {post : Set κ → α → Prop} {a : α} (h : post held a) :
    p.Tries post held (pure a : Attempt E ε α) :=
  .done fun b hb => by
    cases hb
    exact h

theorem Tries.bind {post : Set κ → α → Prop} {goal : Set κ → β → Prop} {attempt : Attempt E ε α}
    {f : α → Attempt E ε β} (h : p.Tries post held attempt)
    (hf : ∀ left a, post left a → p.Tries goal left (f a)) : p.Tries goal held (attempt >>= f) := by
  refine Guarded.bind h fun left r hr => ?_
  cases r with
  | error error => exact .done nofun
  | ok a => exact hf left a (hr a rfl)

theorem Tries.guarded {post : Set κ → α → Prop} {attempt : Attempt E ε α}
    (h : p.Tries post held attempt) {goal : Set κ → Except ε α → Prop}
    (hgoal : ∀ left r, goal left r) : p.Guarded goal held attempt :=
  Guarded.mono h fun left r _ => hgoal left r

theorem Idle.then {goal : Set κ → β → Prop} {attempt : Attempt E ε α} {f : α → Attempt E ε β}
    (h : p.Idle held attempt) (hf : ∀ a, p.Tries goal held (f a)) :
    p.Tries goal held (attempt >>= f) := by
  apply h.bind
  rintro left a rfl
  exact hf a

theorem Idle.any {attempt : Attempt E ε α} (h : p.Idle held attempt) :
    p.Tries (fun _ _ => True) held attempt :=
  Guarded.mono h fun _ _ _ _ _ => trivial

theorem Idle.perform {effect : E (Except ε α)} (hneeds : p.needs effect = none)
    (hgrants : ∀ r, p.grants effect r = none) : p.Idle held (Attempt.perform effect) :=
  (Guarded.free hneeds hgrants).mono fun _ _ h _ _ => h

theorem Idle.ask {effect : E α} (hneeds : p.needs effect = none)
    (hgrants : ∀ a, p.grants effect a = none) :
      p.Idle held (Attempt.ask effect : Attempt E ε α) := by
  refine Guarded.bind (Guarded.free hneeds hgrants) fun left a h => .done fun b _ => h

theorem Idle.each {body : γ → Attempt E ε Unit} (l : List γ)
    (h : ∀ c ∈ l, p.Idle held (body c)) : p.Idle held (Attempt.each body l) := by
  induction l with
  | nil => exact Tries.pure rfl
  | cons c cs ih =>
    apply (h c List.mem_cons_self).then
    intro _
    exact ih fun d hd => h d (List.mem_cons_of_mem c hd)

/-- A body that is guarded whatever it starts with may run on every element. -/
theorem Tries.each {body : γ → Attempt E ε Unit} (l : List γ)
    (h : ∀ c ∈ l, ∀ held, p.Tries (fun _ _ => True) held (body c)) :
    p.Tries (fun _ _ => True) held (Attempt.each body l) := by
  induction l generalizing held with
  | nil => exact Tries.pure trivial
  | cons c cs ih =>
    apply (h c List.mem_cons_self held).bind
    intro left _ _
    exact ih fun d hd => h d (List.mem_cons_of_mem c hd)

theorem Idle.collect {body : γ → Attempt E ε (Option α)} (l : List γ)
    (h : ∀ c ∈ l, p.Idle held (body c)) : p.Idle held (Attempt.collect body l) := by
  induction l with
  | nil => exact Tries.pure rfl
  | cons c cs ih =>
    apply (h c List.mem_cons_self).then
    intro found
    apply (ih fun d hd => h d (List.mem_cons_of_mem c hd)).then
    intro rest
    exact Tries.pure rfl

end Permits

/-- A shared state that answers calls, the changes it undergoes beside them, and the programs that
may be started over it. -/
structure World (E : Type → Type) (σ : Type) where
  starts : σ → Prop
  answers : σ → {β : Type} → E β → β → σ → Prop
  moves : σ → σ → Prop
  spawns : Program E Unit → Prop

namespace Permits

variable {E : Type → Type} {κ σ : Type} (p : Permits E κ) (w : World E σ)

/-- The states reached by the programs running beside each other, those still running, the permits
granted to them so far and the permits their calls have used. -/
inductive Reached : σ → List (Program E Unit) → List κ → List κ → Prop
  | start {s : σ} (h : w.starts s) : Reached s [] [] []
  | spawn {s : σ} {running : List (Program E Unit)} {given used : List κ} {program : Program E Unit}
      (h : Reached s running given used) (hspawn : w.spawns program) :
      Reached s (program :: running) given used
  | answer {s s' : σ} {front back : List (Program E Unit)} {given used : List κ} {β : Type}
      {effect : E β} {next : β → Program E Unit} {b : β}
      (h : Reached s (front ++ .call effect next :: back) given used)
      (hanswer : w.answers s effect b s') :
      Reached s' (front ++ next b :: back) (given ++ (p.grants effect b).toList)
        (used ++ (p.needs effect).toList)
  | stop {s : σ} {front back : List (Program E Unit)} {given used : List κ}
      {program : Program E Unit}
      (h : Reached s (front ++ program :: back) given used) : Reached s (front ++ back) given used
  | move {s s' : σ} {running : List (Program E Unit)} {given used : List κ}
      (h : Reached s running given used) (hmove : w.moves s s') : Reached s' running given used

/-- The state remembers the permits it granted: none is granted twice, and none is forgotten. -/
structure Remembers (valid : σ → Prop) (granted : σ → Set κ) : Prop where
  starts : ∀ s, w.starts s → valid s
  valid_answer : ∀ {s s' : σ} {β : Type} {effect : E β} {b : β}, valid s →
    w.answers s effect b s' → valid s'
  valid_move : ∀ {s s' : σ}, valid s → w.moves s s' → valid s'
  kept : ∀ {s s' : σ} {β : Type} {effect : E β} {b : β}, valid s → w.answers s effect b s' →
    granted s ⊆ granted s'
  kept_move : ∀ {s s' : σ}, valid s → w.moves s s' → granted s ⊆ granted s'
  fresh : ∀ {s s' : σ} {β : Type} {effect : E β} {b : β} {k : κ}, valid s →
    w.answers s effect b s' → p.grants effect b = some k → k ∉ granted s ∧ k ∈ granted s'

/-- Each permit was granted once, and is held by one running program, used once, or neither. -/
structure Accounted (holders : List (Set κ × Program E Unit)) (given used : List κ) : Prop where
  guarded : ∀ h ∈ holders, p.Guarded (fun _ _ => True) h.1 h.2
  apart : holders.Pairwise fun h h' => Disjoint h.1 h'.1
  held : ∀ h ∈ holders, ∀ k ∈ h.1, k ∈ given ∧ k ∉ used
  spent : ∀ k ∈ used, k ∈ given
  once : used.Nodup
  given_once : given.Nodup

variable {p w}

/-- An answered call uses the permit it needs, and its program holds what the answer grants. -/
theorem Accounted.answer {front back : List (Set κ × Program E Unit)}
    {given used : List κ} {held : Set κ} {β : Type} {effect : E β}
    {next : β → Program E Unit} {b : β}
    (h : p.Accounted (front ++ (held, .call effect next) :: back) given used)
    (hfresh : ∀ k, p.grants effect b = some k → k ∉ given) :
    p.Accounted (front ++ (p.after held effect b, next b) :: back)
      (given ++ (p.grants effect b).toList) (used ++ (p.needs effect).toList) := by
  obtain ⟨hguarded, hapart, hheld, hspent, honce, hgiven⟩ := h
  have hself := hheld (held, .call effect next) (by simp)
  obtain ⟨hpermitted, hresume⟩ : (∀ k, p.needs effect = some k → k ∈ held) ∧
      ∀ b, p.Guarded (fun _ _ => True) (p.after held effect b) (next b) := by
    cases hguarded (held, .call effect next) (by simp) with
    | call hp hr => exact ⟨hp, hr⟩
  -- a permit another program holds is neither the one used here nor the one granted here
  have hother : ∀ other : Set κ, Disjoint held other → (∀ k ∈ other, k ∈ given) →
      Disjoint (p.after held effect b) other := by
    intro other hdisjoint hgranted
    rw [Set.disjoint_left]
    rintro k (⟨hk, -⟩ | hk) hkother
    · exact Set.disjoint_left.mp hdisjoint hk hkother
    · exact hfresh k hk (hgranted k hkother)
  have hunused : ∀ other :
      Set κ, Disjoint held other → ∀ k ∈ other, k ∉ (p.needs effect).toList := by
    intro other hdisjoint k hk hneeded
    rw [Option.mem_toList] at hneeded
    exact Set.disjoint_left.mp hdisjoint (hpermitted k hneeded) hk
  rw [List.pairwise_append, List.pairwise_cons] at hapart
  obtain ⟨hfront, ⟨hfirst, hback⟩, hcross⟩ := hapart
  have hbeside : ∀ x : Set κ × Program E Unit, x ∈ front ∨ x ∈ back → Disjoint held x.1 := by
    rintro x (hx | hx)
    · exact (hcross x hx _ List.mem_cons_self).symm
    · exact hfirst x hx
  have hwas : ∀ x : Set κ × Program E Unit, x ∈ front ∨ x ∈ back →
      x ∈ front ++ (held, .call effect next) :: back := by
    rintro x (hx | hx)
    · exact List.mem_append_left _ hx
    · exact List.mem_append_right _ (List.mem_cons_of_mem _ hx)
  have hcases : ∀ x : Set κ × Program E Unit,
      x ∈ front ++ (p.after held effect b, next b) :: back →
        x = (p.after held effect b, next b) ∨ x ∈ front ∨ x ∈ back := by
    intro x hx
    rcases List.mem_append.mp hx with hx | hx
    · exact .inr (.inl hx)
    · exact (List.mem_cons.mp hx).imp_right .inr
  constructor
  · intro x hx
    rcases hcases x hx with rfl | hx
    · exact hresume b
    · exact hguarded x (hwas x hx)
  · rw [List.pairwise_append, List.pairwise_cons]
    refine ⟨hfront, ⟨fun y hy => ?_, hback⟩, fun x hx y hy => ?_⟩
    · exact hother y.1 (hfirst y hy) fun k hk => (hheld y (hwas y (.inr hy)) k hk).1
    · rcases List.mem_cons.mp hy with rfl | hy
      · exact (hother x.1 (hbeside x (.inl hx)) fun k hk =>
          (hheld x (hwas x (.inl hx)) k hk).1).symm
      · exact hcross x hx y (List.mem_cons_of_mem _ hy)
  · intro x hx k hk
    rw [List.mem_append, List.mem_append, not_or]
    rcases hcases x hx with rfl | hx
    · rcases hk with ⟨hk, hne⟩ | hk
      · refine ⟨.inl (hself k hk).1, (hself k hk).2, ?_⟩
        rw [Option.mem_toList]
        exact hne
      · refine ⟨.inr (Option.mem_toList.mpr hk), fun hused => hfresh k hk (hspent k hused), ?_⟩
        intro hneeded
        rw [Option.mem_toList] at hneeded
        exact hfresh k hk (hself k (hpermitted k hneeded)).1
    · have hkept := hheld x (hwas x hx) k hk
      exact ⟨.inl hkept.1, hkept.2, hunused x.1 (hbeside x hx) k hk⟩
  · intro k hk
    rw [List.mem_append]
    rcases List.mem_append.mp hk with hk | hk
    · exact .inl (hspent k hk)
    · rw [Option.mem_toList] at hk
      exact .inl (hself k (hpermitted k hk)).1
  · refine List.nodup_append.mpr ⟨honce, ?_, ?_⟩
    · cases p.needs effect <;> simp
    · rintro k hk _ hneeded rfl
      rw [Option.mem_toList] at hneeded
      exact (hself k (hpermitted k hneeded)).2 hk
  · refine List.nodup_append.mpr ⟨hgiven, ?_, ?_⟩
    · cases p.grants effect b <;> simp
    · rintro k hk _ hgrant rfl
      exact hfresh k (Option.mem_toList.mp hgrant) hk

/-- Programs that start without a permit, over a state that remembers what it granted, are granted
every permit at most once and use it at most once, however they run beside each other and wherever
they stop. -/
theorem Reached.accounted {valid : σ → Prop} {granted : σ → Set κ}
    (hremembers : p.Remembers w valid granted)
    (hspawns : ∀ program, w.spawns program → p.Guarded (fun _ _ => True) ∅ program)
    {s : σ} {running : List (Program E Unit)} {given used : List κ}
    (h : p.Reached w s running given used) :
    valid s ∧ (∀ k ∈ given, k ∈ granted s) ∧
      ∃ holders, holders.map Prod.snd = running ∧ p.Accounted holders given used := by
  induction h with
  | start h =>
    exact ⟨hremembers.starts _ h, by simp, [], rfl, by simp, List.Pairwise.nil, by simp, by simp,
      List.nodup_nil, List.nodup_nil⟩
  | @spawn s running given used program h hspawn ih =>
    obtain ⟨hvalid, hgiven, holders, rfl, hguarded, hapart, hheld, hspent, honce, hgranted⟩ := ih
    refine ⟨hvalid, hgiven, (∅, program) :: holders, rfl, ?_, ?_, ?_, hspent, honce, hgranted⟩
    · intro x hx
      rcases List.mem_cons.mp hx with rfl | hx
      · exact hspawns program hspawn
      · exact hguarded x hx
    · exact List.Pairwise.cons (fun y _ => Set.empty_disjoint y.1) hapart
    · intro x hx k hk
      rcases List.mem_cons.mp hx with rfl | hx
      · cases hk
      · exact hheld x hx k hk
  | answer h hanswer ih =>
    obtain ⟨hvalid, hgiven, holders, hmap, haccounted⟩ := ih
    obtain ⟨front, rest, rfl, rfl, hrest⟩ := List.map_eq_append_iff.mp hmap
    obtain ⟨⟨held, program⟩, back, rfl, rfl, rfl⟩ := List.map_eq_cons_iff.mp hrest
    refine ⟨hremembers.valid_answer hvalid hanswer, fun k hk => ?_, _, ?_,
      haccounted.answer fun k hk hold => (hremembers.fresh hvalid hanswer hk).1 (hgiven k hold)⟩
    · rcases List.mem_append.mp hk with hk | hk
      · exact hremembers.kept hvalid hanswer (hgiven k hk)
      · exact (hremembers.fresh hvalid hanswer (Option.mem_toList.mp hk)).2
    · simp
  | stop h ih =>
    obtain ⟨hvalid, hgiven, holders, hmap, hguarded, hapart, hheld, hspent, honce, hgranted⟩ := ih
    obtain ⟨front, rest, rfl, rfl, hrest⟩ := List.map_eq_append_iff.mp hmap
    obtain ⟨stopped, back, rfl, rfl, rfl⟩ := List.map_eq_cons_iff.mp hrest
    have hsub : (front ++ back).Sublist (front ++ stopped :: back) :=
      (List.Sublist.refl front).append (List.sublist_cons_self stopped back)
    refine ⟨hvalid, hgiven, front ++ back, by simp, ?_, hapart.sublist hsub, ?_, hspent, honce,
      hgranted⟩
    · exact fun x hx => hguarded x (hsub.subset hx)
    · exact fun x hx => hheld x (hsub.subset hx)
  | move h hmove ih =>
    obtain ⟨hvalid, hgiven, hholders⟩ := ih
    exact ⟨hremembers.valid_move hvalid hmove,
      fun k hk => hremembers.kept_move hvalid hmove (hgiven k hk), hholders⟩

section Follow

variable (p) (policy : {β : Type} → E β → σ → β × σ)

/-- Runs a program for at most `fuel` calls, each answered by `policy`; the permits granted to it
and used by it. -/
def follow : ℕ → Program E Unit → σ → List κ → List κ → σ × Program E Unit × List κ × List κ
  | 0, program, s, given, used => (s, program, given, used)
  | _ + 1, .done a, s, given, used => (s, .done a, given, used)
  | fuel + 1, .call effect next, s, given, used =>
    follow fuel (next (policy effect s).1) (policy effect s).2
      (given ++ (p.grants effect (policy effect s).1).toList) (used ++ (p.needs effect).toList)

/-- A program followed by itself is a run of the world that answers as `policy` does. -/
theorem Reached.follow (hpolicy : ∀ {β : Type} (effect : E β) (s : σ),
      w.answers s effect (policy effect s).1 (policy effect s).2)
    (fuel : ℕ) : ∀ {s : σ} {program : Program E Unit} {given used : List κ},
      p.Reached w s [program] given used →
      p.Reached w (p.follow policy fuel program s given used).1
        [(p.follow policy fuel program s given used).2.1]
        (p.follow policy fuel program s given used).2.2.1
        (p.follow policy fuel program s given used).2.2.2 := by
  induction fuel with
  | zero => intro s program given used h; exact h
  | succ fuel ih =>
    intro s program given used h
    cases program with
    | done a => exact h
    | call effect next =>
      have hnext : p.Reached w (policy effect s).2 ([] ++ next (policy effect s).1 :: [])
          (given ++ (p.grants effect (policy effect s).1).toList)
          (used ++ (p.needs effect).toList) := .answer h (hpolicy effect s)
      exact ih hnext

end Follow

end Permits

end ScreenerBot.Library
