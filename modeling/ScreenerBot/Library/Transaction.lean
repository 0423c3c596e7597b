import Mathlib.Tactic

/-! Programs of statements over a store, and the transaction of a connection that runs them. Any
statement may fail; a program stops at the first one that does. -/
namespace ScreenerBot.Library

universe u

/-- A program of statements over a store, which may stop with an error of its own in between. -/
inductive Statements (σ ε α : Type u) : Type (u + 1) where
  | done (result : Except ε α)
  | statement {β : Type u} (act : σ → β × σ) (next : β → Statements σ ε α)

namespace Statements

variable {σ ε α β : Type u}

def bind : Statements σ ε α → (α → Statements σ ε β) → Statements σ ε β
  | done (.error error), _ => done (.error error)
  | done (.ok a), f => f a
  | statement act next, f => statement act fun b => (next b).bind f

instance : Monad (Statements σ ε) where
  pure a := done (.ok a)
  bind := bind

/-- What a program does to a store when no statement fails. -/
def eval : Statements σ ε α → σ → Except ε (α × σ)
  | done result, s => result.map (·, s)
  | statement act next, s => (next (act s).1).eval (act s).2

@[simp]
theorem eval_pure (a : α) (s : σ) : (pure a : Statements σ ε α).eval s = pure (a, s) := rfl

@[simp]
theorem eval_bind (p : Statements σ ε α) (f : α → Statements σ ε β) (s : σ) :
    (p >>= f).eval s = p.eval s >>= fun r => (f r.1).eval r.2 := by
  induction p generalizing s with
  | done result => cases result <;> rfl
  | statement act next ih => exact ih (act s).1 (act s).2

end Statements

/-- How a transaction that ran to its end is closed: its writes are kept, or dropped with it. -/
inductive Ending (α : Type u) where
  | commit (a : α)
  | drop (a : α)

/-- A connection to a store, and what is relied on of its write transactions: a statement sees and
changes only what the open transaction holds, and what is committed changes only by a commit that
succeeds. -/
structure Connection (κ σ ε : Type u) where
  committed : κ → σ
  /-- The store as the open transaction sees it. -/
  working : κ → Option σ
  begin : κ → Except ε PUnit.{u + 1} × κ
  exec : {β : Type u} → (σ → β × σ) → κ → Except ε β × κ
  commit : κ → Except ε PUnit.{u + 1} × κ
  rollback : κ → κ
  begin_committed : ∀ k, committed (begin k).2 = committed k
  begin_working : ∀ k, (begin k).1 = .ok ⟨⟩ → working (begin k).2 = some (committed k)
  exec_committed : ∀ {β : Type u} (act : σ → β × σ) (k : κ) (s : σ), working k = some s →
    committed (exec act k).2 = committed k
  exec_working : ∀ {β : Type u} (act : σ → β × σ) (k : κ) (s : σ) (b : β), working k = some s →
    (exec act k).1 = .ok b → b = (act s).1 ∧ working (exec act k).2 = some (act s).2
  commit_committed : ∀ k s, working k = some s → (commit k).1 = .ok ⟨⟩ →
    committed (commit k).2 = s
  commit_refused : ∀ k error, (commit k).1 = .error error →
    committed (commit k).2 = committed k
  rollback_committed : ∀ k, committed (rollback k) = committed k

namespace Connection

variable {κ σ ε α : Type u} (c : Connection κ σ ε)

/-- Runs a program in the open transaction, up to its first failed statement. -/
def run : Statements σ ε α → κ → Except ε α × κ
  | .done result, k => (result, k)
  | .statement act next, k =>
    match c.exec act k with
    | (.error error, k) => (.error error, k)
    | (.ok b, k) => run (next b) k

/-- Runs a program in a transaction of its own, rolled back unless it is committed. -/
def transact (body : Statements σ ε (Ending α)) (k : κ) : Except ε α × κ :=
  match c.begin k with
  | (.error error, k) => (.error error, k)
  | (.ok _, k) =>
    match c.run body k with
    | (.error error, k) => (.error error, c.rollback k)
    | (.ok (.drop a), k) => (.ok a, c.rollback k)
    | (.ok (.commit a), k) =>
      match c.commit k with
      | (.error error, k) => (.error error, c.rollback k)
      | (.ok _, k) => (.ok a, k)

/-- Inside a transaction a program changes nothing committed, and one that ends without an error
did to the working store what it does when no statement fails. -/
theorem run_spec (body : Statements σ ε α) {k : κ} {s : σ} (h : c.working k = some s) :
    c.committed (c.run body k).2 = c.committed k ∧
      ∀ a, (c.run body k).1 = .ok a →
        ∃ s', body.eval s = .ok (a, s') ∧ c.working (c.run body k).2 = some s' := by
  induction body generalizing k s with
  | done result =>
    refine ⟨rfl, fun a ha => ⟨s, ?_, h⟩⟩
    rw [Statements.eval, show result = .ok a from ha]
    rfl
  | statement act next ih =>
    have hcommitted := c.exec_committed act k s h
    have hworking := fun b => c.exec_working act k s b h
    simp only [Connection.run]
    cases hexec : c.exec act k with
    | mk result k' =>
      rw [hexec] at hcommitted hworking
      cases result with
      | error error => exact ⟨hcommitted, nofun⟩
      | ok b =>
        obtain ⟨rfl, hnext⟩ := hworking b rfl
        obtain ⟨hkept, hended⟩ := ih (act s).1 hnext
        exact ⟨hkept.trans hcommitted, hended⟩

/-- A transaction that ends with an error leaves what was committed as it was. One that ends without
an error ran its program on it, and committed what it left unless it dropped it. -/
theorem transact_spec (body : Statements σ ε (Ending α)) (k : κ) :
    (∀ error, (c.transact body k).1 = .error error →
      c.committed (c.transact body k).2 = c.committed k) ∧
    ∀ a, (c.transact body k).1 = .ok a →
      (body.eval (c.committed k)).map Prod.fst = .ok (.drop a) ∧
        c.committed (c.transact body k).2 = c.committed k ∨
      body.eval (c.committed k) = .ok (.commit a, c.committed (c.transact body k).2) := by
  have hbegin := c.begin_committed k
  have hworking := c.begin_working k
  unfold transact
  cases hb : c.begin k with
  | mk started k₁ =>
    rw [hb] at hbegin hworking
    cases started with
    | error error => exact ⟨fun _ _ => hbegin, nofun⟩
    | ok u =>
      obtain ⟨hkept, hended⟩ := c.run_spec body (hworking rfl)
      dsimp only
      cases hr : c.run body k₁ with
      | mk result k₂ =>
        rw [hr] at hkept hended
        replace hkept : c.committed k₂ = c.committed k := hkept.trans hbegin
        have hrolled := (c.rollback_committed k₂).trans hkept
        cases result with
        | error error => exact ⟨fun _ _ => hrolled, nofun⟩
        | ok ending =>
          obtain ⟨s', heval, hs'⟩ := hended ending rfl
          cases ending with
          | drop a =>
            refine ⟨nofun, fun b hb => .inl ⟨?_, hrolled⟩⟩
            obtain rfl : a = b := Except.ok.inj hb
            rw [heval]
            rfl
          | commit a =>
            have hcommit := c.commit_committed k₂ s' hs'
            have hrefused := c.commit_refused k₂
            dsimp only
            cases hc : c.commit k₂ with
            | mk outcome k₃ =>
              rw [hc] at hcommit hrefused
              cases outcome with
              | error error =>
                refine ⟨fun _ _ => ?_, nofun⟩
                exact ((c.rollback_committed k₃).trans (hrefused error rfl)).trans hkept
              | ok u =>
                refine ⟨nofun, fun b hb => .inr ?_⟩
                obtain rfl : a = b := Except.ok.inj hb
                rw [heval, hcommit rfl]

end Connection

/-- A connection whose statements fail as a script says; a script that ran out fails none. -/
structure Scripted (σ ε : Type u) where
  committed : σ
  working : Option σ
  script : List (Option ε)

namespace Scripted

variable {σ ε : Type u}

/-- The next entry of the script, and the connection after it. -/
def next (k : Scripted σ ε) : Option ε × Scripted σ ε :=
  (k.script.head?.join, { k with script := k.script.tail })

def connection : Connection (Scripted σ ε) σ ε where
  committed := committed
  working := working
  begin k := match k.next with
    | (some error, k) => (.error error, k)
    | (none, k) => (.ok ⟨⟩, { k with working := some k.committed })
  exec act k := match k.next with
    | (some error, k) => (.error error, k)
    | (none, k) =>
      let r := act (k.working.getD k.committed)
      (.ok r.1, { k with working := some r.2 })
  commit k := match k.next with
    | (some error, k) => (.error error, k)
    | (none, k) => (.ok ⟨⟩, { k with committed := k.working.getD k.committed, working := none })
  rollback k := { k with working := none }
  begin_committed k := by unfold next; cases k.script.head?.join <;> rfl
  begin_working k h := by
    unfold next at h ⊢
    cases hs : k.script.head?.join <;> simp_all
  exec_committed act k s h := by unfold next; cases k.script.head?.join <;> rfl
  exec_working act k s b h hb := by
    unfold next at hb ⊢
    cases hs : k.script.head?.join <;> simp_all
  commit_committed k s h hc := by
    unfold next at hc ⊢
    cases hs : k.script.head?.join <;> simp_all
  commit_refused k error h := by
    unfold next at h ⊢
    cases hs : k.script.head?.join <;> simp_all
  rollback_committed k := rfl

/-- Without a script every statement of a program runs. -/
theorem run_unfailing {α : Type u} (body : Statements σ ε α) (s₀ s : σ) :
    ∃ working, connection.run body ⟨s₀, some s, []⟩ =
      ((body.eval s).map Prod.fst, ⟨s₀, working, []⟩) ∧
      ∀ a s', body.eval s = .ok (a, s') → working = some s' := by
  induction body generalizing s with
  | done result =>
    refine ⟨some s, ?_, fun a s' h => ?_⟩
    · cases result <;> rfl
    · cases result with
      | error error => cases h
      | ok b => exact congrArg some (congrArg Prod.snd (Except.ok.inj h))
  | statement act next ih => exact ih (act s).1 (act s).2

/-- Without a script a transaction commits what its program does. -/
theorem transact_unfailing {α : Type u} (body : Statements σ ε (Ending α)) (s : σ) (a : α) (s' : σ)
    (h : body.eval s = .ok (.commit a, s')) :
    connection.transact body ⟨s, none, []⟩ = (.ok a, ⟨s', none, []⟩) := by
  obtain ⟨working, hrun, hworking⟩ := run_unfailing body s s
  obtain rfl := hworking _ s' h
  have hbegin : connection.begin (⟨s, none, []⟩ : Scripted σ ε) = (.ok ⟨⟩, ⟨s, some s, []⟩) := rfl
  rw [Connection.transact, hbegin]
  dsimp only
  rw [hrun, h]
  rfl

end Scripted

end ScreenerBot.Library
