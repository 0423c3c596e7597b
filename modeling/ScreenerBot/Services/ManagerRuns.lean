import Mathlib
import ScreenerBot.Services.Manager

/-!
What holds of the running services over any sequence of passes and stops: a running service's
registered dependencies run too, but for those that were disabled when it came up.
-/
namespace ScreenerBot.Services
open Library Relation

namespace ServiceManager
variable {attempt : ServiceName → Except (String × List String) ℕ} {m : ServiceManager}
  {p : Pass} {hash : HashOrder} {ordered : List ServiceName}

@[simp] theorem services_down (n : ServiceName) (failure : StartFailure) :
    (m.down n failure).services = m.services := rfl

@[simp] theorem handles_down (n : ServiceName) (failure : StartFailure) :
    (m.down n failure).handles = m.handles := rfl

@[simp] theorem services_up (n : ServiceName) (tasks : ℕ) :
    (m.up n tasks).services = m.services := rfl

theorem mem_handles_up {n x : ServiceName} {tasks : ℕ} :
    x ∈ (m.up n tasks).handles ↔ x = n ∨ x ∈ m.handles := AList.mem_insert _

@[simp] theorem startOrdered_services :
    (m.startOrdered attempt ordered).1.services = m.services := by
  induction ordered generalizing m with
  | nil => rfl
  | cons n rest ih =>
    obtain ⟨_, h⟩ | ⟨_, _, _, _, h⟩ | ⟨_, _, _, _, _, h⟩ | ⟨_, _, _, _, _, _, _, h⟩ |
      ⟨_, _, _, _, _, _, _, h⟩ := startOrdered_cons_cases attempt m n rest
    all_goals rw [h]
    · exact ih
    · exact ih
    · exact ih
    · exact ih

/-- No pass stops a service. -/
theorem mem_handles_startOrdered {x : ServiceName} (hx : x ∈ m.handles) :
    x ∈ (m.startOrdered attempt ordered).1.handles := by
  induction ordered generalizing m with
  | nil => exact hx
  | cons n rest ih =>
    obtain ⟨_, h⟩ | ⟨_, _, _, _, h⟩ | ⟨_, _, _, _, _, h⟩ | ⟨_, _, _, _, _, _, _, h⟩ |
      ⟨_, _, _, _, _, _, _, h⟩ := startOrdered_cons_cases attempt m n rest
    all_goals rw [h]
    · exact ih hx
    · exact ih hx
    · exact ih (mem_handles_up.mpr (.inr hx))
    · exact hx
    · exact ih hx

theorem not_failed {service : Service} (h : m.failedDependency service = none) {d : ServiceName}
    (hd : d ∈ service.dependencies) : d ∉ m.startFailures := by
  have hnone := List.find?_eq_none.mp h d hd
  simpa using hnone

theorem known_up {done : List ServiceName} (h : ∀ x ∈ done, x ∈ m.handles ∨ x ∈ m.startFailures)
    {n : ServiceName} {tasks : ℕ} :
    ∀ x ∈ done ++ [n], x ∈ (m.up n tasks).handles ∨ x ∈ (m.up n tasks).startFailures := by
  intro x hx
  rw [mem_handles_up]
  by_cases hxn : x = n
  · exact .inl (.inl hxn)
  · have hdone : x ∈ done := by simpa [hxn] using hx
    obtain hup | hdown := h x hdone
    · exact .inl (.inr hup)
    · exact .inr (AList.mem_erase.mpr ⟨hxn, hdown⟩)

theorem known_down {done : List ServiceName} (h : ∀ x ∈ done, x ∈ m.handles ∨ x ∈ m.startFailures)
    {n : ServiceName} {failure : StartFailure} :
    ∀ x ∈ done ++ [n], x ∈ (m.down n failure).handles ∨ x ∈ (m.down n failure).startFailures := by
  intro x hx
  rw [handles_down, down, AList.mem_insert]
  by_cases hxn : x = n
  · exact .inr (.inl hxn)
  · have hdone : x ∈ done := by simpa [hxn] using hx
    exact (h x hdone).imp id .inr

/-- A service that comes up in a pass finds each of its dependencies running, unless `off` holds of
it: what stands before it and did not come up is known to be down, and it is not attempted then. -/
theorem startOrdered_dependencies (off : ServiceName → Prop) (done : List ServiceName)
    (hregistered : ∀ x ∈ ordered, x ∈ m.services)
    (hdone : ∀ x ∈ done, x ∈ m.handles ∨ x ∈ m.startFailures)
    (hordered : EachAfter (fun before n => ∀ d, m.services.DependsOn n d →
      d ∈ done ++ before ∨ d ∈ m.handles ∨ off d) ordered) {n d : ServiceName}
    (hup : n ∈ (m.startOrdered attempt ordered).1.handles) (hnew : n ∉ m.handles)
    (hd : m.services.DependsOn n d) :
    d ∈ (m.startOrdered attempt ordered).1.handles ∨ off d := by
  induction ordered generalizing m done with
  | nil => exact absurd hup hnew
  | cons x rest ih =>
    have hrest (y : ServiceName) (hy : y ∈ rest) := hregistered y (List.mem_cons_of_mem x hy)
    -- what stands before a service of the rest is done, or stands before it there
    have hafter : ∀ m' :
      ServiceManager, m'.services = m.services → (∀ y ∈ m.handles, y ∈ m'.handles) →
        EachAfter (fun before n => ∀ d, m'.services.DependsOn n d →
          d ∈ (done ++ [x]) ++ before ∨ d ∈ m'.handles ∨ off d) rest := by
      intro m' hservices hkept before y after he d hyd
      rw [hservices] at hyd
      obtain hbefore | hhandles | hoff := hordered (x :: before) y after (by rw [he]; rfl) d hyd
      · exact .inl (by simpa using hbefore)
      · exact .inr (.inl (hkept d hhandles))
      · exact .inr (.inr hoff)
    obtain ⟨hnone, _⟩ | ⟨_, _, _, _, h⟩ | ⟨service, tasks, hservice, hfailed, _, h⟩ |
      ⟨_, _, _, _, _, _, _, h⟩ | ⟨_, _, _, _, _, _, _, h⟩ :=
        startOrdered_cons_cases attempt m x rest
    · have hin := AList.lookup_isSome.mpr (hregistered x List.mem_cons_self)
      rw [hnone] at hin
      cases hin
    · rw [h] at hup ⊢
      exact ih (done ++ [x]) hrest (known_down hdone) (hafter _ rfl fun _ => id) hup hnew hd
    · rw [h] at hup ⊢
      by_cases hnx : n = x
      · subst hnx
        obtain ⟨service', hservice', hdeclared, _⟩ := id hd
        obtain rfl := Option.some.inj (hservice.symm.trans hservice')
        obtain hbefore | hhandles | hoff := hordered [] n rest rfl d hd
        · rw [List.append_nil] at hbefore
          have hrunning := (hdone d hbefore).resolve_right (not_failed hfailed hdeclared)
          exact .inl (mem_handles_startOrdered (mem_handles_up.mpr (.inr hrunning)))
        · exact .inl (mem_handles_startOrdered (mem_handles_up.mpr (.inr hhandles)))
        · exact .inr hoff
      · have hstill : n ∉ (m.up x tasks).handles := by
          rw [mem_handles_up]
          exact not_or.mpr ⟨hnx, hnew⟩
        exact ih (done ++ [x]) hrest (known_up hdone) (hafter _ rfl fun _ hy =>
          mem_handles_up.mpr (.inr hy)) hup
          hstill hd
    · rw [h] at hup
      exact absurd hup hnew
    · rw [h] at hup ⊢
      exact ih (done ++ [x]) hrest (known_down hdone) (hafter _ rfl fun _ => id) hup hnew hd

theorem mem_of_cameUp {n : ServiceName} (hup : n ∈ (m.startOrdered attempt ordered).1.handles)
    (hnew : n ∉ m.handles) : n ∈ ordered := by
  induction ordered generalizing m with
  | nil => exact absurd hup hnew
  | cons x rest ih =>
    obtain ⟨_, h⟩ | ⟨_, _, _, _, h⟩ | ⟨_, tasks, _, _, _, h⟩ | ⟨_, _, _, _, _, _, _, h⟩ |
      ⟨_, _, _, _, _, _, _, h⟩ := startOrdered_cons_cases attempt m x rest
    all_goals rw [h] at hup
    · exact List.mem_cons_of_mem x (ih hup hnew)
    · exact List.mem_cons_of_mem x (ih hup hnew)
    · by_cases hnx : n = x
      · exact hnx ▸ List.mem_cons_self
      · have hstill : n ∉ (m.up x tasks).handles := by
          rw [mem_handles_up]
          exact not_or.mpr ⟨hnx, hnew⟩
        exact List.mem_cons_of_mem x (ih hup hstill)
    · exact absurd hup hnew
    · exact List.mem_cons_of_mem x (ih hup hnew)

/-- What a pass does to what runs: nothing stops, and what comes up is registered, does not depend
on a cycle and finds what it depends on running, unless `off` holds of it. -/
structure Extends (m m' : ServiceManager) (off : ServiceName → Prop) : Prop where
  services_eq : m'.services = m.services
  kept : ∀ n ∈ m.handles, n ∈ m'.handles
  registered : ∀ n ∈ m'.handles, n ∉ m.handles → n ∈ m.services
  acyclic : ∀ n ∈ m'.handles, n ∉ m.handles →
    ∀ x, ReflTransGen m.services.DependsOn n x → ¬TransGen m.services.DependsOn x x
  supported : ∀ n ∈ m'.handles, n ∉ m.handles →
    ∀ d, m.services.DependsOn n d → d ∈ m'.handles ∨ off d

theorem Extends.refl (m : ServiceManager) (off : ServiceName → Prop) : m.Extends m off where
  services_eq := rfl
  kept _ := id
  registered _ hn hnew := absurd hn hnew
  acyclic _ hn hnew := absurd hn hnew
  supported _ hn hnew := absurd hn hnew

theorem startOrdered_extends {services full : List ServiceName} {skip : ServiceName → Bool}
    (hresolve : m.services.resolveStartupOrder hash services = .ok full)
    (hskip : ∀ n, skip n = true → n ∈ m.handles) :
    m.Extends (m.startOrdered attempt (m.attempted p skip full)).1 fun d =>
      p.retained d = false := by
  obtain ⟨hacyclic, hspec, _⟩ := Registry.resolveStartupOrder_spec hash m.services services
  obtain ⟨_, hneeded, hinOrder⟩ := hspec full hresolve
  have hmem : ∀ n, n ∈ m.attempted p skip full → n ∈ full ∧ n ∈ m.services := by
    intro n hn
    rw [attempted, List.mem_filter, Bool.and_eq_true, Bool.and_eq_true, decide_eq_true_iff] at hn
    exact ⟨hn.1, hn.2.1.1⟩
  constructor
  · exact startOrdered_services
  · exact fun n => mem_handles_startOrdered
  · exact fun n hup hnew => (hmem n (mem_of_cameUp hup hnew)).2
  · intro n hup hnew x hnx
    obtain ⟨s, hs, hregistered, hsn⟩ := (hneeded n).mp (hmem n (mem_of_cameUp hup hnew)).1
    exact hacyclic.mp ⟨full, hresolve⟩ x ⟨s, hs, hregistered, hsn.trans hnx⟩
  · intro n hup hnew d hd
    refine startOrdered_dependencies (fun d => p.retained d = false) [] (fun x hx => (hmem x hx).2)
      (fun x hx => absurd hx List.not_mem_nil) ?_ hup hnew hd
    refine EachAfter.filter _ hinOrder ?_
    intro before n _ hbefore d hd
    rw [List.nil_append, List.mem_filter]
    have hdbefore := hbefore.1 d hd
    obtain ⟨_, _, _, hdregistered⟩ := hd
    cases hretained : p.retained d with
    | false => exact .inr (.inr rfl)
    | true =>
      cases hrunning : skip d with
      | true => exact .inr (.inl (hskip d hrunning))
      | false => exact .inl ⟨hdbefore, by simp [hdregistered]⟩

theorem startAll_extends : m.Extends (m.startAll p).1 fun d => p.retained d = false := by
  rw [startAll]
  split
  next => exact .refl m _
  next full hresolve => exact startOrdered_extends hresolve fun n hn => by cases hn

theorem startEnabledAmong_extends (candidates : List ServiceName) :
    m.Extends (m.startEnabledAmong p candidates).1 fun d => p.retained d = false := by
  rw [startEnabledAmong]
  split_ifs
  · exact .refl m _
  · split
    next => exact .refl m _
    next full hresolve =>
      exact startOrdered_extends hresolve fun n hn => of_decide_eq_true hn

/-- A service is stopped only where no running one declares it. -/
theorem stopService_cases (hash : HashOrder) (name : ServiceName) :
    (m.stopService hash name).1 = m ∨
      (m.stopService hash name).1 = { m with handles := m.handles.erase name } ∧
        ∀ n ∈ m.handles, ¬m.services.DependsOn n name := by
  rw [stopService]
  split
  next => exact .inl rfl
  next => exact .inl rfl
  next =>
    split_ifs
    · exact .inl rfl
    · split
      next => exact .inl rfl
      next hnone =>
        refine .inr ⟨rfl, fun n hn hdepends => ?_⟩
        obtain ⟨service, hservice, hdeclared, _⟩ := hdepends
        have hlisted := (hash.perm _).mem_iff.mpr (AList.mem_keys.mp hn)
        have hnot := List.find?_eq_none.mp hnone n hlisted
        simp [hservice, hdeclared] at hnot

theorem mem_foldl_erase {handles : AList fun _ : ServiceName => ℕ} {l : List ServiceName}
    {n : ServiceName} :
    n ∈ l.foldl (fun handles n => handles.erase n) handles ↔ n ∈ handles ∧ n ∉ l := by
  induction l generalizing handles with
  | nil => simp
  | cons x l ih =>
    rw [List.foldl_cons, ih, AList.mem_erase, List.mem_cons, not_or]
    tauto

/-- When nothing running depends on a cycle, all of it stops, each after what depends on it. -/
theorem stopAll_spec (hregistered : ∀ n ∈ m.handles, n ∈ m.services)
    (hacyclic : ∀ n ∈ m.handles, ∀ x, ReflTransGen m.services.DependsOn n x →
      ¬TransGen m.services.DependsOn x x) (hash : HashOrder) :
    ∃ stopped, (m.stopAll hash).2 = .ok stopped ∧ stopped.Nodup ∧
      (∀ n ∈ m.handles, n ∈ stopped) ∧
      EachAfter (fun before d => ∀ n ∈ stopped, m.services.DependsOn n d → n ∈ before) stopped ∧
      ∀ n, n ∉ (m.stopAll hash).1.handles := by
  obtain ⟨hok, hspec, _⟩ :=
    Registry.resolveStartupOrder_spec hash m.services (hash.listing m.handles.keys)
  have hlisted : ∀ n, n ∈ hash.listing m.handles.keys ↔ n ∈ m.handles :=
    fun n => (hash.perm _).mem_iff.trans AList.mem_keys.symm
  obtain ⟨ordered, hresolve⟩ := hok.mpr fun x hx => by
    obtain ⟨s, hs, _, hsx⟩ := hx
    exact hacyclic s ((hlisted s).mp hs) x hsx
  obtain ⟨hnodup, hneeded, hinOrder⟩ := hspec ordered hresolve
  have hall : ordered.reverse.filter (· ∈ m.services) = ordered.reverse := by
    refine List.filter_eq_self.mpr fun n hn => decide_eq_true ?_
    obtain ⟨s, _, hs, hsn⟩ := (hneeded n).mp (List.mem_reverse.mp hn)
    cases hsn with
    | refl => exact hs
    | tail _ hstep =>
      obtain ⟨_, _, _, hn⟩ := hstep
      exact hn
  have hrunning : ∀ n ∈ m.handles, n ∈ ordered :=
    fun n hn => (hneeded n).mpr ⟨n, (hlisted n).mpr hn, hregistered n hn, .refl⟩
  rw [stopAll, hresolve]
  simp only [hall]
  refine ⟨_, rfl, List.nodup_reverse.mpr hnodup, ?_, ?_, ?_⟩
  · exact fun n hn => List.mem_reverse.mpr (hrunning n hn)
  · intro before d after he n hn hdepends
    have hordered : ordered = after.reverse ++ d :: before.reverse := by
      rw [← List.reverse_reverse ordered, he]
      simp
    rw [he, List.mem_append, List.mem_cons] at hn
    rw [hordered] at hnodup hinOrder
    obtain hbefore | rfl | hafter := hn
    · exact hbefore
    · have hn := (hinOrder _ _ _ rfl).1 n hdepends
      exact absurd rfl ((List.nodup_append.mp hnodup).2.2 n hn n List.mem_cons_self)
    · -- then `n` would start before `d`
      obtain ⟨front, back, hfront⟩ := List.append_of_mem (List.mem_reverse.mpr hafter)
      rw [hfront, List.append_assoc] at hnodup hinOrder
      have hd := (hinOrder front n _ rfl).1 d hdepends
      exact absurd rfl ((List.nodup_append.mp hnodup).2.2 d hd d (by simp))
  · intro n hn
    obtain ⟨hup, hnot⟩ := mem_foldl_erase.mp hn
    exact hnot (List.mem_reverse.mpr (hrunning n hup))

end ServiceManager

/-- What was disabled as a pass had its order. -/
def Event.off : Event → ServiceName → Prop
  | .startAll p, d => p.retained d = false
  | .startNewlyEnabled p, d => p.retained d = false
  | .startEnabledService p _, d => p.retained d = false
  | .stopService _ _, _ => False
  | .stopAll _, _ => False

/-- `n` came up in an event at which `d` was disabled, and has been running since. -/
def OffWhenUp (r : Registry) (events : List Event) (n d : ServiceName) : Prop :=
  ∃ before e after, events = before ++ e :: after ∧ n ∉ (run r before).handles ∧ e.off d ∧
    ∀ mid, mid <+: after → n ∈ (run r (before ++ e :: mid)).handles

theorem OffWhenUp.concat {r : Registry} {events : List Event} {n d : ServiceName}
    (h : OffWhenUp r events n d) {e : Event} (hup : n ∈ (run r (events ++ [e])).handles) :
    OffWhenUp r (events ++ [e]) n d := by
  obtain ⟨before, e', after, rfl, hnew, hoff, hsince⟩ := h
  refine ⟨before, e', after ++ [e], by simp, hnew, hoff, fun mid hmid => ?_⟩
  obtain rfl | hmid := List.prefix_concat_iff.mp hmid
  · simpa using hup
  · exact hsince mid hmid

/-- What holds of a manager after the events of its run. -/
structure Sound (r : Registry) (events : List Event) : Prop where
  services_eq : (run r events).services = r
  registered : ∀ n ∈ (run r events).handles, n ∈ r
  acyclic : ∀ n ∈ (run r events).handles, ∀ x, ReflTransGen r.DependsOn n x →
    ¬TransGen r.DependsOn x x
  supported : ∀ n ∈ (run r events).handles, ∀ d, r.DependsOn n d →
    d ∈ (run r events).handles ∨ OffWhenUp r events n d

theorem run_concat (r : Registry) (events : List Event) (e : Event) :
    run r (events ++ [e]) = step (run r events) e := by
  rw [run, List.foldl_concat]
  rfl

variable {r : Registry} {events : List Event} {e : Event}

theorem Sound.of_extends (h : Sound r events)
    (hext : (run r events).Extends (run r (events ++ [e])) e.off) : Sound r (events ++ [e]) := by
  constructor
  · exact hext.services_eq.trans h.services_eq
  · intro n hn
    by_cases hold : n ∈ (run r events).handles
    · exact h.registered n hold
    · exact h.services_eq ▸ hext.registered n hn hold
  · intro n hn
    by_cases hold : n ∈ (run r events).handles
    · exact h.acyclic n hold
    · have hacyclic := hext.acyclic n hn hold
      rwa [h.services_eq] at hacyclic
  · intro n hn d hd
    by_cases hold : n ∈ (run r events).handles
    · obtain hup | hoff := h.supported n hold d hd
      · exact .inl (hext.kept d hup)
      · exact .inr (hoff.concat hn)
    · obtain hup | hoff := hext.supported n hn hold d (by rwa [h.services_eq])
      · exact .inl hup
      · refine .inr ⟨events, e, [], rfl, hold, hoff, fun mid hmid => ?_⟩
        rw [List.prefix_nil.mp hmid]
        exact hn

/-- An event after which less runs, and nothing that runs lost a service it depends on. -/
theorem Sound.of_stops (h : Sound r events)
    (hservices : (run r (events ++ [e])).services = (run r events).services)
    (hfewer : ∀ n ∈ (run r (events ++ [e])).handles, n ∈ (run r events).handles)
    (hkept : ∀ n ∈ (run r (events ++ [e])).handles, ∀ d, r.DependsOn n d →
      d ∈ (run r events).handles → d ∈ (run r (events ++ [e])).handles) :
    Sound r (events ++ [e]) where
  services_eq := hservices.trans h.services_eq
  registered n hn := h.registered n (hfewer n hn)
  acyclic n hn := h.acyclic n (hfewer n hn)
  supported n hn d hd :=
    (h.supported n (hfewer n hn) d hd).imp (hkept n hn d hd) fun hoff => hoff.concat hn

theorem Sound.stopAll_spec (h : Sound r events) (hash : HashOrder) :
    ∃ stopped, ((run r events).stopAll hash).2 = .ok stopped ∧ stopped.Nodup ∧
      (∀ n ∈ (run r events).handles, n ∈ stopped) ∧
      EachAfter (fun before d => ∀ n ∈ stopped, r.DependsOn n d → n ∈ before) stopped ∧
      ∀ n, n ∉ ((run r events).stopAll hash).1.handles := by
  have hregistered := h.registered
  have hacyclic := h.acyclic
  have hspec := fun hreg hacyc => (run r events).stopAll_spec hreg hacyc hash
  rw [h.services_eq] at hspec
  exact hspec hregistered hacyclic

theorem stopAll_services (m : ServiceManager) (hash : HashOrder) :
    (m.stopAll hash).1.services = m.services := by
  rw [ServiceManager.stopAll]
  split <;> rfl

theorem sound_concat (h : Sound r events) (e : Event) : Sound r (events ++ [e]) := by
  cases e with
  | startAll p =>
    apply h.of_extends
    rw [run_concat]
    exact ServiceManager.startAll_extends
  | startNewlyEnabled p =>
    apply h.of_extends
    rw [run_concat]
    exact ServiceManager.startEnabledAmong_extends _
  | startEnabledService p name =>
    apply h.of_extends
    rw [run_concat]
    exact ServiceManager.startEnabledAmong_extends _
  | stopService hash name =>
    have hrun := run_concat r events (.stopService hash name)
    obtain hsame | ⟨herased, hfree⟩ := (run r events).stopService_cases hash name
    · have hrun : run r (events ++ [.stopService hash name]) = run r events := hrun.trans hsame
      apply h.of_stops
      · rw [hrun]
      · exact fun n hn => hrun ▸ hn
      · exact fun n _ d _ hd => hrun ▸ hd
    · have hrun := hrun.trans herased
      apply h.of_stops
      · rw [hrun]
      · intro n hn
        rw [hrun] at hn
        exact (AList.mem_erase.mp hn).2
      · intro n hn d hd hup
        rw [hrun] at hn ⊢
        refine AList.mem_erase.mpr ⟨?_, hup⟩
        rintro rfl
        exact hfree n (AList.mem_erase.mp hn).2 (h.services_eq.symm ▸ hd)
  | stopAll hash =>
    have hrun := run_concat r events (.stopAll hash)
    obtain ⟨_, _, _, _, _, hnone⟩ := h.stopAll_spec hash
    have hempty : ∀ n, n ∉ (run r (events ++ [.stopAll hash])).handles := by
      rw [hrun]
      exact hnone
    apply h.of_stops
    · rw [hrun]
      exact stopAll_services _ hash
    · exact fun n hn => absurd hn (hempty n)
    · exact fun n hn => absurd hn (hempty n)

theorem sound_run (r : Registry) (events : List Event) : Sound r events := by
  induction events using List.reverseRecOn with
  | nil =>
    constructor
    · rfl
    · exact fun n hn => absurd hn (AList.notMem_empty n)
    · exact fun n hn => absurd hn (AList.notMem_empty n)
    · exact fun n hn => absurd hn (AList.notMem_empty n)
  | append_singleton events e ih => exact sound_concat ih e

/-- Whatever passes and stops came before, a registered dependency of a running service runs too, or
it was disabled when the service came up, which has been running since. -/
theorem running_dependencies (r : Registry) (events : List Event) :
    ∀ n ∈ (run r events).handles, ∀ d, r.DependsOn n d →
      d ∈ (run r events).handles ∨ OffWhenUp r events n d :=
  (sound_run r events).supported

/-- Stopping everything never fails, whatever came before: all that runs stops, each service once
and only after everything stopped that depends on it. -/
theorem stopAll_complete (r : Registry) (events : List Event) (hash : HashOrder) :
    ∃ stopped, ((run r events).stopAll hash).2 = .ok stopped ∧ stopped.Nodup ∧
      (∀ n ∈ (run r events).handles, n ∈ stopped) ∧
      EachAfter (fun before d => ∀ n ∈ stopped, r.DependsOn n d → n ∈ before) stopped ∧
      ∀ n, n ∉ ((run r events).stopAll hash).1.handles :=
  (sound_run r events).stopAll_spec hash

/-- Two services, the first of which depends on the second. -/
def poolsAndTokens : Registry :=
  ((∅ : Registry).register "pools" ⟨false, 30, ["tokens"], false⟩).register "tokens"
    ⟨false, 30, [], false⟩

theorem poolsAndTokens_closure :
    poolsAndTokens.closure ⟨id, .refl⟩ ["tokens", "pools"] = ["tokens", "pools"] := by
  have hpending : (["tokens", "pools"].filter (· ∈ poolsAndTokens)).reverse =
      ["pools", "tokens"] := by
    decide
  have hpools : poolsAndTokens.declared ⟨id, .refl⟩ "pools" = ["tokens"] := by decide
  have htokens : poolsAndTokens.declared ⟨id, .refl⟩ "tokens" = [] := by decide
  simp only [Registry.closure, hpending, id]
  rw [reachFrom, dif_neg (by decide), hpools, List.singleton_append, reachFrom, dif_neg (by decide),
    htokens, List.nil_append, reachFrom, dif_pos (by decide), reachFrom]

theorem poolsAndTokens_order :
    poolsAndTokens.resolveStartupOrder ⟨id, .refl⟩ ["tokens", "pools"] =
      .ok ["tokens", "pools"] := by
  apply Registry.resolve_eq_ok.mpr
  simp only [Precedence.order, Precedence.start, Registry.precedence, poolsAndTokens_closure,
    List.length, Precedence.run]
  decide

/-- A pass in which both are enabled and start. -/
def bothStart : Pass := ⟨fun _ => true, fun _ => true, fun _ => .ok 1, ⟨id, .refl⟩⟩

theorem bothStart_up : "pools" ∈ (run poolsAndTokens [.startAll bothStart]).handles := by
  have hresolve : poolsAndTokens.resolveStartupOrder bothStart.hash ["tokens", "pools"]
      = .ok ["tokens", "pools"] := poolsAndTokens_order
  have henabled : (bothStart.hash.listing poolsAndTokens.keys).filter bothStart.enabled
      = ["tokens", "pools"] := by decide
  have hpass : ((ServiceManager.new poolsAndTokens).startAll bothStart).1
      = ((ServiceManager.new poolsAndTokens).startOrdered bothStart.attempt
        ["tokens", "pools"]).1 := by
    simp only [ServiceManager.startAll, ServiceManager.new, henabled, hresolve]
    rfl
  rw [run, List.foldl_cons, step, hpass]
  decide

theorem running_dependencies_pools :
    "tokens" ∈ (run poolsAndTokens [.startAll bothStart]).handles ∨
      OffWhenUp poolsAndTokens [.startAll bothStart] "pools" "tokens" :=
  running_dependencies poolsAndTokens [.startAll bothStart] "pools" bothStart_up "tokens"
    ⟨⟨false, 30, ["tokens"], false⟩, by decide, by decide, by decide⟩

end ScreenerBot.Services
