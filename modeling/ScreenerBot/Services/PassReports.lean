import Mathlib
import ScreenerBot.Services.ManagerRuns
import ScreenerBot.Library.Fallible

/-!
What a pass says it did: every service it attempted is reported once, as started or as failed, and
it started when its own start went well and none of its dependencies is on record as down.
-/
namespace ScreenerBot.Services
open Library

/-- `n` declares `d`, registered or not. -/
def Registry.Declares (r : Registry) (n d : ServiceName) : Prop :=
  ∃ service, r.lookup n = some service ∧ d ∈ service.dependencies

namespace ServiceManager
variable {attempt : ServiceName → Except (String × List String) ℕ} {m : ServiceManager}
  {p : Pass} {hash : HashOrder} {ordered : List ServiceName}

/-- What went on between a manager and the one after it, as a report has it. -/
structure Reported (attempt : ServiceName → Except (String × List String) ℕ) (m m' : ServiceManager)
    (ordered started : List ServiceName) (failures : List ServiceStartupFailure) : Prop where
  perm : (started ++ failures.map ServiceStartupFailure.name).Perm ordered
  started_iff : ∀ n, n ∈ started ↔ n ∈ ordered ∧ (∃ tasks, attempt n = .ok tasks) ∧
    ∀ d, m.services.Declares n d → d ∉ m'.startFailures
  failed_iff : ∀ n ∈ ordered, n ∈ m'.startFailures ↔ n ∉ started
  others : ∀ n, n ∉ ordered → (n ∈ m'.startFailures ↔ n ∈ m.startFailures)
  running_iff : ∀ n, n ∈ m'.handles ↔ n ∈ m.handles ∨ n ∈ started

theorem Reported.cons_failed {m' : ServiceManager} {x : ServiceName}
    {rest started : List ServiceName}
    {failures : List ServiceStartupFailure} {failure : StartFailure} {error : String}
    (h : Reported attempt (m.down x failure) m' rest started failures) (hnew : x ∉ rest)
    (hwhy : (∀ tasks, attempt x ≠ .ok tasks) ∨
      ∃ d, m.services.Declares x d ∧ d ∈ m.startFailures ∧ d ∉ rest) :
    Reported attempt m m' (x :: rest) started (⟨x, error⟩ :: failures) := by
  have hdown : x ∈ m'.startFailures := (h.others x hnew).mpr (AList.mem_insert _ |>.mpr (.inl rfl))
  have hnot : x ∉ started := fun hx => hnew ((h.started_iff x).mp hx).1
  constructor
  · simpa using List.perm_middle.trans (h.perm.cons x)
  · intro n
    rw [h.started_iff, List.mem_cons]
    constructor
    · exact fun hn => ⟨.inr hn.1, hn.2⟩
    · rintro ⟨rfl | hn, hattempt, hfree⟩
      · obtain hfails | ⟨d, hdeclares, hfailed, hd⟩ := hwhy
        · obtain ⟨tasks, hattempt⟩ := hattempt
          exact absurd hattempt (hfails tasks)
        · have hstill := (h.others d hd).mpr (AList.mem_insert _ |>.mpr (.inr hfailed))
          exact absurd hstill (hfree d hdeclares)
      · exact ⟨hn, hattempt, hfree⟩
  · intro n hn
    obtain rfl | hn := List.mem_cons.mp hn
    · exact iff_of_true hdown hnot
    · exact h.failed_iff n hn
  · intro n hn
    rw [List.mem_cons, not_or] at hn
    rw [h.others n hn.2, down, AList.mem_insert, or_iff_right hn.1]
  · exact h.running_iff

theorem Reported.cons_started {m' : ServiceManager} {x : ServiceName}
    {rest started : List ServiceName}
    {failures : List ServiceStartupFailure} {tasks : ℕ}
    (h : Reported attempt (m.up x tasks) m' rest started failures) (hnew : x ∉ rest)
    (hattempt : attempt x = .ok tasks)
    (hfree : ∀ d, m.services.Declares x d → d ∉ m.startFailures ∧ d ∉ rest) :
    Reported attempt m m' (x :: rest) (x :: started) failures := by
  have hothers : ∀ n, n ∉ rest → (n ∈ m'.startFailures ↔ n ≠ x ∧ n ∈ m.startFailures) :=
    fun n hn => (h.others n hn).trans AList.mem_erase
  constructor
  · exact h.perm.cons x
  · intro n
    rw [List.mem_cons, h.started_iff, List.mem_cons]
    constructor
    · rintro (rfl | hn)
      · refine ⟨.inl rfl, ⟨tasks, hattempt⟩, fun d hd hfailed => ?_⟩
        obtain ⟨hnot, hlater⟩ := hfree d hd
        exact hnot ((hothers d hlater).mp hfailed).2
      · exact ⟨.inr hn.1, hn.2⟩
    · rintro ⟨rfl | hn, hn'⟩
      · exact .inl rfl
      · exact .inr ⟨hn, hn'⟩
  · intro n hn
    obtain rfl | hn := List.mem_cons.mp hn
    · exact iff_of_false (fun hfailed => ((hothers n hnew).mp hfailed).1 rfl)
        (not_not.mpr List.mem_cons_self)
    · have hne : n ≠ x := fun he => hnew (he ▸ hn)
      rw [h.failed_iff n hn, List.mem_cons, or_iff_right hne]
  · intro n hn
    rw [List.mem_cons, not_or] at hn
    rw [hothers n hn.2, and_iff_right hn.1]
  · intro n
    rw [h.running_iff, mem_handles_up, List.mem_cons, or_assoc, or_left_comm]

theorem startOrdered_reported {started : List ServiceName} {failures : List ServiceStartupFailure}
    (hregistered : ∀ n ∈ ordered, n ∈ m.services) (hnodup : ordered.Nodup)
    (hlater : ordered.Pairwise fun n d => ¬m.services.Declares n d)
    (h : (m.startOrdered attempt ordered).2 = .ok (started, failures)) :
    Reported attempt m (m.startOrdered attempt ordered).1 ordered started failures := by
  induction ordered generalizing m started failures with
  | nil =>
    rw [startOrdered] at h
    obtain ⟨rfl, rfl⟩ := Prod.mk.inj (Except.ok.inj h)
    constructor <;> simp [startOrdered]
  | cons x rest ih =>
    obtain ⟨hnew, hnodup⟩ := List.nodup_cons.mp hnodup
    obtain ⟨hfirst, hlater⟩ := List.pairwise_cons.mp hlater
    have hrest (n : ServiceName) (hn : n ∈ rest) := hregistered n (List.mem_cons_of_mem x hn)
    have hnotLater : ∀ d, m.services.Declares x d → d ∉ rest := fun d hd hmem => hfirst d hmem hd
    obtain ⟨hnone, _⟩ | ⟨service, d, hservice, hfailed, he⟩ |
      ⟨service, tasks, hservice, hfailed, hok, he⟩ | ⟨_, _, _, _, _, _, _, he⟩ |
      ⟨_, phase, chain, _, _, herror, _, he⟩ := startOrdered_cons_cases attempt m x rest
    · have hin := AList.lookup_isSome.mpr (hregistered x List.mem_cons_self)
      rw [hnone] at hin
      cases hin
    · rw [he] at h ⊢
      obtain ⟨⟨started', failures'⟩, hresult, hsame⟩ := map_eq_ok.mp h
      obtain ⟨rfl, rfl⟩ := Prod.mk.inj hsame
      have hdeclares : m.services.Declares x d :=
        ⟨service, hservice, List.mem_of_find?_eq_some hfailed⟩
      have hdown := List.find?_some hfailed
      rw [decide_eq_true_iff] at hdown
      have hreported := ih (m := m.down x (.dependencyFailed d)) hrest hnodup hlater hresult
      exact hreported.cons_failed hnew (.inr ⟨d, hdeclares, hdown, hnotLater d hdeclares⟩)
    · rw [he] at h ⊢
      obtain ⟨⟨started', failures'⟩, hresult, hsame⟩ := map_eq_ok.mp h
      obtain ⟨rfl, rfl⟩ := Prod.mk.inj hsame
      have hreported := ih (m := m.up x tasks) hrest hnodup hlater hresult
      refine hreported.cons_started hnew hok fun d hd => ?_
      obtain ⟨service', hservice', hdeclared⟩ := id hd
      obtain rfl := Option.some.inj (hservice.symm.trans hservice')
      exact ⟨not_failed hfailed hdeclared, hnotLater d hd⟩
    · rw [he] at h
      cases h
    · rw [he] at h ⊢
      obtain ⟨⟨started', failures'⟩, hresult, hsame⟩ := map_eq_ok.mp h
      obtain ⟨rfl, rfl⟩ := Prod.mk.inj hsame
      have hreported := ih (m := m.down x (.startFailed (": ".intercalate chain))) hrest
        hnodup hlater
        hresult
      refine hreported.cons_failed hnew (.inl fun tasks hok => ?_)
      rw [herror] at hok
      cases hok

/-- What a pass attempts is registered, and no service of it declares a later one. -/
theorem attempted_ordered {services full : List ServiceName} (skip : ServiceName → Bool)
    (hresolve : m.services.resolveStartupOrder hash services = .ok full) :
    (∀ n ∈ m.attempted p skip full, n ∈ m.services) ∧ (m.attempted p skip full).Nodup ∧
      (m.attempted p skip full).Pairwise fun n d => ¬m.services.Declares n d := by
  obtain ⟨_, hspec, _⟩ := Registry.resolveStartupOrder_spec hash m.services services
  obtain ⟨hnodup, hneeded, hinOrder⟩ := hspec full hresolve
  have hregistered : ∀ n ∈ m.attempted p skip full, n ∈ m.services := by
    intro n hn
    rw [attempted, List.mem_filter, Bool.and_eq_true, Bool.and_eq_true, decide_eq_true_iff] at hn
    exact hn.2.1.1
  refine ⟨hregistered, hnodup.filter _, ?_⟩
  have hlater : full.Pairwise fun n d => ¬m.services.DependsOn n d :=
    (EachAfter.pairwise_not hinOrder hnodup fun before n d hn hd => hn.1 d hd).1
  refine (List.Pairwise.and_mem.mp (hlater.filter _)).imp fun hnd hdeclares => ?_
  obtain ⟨_, hd, hnot⟩ := hnd
  obtain ⟨service, hservice, hdeclared⟩ := hdeclares
  exact hnot ⟨service, hservice, hdeclared, hregistered _ hd⟩

/-- A pass that was not stopped by an essential service says of everything it attempted what became
of it: the pass over all services, and the pass that leaves running ones alone. -/
theorem pass_report (m : ServiceManager) (p : Pass) :
    (∀ report, (m.startAll p).2 = .ok report →
      Reported p.attempt m (m.startAll p).1 report.attempted report.started report.failures) ∧
    ∀ candidates report, (m.startEnabledAmong p candidates).2 = .ok report →
      Reported p.attempt m (m.startEnabledAmong p candidates).1 report.attempted report.started
        report.failures := by
  constructor
  · intro report h
    rw [startAll] at h ⊢
    split at h
    next => cases h
    next full hresolve =>
      obtain ⟨⟨started, failures⟩, hresult, rfl⟩ := map_eq_ok.mp h
      obtain ⟨hregistered, hnodup, hlater⟩ := attempted_ordered (p := p) (fun _ => false) hresolve
      exact startOrdered_reported hregistered hnodup hlater hresult
  · intro candidates report h
    rw [startEnabledAmong] at h ⊢
    split_ifs at h ⊢
    · obtain rfl := Except.ok.inj h
      constructor <;> simp
    · split at h
      next => cases h
      next full hresolve =>
        obtain ⟨⟨started, failures⟩, hresult, rfl⟩ := map_eq_ok.mp h
        obtain ⟨hregistered, hnodup, hlater⟩ := attempted_ordered (p := p)
          m.isServiceRunning hresolve
        exact startOrdered_reported hregistered hnodup hlater hresult

/-- A pass in which both services are enabled and the one the other depends on does not start. -/
def tokensFail : Pass :=
  ⟨fun _ => true, fun _ => true,
    fun n => if n = "tokens" then .error ("start", ["refused"]) else .ok 1, ⟨id, .refl⟩⟩

theorem pass_report_failed :
    Reported tokensFail.attempt (new poolsAndTokens)
      ((new poolsAndTokens).startEnabledAmong tokensFail ["tokens", "pools"]).1
      ["tokens", "pools"] []
      [⟨"tokens", "Failed to start: refused"⟩,
        ⟨"pools", "Dependency 'tokens' failed to start"⟩] := by
  have hstart : ["tokens", "pools"].filter
      (fun n => n ∈ (new poolsAndTokens).services && tokensFail.enabled n) =
      ["tokens", "pools"] := by
    decide
  have hdown : ["tokens", "pools"].filter (fun n => !(new poolsAndTokens).isServiceRunning n)
      = ["tokens", "pools"] := by decide
  have hresolve : (new poolsAndTokens).services.resolveStartupOrder tokensFail.hash
    ["tokens", "pools"]
      = .ok ["tokens", "pools"] := poolsAndTokens_order
  refine (pass_report (new poolsAndTokens) tokensFail).2 ["tokens", "pools"]
    ⟨["tokens", "pools"], [], [⟨"tokens", "Failed to start: refused"⟩,
      ⟨"pools", "Dependency 'tokens' failed to start"⟩], 0, 2⟩ ?_
  simp only [startEnabledAmong, hstart, hdown, hresolve]
  decide

end ServiceManager
end ScreenerBot.Services
