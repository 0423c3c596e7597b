import Mathlib
import ScreenerBot.Services.StartupOrder

/-! The service manager: passes that start what is enabled, the stop of one service and of all. -/
namespace ScreenerBot.Services
open Library Relation

/-- Why a service is down. -/
inductive StartFailure
  | dependencyFailed (dependency : ServiceName)
  | startFailed (reason : String)
  deriving DecidableEq, Repr

structure ServiceStartupFailure where
  name : ServiceName
  error : String
  deriving DecidableEq, Repr

structure ServiceStartupReport where
  attempted : List ServiceName
  started : List ServiceName
  failures : List ServiceStartupFailure
  alreadyRunning : ℕ
  totalEnabled : ℕ
  deriving DecidableEq, Repr

/-- The registered services, the number of tasks of each running one, and why others are down. -/
structure ServiceManager where
  services : Registry
  handles : AList fun _ : ServiceName => ℕ
  startFailures : AList fun _ : ServiceName => StartFailure

/-- What a pass reads: which services are enabled as it begins and as it has its order, the number
of tasks each service starts with or the phase it fails in and why, and how maps list their keys. -/
structure Pass where
  enabled : ServiceName → Bool
  retained : ServiceName → Bool
  attempt : ServiceName → Except (String × List String) ℕ
  hash : HashOrder

namespace ServiceManager

def new (services : Registry) : ServiceManager := ⟨services, ∅, ∅⟩

def isServiceRunning (m : ServiceManager) (name : ServiceName) : Bool := name ∈ m.handles

/-- Marks `name` as down. -/
def down (m : ServiceManager) (name : ServiceName) (failure : StartFailure) : ServiceManager :=
  { m with startFailures := m.startFailures.insert name failure }

/-- Marks `name` as running. -/
def up (m : ServiceManager) (name : ServiceName) (tasks : ℕ) : ServiceManager :=
  { m with handles := m.handles.insert name tasks, startFailures := m.startFailures.erase name }

/-- The first dependency of a service that is down. -/
def failedDependency (m : ServiceManager) (service : Service) : Option ServiceName :=
  service.dependencies.find? (· ∈ m.startFailures)

/-- Starts the services of a list one after another, up to an essential one that fails. -/
def startOrdered (attempt : ServiceName → Except (String × List String) ℕ) (m : ServiceManager) :
    List ServiceName →
      ServiceManager × Except ServiceError (List ServiceName × List ServiceStartupFailure)
  | [] => (m, .ok ([], []))
  | n :: rest =>
    match m.services.lookup n with
    | none => startOrdered attempt m rest
    | some service =>
      match m.failedDependency service with
      | some d =>
        let (m', result) := startOrdered attempt (m.down n (.dependencyFailed d)) rest
        (m', result.map fun (started, failures) =>
          (started, ⟨n, s!"Dependency '{d}' failed to start"⟩ :: failures))
      | none =>
        match attempt n with
        | .ok tasks =>
          let (m', result) := startOrdered attempt (m.up n tasks) rest
          (m', result.map fun (started, failures) => (n :: started, failures))
        | .error (phase, chain) =>
          if service.essential then (m, .error (.failed chain))
          else
            let cause := ": ".intercalate chain
            let (m', result) := startOrdered attempt (m.down n (.startFailed cause)) rest
            (m', result.map fun (started, failures) =>
              (started, ⟨n, s!"Failed to {phase}: {cause}"⟩ :: failures))

/-- What of an order a pass attempts: services that are enabled, and not those of `skip`. -/
def attempted (m : ServiceManager) (p : Pass) (skip : ServiceName → Bool)
    (ordered : List ServiceName) : List ServiceName :=
  ordered.filter fun n => n ∈ m.services && p.retained n && !skip n

/-- What becomes of the first service of a list, and what then becomes of the rest. -/
theorem startOrdered_cons_cases (attempt : ServiceName → Except (String × List String) ℕ)
    (m : ServiceManager) (n : ServiceName) (rest : List ServiceName) :
    (m.services.lookup n = none ∧
      startOrdered attempt m (n :: rest) = startOrdered attempt m rest) ∨
    (∃ service d, m.services.lookup n = some service ∧ m.failedDependency service = some d ∧
      startOrdered attempt m (n :: rest) =
        ((startOrdered attempt (m.down n (.dependencyFailed d)) rest).1,
          (startOrdered attempt (m.down n (.dependencyFailed d)) rest).2.map fun
          (started, failures) =>
            (started, ⟨n, s!"Dependency '{d}' failed to start"⟩ :: failures))) ∨
    (∃ service tasks, m.services.lookup n = some service ∧ m.failedDependency service = none ∧
      attempt n = .ok tasks ∧
      startOrdered attempt m (n :: rest) =
        ((startOrdered attempt (m.up n tasks) rest).1,
          (startOrdered attempt (m.up n tasks) rest).2.map fun (started, failures) =>
            (n :: started, failures))) ∨
    (∃ service phase chain, m.services.lookup n = some service ∧ m.failedDependency service = none ∧
      attempt n = .error (phase, chain) ∧ service.essential = true ∧
      startOrdered attempt m (n :: rest) = (m, .error (.failed chain))) ∨
    ∃ service phase chain, m.services.lookup n = some service ∧ m.failedDependency service = none ∧
      attempt n = .error (phase, chain) ∧ service.essential = false ∧
      startOrdered attempt m (n :: rest) =
        ((startOrdered attempt (m.down n (.startFailed (": ".intercalate chain))) rest).1,
          (startOrdered attempt (m.down n (.startFailed (": ".intercalate chain))) rest).2.map
            fun (started, failures) =>
              (started, ⟨n, s!"Failed to {phase}: " ++ ": ".intercalate chain⟩ :: failures)) := by
  cases hservice : m.services.lookup n with
  | none => exact .inl ⟨rfl, by rw [startOrdered, hservice]⟩
  | some service =>
    right
    cases hfailed : m.failedDependency service with
    | some d => exact .inl ⟨service, d, rfl, hfailed, by
      rw [startOrdered, hservice]; simp only [hfailed]⟩
    | none =>
      right
      cases hattempt : attempt n with
      | ok tasks =>
        refine .inl ⟨service, tasks, rfl, hfailed, rfl, ?_⟩
        rw [startOrdered, hservice]
        simp only [hfailed, hattempt]
      | error failure =>
        obtain ⟨phase, chain⟩ := failure
        right
        cases hessential : service.essential with
        | true =>
          refine .inl ⟨service, phase, chain, rfl, hfailed, rfl, hessential, ?_⟩
          rw [startOrdered, hservice]
          simp only [hfailed, hattempt, hessential, if_true]
        | false =>
          refine .inr ⟨service, phase, chain, rfl, hfailed, rfl, hessential, ?_⟩
          rw [startOrdered, hservice]
          simp only [hfailed, hattempt, hessential, Bool.false_eq_true, if_false]
          rfl

def startAll (m : ServiceManager) (p : Pass) :
    ServiceManager × Except ServiceError ServiceStartupReport :=
  let enabledServices := (p.hash.listing m.services.keys).filter p.enabled
  match m.services.resolveStartupOrder p.hash enabledServices with
  | .error e => (m, .error e)
  | .ok ordered =>
    let ordered := m.attempted p (fun _ => false) ordered
    let (m', result) := m.startOrdered p.attempt ordered
    (m', result.map fun (started, failures) =>
      ⟨ordered, started, failures, 0, enabledServices.length⟩)

def startEnabledAmong (m : ServiceManager) (p : Pass) (candidates : List ServiceName) :
    ServiceManager × Except ServiceError ServiceStartupReport :=
  let allEnabled := candidates.filter fun n => n ∈ m.services && p.enabled n
  let toStart := allEnabled.filter fun n => !m.isServiceRunning n
  let alreadyRunning := allEnabled.length - toStart.length
  if toStart.isEmpty then (m, .ok ⟨[], [], [], alreadyRunning, allEnabled.length⟩)
  else
    match m.services.resolveStartupOrder p.hash toStart with
    | .error e => (m, .error e)
    | .ok ordered =>
      let ordered := m.attempted p m.isServiceRunning ordered
      let (m', result) := m.startOrdered p.attempt ordered
      (m', result.map fun (started, failures) =>
        ⟨ordered, started, failures, alreadyRunning, allEnabled.length⟩)

def startNewlyEnabled (m : ServiceManager) (p : Pass) :
    ServiceManager × Except ServiceError ServiceStartupReport :=
  m.startEnabledAmong p (p.hash.listing m.services.keys)

def startEnabledService (m : ServiceManager) (p : Pass) (name : ServiceName) :
    ServiceManager × Except ServiceError ServiceStartupReport :=
  m.startEnabledAmong p [name]

/-- Stops one service, unless it cannot stop alone or a running one depends on it; `none` when it is
not running. -/
def stopService (m : ServiceManager) (hash : HashOrder) (name : ServiceName) :
    ServiceManager × Except ServiceError (Option ℕ) :=
  match m.handles.lookup name, m.services.lookup name with
  | none, _ => (m, .ok none)
  | _, none => (m, .ok none)
  | some tasks, some service =>
    if !service.stopsAlone then
      (m, .error (.stop name "the service cannot stop while the others keep running"))
    else
      match (hash.listing m.handles.keys).find? fun running =>
          (m.services.lookup running).any fun s => name ∈ s.dependencies with
      | some dependent =>
        (m, .error (.dependency dependent name
          "a running service depends on the one being stopped"))
      | none => ({ m with handles := m.handles.erase name }, .ok (some tasks))

/-- Stops everything, dependents first, and says in which order. -/
def stopAll (m : ServiceManager) (hash : HashOrder) :
    ServiceManager × Except ServiceError (List ServiceName) :=
  match m.services.resolveStartupOrder hash (hash.listing m.handles.keys) with
  | .error e => (m, .error e)
  | .ok ordered =>
    let stopped := ordered.reverse.filter (· ∈ m.services)
    ({ m with handles := stopped.foldl (fun handles n => handles.erase n) m.handles }, .ok stopped)

end ServiceManager

inductive Event
  | startAll (p : Pass)
  | startNewlyEnabled (p : Pass)
  | startEnabledService (p : Pass) (name : ServiceName)
  | stopService (hash : HashOrder) (name : ServiceName)
  | stopAll (hash : HashOrder)

def step (m : ServiceManager) : Event → ServiceManager
  | .startAll p => (m.startAll p).1
  | .startNewlyEnabled p => (m.startNewlyEnabled p).1
  | .startEnabledService p name => (m.startEnabledService p name).1
  | .stopService hash name => (m.stopService hash name).1
  | .stopAll hash => (m.stopAll hash).1

/-- The manager of some registered services after a sequence of events. -/
def run (services : Registry) (events : List Event) : ServiceManager :=
  events.foldl step (.new services)

end ScreenerBot.Services
