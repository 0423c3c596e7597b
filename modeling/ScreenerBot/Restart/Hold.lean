import Mathlib
import ScreenerBot.Library.Census

/-!
The hold a restart takes on the process: trades and tools are counted while they run and are not
admitted under a hold, and a restart that must not interrupt any looks at the counts once it holds.
-/
namespace ScreenerBot.Restart
open Library

/-- What is counted while it runs. -/
inductive Activity
  | trade | tool
  deriving DecidableEq, Repr

inductive RestartBlocker
  | tradeInFlight | toolInFlight
  | openPositions (count : ℕ)
  | positionsLoading | positionsUnreadable
  deriving DecidableEq, Repr

inductive StoredOpenPositions
  | count (positions : ℕ)
  | notLoaded | unreadable
  deriving DecidableEq, Repr

structure RestartInputs where
  tradesActive : Bool
  toolsActive : Bool
  openInMemory : ℕ
  stored : StoredOpenPositions
  initializationComplete : Bool

/-- The first reason a restart would interrupt something, if any. -/
def blocker (inputs : RestartInputs) : Option RestartBlocker :=
  if inputs.tradesActive then some .tradeInFlight
  else if inputs.toolsActive then some .toolInFlight
  else if inputs.openInMemory > 0 then some (.openPositions inputs.openInMemory)
  else match inputs.stored with
    | .count 0 => none
    | .count positions => some (.openPositions positions)
    | .notLoaded => if inputs.initializationComplete then some .positionsLoading else none
    | .unreadable => some .positionsUnreadable

theorem idle_of_blocker_none {inputs : RestartInputs} (h : blocker inputs = none) :
    inputs.tradesActive = false ∧ inputs.toolsActive = false := by
  have htrades : inputs.tradesActive = false := by
    by_contra hne
    rw [blocker, if_pos (Bool.not_eq_false _ ▸ hne)] at h
    cases h
  have htools : inputs.toolsActive = false := by
    by_contra hne
    rw [blocker, htrades, if_neg Bool.false_ne_true, if_pos (Bool.not_eq_false _ ▸ hne)] at h
    cases h
  exact ⟨htrades, htools⟩

inductive DeferReason
  | needsInstaller | automaticInstallDisabled | tradingActive
  deriving DecidableEq, Repr

/-- What the update settings and the kind of an update say of applying it automatically. -/
structure UpdatePolicy where
  isSilent : Bool
  autoInstall : Bool
  deferWhileTrading : Bool

/-- Why an update is not applied automatically now, if it is not. -/
def decide (policy : UpdatePolicy) (openPositions : ℕ) (tradeInFlight : Bool) :
    Option DeferReason :=
  if !policy.isSilent then some .needsInstaller
  else if !policy.autoInstall then some .automaticInstallDisabled
  else if policy.deferWhileTrading && (openPositions > 0 || tradeInFlight) then some .tradingActive
  else none

theorem idle_of_decide_none {policy : UpdatePolicy} {openPositions : ℕ} {tradeInFlight : Bool}
    (h : decide policy openPositions tradeInFlight = none)
    (hdefer : policy.deferWhileTrading = true) :
    tradeInFlight = false := by
  rw [decide] at h
  split_ifs at h with hsilent hauto htrading
  simp only [hdefer, Bool.true_and, Bool.or_eq_true, not_or] at htrading
  exact Bool.eq_false_iff.mpr htrading.2

/-- The flag of the hold and the two counts. What follows them is not in the process: which
activities are between their start and their end, how many holds were taken and not released,
whether one of these is of a restart that found nothing in flight, whether one is kept for good, and
how many processes there were before this one. -/
structure Process where
  hold : Bool
  active : Activity → ℕ
  running : Activity → ℕ
  owners : ℕ
  quiet : Bool
  committed : Bool
  launch : ℕ

/-- The atomic accesses to the flag and the counts, and what happens between them. -/
inductive Call : Type → Type
  | isRestartHoldPending : Call Bool
  | takeHold : Call Bool
  | releaseHold : Call Unit
  | commitHold : Call Unit
  | fetchAdd (activity : Activity) : Call Unit
  | fetchSub (activity : Activity) : Call ℕ
  | storeZero (activity : Activity) : Call Unit
  | load (activity : Activity) : Call ℕ
  | starts (activity : Activity) : Call Unit
  | ends (activity : Activity) : Call Unit
  | openPositions : Call ℕ
  | storedPositions : Call StoredOpenPositions
  | isInitializationComplete : Call Bool
  | loadPolicy : Call UpdatePolicy
  | restartStep (idle : Bool) : Call Bool

section Programs

def isActive (activity : Activity) : Program Call Bool := do
  let count ← Program.perform (.load activity)
  return count > 0

def areTradesActive : Program Call Bool := isActive .trade

def areToolsActive : Program Call Bool := isActive .tool

/-- The end of a tool; a count that was zero already is set back to zero. -/
def toolFinished : Program Call Unit := do
  let prev ← Program.perform (.fetchSub .tool)
  if prev = 0 then Program.perform (.storeZero .tool) else return ()

def tradeFinished : Program Call Unit := do
  let _ ← Program.perform (.fetchSub .trade)
  return ()

/-- Counts an activity, unless there is a hold before or after it is counted. -/
def beginActivity (activity : Activity) (finished : Program Call Unit) : Program Call Bool := do
  if ← Program.perform .isRestartHoldPending then return false
  else
    Program.perform (.fetchAdd activity)
    if ← Program.perform .isRestartHoldPending then
      finished
      return false
    else return true

def beginTool : Program Call Bool := beginActivity .tool toolFinished

def beginTrade : Program Call Bool := beginActivity .trade tradeFinished

/-- A trade or a tool from its admission to the drop of its guard. -/
def runTrade : Program Call Unit := do
  if ← beginTrade then
    Program.perform (.starts .trade)
    Program.perform (.ends .trade)
    tradeFinished
  else return ()

def runTool : Program Call Unit := do
  if ← beginTool then
    Program.perform (.starts .tool)
    Program.perform (.ends .tool)
    toolFinished
  else return ()

def restartBlocker : Program Call (Option RestartBlocker) := do
  let tradesActive ← areTradesActive
  let toolsActive ← areToolsActive
  let openInMemory ← Program.perform .openPositions
  let stored ← Program.perform .storedPositions
  let initializationComplete ← Program.perform .isInitializationComplete
  return blocker ⟨tradesActive, toolsActive, openInMemory, stored, initializationComplete⟩

/-- What a restart does under its hold; it keeps the hold where that works. -/
def underHold (idle : Bool) : Program Call Unit := do
  if ← Program.perform (.restartStep idle) then Program.perform .commitHold
  else Program.perform .releaseHold

/-- Staging a wallet replacement. -/
def stage : Program Call Unit := do
  if ← Program.perform .takeHold then
    match ← restartBlocker with
    | some _ => Program.perform .releaseHold
    | none => underHold true
  else return ()

def tradeInFlight : Program Call Bool := do
  if ← areToolsActive then return true
  else areTradesActive

def applyReadiness : Program Call (UpdatePolicy × Option DeferReason) := do
  let policy ← Program.perform .loadPolicy
  let openPositions ← Program.perform .openPositions
  let inFlight ← tradeInFlight
  return (policy, decide policy openPositions inFlight)

/-- The automatic update, once it is ready to apply. -/
def applyAutomatically : Program Call Unit := do
  if ← Program.perform .takeHold then
    let (policy, deferred) ← applyReadiness
    match deferred with
    | some _ => Program.perform .releaseHold
    | none => underHold policy.deferWhileTrading
  else return ()

/-- The update a user asks for, which looks at no count. -/
def applyNow : Program Call Unit := do
  if ← Program.perform .takeHold then underHold false else return ()

end Programs

namespace Process

variable (s : Process)

/-- No hold, nothing counted. -/
def idle (launch : ℕ) : Process := ⟨false, fun _ => 0, fun _ => 0, 0, false, false, launch⟩

/-- One more; a count never comes near its bound. -/
def add (activity : Activity) : Process :=
  { s with active := Function.update s.active activity (s.active activity + 1) }

/-- One less, of a 32-bit count. -/
def sub (activity : Activity) : Process :=
  { s with
    active := Function.update s.active activity
      (if s.active activity = 0 then 2 ^ 32 - 1 else s.active activity - 1) }

end Process

/-- What an access answers, and what it leaves. -/
def answers (s : Process) : {β : Type} → Call β → β → Process → Prop
  | _, .isRestartHoldPending, b, s' => s' = s ∧ b = s.hold
  | _, .takeHold, b, s' =>
    b = !s.hold ∧ s' = if s.hold then s else { s with hold := true, owners := s.owners + 1 }
  | _, .releaseHold, _, s' => s' = { s with hold := false, owners := s.owners - 1, quiet := false }
  | _, .commitHold, _, s' => s' = { s with committed := true }
  | _, .fetchAdd activity, _, s' => s' = s.add activity
  | _, .fetchSub activity, prev, s' => prev = s.active activity ∧ s' = s.sub activity
  | _, .storeZero activity, _, s' =>
    s' = { s with active := Function.update s.active activity 0 }
  | _, .load activity, count, s' => count = s.active activity ∧ s' = s
  | _, .starts activity, _, s' =>
    s' = { s with running := Function.update s.running activity (s.running activity + 1) }
  | _, .ends activity, _, s' =>
    s' = { s with running := Function.update s.running activity (s.running activity - 1) }
  | _, .restartStep idle, _, s' => s' = { s with quiet := s.quiet || idle }
  | _, .openPositions, _, s' => s' = s
  | _, .storedPositions, _, s' => s' = s
  | _, .isInitializationComplete, _, s' => s' = s
  | _, .loadPolicy, _, s' => s' = s

/-- The programs that run over the process beside each other; a new process starts idle. -/
inductive Spawned : Program Call Unit → Prop
  | trade : Spawned runTrade
  | tool : Spawned runTool
  | stage : Spawned stage
  | applyAutomatically : Spawned applyAutomatically
  | applyNow : Spawned applyNow

def process : System Call Process where
  starts s := s = .idle 0
  answers := answers
  restarts s s' := s' = .idle (s.launch + 1)
  spawns := Spawned

end ScreenerBot.Restart
