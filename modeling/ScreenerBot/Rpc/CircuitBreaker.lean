import ScreenerBot.Library.Run
import ScreenerBot.Rpc.Manager

/-! The circuit breaker of a provider, under the calls the RPC manager makes of it. -/
namespace ScreenerBot.Rpc

open Library

inductive CircuitState where
  | closed
  | opened
  | halfOpen
  deriving DecidableEq, Repr

structure CircuitBreakerConfig where
  failureThreshold : UInt32
  successThreshold : UInt32
  openDuration : Duration
  halfOpenMaxRequests : UInt32
  ignoreRateLimits : Bool
  minStateDuration : Duration

def CircuitBreakerConfig.default : CircuitBreakerConfig where
  failureThreshold := 5
  successThreshold := 3
  openDuration := .fromSecs 30
  halfOpenMaxRequests := 2
  ignoreRateLimits := true
  minStateDuration := .fromSecs 5

structure ProviderCircuitBreaker where
  state : CircuitState
  failures : UInt32
  successes : UInt32
  openedAt : Option ℕ
  lastStateChange : ℕ
  totalOpens : UInt64
  lastError : Option String
  halfOpenRequests : UInt32

namespace ProviderCircuitBreaker

variable (config : CircuitBreakerConfig) (now : ℕ)

def new : ProviderCircuitBreaker where
  state := .closed
  failures := 0
  successes := 0
  openedAt := none
  lastStateChange := now
  totalOpens := 0
  lastError := none
  halfOpenRequests := 0

def transitionToHalfOpen (breaker : ProviderCircuitBreaker) : ProviderCircuitBreaker :=
  if breaker.state = .opened then
    { breaker with state
      := .halfOpen, successes := 0, halfOpenRequests := 0, lastStateChange := now }
  else breaker

/-- Whether the circuit allows a request, or the time until the next try. -/
def canExecute (breaker : ProviderCircuitBreaker) : ProviderCircuitBreaker × Except Duration Unit :=
  match breaker.state with
  | .closed => (breaker, .ok ())
  | .halfOpen =>
    -- the counter also counts the requests it refuses
    let counted := { breaker with halfOpenRequests := breaker.halfOpenRequests + 1 }
    if breaker.halfOpenRequests < config.halfOpenMaxRequests then (counted, .ok ())
    else (counted, .error (100 * 10 ^ 6))
  | .opened =>
    match breaker.openedAt with
    | some time =>
      let elapsed := now - time
      if config.openDuration ≤ elapsed then (breaker.transitionToHalfOpen now, .ok ())
      else (breaker, .error (config.openDuration - elapsed))
    | none => (breaker, .ok ())

def recordSuccess (breaker : ProviderCircuitBreaker) : ProviderCircuitBreaker :=
  match breaker.state with
  | .closed => { breaker with failures := 0 }
  | .halfOpen =>
    let successes := breaker.successes + 1
    if config.successThreshold ≤ successes then
      { breaker with
        state := .closed, failures := 0, successes := 0, halfOpenRequests := 0, openedAt := none,
        lastStateChange := now, lastError := none }
    else { breaker with successes }
  | .opened => breaker

def recordFailure (error : String) (isRateLimit : Bool) (breaker : ProviderCircuitBreaker) :
    ProviderCircuitBreaker :=
  if isRateLimit && config.ignoreRateLimits then breaker
  else
    let breaker := { breaker with lastError := some error }
    match breaker.state with
    | .closed =>
      let breaker := { breaker with failures := breaker.failures + 1 }
      if config.failureThreshold ≤ breaker.failures ∧
          config.minStateDuration ≤ now - breaker.lastStateChange then
        { breaker with
          state := .opened, openedAt := some now, lastStateChange := now,
          totalOpens := breaker.totalOpens + 1 }
      else breaker
    | .halfOpen =>
      { breaker with
        state := .opened, openedAt := some now, lastStateChange := now, successes := 0,
        halfOpenRequests := 0, totalOpens := breaker.totalOpens + 1 }
    | .opened => { breaker with openedAt := some now }

/-- What the manager records of an admitted request's answer: an error that is neither a rate limit
nor a provider failure leaves the breaker alone, and so does a rate limit. -/
def recordAnswer (answer : Except RpcError RpcValue) (breaker : ProviderCircuitBreaker) :
    ProviderCircuitBreaker :=
  match answer with
  | .ok _ => breaker.recordSuccess config now
  | .error e =>
    if e.isRateLimited then breaker
    else if e.isProviderHealthFailure then breaker.recordFailure config now e.display
      e.isRateLimited
    else breaker

/-- A half-open circuit that has counted all the requests it lets through. -/
def Exhausted (breaker : ProviderCircuitBreaker) : Prop :=
  breaker.state = .halfOpen ∧ config.halfOpenMaxRequests ≤ breaker.halfOpenRequests

variable {config now}

/-- A circuit that is not exhausted admits a request once its cooldown is over. -/
theorem admits_of_not_exhausted {breaker : ProviderCircuitBreaker}
    (h : ¬ breaker.Exhausted config) :
    ∃ ready, ∀ later, ready ≤ later → (breaker.canExecute config later).2 = .ok () := by
  unfold canExecute
  cases hstate : breaker.state with
  | closed => exact ⟨0, fun _ _ => rfl⟩
  | halfOpen =>
    have hcount : breaker.halfOpenRequests < config.halfOpenMaxRequests := by
      by_contra hcount
      exact h ⟨hstate, by simpa using hcount⟩
    exact ⟨0, fun _ _ => by simp [hcount]⟩
  | opened =>
    cases hopened : breaker.openedAt with
    | none => exact ⟨0, fun _ _ => rfl⟩
    | some time =>
      refine ⟨time + config.openDuration, fun later hlater => ?_⟩
      have helapsed : config.openDuration ≤ later - time := Nat.le_sub_of_add_le' hlater
      simp [helapsed]

/-- An exhausted circuit refuses at any time. -/
theorem refuses_of_exhausted {breaker : ProviderCircuitBreaker} (h : breaker.Exhausted config) :
    (breaker.canExecute config now).2 = .error (100 * 10 ^ 6) := by
  obtain ⟨hstate, hcount⟩ := h
  have hspent : ¬ breaker.halfOpenRequests < config.halfOpenMaxRequests := by simpa using hcount
  simp [canExecute, hstate, hspent]

/-- A circuit asked in time is left exhausted exactly by the last request a half-open one admits. -/
theorem canExecute_exhausted_iff {breaker : ProviderCircuitBreaker}
    (hprobes : 0 < config.halfOpenMaxRequests) (h : ¬ breaker.Exhausted config) :
    (breaker.canExecute config now).1.Exhausted config ↔
      breaker.state = .halfOpen ∧
        config.halfOpenMaxRequests.toNat ≤ breaker.halfOpenRequests.toNat + 1 := by
  unfold canExecute
  cases hstate : breaker.state with
  | closed => simp [Exhausted, hstate]
  | halfOpen =>
    have hcount : breaker.halfOpenRequests.toNat < config.halfOpenMaxRequests.toNat := by
      by_contra hcount
      exact h ⟨hstate, UInt32.le_iff_toNat_le.mpr (by omega)⟩
    have hbound := config.halfOpenMaxRequests.toNat_lt
    have hnext : (breaker.halfOpenRequests + 1).toNat = breaker.halfOpenRequests.toNat + 1 := by
      rw [UInt32.toNat_add, UInt32.toNat_one]
      omega
    rw [← UInt32.lt_iff_toNat_lt] at hcount
    simp only [if_pos hcount, Exhausted, UInt32.le_iff_toNat_le, hnext]
  | opened =>
    cases hopened : breaker.openedAt with
    | none => simp [Exhausted, hstate]
    | some time =>
      by_cases helapsed : config.openDuration ≤ now - time
      · have hsome : ¬ config.halfOpenMaxRequests ≤ 0 := UInt32.not_le.mpr hprobes
        simp [helapsed, transitionToHalfOpen, hstate, Exhausted, hsome]
      · simp [helapsed, Exhausted, hstate]

/-- No answer exhausts a circuit. -/
theorem recordAnswer_exhausted {answer : Except RpcError RpcValue}
    {breaker : ProviderCircuitBreaker}
    (h : (breaker.recordAnswer config now answer).Exhausted config) : breaker.Exhausted config := by
  obtain ⟨hstate, hcount⟩ := h
  unfold recordAnswer at hstate hcount
  cases answer with
  | ok value =>
    simp only [recordSuccess] at hstate hcount
    cases hbefore : breaker.state with
    | closed => simp [hbefore] at hstate
    | opened => simp [hbefore] at hstate
    | halfOpen =>
      by_cases hclose : config.successThreshold ≤ breaker.successes + 1
      · simp [hbefore, hclose] at hstate
      · exact ⟨hbefore, by simpa [hbefore, hclose] using hcount⟩
  | error e =>
    simp only at hstate hcount
    split at hstate
    next hlimited => exact ⟨hstate, by simpa [hlimited] using hcount⟩
    next hlimited =>
      split at hstate
      next hfailure =>
        simp only [recordFailure] at hstate
        split at hstate
        next hignored =>
          rw [Bool.and_eq_true] at hignored
          exact absurd hignored.1 hlimited
        next =>
          cases hbefore : breaker.state with
          | halfOpen => simp [hbefore] at hstate
          | opened => simp [hbefore] at hstate
          | closed =>
            simp only [hbefore] at hstate
            split at hstate
            · cases hstate
            · cases hstate
      next hfailure => exact ⟨hstate, by simpa [hlimited, hfailure] using hcount⟩

end ProviderCircuitBreaker

/-- A breaker as the calls of its provider go on: the requests admitted and not answered yet, and
the time. -/
structure Traffic where
  breaker : ProviderCircuitBreaker
  inFlight : ℕ
  clock : ℕ

/-- What a call does with its breaker: ask it, or come back from the provider with an answer. -/
inductive BreakerCall where
  | canExecute
  | answered (answer : Except RpcError RpcValue)

namespace Traffic

variable (config : CircuitBreakerConfig)

def start (now : ℕ) : Traffic := ⟨.new now, 0, now⟩

/-- One call, some time after the one before it. Only an admitted request is answered. -/
def step (traffic : Traffic) (moment : ℕ × BreakerCall) : Traffic :=
  let now := traffic.clock + moment.1
  match moment.2 with
  | .canExecute =>
    match traffic.breaker.canExecute config now with
    | (breaker, .ok ()) => ⟨breaker, traffic.inFlight + 1, now⟩
    | (breaker, .error _) => ⟨breaker, traffic.inFlight, now⟩
  | .answered answer =>
    if traffic.inFlight = 0 then { traffic with clock := now }
    else ⟨traffic.breaker.recordAnswer config now answer, traffic.inFlight - 1, now⟩

/-- With no other call made, a later request is admitted. -/
def Recovers (traffic : Traffic) : Prop :=
  ∃ later, traffic.clock < later ∧ (traffic.breaker.canExecute config later).2 = .ok ()

/-- A call that is admitted as the last one its half-open circuit lets through. -/
def TakesLastProbe (traffic : Traffic) : ℕ × BreakerCall → Prop
  | (_, .canExecute) => traffic.breaker.state = .halfOpen ∧
      config.halfOpenMaxRequests.toNat ≤ traffic.breaker.halfOpenRequests.toNat + 1
  | (_, .answered _) => False

instance (traffic : Traffic) (moment : ℕ × BreakerCall) :
    Decidable (traffic.TakesLastProbe config moment) :=
  match moment with
  | (_, .canExecute) => inferInstanceAs (Decidable (_ ∧ _))
  | (_, .answered _) => inferInstanceAs (Decidable False)

variable {config}

theorem recovers_iff {traffic : Traffic} :
    traffic.Recovers config ↔ ¬ traffic.breaker.Exhausted config := by
  constructor
  · rintro ⟨later, -, hadmits⟩ hexhausted
    rw [ProviderCircuitBreaker.refuses_of_exhausted hexhausted] at hadmits
    cases hadmits
  · intro h
    obtain ⟨ready, hready⟩ := ProviderCircuitBreaker.admits_of_not_exhausted h
    exact ⟨traffic.clock + 1 + ready, by omega, hready _ (by omega)⟩

theorem step_breaker_canExecute (traffic : Traffic) (delay : ℕ) :
    (traffic.step config (delay, .canExecute)).breaker =
      (traffic.breaker.canExecute config (traffic.clock + delay)).1 := by
  simp only [step]
  split
  next h => rw [h]
  next h => rw [h]

/-- A circuit that recovers stops doing so exactly at the last probe it admits. -/
theorem step_recovers_iff {traffic : Traffic} {moment : ℕ × BreakerCall}
    (hprobes : 0 < config.halfOpenMaxRequests) (h : traffic.Recovers config) :
    (traffic.step config moment).Recovers config ↔ ¬ traffic.TakesLastProbe config moment := by
  rw [recovers_iff] at h ⊢
  obtain ⟨delay, call⟩ := moment
  cases call with
  | canExecute =>
    rw [step_breaker_canExecute, ProviderCircuitBreaker.canExecute_exhausted_iff hprobes h]
    simp [TakesLastProbe]
  | answered answer =>
    have hstep : ¬ (traffic.step config (delay, .answered answer)).breaker.Exhausted config := by
      intro hexhausted
      simp only [step] at hexhausted
      split at hexhausted
      next => exact h hexhausted
      next => exact h (ProviderCircuitBreaker.recordAnswer_exhausted hexhausted)
    simp [TakesLastProbe, hstep]

theorem start_recovers (now : ℕ) : (start now).Recovers config := by
  rw [recovers_iff]
  rintro ⟨hstate, -⟩
  cases hstate

/-- Every state of a run admits a later request exactly where no call of it takes the last probe of
a half-open circuit. -/
theorem recovers_iff_spared (hprobes : 0 < config.halfOpenMaxRequests) (now : ℕ)
    (moments : List (ℕ × BreakerCall)) :
    (∀ before, before <+: moments → (before.foldl (step config) (start now)).Recovers config) ↔
      ∀ p ∈ visited (step config) (start now) moments, ¬ p.1.TakesLastProbe config p.2 := by
  constructor
  · intro h p hp
    obtain ⟨before, after, rfl, hreached⟩ := visited_split (step config) moments (start now) p hp
    have hbefore := h before (List.prefix_append _ _)
    have hafter := h (before ++ [p.2]) ⟨after, by simp⟩
    rw [List.foldl_append, List.foldl_cons, List.foldl_nil, ← hreached] at hafter
    rw [← hreached] at hbefore
    exact (step_recovers_iff hprobes hbefore).mp hafter
  · intro h
    exact reached_invariant (step config) (Recovers config) (start_recovers now)
      fun p hp hrecovers => (step_recovers_iff hprobes hrecovers).mpr (h p hp)

/-- With every admitted request answered, an exhausted circuit admits none of the next calls, until
its counter of 32 bits is through. -/
theorem exhausted_for_good (moments : List (ℕ × BreakerCall)) :
    ∀ traffic : Traffic, traffic.breaker.Exhausted config → traffic.inFlight = 0 →
      traffic.breaker.halfOpenRequests.toNat + moments.length < 2 ^ 32 →
      (moments.foldl (step config) traffic).breaker.Exhausted config ∧
        (moments.foldl (step config) traffic).inFlight = 0 := by
  induction moments with
  | nil =>
    intro traffic h hidle _
    exact ⟨h, hidle⟩
  | cons moment moments ih =>
    intro traffic h hidle hcounter
    rw [List.length_cons] at hcounter
    obtain ⟨delay, call⟩ := moment
    cases call with
    | answered answer =>
      apply ih
      · simpa [step, hidle] using h
      · simp [step, hidle]
      · simp only [step, hidle, if_true]
        omega
    | canExecute =>
      obtain ⟨hstate, hcount⟩ := h
      have hspent : ¬ traffic.breaker.halfOpenRequests < config.halfOpenMaxRequests := by
        simpa using hcount
      have hnext : (traffic.breaker.halfOpenRequests + 1).toNat =
          traffic.breaker.halfOpenRequests.toNat + 1 := by
        rw [UInt32.toNat_add, UInt32.toNat_one]
        omega
      rw [UInt32.le_iff_toNat_le] at hcount
      have hstep : traffic.step config (delay, .canExecute) =
          ⟨{ traffic.breaker with halfOpenRequests := traffic.breaker.halfOpenRequests + 1 },
            traffic.inFlight, traffic.clock + delay⟩ := by
        simp [step, ProviderCircuitBreaker.canExecute, hstate, hspent]
      rw [List.foldl_cons, hstep]
      apply ih
      · refine ⟨hstate, UInt32.le_iff_toNat_le.mpr ?_⟩
        rw [hnext]
        omega
      · exact hidle
      · rw [hnext]
        omega

/-- Five requests time out, and after the cooldown the answers come that are given. -/
def probedAfterTimeouts (answers : List (Except RpcError RpcValue)) : List (ℕ × BreakerCall) :=
  (List.replicate 5 (Except.error (RpcError.timeout "primary" 0)) ++ answers).flatMap fun answer =>
    [(30 * 10 ^ 9, .canExecute), (0, .answered answer)]

/-- A provider that times out again on its first probe is asked again later. -/
theorem failed_probe_recovers :
    ((probedAfterTimeouts [.error (.timeout "primary" 0)]).foldl (step .default) (start 0)).Recovers
      .default :=
  (recovers_iff_spared (by decide) 0 _).mpr (by decide +kernel) _ List.prefix_rfl

/-- Three requests that the provider refuses for what they ask leave it locked out. -/
theorem refused_probes_lock_out :
    let traffic := (probedAfterTimeouts
      (List.replicate 3 (.error (.providerError (-32602) "invalid params" none)))).foldl
        (step .default) (start 0)
    traffic.inFlight = 0 ∧ ¬ traffic.Recovers .default := by
  intro traffic
  refine ⟨by decide +kernel, fun hrecovers => ?_⟩
  have hexhausted : traffic.breaker.Exhausted .default := ⟨by decide +kernel, by decide +kernel⟩
  exact recovers_iff.mp hrecovers hexhausted

end Traffic

end ScreenerBot.Rpc
