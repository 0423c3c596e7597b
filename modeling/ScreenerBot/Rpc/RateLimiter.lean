import ScreenerBot.Chain.Amount
import ScreenerBot.Library.Gcra
import ScreenerBot.Library.MachineInt
import ScreenerBot.Rpc.Errors

/-!
The rate limiter of a provider, under any order of its calls.

The cells come from a limiter of the base rate; backoff and recovery keep a rate of their own beside
it. Moments are seconds, and the factors of backoff and recovery, `f64` in the source, are exact
rationals.
-/
namespace ScreenerBot.Rpc
open Library

inductive RpcMethod where
  | getHealth
  | getVersion
  | getSlot
  | getBlockHeight
  | getEpochInfo
  | getBalance
  | getAccountInfo
  | getMultipleAccounts
  | getTokenAccountBalance
  | getTokenAccountsByOwner
  | getProgramAccounts
  | getTransaction
  | getSignaturesForAddress
  | getSignatureStatuses
  | getLatestBlockhash
  | getRecentBlockhash
  | isBlockhashValid
  | getFeeForMessage
  | getMinimumBalanceForRentExemption
  | sendTransaction
  | simulateTransaction
  | getPriorityFeeEstimate
  | getTransactionsForAddress
  | getAsset
  | getAssetsByOwner
  | searchAssets
  | other (name : String)
  deriving DecidableEq, Repr

/-- Cells a request takes. -/
def RpcMethod.cost : RpcMethod → ℕ
  | getHealth | getVersion => 1
  | getSlot | getBlockHeight | getEpochInfo => 1
  | getBalance | getTokenAccountBalance => 1
  | getLatestBlockhash | getRecentBlockhash | isBlockhashValid => 1
  | getMinimumBalanceForRentExemption | getFeeForMessage => 1
  | getAccountInfo => 1
  | getMultipleAccounts => 2
  | getTransaction => 2
  | getSignatureStatuses => 2
  | sendTransaction | simulateTransaction => 2
  | getPriorityFeeEstimate => 1
  | getTransactionsForAddress => 5
  | getAsset => 1
  | getSignaturesForAddress => 3
  | getTokenAccountsByOwner => 3
  | getAssetsByOwner => 3
  | searchAssets => 4
  | getProgramAccounts => 5
  | other _ => 2

/-- `as u32`. -/
def asU32 (x : ℚ) : UInt32 := .ofNat (min ⌊x⌋.toNat u32Max)

/-- A rate in requests per second, at least one. -/
def perSecond (rate : UInt32) (hrate : 0 < rate) : Quota ℚ where
  interval := 1 / rate.toNat
  burst := rate.toNat
  interval_pos := by
    have : 0 < rate.toNat := hrate
    positivity
  burst_pos := hrate

theorem max_one_pos (rate : UInt32) : 0 < max rate 1 := by
  rw [UInt32.lt_iff_toNat_lt]
  change 0 < (if rate ≤ 1 then 1 else rate).toNat
  split_ifs with h
  · decide
  · rw [UInt32.le_iff_toNat_le] at h
    have hone : (1 : UInt32).toNat = 1 := rfl
    omega

structure ProviderRateLimiter where
  providerId : String
  baseRate : UInt32
  baseRate_pos : 0 < baseRate
  /-- When the next cell of the limiter is due. -/
  due : ℚ
  currentRate : UInt32
  consecutive429s : UInt32
  last429 : Option ℚ
  backoffMultiplier : ℚ
  minRate : UInt32
  recoveryRate : ℚ
  recoveryThreshold : UInt32
  recoveryProgress : UInt32

namespace ProviderRateLimiter

/-- The quota the limiter was built with. -/
def quota (limiter : ProviderRateLimiter) : Quota ℚ :=
  perSecond limiter.baseRate limiter.baseRate_pos

def new (providerId : String) (ratePerSecond : UInt32) : ProviderRateLimiter where
  providerId
  baseRate := max ratePerSecond 1
  baseRate_pos := max_one_pos ratePerSecond
  due := 0
  currentRate := max ratePerSecond 1
  consecutive429s := 0
  last429 := none
  backoffMultiplier := 1 / 2
  minRate := 1
  recoveryRate := 1 / 10
  recoveryThreshold := 10
  recoveryProgress := 0

def withBackoff (providerId : String) (ratePerSecond : UInt32) (backoffMultiplier : ℚ)
    (minRate : UInt32) : ProviderRateLimiter :=
  { new providerId ratePerSecond with
    backoffMultiplier := max (1 / 10) (min backoffMultiplier (9 / 10))
    minRate := max minRate 1 }

/-- A wait for one cell that ends at `now`; none where the cell does not conform yet. -/
def untilReady (limiter : ProviderRateLimiter) (now : ℚ) : Option ProviderRateLimiter :=
  (limiter.quota.check limiter.due now).map fun due => { limiter with due }

/-- An acquire whose waits end at the moments given, one for each cell. -/
def acquire (limiter : ProviderRateLimiter) (method : RpcMethod) (moments : Fin method.cost → ℚ) :
    Option ProviderRateLimiter := (List.ofFn moments).foldlM untilReady limiter

def tryAcquire (limiter : ProviderRateLimiter) (method : RpcMethod) (now : ℚ) :
    Bool × ProviderRateLimiter :=
  let checked := limiter.quota.checkAll now method.cost limiter.due
  (checked.1, { limiter with due := checked.2 })

/-- The limiter after a 429, and how long the call sleeps. -/
def record429 (limiter : ProviderRateLimiter) (now : ℚ) (retryAfter : Option Duration) :
    ProviderRateLimiter × Option Duration :=
  let count := limiter.consecutive429s + 1
  let reduction := limiter.backoffMultiplier ^ i32 count.toNat
  let newRate := asU32 (max (limiter.baseRate.toNat * reduction) limiter.minRate.toNat)
  ({ limiter with
      consecutive429s := count, last429 := some now, currentRate := newRate
      recoveryProgress := 0 },
    retryAfter.filter fun delay => 100 * 10 ^ 6 < delay ∧ delay < .fromSecs 60)

def recordSuccess (limiter : ProviderRateLimiter) : ProviderRateLimiter :=
  if 0 < limiter.consecutive429s then
    let progress := limiter.recoveryProgress + 1
    if limiter.recoveryThreshold ≤ progress then
      { limiter with
        consecutive429s := 0, currentRate := limiter.baseRate, recoveryProgress := 0 }
    else
      let recoveryAmount :=
        asU32 ((limiter.baseRate - limiter.currentRate).toNat * limiter.recoveryRate)
      { limiter with
        recoveryProgress := progress
        currentRate := min (limiter.currentRate + recoveryAmount) limiter.baseRate }
  else limiter

/-- The cells a call that does not wait would get at `now`. -/
def remaining (limiter : ProviderRateLimiter) (now : ℚ) : ℕ :=
  limiter.quota.available limiter.due now

end ProviderRateLimiter

/-- One call of a limiter. An acquire is as many waits as its method costs, and other calls may come
between them. -/
inductive LimiterCall where
  | untilReady (now : ℚ)
  | tryAcquire (method : RpcMethod) (now : ℚ)
  | record429 (now : ℚ) (retryAfter : Option Duration)
  | recordSuccess

/-- A limiter with the moments of the request units it has admitted and the rates it has
reported. -/
structure LimiterRun where
  limiter : ProviderRateLimiter
  admitted : List ℚ := []
  reported : List UInt32 := [limiter.currentRate]

namespace LimiterRun

/-- The run goes on with a limiter that has admitted `units` at `now`. -/
def moveTo (run : LimiterRun) (limiter : ProviderRateLimiter) (units : List ℚ) : LimiterRun where
  limiter
  admitted := units ++ run.admitted
  reported := limiter.currentRate :: run.reported

def step (run : LimiterRun) : LimiterCall → Option LimiterRun
  | .untilReady now => (run.limiter.untilReady now).map fun limiter => run.moveTo limiter [now]
  | .tryAcquire method now =>
    let answer := run.limiter.tryAcquire method now
    some (run.moveTo answer.2 (if answer.1 then List.replicate method.cost now else []))
  | .record429 now retryAfter => some (run.moveTo (run.limiter.record429 now retryAfter).1 [])
  | .recordSuccess => some (run.moveTo run.limiter.recordSuccess [])

end LimiterRun

/-- The calls under which the limiter keeps its promises: a 429 finds nothing to reduce, and a call
that does not wait finds all its cells or none. -/
def ProviderRateLimiter.Meets (limiter : ProviderRateLimiter) : LimiterCall → Prop
  | .record429 _ _ =>
    limiter.minRate = limiter.baseRate ∧ limiter.consecutive429s.toNat + 1 < 2 ^ 31
  | .tryAcquire method now => limiter.remaining now = 0 ∨ method.cost ≤ limiter.remaining now
  | _ => True

/-- The runs of a limiter whose calls all meet the condition. -/
inductive LimiterRun.Reaches (start : ProviderRateLimiter) : LimiterRun → Prop
  | start : Reaches start { limiter := start }
  | step {run next : LimiterRun} {call : LimiterCall} (hrun : Reaches start run)
      (hmeets : run.limiter.Meets call) (hstep : run.step call = some next) : Reaches start next

/-- What the limiter is for. -/
structure LimiterRun.Keeps (run : LimiterRun) : Prop where
  /-- No window holds more than any rate reported admits in it, and one burst. -/
  windows : ∀ rate ∈ run.reported, ∀ lo hi, lo ≤ hi →
    (Quota.inWindow run.admitted lo hi : ℚ) ≤ rate.toNat * (hi - lo) + run.limiter.baseRate.toNat
  rates : run.limiter.minRate ≤ run.limiter.currentRate ∧
    run.limiter.currentRate ≤ run.limiter.baseRate
  /-- A refused call takes no capacity. -/
  refused : ∀ method now, run.limiter.Meets (.tryAcquire method now) →
    (run.limiter.tryAcquire method now).1 = false →
      ∀ moment, (run.limiter.tryAcquire method now).2.remaining moment =
        run.limiter.remaining moment

/-- The rate is the base rate and the windows hold at it. -/
structure ProviderRateLimiter.Steady (limiter : ProviderRateLimiter) : Prop where
  rate : limiter.currentRate = limiter.baseRate
  minRate : limiter.minRate ≤ limiter.baseRate
  multiplier : 0 ≤ limiter.backoffMultiplier ∧ limiter.backoffMultiplier ≤ 1

namespace ProviderRateLimiter
variable {limiter : ProviderRateLimiter}

theorem asU32_natCast (n : UInt32) : asU32 (n.toNat : ℚ) = n := by
  have hle : n.toNat ≤ u32Max := by
    have := n.toNat_lt
    unfold u32Max
    omega
  rw [asU32, Int.floor_natCast, Int.toNat_natCast, min_eq_left hle]
  simp

theorem record429_steady (h : limiter.Steady) (now : ℚ) (retryAfter : Option Duration)
    (hmeets : limiter.Meets (.record429 now retryAfter)) :
    (limiter.record429 now retryAfter).1.Steady := by
  obtain ⟨hmin, hcount⟩ := hmeets
  obtain ⟨hrate, hle, hlow, hhigh⟩ := h
  refine ⟨?_, hle, hlow, hhigh⟩
  have hsucc : (limiter.consecutive429s + 1).toNat = limiter.consecutive429s.toNat + 1 := by
    rw [UInt32.toNat_add]
    simp
    omega
  have hi32 : i32 ((limiter.consecutive429s.toNat + 1 : ℕ) : ℤ) =
      (limiter.consecutive429s.toNat + 1 : ℕ) := i32_eq_self_iff.mpr (by omega)
  have hreduction : limiter.backoffMultiplier ^ i32
      ((limiter.consecutive429s + 1).toNat : ℤ) ≤ 1 := by
    rw [hsucc, hi32, zpow_natCast]
    exact pow_le_one₀ hlow hhigh
  change asU32 _ = limiter.baseRate
  rw [hmin, max_eq_right, asU32_natCast]
  exact mul_le_of_le_one_right (Nat.cast_nonneg _) hreduction

theorem recordSuccess_steady (h : limiter.Steady) : limiter.recordSuccess.Steady := by
  obtain ⟨hrate, hle, hmultiplier⟩ := h
  unfold recordSuccess
  dsimp only
  split_ifs
  · exact ⟨rfl, hle, hmultiplier⟩
  · refine ⟨?_, hle, hmultiplier⟩
    have hzero : asU32 0 = 0 := by decide +kernel
    rw [hrate, UInt32.sub_self]
    simp only [UInt32.toNat_zero, Nat.cast_zero, zero_mul, hzero, UInt32.add_zero]
    exact ite_self _
  · exact ⟨hrate, hle, hmultiplier⟩

theorem quota_congr {other : ProviderRateLimiter} (h : limiter.baseRate = other.baseRate) :
    limiter.quota = other.quota := by
  unfold quota
  congr

theorem recordSuccess_frame (limiter : ProviderRateLimiter) :
    limiter.recordSuccess.baseRate = limiter.baseRate ∧
      limiter.recordSuccess.due = limiter.due := by
  unfold recordSuccess
  dsimp only
  split_ifs <;> exact ⟨rfl, rfl⟩

theorem withBackoff_steady {providerId : String} {ratePerSecond minRate : UInt32}
    {backoffMultiplier : ℚ} (h : max minRate 1 ≤ max ratePerSecond 1) :
    (withBackoff providerId ratePerSecond backoffMultiplier minRate).Steady := by
  refine ⟨rfl, h, ?_, ?_⟩
  · exact le_trans (by norm_num) (le_max_left _ _)
  · exact max_le (by norm_num) ((min_le_right _ _).trans (by norm_num))

theorem tryAcquire_refused {method : RpcMethod} {now : ℚ}
    (hmeets : limiter.Meets (.tryAcquire method now))
    (hrefused : (limiter.tryAcquire method now).1 = false) :
    (limiter.tryAcquire method now).2 = limiter := by
  obtain ⟨hall, -⟩ := @Quota.checkAll_spec _ _ _ limiter.quota limiter.due now _ _ method.cost
  have hfalse : ¬ method.cost ≤ limiter.remaining now := by
    intro hle
    have htrue := hall.mpr hle
    exact Bool.false_ne_true (hrefused.symm.trans htrue)
  have hnone : limiter.quota.check limiter.due now = none := by
    have hzero := hmeets.resolve_right hfalse
    by_contra hsome
    exact (Quota.available_pos.mpr (Option.isSome_iff_ne_none.mpr hsome)).ne' hzero
  obtain ⟨cost, hcost⟩ : ∃ cost, method.cost = cost + 1 := by
    cases method <;> exact ⟨_, rfl⟩
  unfold tryAcquire
  rw [hcost, Quota.checkAll]
  simp only [hnone]

end ProviderRateLimiter

/-- What every call that meets the condition preserves. -/
structure LimiterRun.Invariant (run : LimiterRun) : Prop where
  steady : run.limiter.Steady
  windowed : run.limiter.quota.Windowed run.limiter.due run.admitted
  reported : ∀ rate ∈ run.reported, rate = run.limiter.baseRate

namespace LimiterRun

theorem Invariant.step {run next : LimiterRun} {call : LimiterCall} (h : run.Invariant)
    (hmeets : run.limiter.Meets call) (hstep : run.step call = some next) : next.Invariant := by
  obtain ⟨hsteady, hwindowed, hreported⟩ := h
  -- Every step reports the rate of the limiter it leaves.
  have hreports {limiter : ProviderRateLimiter} (hlimiter : limiter.Steady)
      (hbase : limiter.baseRate = run.limiter.baseRate) (units : List ℚ) :
      ∀ rate ∈ (run.moveTo limiter units).reported, rate = limiter.baseRate := by
    intro rate hrate
    rcases List.mem_cons.mp hrate with rfl | hrate
    · exact hlimiter.rate
    · rw [hbase]
      exact hreported rate hrate
  cases call with
  | untilReady now =>
    obtain ⟨limiter, hready, rfl⟩ := Option.map_eq_some_iff.mp hstep
    obtain ⟨due, hcheck, rfl⟩ := Option.map_eq_some_iff.mp hready
    have hlater : ProviderRateLimiter.Steady { run.limiter with due } :=
      ⟨hsteady.rate, hsteady.minRate, hsteady.multiplier⟩
    exact ⟨hlater, hwindowed.check hcheck, hreports hlater rfl [now]⟩
  | tryAcquire method now =>
    obtain rfl := Option.some_inj.mp hstep
    have hlater : (run.limiter.tryAcquire method now).2.Steady :=
      ⟨hsteady.rate, hsteady.minRate, hsteady.multiplier⟩
    refine ⟨hlater, ?_, hreports hlater rfl _⟩
    unfold moveTo
    cases hadmitted : (run.limiter.tryAcquire method now).1 with
    | true => exact hwindowed.checkAll hadmitted
    | false => exact hwindowed.later (Quota.le_checkAll method.cost)
  | record429 now retryAfter =>
    obtain rfl := Option.some_inj.mp hstep
    have hlater := ProviderRateLimiter.record429_steady hsteady now retryAfter hmeets
    exact ⟨hlater, hwindowed, hreports hlater rfl _⟩
  | recordSuccess =>
    obtain rfl := Option.some_inj.mp hstep
    have hlater := ProviderRateLimiter.recordSuccess_steady hsteady
    obtain ⟨hbase, hdue⟩ := run.limiter.recordSuccess_frame
    refine ⟨hlater, ?_, hreports hlater hbase []⟩
    change Quota.Windowed run.limiter.recordSuccess.quota run.limiter.recordSuccess.due run.admitted
    rw [ProviderRateLimiter.quota_congr hbase, hdue]
    exact hwindowed

theorem invariant_start {limiter : ProviderRateLimiter} (h : limiter.Steady) :
    Invariant { limiter } := by
  refine ⟨h, .nil, ?_⟩
  intro rate hrate
  rw [List.mem_singleton.mp hrate, h.rate]

theorem Reaches.invariant {start : ProviderRateLimiter} {run : LimiterRun}
    (hstart : start.Steady) (h : Reaches start run) : run.Invariant := by
  induction h with
  | start => exact invariant_start hstart
  | step _ hmeets hstep ih => exact ih.step hmeets hstep

theorem Invariant.keeps {run : LimiterRun} (h : run.Invariant) : run.Keeps := by
  obtain ⟨hsteady, hwindowed, hreported⟩ := h
  constructor
  · intro rate hrate lo hi hle
    have hbound := hwindowed.bounded lo hi hle
    have hinterval : (hi - lo) / run.limiter.quota.interval = run.limiter.baseRate.toNat *
        (hi - lo) := by
      change (hi - lo) / (1 / _) = _
      rw [div_div_eq_mul_div, div_one, mul_comm]
    rw [hinterval] at hbound
    rw [hreported rate hrate]
    exact hbound
  · rw [hsteady.rate]
    exact ⟨hsteady.minRate, UInt32.le_refl _⟩
  · intro method now hmeets hrefused moment
    rw [ProviderRateLimiter.tryAcquire_refused hmeets hrefused]

/-- An acquire is the waits of its cells. -/
theorem waits_of_acquire {moments : List ℚ} {run : LimiterRun} {limiter : ProviderRateLimiter}
    (h : moments.foldlM ProviderRateLimiter.untilReady run.limiter = some limiter) :
    ∃ next, (moments.map LimiterCall.untilReady).foldlM step run = some next ∧
      next.limiter = limiter ∧ next.admitted = moments.reverse ++ run.admitted := by
  induction moments generalizing run with
  | nil => exact ⟨run, rfl, Option.some_inj.mp h, rfl⟩
  | cons moment moments ih =>
    obtain ⟨ready, hready, hrest⟩ := Option.bind_eq_some_iff.mp h
    obtain ⟨next, hnext, hlimiter, hadmitted⟩ := @ih (run.moveTo ready [moment]) hrest
    refine ⟨next, ?_, hlimiter, ?_⟩
    · have hstep : run.step (.untilReady moment) = some (run.moveTo ready [moment]) := by
        simp [step, hready]
      rw [List.map_cons, List.foldlM_cons, hstep]
      exact hnext
    · rw [hadmitted]
      simp [moveTo]

end LimiterRun

/-- A 429, then the cells of a limiter of two requests a second. -/
def cellsAfter429 : List LimiterCall :=
  [.record429 0 none, .untilReady 1, .untilReady 1, .untilReady (3 / 2), .untilReady 2,
    .untilReady (5 / 2), .untilReady 3, .untilReady (7 / 2), .untilReady 4]

/-- Eight units pass in three seconds at a rate reported as one a second. A refused call takes what
was left, and a floor above the base rate is not met. -/
theorem backoff_bounds_nothing :
    ((cellsAfter429.foldlM LimiterRun.step { limiter := .new "p" 2 }).map fun run =>
        (run.reported, Quota.inWindow run.admitted 1 4)) = some (List.replicate 9 1 ++ [2], 8) ∧
    ¬ (8 : ℚ) ≤ 1 * (4 - 1) + 2 ∧
    ((ProviderRateLimiter.new "p" 4).tryAcquire .getProgramAccounts 1).1 = false ∧
    (ProviderRateLimiter.new "p" 4).remaining 1 = 4 ∧
    ((ProviderRateLimiter.new "p" 4).tryAcquire .getProgramAccounts 1).2.remaining 1 = 0 ∧
    ¬ (ProviderRateLimiter.withBackoff "p" 1 (1 / 2) 5).minRate ≤
      (ProviderRateLimiter.withBackoff "p" 1 (1 / 2) 5).currentRate := by
  constructor
  · decide +kernel
  · refine ⟨by norm_num, ?_, ?_, ?_, ?_⟩
    · decide +kernel
    · decide +kernel
    · decide +kernel
    · decide +kernel

/-- In a run whose calls all meet the condition the limiter keeps every promise. -/
theorem limiter_keeps {providerId : String} {ratePerSecond minRate : UInt32}
    {backoffMultiplier : ℚ} (hmin : max minRate 1 ≤ max ratePerSecond 1) {run : LimiterRun}
    (hrun : LimiterRun.Reaches
      (.withBackoff providerId ratePerSecond backoffMultiplier minRate) run) :
    run.Keeps := (hrun.invariant (ProviderRateLimiter.withBackoff_steady hmin)).keeps

/-- Two units, a 429 that finds nothing to reduce, a refused call, and a success. -/
theorem limiter_keeps_two_units :
    ∃ run, LimiterRun.Reaches (.withBackoff "p" 2 (1 / 2) 2) run ∧ run.admitted = [1, 1] ∧
      run.reported = [2, 2, 2, 2, 2] ∧ run.limiter.recoveryProgress = 1 ∧ run.Keeps := by
  have hfirst : (ProviderRateLimiter.withBackoff "p" 2 (1 / 2) 2).Meets
      (.tryAcquire .getTransaction 1) := .inr (by decide +kernel)
  have hadmitted := LimiterRun.Reaches.start.step hfirst rfl
  have hlimited := @LimiterRun.Reaches.step _ _ _ (.record429 1 none) hadmitted ⟨rfl, by decide⟩ rfl
  have hrefused := @LimiterRun.Reaches.step _ _ _ (.tryAcquire .getTransaction 1) hlimited
    (.inl (by decide +kernel)) rfl
  have hrun := @LimiterRun.Reaches.step _ _ _ .recordSuccess hrefused trivial rfl
  exact ⟨_, hrun, by decide +kernel, by decide +kernel, by decide +kernel,
    limiter_keeps (by decide) hrun⟩

end ScreenerBot.Rpc
