import ScreenerBot.Chain.Amount
import ScreenerBot.Library.BlockRates
import ScreenerBot.Library.ByteFields
import ScreenerBot.Library.SquarePower

/-!
The base fee of a DAMM v2 pool: decoded, scheduled over time and limited by size.

The 128-bit products of the fee arithmetic are unchecked and leave what `u128` keeps of them. The
products of the scheduled fee are also listed, in the order they are formed.
-/
namespace ScreenerBot.Direct.Venues.Damm
open ScreenerBot.Library

def feeDenominator : ℕ := 10 ^ 9

def maxFeeNumerator : ℕ := 500000000

def basisPointMax : ℕ := 10000

def u128 (x : ℕ) : ℕ := wrapUnsigned 128 x

theorem u128_of_lt {x : ℕ} (h : x < 2 ^ 128) : u128 x = x := Nat.mod_eq_of_lt h

inductive BaseFee
  | timeScheduler (cliff periods periodFrequency reductionFactor : ℕ) (linear : Bool)
  | rateLimiter (cliff feeIncrementBps maxLimiterDuration maxFeeBps referenceAmount : ℕ)
  /-- `Cliff`, for every other tag. -/
  | flat (cliff : ℕ)
  deriving DecidableEq, Repr

/-- `BaseFee::decode`. -/
def BaseFee.decode (data : List UInt8) (offset : ℕ) : Option BaseFee := do
  let cliff ← fieldAt 8 data offset
  let mode ← fieldAt 1 data (offset + 8)
  if mode = 0 ∨ mode = 1 then do
    let periods ← fieldAt 2 data (offset + 14)
    let periodFrequency ← fieldAt 8 data (offset + 16)
    let reductionFactor ← fieldAt 8 data (offset + 24)
    some (.timeScheduler cliff periods periodFrequency reductionFactor (mode = 0))
  else if mode = 2 then do
    let feeIncrementBps ← fieldAt 2 data (offset + 14)
    let maxLimiterDuration ← fieldAt 4 data (offset + 16)
    let maxFeeBps ← fieldAt 4 data (offset + 20)
    let referenceAmount ← fieldAt 8 data (offset + 24)
    some (.rateLimiter cliff feeIncrementBps maxLimiterDuration maxFeeBps referenceAmount)
  else some (.flat cliff)

/-- The values the fields of a base fee can take. -/
def BaseFee.InRange : BaseFee → Prop
  | .timeScheduler cliff periods periodFrequency reductionFactor _ =>
    cliff < 2 ^ 64 ∧ periods < 2 ^ 16 ∧ periodFrequency < 2 ^ 64 ∧ reductionFactor < 2 ^ 64
  | .rateLimiter cliff feeIncrementBps maxLimiterDuration maxFeeBps referenceAmount =>
    cliff < 2 ^ 64 ∧ feeIncrementBps < 2 ^ 16 ∧ maxLimiterDuration < 2 ^ 32 ∧
      maxFeeBps < 2 ^ 32 ∧ referenceAmount < 2 ^ 64
  | .flat cliff => cliff < 2 ^ 64

/-- The loop of `exponential_reduction`. -/
def reductionLoop (result base exponent : ℕ) : ℕ :=
  if exponent = 0 then result
  else
    let result := if exponent % 2 = 1 then u128 (result * base) >>> 64 else result
    let base := u128 (base * base) >>> 64
    if base = 0 then result else reductionLoop result base (exponent / 2)
termination_by exponent
decreasing_by omega

/-- The operands of the products of the loop. -/
def reductionLoopProducts (result base exponent : ℕ) : List (ℕ × ℕ) :=
  if exponent = 0 then []
  else
    let product := if exponent % 2 = 1 then [(result, base)] else []
    let result := if exponent % 2 = 1 then u128 (result * base) >>> 64 else result
    let square := u128 (base * base) >>> 64
    product ++ (base, base) ::
      if square = 0 then [] else reductionLoopProducts result square (exponent / 2)
termination_by exponent
decreasing_by omega

/-- One in the fixed point of the fee schedule. -/
def q64 : ℕ := 2 ^ 64

/-- What one period leaves of the fee. -/
def periodRatio (reductionFactor : ℕ) : ℕ :=
  u128 (q64 * (basisPointMax - reductionFactor)) / basisPointMax

/-- `exponential_reduction`. -/
def exponentialReduction (cliff reductionFactor period : ℕ) : ℕ :=
  if basisPointMax ≤ reductionFactor then 0
  else min (u128 (cliff * reductionLoop q64 (periodRatio reductionFactor) period) >>> 64) u64Max

/-- The operands of its products. -/
def exponentialProducts (cliff reductionFactor period : ℕ) : List (ℕ × ℕ) :=
  if basisPointMax ≤ reductionFactor then []
  else
    let ratio := periodRatio reductionFactor
    (q64, basisPointMax - reductionFactor) :: reductionLoopProducts q64 ratio period ++
      [(cliff, reductionLoop q64 ratio period)]

/-- The highest numerator of a limiter with this setting. -/
def ceilingNumerator (maxFeeBps : ℕ) : ℕ :=
  min (maxFeeBps * feeDenominator / basisPointMax) maxFeeNumerator

/-- What a limiter adds from block to block. -/
def incrementNumerator (feeIncrementBps : ℕ) : ℕ :=
  u128 (feeIncrementBps * feeDenominator) / basisPointMax

/-- The fee of a limiter in fee units: whole blocks, then the rest of the input. -/
def limiterFee (x0 c increment ceiling blocks remainder : ℕ) : ℕ :=
  let maxIndex := (ceiling - c) / increment
  if blocks < maxIndex then
    let stepped := u128 (u128 (c + u128 (c * blocks)) +
      u128 (u128 (increment * blocks) * u128 (blocks + 1)) / 2)
    u128 (u128 (x0 * stepped) + u128 (remainder * u128 (c + u128 (increment * u128 (blocks + 1)))))
  else
    let capped := u128 (u128 (c + u128 (c * maxIndex)) +
      u128 (u128 (increment * maxIndex) * u128 (maxIndex + 1)) / 2)
    let beyond := u128 (u128 ((blocks - maxIndex) * x0) + remainder)
    u128 (u128 (x0 * capped) + u128 (beyond * ceiling))

/-- `rate_limited_numerator`. -/
def rateLimitedNumerator
    (amountIn cliff feeIncrementBps maxFeeBps referenceAmount : ℕ) : ℕ :=
  if amountIn ≤ referenceAmount then cliff
  else
    let ceiling := ceilingNumerator maxFeeBps
    let increment := incrementNumerator feeIncrementBps
    if increment = 0 ∨ ceiling ≤ cliff then cliff
    else
      let excess := amountIn - referenceAmount
      let fee := limiterFee referenceAmount cliff increment ceiling (excess / referenceAmount)
        (excess % referenceAmount)
      min (fee ⌈/⌉ amountIn) ceiling

/-- The periods of a schedule that have run out at a point. -/
def elapsedPeriods (periods periodFrequency currentPoint activationPoint : ℕ) : ℕ :=
  min ((currentPoint - activationPoint) / periodFrequency) periods

/-- `BaseFee::numerator`. -/
def BaseFee.numerator (fee : BaseFee) (amountIn currentPoint activationPoint : ℕ) (bToA : Bool) :
    ℕ :=
  match fee with
  | .flat cliff => cliff
  | .timeScheduler cliff periods periodFrequency reductionFactor linear =>
    if periodFrequency = 0 ∨ periods = 0 then cliff
    else
      let period := elapsedPeriods periods periodFrequency currentPoint activationPoint
      if linear then cliff - min (reductionFactor * period) u64Max
      else exponentialReduction cliff reductionFactor period
  | .rateLimiter cliff feeIncrementBps maxLimiterDuration maxFeeBps referenceAmount =>
    let inWindow := currentPoint < saturatingAddU64 activationPoint maxLimiterDuration
    if !bToA ∨ ¬inWindow ∨ referenceAmount = 0 ∨ feeIncrementBps = 0 then cliff
    else rateLimitedNumerator amountIn cliff feeIncrementBps maxFeeBps referenceAmount

/-- The operands of the products of a scheduled numerator; a linear one saturates its own. -/
def BaseFee.scheduleProducts (fee : BaseFee) (currentPoint activationPoint : ℕ) : List (ℕ × ℕ) :=
  match fee with
  | .timeScheduler cliff periods periodFrequency reductionFactor linear =>
    if periodFrequency = 0 ∨ periods = 0 ∨ linear then []
    else exponentialProducts cliff reductionFactor
      (elapsedPeriods periods periodFrequency currentPoint activationPoint)
  | _ => []

theorem fieldAt_lt {width offset value : ℕ} {data : List UInt8}
    (h : fieldAt width data offset = some value) : value < 2 ^ (8 * width) := by
  rw [pow_mul]
  exact (written_of_fieldAt h).2

theorem BaseFee.decode_inRange {data : List UInt8} {offset : ℕ} {fee : BaseFee}
    (h : BaseFee.decode data offset = some fee) : fee.InRange := by
  simp only [BaseFee.decode, Option.bind_eq_bind, Option.bind_eq_some_iff] at h
  obtain ⟨cliff, hcliff, mode, -, h⟩ := h
  have hcliff := fieldAt_lt hcliff
  split_ifs at h
  · simp only [Option.bind_eq_some_iff, Option.some.injEq] at h
    obtain ⟨periods, hperiods, periodFrequency, hfrequency, reductionFactor, hreduction, rfl⟩ := h
    exact ⟨hcliff, fieldAt_lt hperiods, fieldAt_lt hfrequency, fieldAt_lt hreduction⟩
  · simp only [Option.bind_eq_some_iff, Option.some.injEq] at h
    obtain ⟨increment, hincrement, duration, hduration, maxFee, hmaxFee, reference, hreference,
      rfl⟩ := h
    exact ⟨hcliff, fieldAt_lt hincrement, fieldAt_lt hduration, fieldAt_lt hmaxFee,
      fieldAt_lt hreference⟩
  · obtain rfl := Option.some.inj h
    exact hcliff

end ScreenerBot.Direct.Venues.Damm
