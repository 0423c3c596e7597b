import ScreenerBot.Direct.Venues.DammSchedule

/-!
What a rate limiter charges for an amount.

A unit of input pays the rate of its block: the cliff in the first one, one increment more in each
next one, and the ceiling from where the increments would pass it.
-/
namespace ScreenerBot.Direct.Venues.Damm
open ScreenerBot.Library Finset

section Rates
variable {c increment ceiling : ℕ}

theorem rate_below {block : ℕ} (hc : c ≤ ceiling) (h : block ≤ (ceiling - c) / increment) :
    cappedRate c increment ceiling block = c + increment * block := by
  have hsteps := (Nat.mul_le_mul_left increment h).trans (Nat.mul_div_le (ceiling - c) increment)
  exact min_eq_left (by omega)

theorem rate_above {block : ℕ} (hincrement : 0 < increment)
    (h : (ceiling - c) / increment < block) : cappedRate c increment ceiling block = ceiling := by
  have hsteps := (Nat.div_lt_iff_lt_mul hincrement).mp h
  rw [mul_comm] at hsteps
  exact min_eq_right (by omega)

/-- The rates of the first block and of those up to one below the ceiling. -/
theorem sum_rates_below (hc : c ≤ ceiling) {blocks : ℕ} (h : blocks ≤ (ceiling - c) / increment) :
    ∑ block ∈ range (blocks + 1), cappedRate c increment ceiling block =
      c + c * blocks + increment * blocks * (blocks + 1) / 2 := by
  have hdouble : 2 * ∑ block ∈ range (blocks + 1), cappedRate c increment ceiling block =
      2 * (c + c * blocks) + increment * blocks * (blocks + 1) := by
    induction blocks with
    | zero =>
      rw [sum_range_one, rate_below hc (Nat.zero_le _)]
      ring
    | succ blocks ih =>
      rw [sum_range_succ, mul_add, ih ((Nat.le_succ blocks).trans h), rate_below hc h]
      ring
  omega

theorem sum_rates_above (hincrement : 0 < increment) {blocks : ℕ}
    (h : (ceiling - c) / increment ≤ blocks) :
    ∑ block ∈ range (blocks + 1), cappedRate c increment ceiling block =
      ∑ block ∈ range ((ceiling - c) / increment + 1), cappedRate c increment ceiling block +
        (blocks - (ceiling - c) / increment) * ceiling := by
  induction blocks, h using Nat.le_induction with
  | base => simp
  | succ blocks hle ih =>
    rw [sum_range_succ, ih, rate_above hincrement (by omega), Nat.succ_sub hle, Nat.succ_mul]
    omega

end Rates

/-- The stepped rates in unchecked arithmetic, far from its width. -/
theorem stepped_exact {c increment blocks : ℕ} (hc : c ≤ 2 ^ 30) (hblocks : blocks ≤ 2 ^ 30)
    (hsteps : increment * blocks ≤ 2 ^ 30) :
    u128 (u128 (c + u128 (c * blocks)) + u128 (u128 (increment * blocks) * u128 (blocks + 1)) / 2) =
        c + c * blocks + increment * blocks * (blocks + 1) / 2 ∧
      c + c * blocks + increment * blocks * (blocks + 1) / 2 < 2 ^ 62 := by
  have hfirst : c * blocks ≤ 2 ^ 30 * 2 ^ 30 := Nat.mul_le_mul hc hblocks
  have hsecond : increment * blocks * (blocks + 1) ≤ 2 ^ 30 * (2 ^ 30 + 1) :=
    Nat.mul_le_mul hsteps (by omega)
  rw [u128_of_lt (show c * blocks < 2 ^ 128 by omega),
    u128_of_lt (show increment * blocks < 2 ^ 128 by omega),
    u128_of_lt (show blocks + 1 < 2 ^ 128 by omega),
    u128_of_lt (show increment * blocks * (blocks + 1) < 2 ^ 128 by omega),
    u128_of_lt (show c + c * blocks < 2 ^ 128 by omega), u128_of_lt (by omega)]
  exact ⟨rfl, by omega⟩

/-- The fee of a limiter is what the units pay at the rates of their blocks. -/
theorem limiterFee_eq {x0 c increment ceiling blocks remainder : ℕ} (hx0 : 0 < x0)
    (hincrement : 0 < increment) (hc : c ≤ ceiling) (hceiling : ceiling ≤ 2 ^ 29)
    (hremainder : remainder < x0) (hamount : x0 * (blocks + 1) + remainder < 2 ^ 64) :
    limiterFee x0 c increment ceiling blocks remainder =
      blockTotal (cappedRate c increment ceiling) x0 (x0 * (blocks + 1) + remainder) := by
  have hmax : (ceiling - c) / increment ≤ 2 ^ 30 := (Nat.div_le_self _ _).trans (by omega)
  have hmaxSteps := Nat.mul_div_le (ceiling - c) increment
  have hx0Lt : x0 < 2 ^ 64 := by nlinarith
  rw [blockTotal_blocks hx0 _ hremainder.le, limiterFee]
  dsimp only
  split_ifs with hblocks
  · have hsteps : increment * (blocks + 1) ≤ ceiling - c :=
      (Nat.mul_le_mul_left increment hblocks).trans hmaxSteps
    have hbelow : increment * blocks ≤ increment * (blocks + 1) :=
      Nat.mul_le_mul_left increment (Nat.le_add_right blocks 1)
    obtain ⟨hstepped, hsmall⟩ :=
      stepped_exact (c := c) (by omega) (hblocks.le.trans hmax) (hbelow.trans (by omega))
    rw [hstepped, sum_rates_below hc hblocks.le, rate_below hc hblocks]
    set stepped := c + c * blocks + increment * blocks * (blocks + 1) / 2
    have hwhole : x0 * stepped < 2 ^ 64 * 2 ^ 62 := Nat.mul_lt_mul'' hx0Lt hsmall
    have hrest : remainder * (c + increment * (blocks + 1)) < 2 ^ 64 * 2 ^ 30 :=
      Nat.mul_lt_mul'' (by omega) (by omega)
    rw [u128_of_lt (show blocks + 1 < 2 ^ 128 by omega),
      u128_of_lt (show increment * (blocks + 1) < 2 ^ 128 by omega),
      u128_of_lt (show c + increment * (blocks + 1) < 2 ^ 128 by omega),
      u128_of_lt (show x0 * stepped < 2 ^ 128 by omega),
      u128_of_lt (show remainder * (c + increment * (blocks + 1)) < 2 ^ 128 by omega),
      u128_of_lt (by omega)]
  · have hreached := not_lt.mp hblocks
    obtain ⟨hcapped, hsmall⟩ := stepped_exact (c := c) (by omega) hmax (hmaxSteps.trans (by omega))
    rw [hcapped, sum_rates_above hincrement hreached, sum_rates_below hc le_rfl,
      rate_above hincrement (Nat.lt_succ_of_le hreached)]
    set maxIndex := (ceiling - c) / increment
    set capped := c + c * maxIndex + increment * maxIndex * (maxIndex + 1) / 2
    have hbeyond : (blocks - maxIndex) * x0 + remainder < 2 ^ 64 := by
      have hle : (blocks - maxIndex) * x0 ≤ x0 * (blocks + 1) := by
        rw [mul_comm]
        exact Nat.mul_le_mul_left x0 ((Nat.sub_le blocks maxIndex).trans (Nat.le_add_right _ 1))
      omega
    have hwhole : x0 * capped < 2 ^ 64 * 2 ^ 62 := Nat.mul_lt_mul'' hx0Lt hsmall
    have hrest : ((blocks - maxIndex) * x0 + remainder) * ceiling < 2 ^ 64 * 2 ^ 30 :=
      Nat.mul_lt_mul'' hbeyond (by omega)
    rw [u128_of_lt (show (blocks - maxIndex) * x0 < 2 ^ 128 by omega),
      u128_of_lt (show (blocks - maxIndex) * x0 + remainder < 2 ^ 128 by omega),
      u128_of_lt (show x0 * capped < 2 ^ 128 by omega),
      u128_of_lt (show ((blocks - maxIndex) * x0 + remainder) * ceiling < 2 ^ 128 by omega),
      u128_of_lt (by omega)]
    ring

/-- The rates of the blocks of a limiter. -/
def blockFee (cliff feeIncrementBps maxFeeBps : ℕ) : ℕ → ℕ :=
  cappedRate cliff (feeIncrementBps * feeDenominator / basisPointMax) (ceilingNumerator maxFeeBps)

section Settings
variable {cliff feeIncrementBps maxLimiterDuration maxFeeBps referenceAmount activationPoint : ℕ}

theorem ceilingNumerator_le (maxFeeBps : ℕ) : ceilingNumerator maxFeeBps ≤ 2 ^ 29 :=
  (min_le_right _ _).trans (by norm_num [maxFeeNumerator])

theorem incrementNumerator_eq (h : feeIncrementBps < 2 ^ 16) :
    incrementNumerator feeIncrementBps = feeIncrementBps * feeDenominator / basisPointMax := by
  have hlt : feeIncrementBps * feeDenominator < 2 ^ 16 * feeDenominator :=
    Nat.mul_lt_mul_of_pos_right h (by norm_num [feeDenominator])
  rw [incrementNumerator, u128_of_lt (hlt.trans (by norm_num [feeDenominator]))]

theorem blockFee_zero (h : cliff ≤ ceilingNumerator maxFeeBps) :
    blockFee cliff feeIncrementBps maxFeeBps 0 = cliff := by
  rw [blockFee, cappedRate, mul_zero, add_zero]
  exact min_eq_left h

/-- Without an increment, or room for one, every block pays the cliff. -/
theorem blockFee_flat (hceiling : cliff ≤ ceilingNumerator maxFeeBps)
    (h : feeIncrementBps * feeDenominator / basisPointMax = 0 ∨ ceilingNumerator maxFeeBps ≤ cliff)
    (block : ℕ) : blockFee cliff feeIncrementBps maxFeeBps block = cliff := by
  unfold blockFee cappedRate
  rcases h with h | h
  · rw [h, zero_mul]
    exact min_eq_left hceiling
  · omega

theorem rateLimitedNumerator_eq (hceiling : cliff ≤ ceilingNumerator maxFeeBps)
    (hincrement : feeIncrementBps < 2 ^ 16) (hreference : 0 < referenceAmount) {amountIn : ℕ}
    (hpos : 0 < amountIn) (hamount : amountIn < 2 ^ 64) :
    rateLimitedNumerator amountIn cliff feeIncrementBps maxFeeBps referenceAmount =
      blockTotal (blockFee cliff feeIncrementBps maxFeeBps) referenceAmount amountIn ⌈/⌉
        amountIn := by
  unfold rateLimitedNumerator
  rw [incrementNumerator_eq hincrement]
  dsimp only
  split_ifs with hsmall hflat
  · refine (blockTotal_ceilDiv_const hpos ?_).symm
    intro unit hunit
    rw [Nat.div_eq_of_lt (by omega), blockFee_zero hceiling]
  · exact (blockTotal_ceilDiv_const hpos fun unit _ => blockFee_flat hceiling hflat _).symm
  · obtain ⟨hstep, hroom⟩ := not_or.mp hflat
    have hsplit : referenceAmount * ((amountIn - referenceAmount) / referenceAmount + 1) +
        (amountIn - referenceAmount) % referenceAmount = amountIn := by
      have hdiv := Nat.div_add_mod (amountIn - referenceAmount) referenceAmount
      rw [Nat.mul_succ]
      omega
    have hfee := limiterFee_eq hreference (Nat.pos_of_ne_zero hstep) hceiling
      (ceilingNumerator_le maxFeeBps) (Nat.mod_lt (amountIn - referenceAmount) hreference)
      (hsplit.trans_lt hamount)
    rw [hsplit] at hfee
    rw [hfee]
    exact min_eq_left (blockTotal_ceilDiv_le hpos fun block => min_le_right _ _)

/-- Below the ceiling a limiter charges the weighted rate inside its window and else the cliff. -/
theorem numerator_limited (hceiling : cliff ≤ ceilingNumerator maxFeeBps)
    (hincrement : feeIncrementBps < 2 ^ 16) {amountIn : ℕ} (hamount : amountIn < 2 ^ 64)
    (point : ℕ) :
    (BaseFee.rateLimiter cliff feeIncrementBps maxLimiterDuration maxFeeBps
        referenceAmount).numerator amountIn point activationPoint true =
      if point < saturatingAddU64 activationPoint maxLimiterDuration ∧ 0 < amountIn then
        blockTotal (blockFee cliff feeIncrementBps maxFeeBps) referenceAmount amountIn ⌈/⌉ amountIn
      else cliff := by
  simp only [BaseFee.numerator, Bool.not_true, Bool.false_eq_true, false_or]
  by_cases hwindow : point < saturatingAddU64 activationPoint maxLimiterDuration
  swap
  · simp [hwindow]
  rcases Nat.eq_zero_or_pos amountIn with rfl | hpos
  · simp [rateLimitedNumerator]
  simp only [hwindow, not_true, false_or, hpos, and_self, if_true]
  split_ifs with hidle
  · refine (blockTotal_ceilDiv_const hpos ?_).symm
    intro unit hunit
    rcases hidle with rfl | rfl
    · rw [Nat.div_zero, blockFee_zero hceiling]
    · exact blockFee_flat hceiling (Or.inl (by simp)) _
  · obtain ⟨hreference, -⟩ := not_or.mp hidle
    exact rateLimitedNumerator_eq hceiling hincrement (Nat.pos_of_ne_zero hreference) hpos hamount

end Settings

/-- What a limiter promises, for every amount and every point. -/
structure Limits (cliff feeIncrementBps maxLimiterDuration maxFeeBps referenceAmount
    activationPoint : ℕ) : Prop where
  weighted : ∀ amountIn point, 0 < amountIn → amountIn ≤ u64Max →
    point < saturatingAddU64 activationPoint maxLimiterDuration →
    (BaseFee.rateLimiter cliff feeIncrementBps maxLimiterDuration maxFeeBps
        referenceAmount).numerator amountIn point activationPoint true =
      blockTotal (blockFee cliff feeIncrementBps maxFeeBps) referenceAmount amountIn ⌈/⌉ amountIn
  capped : ∀ amountIn point, amountIn ≤ u64Max →
    (BaseFee.rateLimiter cliff feeIncrementBps maxLimiterDuration maxFeeBps
        referenceAmount).numerator amountIn point activationPoint true ≤
      ceilingNumerator maxFeeBps
  rises : ∀ few many point, few ≤ many → many ≤ u64Max →
    (BaseFee.rateLimiter cliff feeIncrementBps maxLimiterDuration maxFeeBps
        referenceAmount).numerator few point activationPoint true ≤
      (BaseFee.rateLimiter cliff feeIncrementBps maxLimiterDuration maxFeeBps
        referenceAmount).numerator many point activationPoint true

/-- A decoded limiter charges as promised exactly where its cliff is not above its ceiling. -/
theorem limits_iff {cliff feeIncrementBps maxLimiterDuration maxFeeBps referenceAmount : ℕ}
    (h : (BaseFee.rateLimiter cliff feeIncrementBps maxLimiterDuration maxFeeBps
      referenceAmount).InRange) (activationPoint : ℕ) :
    Limits cliff feeIncrementBps maxLimiterDuration maxFeeBps referenceAmount activationPoint ↔
      cliff ≤ ceilingNumerator maxFeeBps := by
  obtain ⟨-, hincrement, -, -, -⟩ := h
  constructor
  · intro hlimits
    have hnone := hlimits.capped 0 0 (Nat.zero_le _)
    simpa [BaseFee.numerator, rateLimitedNumerator] using hnone
  · intro hceiling
    have hlt {amount : ℕ} (hle : amount ≤ u64Max) : amount < 2 ^ 64 := by
      unfold u64Max at hle
      omega
    have hmono : Monotone (blockFee cliff feeIncrementBps maxFeeBps) := cappedRate_mono _ _ _
    refine ⟨?_, ?_, ?_⟩
    · intro amountIn point hpos hamount hwindow
      rw [numerator_limited hceiling hincrement (hlt hamount), if_pos ⟨hwindow, hpos⟩]
    · intro amountIn point hamount
      rw [numerator_limited hceiling hincrement (hlt hamount)]
      split_ifs with hcharged
      · exact blockTotal_ceilDiv_le hcharged.2 fun block => min_le_right _ _
      · exact hceiling
    · intro few many point hle hmany
      rw [numerator_limited hceiling hincrement (hlt (hle.trans hmany)),
        numerator_limited hceiling hincrement (hlt hmany)]
      split_ifs with hfew hboth hnone
      · exact blockTotal_ceilDiv_mono hmono hfew.2 hle
      · exact absurd ⟨hfew.1, hfew.2.trans_le hle⟩ hboth
      · have hfirst : blockTotal
          (blockFee cliff feeIncrementBps maxFeeBps) referenceAmount 1 ⌈/⌉ 1 =
            cliff := by
          refine blockTotal_ceilDiv_const one_pos ?_
          intro unit hunit
          rw [Nat.lt_one_iff.mp hunit, Nat.zero_div, blockFee_zero hceiling]
        exact hfirst.ge.trans (blockTotal_ceilDiv_mono hmono one_pos hnone.2)
      · exact le_rfl

/-- What the base fee of a pool promises. -/
def BaseFee.Lawful (fee : BaseFee) (activationPoint : ℕ) : Prop :=
  match fee with
  | .timeScheduler cliff _ _ _ _ => Decays fee cliff activationPoint
  | .rateLimiter cliff feeIncrementBps maxLimiterDuration maxFeeBps referenceAmount =>
    Limits cliff feeIncrementBps maxLimiterDuration maxFeeBps referenceAmount activationPoint
  | .flat cliff => ∀ amountIn point bToA, fee.numerator amountIn point activationPoint bToA = cliff

/-- The base fees that keep it. -/
def BaseFee.Regular (fee : BaseFee) (activationPoint : ℕ) : Prop :=
  match fee with
  | .timeScheduler cliff periods periodFrequency reductionFactor linear =>
    SteadySchedule cliff periods periodFrequency reductionFactor linear activationPoint
  | .rateLimiter cliff _ _ maxFeeBps _ => cliff ≤ ceilingNumerator maxFeeBps
  | .flat _ => True

theorem decoded_fee_lawful_iff {data : List UInt8} {offset : ℕ} {fee : BaseFee}
    (h : BaseFee.decode data offset = some fee) (activationPoint : ℕ) :
    fee.Lawful activationPoint ↔ fee.Regular activationPoint := by
  have hrange := BaseFee.decode_inRange h
  cases fee with
  | timeScheduler cliff periods periodFrequency reductionFactor linear =>
    exact decays_iff hrange activationPoint
  | rateLimiter cliff feeIncrementBps maxLimiterDuration maxFeeBps referenceAmount =>
    exact limits_iff hrange activationPoint
  | flat cliff => exact iff_of_true (fun _ _ _ => rfl) trivial

/-- Three periods of a hundred seconds, each of which takes a tenth off one percent. -/
theorem decoded_fee_lawful_tenth :
    (BaseFee.timeScheduler 10000000 3 100 1000 false).Lawful 0 :=
  (decoded_fee_lawful_iff
    (show BaseFee.decode [128, 150, 152, 0, 0, 0, 0, 0, 1, 0, 0, 0, 0, 0, 3, 0, 100, 0, 0, 0, 0, 0,
        0, 0, 232, 3, 0, 0, 0, 0, 0, 0] 0 = some (.timeScheduler 10000000 3 100 1000 false) by
      decide) 0).mpr (Or.inr (Or.inr (Or.inr ⟨by decide, Or.inr (by decide)⟩)))

/-- The same periods with nothing taken off: the fee is gone in the first one, and back in the
second. -/
theorem uncut_fee_vanishes :
    BaseFee.decode [128, 150, 152, 0, 0, 0, 0, 0, 1, 0, 0, 0, 0, 0, 3, 0, 100, 0, 0, 0, 0, 0, 0, 0,
        0, 0, 0, 0, 0, 0, 0, 0] 0 = some (.timeScheduler 10000000 3 100 0 false) ∧
      (BaseFee.timeScheduler 10000000 3 100 0 false).numerator 0 100 0 true = 0 ∧
      (BaseFee.timeScheduler 10000000 3 100 0 false).numerator 0 200 0 true = 10000000 ∧
      ¬(BaseFee.timeScheduler 10000000 3 100 0 false).Lawful 0 := by
  have hfirst : (BaseFee.timeScheduler 10000000 3 100 0 false).numerator 0 100 0 true = 0 := by
    decide +kernel
  have hsecond :
      (BaseFee.timeScheduler 10000000 3 100 0 false).numerator 0 200 0 true = 10000000 := by
    decide +kernel
  refine ⟨by decide, hfirst, hsecond, ?_⟩
  intro h
  have hfalls := h.falls 0 true 100 200 (by decide) (by decide)
  rw [hfirst, hsecond] at hfalls
  exact absurd hfalls (by decide)

end ScreenerBot.Direct.Venues.Damm
