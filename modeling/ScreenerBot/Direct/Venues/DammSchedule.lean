import ScreenerBot.Direct.Venues.DammFee

/-!
What a scheduled fee does over time.

The loop of the decay stops at the first square that rounds to nothing and leaves the higher bits
of the exponent out. Up to there it is the power by repeated squaring, which never rises.
-/
namespace ScreenerBot.Direct.Venues.Damm
open ScreenerBot.Library

variable {result base exponent : ℕ}

@[simp] theorem reductionLoop_zero (result base : ℕ) : reductionLoop result base 0 = result := by
  rw [reductionLoop, if_pos rfl]

@[simp] theorem reductionLoopProducts_zero (result base : ℕ) :
    reductionLoopProducts result base 0 = [] := by
  rw [reductionLoopProducts, if_pos rfl]

/-- Neither product of a turn wraps while the base is below one. -/
theorem turn_exact (hresult : result ≤ q64) (hbase : base < q64) :
    result * base < 2 ^ 128 ∧ base * base < 2 ^ 128 := by
  have hq : q64 * q64 = 2 ^ 128 := by decide
  rw [← hq]
  exact ⟨Nat.mul_lt_mul_of_le_of_lt hresult hbase (by decide), Nat.mul_lt_mul'' hbase hbase⟩

theorem u128_shift {x : ℕ} (h : x < 2 ^ 128) : u128 x >>> 64 = x / q64 := by
  rw [u128_of_lt h, Nat.shiftRight_eq_div_pow]
  rfl

/-- A turn of the loop, in exact arithmetic. -/
theorem reductionLoop_turn (hresult : result ≤ q64) (hbase : base < q64)
    (hexponent : exponent ≠ 0) :
    reductionLoop result base exponent =
      if base * base / q64 = 0 then
        if exponent % 2 = 1 then result * base / q64 else result
      else reductionLoop (if exponent % 2 = 1 then result * base / q64 else result)
        (base * base / q64) (exponent / 2) := by
  obtain ⟨hproduct, hsquare⟩ := turn_exact hresult hbase
  rw [reductionLoop, if_neg hexponent]
  dsimp only
  rw [u128_shift hproduct, u128_shift hsquare]

theorem turn_le (hbase : base < q64) (bit : Prop) [Decidable bit] :
    (if bit then result * base / q64 else result) ≤ result := by
  split_ifs
  · exact scaled_le_left hbase.le
  · exact le_rfl

theorem square_lt (hbase : base < q64) : base * base / q64 < q64 :=
  (square_le hbase.le).trans_lt hbase

theorem reductionLoop_le (hresult : result ≤ q64) (hbase : base < q64) (exponent : ℕ) :
    reductionLoop result base exponent ≤ result := by
  induction exponent using Nat.strong_induction_on generalizing result base with
  | _ exponent ih =>
    by_cases hexponent : exponent = 0
    · rw [hexponent, reductionLoop_zero]
    · rw [reductionLoop_turn hresult hbase hexponent]
      have hturn : _ ≤ result := turn_le hbase (exponent % 2 = 1)
      by_cases hsquare : base * base / q64 = 0
      · rw [if_pos hsquare]
        exact hturn
      · rw [if_neg hsquare]
        exact (ih _ (by omega) (hturn.trans hresult) (square_lt hbase)).trans hturn

/-- While no square of a bit that is set or below one has vanished the loop is the power. -/
theorem reductionLoop_eq_squarePower (hresult : result ≤ q64) (hbase : base < q64)
    (hlive : ∀ squarings, 2 ^ squarings ≤ exponent → 0 < repeatedSquare q64 base squarings) :
    reductionLoop result base exponent = squarePower q64 result base exponent := by
  induction exponent using Nat.strong_induction_on generalizing result base with
  | _ exponent ih =>
    by_cases hexponent : exponent = 0
    · rw [hexponent, reductionLoop_zero, squarePower.zero]
    · rw [reductionLoop_turn hresult hbase hexponent, squarePower, if_neg hexponent]
      have hturn : _ ≤ result := turn_le hbase (exponent % 2 = 1)
      by_cases hsquare : base * base / q64 = 0
      · have hone : exponent / 2 = 0 := by
          by_contra hmore
          have hsecond := hlive 1 (by omega)
          rw [repeatedSquare, repeatedSquare, hsquare] at hsecond
          exact absurd hsecond (lt_irrefl 0)
        rw [if_pos hsquare, hone, squarePower.zero]
      · rw [if_neg hsquare]
        refine ih _ (by omega) (hturn.trans hresult) (square_lt hbase) ?_
        intro squarings hle
        refine hlive (squarings + 1) ?_
        rw [pow_succ]
        omega

/-- A bit above a square that has vanished is left out with all below it unset. -/
theorem reductionLoop_vanished (hresult : result ≤ q64) (hbase : base < q64) {squarings : ℕ}
    (hzero : repeatedSquare q64 base (squarings + 1) = 0) :
    reductionLoop result base (2 ^ (squarings + 1)) = result := by
  induction squarings generalizing base with
  | zero =>
    have hsquare : base * base / q64 = 0 := hzero
    rw [reductionLoop_turn hresult hbase (by decide), if_pos hsquare, if_neg (by decide)]
  | succ squarings ih =>
    have hpow : 2 ^ (squarings + 1 + 1) = 2 * 2 ^ (squarings + 1) := pow_succ' _ _
    have heven : ¬2 ^ (squarings + 1 + 1) % 2 = 1 := by omega
    have hhalf : 2 ^ (squarings + 1 + 1) / 2 = 2 ^ (squarings + 1) := by omega
    rw [reductionLoop_turn hresult hbase (by positivity), if_neg heven, hhalf]
    by_cases hsquare : base * base / q64 = 0
    · rw [if_pos hsquare]
    · rw [if_neg hsquare]
      exact ih (square_lt hbase) hzero

theorem reductionLoop_products (hresult : result ≤ q64) (hbase : base < q64) :
    ∀ product ∈ reductionLoopProducts result base exponent,
      product.1 * product.2 < 2 ^ 128 := by
  induction exponent using Nat.strong_induction_on generalizing result base with
  | _ exponent ih =>
    obtain ⟨hproduct, hsquare⟩ := turn_exact hresult hbase
    have hturn : _ ≤ result := turn_le hbase (exponent % 2 = 1)
    intro product hmem
    rw [reductionLoopProducts] at hmem
    dsimp only at hmem
    rw [u128_shift hproduct, u128_shift hsquare] at hmem
    by_cases hexponent : exponent = 0
    · rw [if_pos hexponent] at hmem
      simp at hmem
    rw [if_neg hexponent, List.mem_append, List.mem_cons] at hmem
    rcases hmem with hfirst | rfl | hlater
    · split_ifs at hfirst
      · obtain rfl := List.mem_singleton.mp hfirst
        exact hproduct
      · simp at hfirst
    · exact hsquare
    · by_cases hvanished : base * base / q64 = 0
      · rw [if_pos hvanished] at hlater
        simp at hlater
      · rw [if_neg hvanished] at hlater
        exact ih _ (by omega) (hturn.trans hresult) (square_lt hbase) product hlater

variable {cliff reductionFactor : ℕ}

theorem periodRatio_eq (reductionFactor : ℕ) :
    periodRatio reductionFactor = q64 * (basisPointMax - reductionFactor) / basisPointMax := by
  have hle : q64 * (basisPointMax - reductionFactor) ≤ q64 * basisPointMax :=
    Nat.mul_le_mul_left q64 (Nat.sub_le _ _)
  have hwidth : q64 * basisPointMax < 2 ^ 128 := by decide
  rw [periodRatio, u128_of_lt (hle.trans_lt hwidth)]

theorem periodRatio_antitone : Antitone periodRatio := by
  intro low high h
  rw [periodRatio_eq, periodRatio_eq]
  exact Nat.div_le_div_right (Nat.mul_le_mul_left q64 (Nat.sub_le_sub_left h basisPointMax))

theorem periodRatio_lt (hpos : 0 < reductionFactor) : periodRatio reductionFactor < q64 :=
  (periodRatio_antitone hpos).trans_lt (by decide)

theorem cliff_product_lt (hcliff : cliff < 2 ^ 64) : cliff * q64 < 2 ^ 128 :=
  (Nat.mul_lt_mul_of_pos_right hcliff (by decide)).trans_eq (by decide)

/-- What the products of a power leave of the cliff. -/
theorem exponentialReduction_eq (hcliff : cliff < 2 ^ 64) (hpos : 0 < reductionFactor)
    (hlt : reductionFactor < basisPointMax) (period : ℕ) :
    exponentialReduction cliff reductionFactor period =
      cliff * reductionLoop q64 (periodRatio reductionFactor) period / q64 := by
  have hle := reductionLoop_le le_rfl (periodRatio_lt hpos) period
  have hproduct := Nat.mul_le_mul_left cliff hle
  have hwidth := cliff_product_lt hcliff
  have hquotient := Nat.div_le_div_right (c := q64) hproduct
  rw [Nat.mul_div_cancel _ (by decide)] at hquotient
  have hfits := hquotient.trans (Nat.le_sub_one_of_lt hcliff)
  rw [exponentialReduction, if_neg (not_le.mpr hlt), u128_shift (hproduct.trans_lt hwidth)]
  exact min_eq_left hfits

/-- The cuts in basis points from which on a square of their ratio rounds to nothing, each with
the number of squarings. A smaller number never does, and a larger one needs more periods than a
schedule has. -/
def fading : List (ℕ × ℕ) :=
  [(9961, 3), (9376, 4), (7501, 5), (5001, 6), (2929, 7), (1592, 8), (830, 9), (424, 10),
    (215, 11), (108, 12), (55, 13), (28, 14), (14, 15)]

theorem fading_first : ∀ entry ∈ fading,
    repeatedSquare q64 (periodRatio entry.1) entry.2 = 0 ∧
      0 < repeatedSquare q64 (periodRatio (entry.1 - 1)) entry.2 := by
  decide +kernel

theorem fading_all : ∀ squarings < 16, 2 < squarings → ∃ entry ∈ fading, entry.2 = squarings := by
  decide

theorem square_live : ∀ squarings ≤ 2, 0 < repeatedSquare q64 (periodRatio 9999) squarings := by
  decide +kernel

/-- The squares a schedule of this length multiplies by do not vanish. -/
theorem live_iff (hlt : reductionFactor < basisPointMax) {periods : ℕ}
    (hperiods : periods < 2 ^ 16) :
    (∀ squarings, 2 ^ squarings ≤ periods →
        0 < repeatedSquare q64 (periodRatio reductionFactor) squarings) ↔
      ∀ entry ∈ fading, entry.1 ≤ reductionFactor → periods < 2 ^ entry.2 := by
  constructor
  · intro h entry hentry hle
    by_contra hreached
    have hsquare := h entry.2 (not_lt.mp hreached)
    have hfade : repeatedSquare q64 _ entry.2 ≤ repeatedSquare q64 _ entry.2 :=
      repeatedSquare.mono (periodRatio_antitone hle) entry.2
    rw [(fading_first entry hentry).1] at hfade
    omega
  · intro h squarings hreached
    have hsquarings : squarings < 16 := by
      by_contra hge
      have := Nat.pow_le_pow_right (show 0 < 2 by decide) (not_lt.mp hge)
      omega
    by_cases hsmall : squarings ≤ 2
    · have hle : reductionFactor ≤ 9999 := Nat.le_sub_one_of_lt hlt
      exact (square_live squarings hsmall).trans_le
        (repeatedSquare.mono (periodRatio_antitone hle) squarings)
    · obtain ⟨entry, hentry, rfl⟩ := fading_all squarings hsquarings (by omega)
      have hbelow : reductionFactor ≤ entry.1 - 1 := by
        by_contra hle
        have := h entry hentry (by omega)
        omega
      exact (fading_first entry hentry).2.trans_le
        (repeatedSquare.mono (periodRatio_antitone hbelow) entry.2)

theorem exponentialReduction_le (hcliff : cliff < 2 ^ 64) (hpos : 0 < reductionFactor)
    (hlt : reductionFactor < basisPointMax) (period : ℕ) :
    exponentialReduction cliff reductionFactor period ≤ cliff := by
  rw [exponentialReduction_eq hcliff hpos hlt]
  exact scaled_le_left (reductionLoop_le le_rfl (periodRatio_lt hpos) period)

theorem exponentialReduction_antitone (hcliff : cliff < 2 ^ 64) (hpos : 0 < reductionFactor)
    (hlt : reductionFactor < basisPointMax) {periods : ℕ}
    (hlive : ∀ squarings, 2 ^ squarings ≤ periods →
      0 < repeatedSquare q64 (periodRatio reductionFactor) squarings)
    {early late : ℕ} (h : early ≤ late) (hlate : late ≤ periods) :
    exponentialReduction cliff reductionFactor late ≤
      exponentialReduction cliff reductionFactor early := by
  have hratio := periodRatio_lt hpos
  have hpower (period : ℕ) (hle : period ≤ periods) :
      reductionLoop q64 (periodRatio reductionFactor) period =
        squarePower q64 q64 (periodRatio reductionFactor) period :=
    reductionLoop_eq_squarePower le_rfl hratio fun squarings hsquarings =>
      hlive squarings (hsquarings.trans hle)
  rw [exponentialReduction_eq hcliff hpos hlt, exponentialReduction_eq hcliff hpos hlt,
    hpower late hlate, hpower early (h.trans hlate)]
  have hfall : squarePower q64 q64 _ late ≤ squarePower q64 q64 _ early :=
    squarePower.antitone (by decide) hratio.le h
  exact Nat.div_le_div_right (Nat.mul_le_mul_left cliff hfall)

/-- Where a square has vanished the fee is back at its cliff, above the period before. -/
theorem exponentialReduction_rises (hcliff : cliff < 2 ^ 64) (hcharged : 0 < cliff)
    (hpos : 0 < reductionFactor) (hlt : reductionFactor < basisPointMax) {squarings : ℕ}
    (hzero : repeatedSquare q64 (periodRatio reductionFactor) squarings = 0) :
    exponentialReduction cliff reductionFactor (2 ^ squarings - 1) <
      exponentialReduction cliff reductionFactor (2 ^ squarings) := by
  have hratio := periodRatio_lt hpos
  have hfirst := periodRatio_antitone (Nat.le_sub_one_of_lt hlt)
  obtain _ | squarings := squarings
  · have hlast : 0 < periodRatio (basisPointMax - 1) := by decide +kernel
    change periodRatio reductionFactor = 0 at hzero
    omega
  have hodd : (2 ^ (squarings + 1) - 1) % 2 = 1 := by
    have hpow : 2 ^ (squarings + 1) = 2 * 2 ^ squarings := pow_succ' _ _
    have : 0 < 2 ^ squarings := by positivity
    omega
  have hbefore : reductionLoop q64 (periodRatio reductionFactor)
      (2 ^ (squarings + 1) - 1) < q64 := by
    rw [reductionLoop_turn le_rfl hratio (by omega), if_pos hodd,
      Nat.mul_div_cancel_left _ (by decide)]
    by_cases hsquare : periodRatio reductionFactor * periodRatio reductionFactor / q64 = 0
    · rw [if_pos hsquare]
      exact hratio
    · rw [if_neg hsquare]
      exact (reductionLoop_le hratio.le (square_lt hratio) _).trans_lt hratio
  rw [exponentialReduction_eq hcliff hpos hlt, exponentialReduction_eq hcliff hpos hlt,
    reductionLoop_vanished le_rfl hratio hzero, Nat.mul_div_cancel _ (by decide)]
  exact Nat.div_lt_of_lt_mul
    ((Nat.mul_lt_mul_of_pos_left hbefore hcharged).trans_eq (mul_comm cliff q64))

theorem exponentialProducts_exact (hcliff : cliff < 2 ^ 64) (hpos : 0 < reductionFactor)
    (period : ℕ) : ∀ product ∈ exponentialProducts cliff reductionFactor period,
      product.1 * product.2 < 2 ^ 128 := by
  intro product hmem
  rw [exponentialProducts] at hmem
  split_ifs at hmem
  · simp at hmem
  have hratio := periodRatio_lt hpos
  rw [List.cons_append, List.mem_cons, List.mem_append, List.mem_singleton] at hmem
  rcases hmem with rfl | hloop | rfl
  · have hle : q64 * (basisPointMax - reductionFactor) ≤ q64 * basisPointMax :=
      Nat.mul_le_mul_left q64 (Nat.sub_le _ _)
    exact hle.trans_lt (by decide)
  · exact reductionLoop_products le_rfl hratio product hloop
  · calc cliff * reductionLoop q64 (periodRatio reductionFactor) period
        ≤ cliff * q64 := Nat.mul_le_mul_left cliff (reductionLoop_le le_rfl hratio period)
      _ < 2 ^ 128 := cliff_product_lt hcliff

/-- Before a period has run out the cliff is charged, whatever one would take off. -/
theorem exponentialReduction_start_le (hcliff : cliff < 2 ^ 64) :
    exponentialReduction cliff reductionFactor 0 ≤ cliff := by
  have hwidth := cliff_product_lt hcliff
  unfold exponentialReduction
  split_ifs
  · exact Nat.zero_le cliff
  · rw [reductionLoop_zero, u128_shift hwidth, Nat.mul_div_cancel _ (by decide)]
    exact min_le_left _ _

theorem exponentialProducts_start (hcliff : cliff < 2 ^ 64) :
    ∀ product ∈ exponentialProducts cliff reductionFactor 0, product.1 * product.2 < 2 ^ 128 := by
  intro product hmem
  simp only [exponentialProducts, reductionLoopProducts_zero, reductionLoop_zero] at hmem
  split_ifs at hmem
  · simp at hmem
  · have hle : q64 * (basisPointMax - reductionFactor) ≤ q64 * basisPointMax :=
      Nat.mul_le_mul_left q64 (Nat.sub_le _ _)
    rcases List.mem_cons.mp hmem with rfl | hlast
    · exact hle.trans_lt (by decide)
    · obtain rfl := List.mem_singleton.mp hlast
      exact cliff_product_lt hcliff

/-- With nothing taken off the ratio is one, and its square wraps. -/
theorem exponentialProducts_wrap (cliff : ℕ) {period : ℕ} (h : period ≠ 0) :
    (q64, q64) ∈ exponentialProducts cliff 0 period := by
  have hratio : periodRatio 0 = q64 := by decide +kernel
  have hloop : (q64, q64) ∈ reductionLoopProducts q64 q64 period := by
    rw [reductionLoopProducts, if_neg h]
    simp
  rw [exponentialProducts, if_neg (by decide), hratio]
  simp [hloop]

/-- What a scheduled fee promises, for every point a clock can show. The last of them finds the
fee fully decayed. -/
structure Decays (fee : BaseFee) (cliff activationPoint : ℕ) : Prop where
  bounded : ∀ amountIn bToA, ∀ point ≤ u64Max,
    fee.numerator amountIn point activationPoint bToA ≤ cliff
  floored : ∀ amountIn bToA, ∀ point ≤ u64Max,
    fee.numerator amountIn u64Max activationPoint bToA ≤
      fee.numerator amountIn point activationPoint bToA
  falls : ∀ amountIn bToA early late, early ≤ late → late ≤ u64Max →
    fee.numerator amountIn late activationPoint bToA ≤
      fee.numerator amountIn early activationPoint bToA
  exact : ∀ point ≤ u64Max, ∀ product ∈ fee.scheduleProducts point activationPoint,
    product.1 * product.2 < 2 ^ 128

/-- The periods of a schedule that any clock sees out. -/
def reachedPeriods (periods periodFrequency activationPoint : ℕ) : ℕ :=
  elapsedPeriods periods periodFrequency u64Max activationPoint

/-- The schedules whose fee decays as promised. -/
def SteadySchedule (cliff periods periodFrequency reductionFactor : ℕ) (linear : Bool)
    (activationPoint : ℕ) : Prop :=
  let reached := reachedPeriods periods periodFrequency activationPoint
  linear ∨ reached = 0 ∨ basisPointMax ≤ reductionFactor ∨
    0 < reductionFactor ∧
      (cliff = 0 ∨ ∀ entry ∈ fading, entry.1 ≤ reductionFactor → reached < 2 ^ entry.2)

section Clock
variable {periods periodFrequency activationPoint : ℕ}

theorem elapsedPeriods_mono {early late : ℕ} (h : early ≤ late) :
    elapsedPeriods periods periodFrequency early activationPoint ≤
      elapsedPeriods periods periodFrequency late activationPoint :=
  min_le_min_right periods (Nat.div_le_div_right (Nat.sub_le_sub_right h activationPoint))

/-- Each period up to the last that is reached is the current one at some point. -/
theorem exists_elapsed {period : ℕ}
    (h : period ≤ reachedPeriods periods periodFrequency activationPoint) :
    ∃ point ≤ u64Max, elapsedPeriods periods periodFrequency point activationPoint = period := by
  obtain ⟨hclock, hperiods⟩ := le_min_iff.mp h
  rcases Nat.eq_zero_or_pos period with rfl | hpos
  · exact ⟨0, Nat.zero_le _, by simp [elapsedPeriods]⟩
  have hfrequency : 0 < periodFrequency := by
    by_contra hzero
    rw [Nat.eq_zero_of_not_pos hzero, Nat.div_zero] at hclock
    omega
  have hspan := (Nat.le_div_iff_mul_le hfrequency).mp hclock
  have hsome : 0 < period * periodFrequency := Nat.mul_pos hpos hfrequency
  refine ⟨activationPoint + period * periodFrequency, by omega, ?_⟩
  rw [elapsedPeriods, Nat.add_sub_cancel_left, Nat.mul_div_cancel _ hfrequency]
  exact min_eq_left hperiods

theorem elapsed_le_reached {point : ℕ} (h : point ≤ u64Max) :
    elapsedPeriods periods periodFrequency point activationPoint ≤
      reachedPeriods periods periodFrequency activationPoint := elapsedPeriods_mono h

/-- A fee that depends on the period alone decays as promised if it does from period to period. -/
theorem decays_of_periods {fee : BaseFee} {cliff : ℕ} (periods periodFrequency : ℕ)
    (charge : ℕ → ℕ)
    (hnumerator : ∀ amountIn bToA point, fee.numerator amountIn point activationPoint bToA =
      charge (elapsedPeriods periods periodFrequency point activationPoint))
    (hbounded : ∀ period ≤ reachedPeriods periods periodFrequency activationPoint,
      charge period ≤ cliff)
    (hfalls : ∀ early late, early ≤ late →
      late ≤ reachedPeriods periods periodFrequency activationPoint → charge late ≤ charge early)
    (hexact : ∀ point ≤ u64Max, ∀ product ∈ fee.scheduleProducts point activationPoint,
      product.1 * product.2 < 2 ^ 128) :
    Decays fee cliff activationPoint where
  bounded amountIn bToA point hpoint := by
    rw [hnumerator]
    exact hbounded _ (elapsed_le_reached hpoint)
  floored amountIn bToA point hpoint := by
    rw [hnumerator, hnumerator]
    exact hfalls _ _ (elapsed_le_reached hpoint) le_rfl
  falls amountIn bToA early late h hlate := by
    rw [hnumerator, hnumerator]
    exact hfalls _ _ (elapsedPeriods_mono h) (elapsed_le_reached hlate)
  exact := hexact

end Clock

section Exponential
variable {cliff periods periodFrequency reductionFactor activationPoint : ℕ}

theorem numerator_exponential (hrunning : ¬(periodFrequency = 0 ∨ periods = 0)) (amountIn : ℕ)
    (bToA : Bool) (point : ℕ) :
    (BaseFee.timeScheduler cliff periods periodFrequency reductionFactor false).numerator amountIn
        point activationPoint bToA =
      exponentialReduction cliff reductionFactor
        (elapsedPeriods periods periodFrequency point activationPoint) := by
  simp only [BaseFee.numerator, if_neg hrunning, Bool.false_eq_true, if_false]

theorem scheduleProducts_exponential (hrunning : ¬(periodFrequency = 0 ∨ periods = 0))
    (point : ℕ) :
    (BaseFee.timeScheduler cliff periods periodFrequency reductionFactor false).scheduleProducts
        point activationPoint =
      exponentialProducts cliff reductionFactor
        (elapsedPeriods periods periodFrequency point activationPoint) := by
  have hrunning : ¬(periodFrequency = 0 ∨ periods = 0 ∨ false = true) := by simpa using hrunning
  simp only [BaseFee.scheduleProducts, if_neg hrunning]

/-- A cut of nothing at all wraps in the first period that runs out. -/
theorem reached_of_uncut (hrunning : ¬(periodFrequency = 0 ∨ periods = 0))
    (h : Decays (.timeScheduler cliff periods periodFrequency 0 false) cliff activationPoint) :
    reachedPeriods periods periodFrequency activationPoint = 0 := by
  by_contra hreached
  obtain ⟨point, hpoint, helapsed⟩ :=
    @exists_elapsed periods periodFrequency activationPoint _ le_rfl
  have hexact := h.exact point hpoint (q64, q64)
  rw [scheduleProducts_exponential hrunning, helapsed] at hexact
  exact absurd (hexact (exponentialProducts_wrap cliff hreached)) (by decide)

/-- A schedule that decays as promised does not reach the period of a vanished square. -/
theorem reached_of_decays (hrunning : ¬(periodFrequency = 0 ∨ periods = 0))
    (hcliff : cliff < 2 ^ 64) (hcharged : 0 < cliff) (hpos : 0 < reductionFactor)
    (hlt : reductionFactor < basisPointMax)
    (h : Decays (.timeScheduler cliff periods periodFrequency reductionFactor false) cliff
      activationPoint) {squarings : ℕ}
    (hreached : 2 ^ squarings ≤ reachedPeriods periods periodFrequency activationPoint) :
    0 < repeatedSquare q64 (periodRatio reductionFactor) squarings := by
  by_contra hzero
  have hrises := exponentialReduction_rises hcliff hcharged hpos hlt (Nat.eq_zero_of_not_pos hzero)
  obtain ⟨late, hlate, helapsed⟩ := exists_elapsed hreached
  obtain ⟨early, hearly, hbefore⟩ := exists_elapsed ((Nat.sub_le _ 1).trans hreached)
  have horder : early ≤ late := by
    by_contra hgt
    have hback := @elapsedPeriods_mono periods periodFrequency activationPoint _ _
      (le_of_not_ge hgt)
    have hpow : 0 < 2 ^ squarings := by positivity
    omega
  have hfalls := h.falls 0 false early late horder hlate
  rw [numerator_exponential hrunning, numerator_exponential hrunning, helapsed, hbefore] at hfalls
  omega

theorem decays_exponential_iff (hrunning : ¬(periodFrequency = 0 ∨ periods = 0))
    (hcliff : cliff < 2 ^ 64) (hperiods : periods < 2 ^ 16) :
    Decays (.timeScheduler cliff periods periodFrequency reductionFactor false) cliff
        activationPoint ↔
      SteadySchedule cliff periods periodFrequency reductionFactor false activationPoint := by
  have hreached : reachedPeriods periods periodFrequency activationPoint < 2 ^ 16 :=
    (min_le_right _ _).trans_lt hperiods
  have hproducts (hpos : 0 < reductionFactor) (point : ℕ) : ∀ product ∈
      (BaseFee.timeScheduler cliff periods periodFrequency reductionFactor false).scheduleProducts
        point activationPoint, product.1 * product.2 < 2 ^ 128 := by
    rw [scheduleProducts_exponential hrunning]
    exact exponentialProducts_exact hcliff hpos _
  constructor
  · intro h
    unfold SteadySchedule
    by_cases hcut : reductionFactor = 0
    · subst hcut
      exact Or.inr (Or.inl (reached_of_uncut hrunning h))
    by_cases hlt : reductionFactor < basisPointMax
    · refine Or.inr (Or.inr (Or.inr ⟨by omega, ?_⟩))
      by_cases hcharged : cliff = 0
      · exact Or.inl hcharged
      · refine Or.inr ((live_iff hlt hreached).mp ?_)
        intro squarings
        exact reached_of_decays hrunning hcliff (by omega) (by omega) hlt h
    · exact Or.inr (Or.inr (Or.inl (not_lt.mp hlt)))
  · intro h
    by_cases hcut : basisPointMax ≤ reductionFactor
    · have hpos : 0 < reductionFactor := lt_of_lt_of_le (by decide) hcut
      have hnone (period : ℕ) : exponentialReduction cliff reductionFactor period = 0 :=
        if_pos hcut
      refine decays_of_periods periods periodFrequency _ (numerator_exponential hrunning) ?_ ?_
        fun point _ => hproducts hpos point
      · simp [hnone]
      · simp [hnone]
    have hlt := not_le.mp hcut
    refine decays_of_periods periods periodFrequency _ (numerator_exponential hrunning) ?_ ?_ ?_
    · intro period hperiod
      rcases h with h | h | h | ⟨hpos, -⟩
      · cases h
      · rw [h] at hperiod
        obtain rfl := Nat.le_zero.mp hperiod
        exact exponentialReduction_start_le hcliff
      · exact absurd h hcut
      · exact exponentialReduction_le hcliff hpos hlt period
    · intro early late hle hlate
      rcases h with h | h | h | ⟨hpos, rfl | hlive⟩
      · cases h
      · rw [show late = early by omega]
      · exact absurd h hcut
      · exact (exponentialReduction_le hcliff hpos hlt late).trans (Nat.zero_le _)
      · exact exponentialReduction_antitone hcliff hpos hlt ((live_iff hlt hreached).mpr hlive) hle
          hlate
    · intro point hpoint
      rcases h with h | h | h | ⟨hpos, -⟩
      · cases h
      · have helapsed := @elapsed_le_reached periods periodFrequency activationPoint _ hpoint
        rw [scheduleProducts_exponential hrunning, Nat.le_zero.mp (helapsed.trans_eq h)]
        exact exponentialProducts_start hcliff
      · exact absurd h hcut
      · exact hproducts hpos point

end Exponential

/-- A decoded schedule decays as promised exactly where it is steady. -/
theorem decays_iff {cliff periods periodFrequency reductionFactor : ℕ} {linear : Bool}
    (h : (BaseFee.timeScheduler cliff periods periodFrequency reductionFactor linear).InRange)
    (activationPoint : ℕ) :
    Decays (.timeScheduler cliff periods periodFrequency reductionFactor linear) cliff
        activationPoint ↔
      SteadySchedule cliff periods periodFrequency reductionFactor linear activationPoint := by
  obtain ⟨hcliff, hperiods, -, -⟩ := h
  by_cases hflat : periodFrequency = 0 ∨ periods = 0
  · have hreached : reachedPeriods periods periodFrequency activationPoint = 0 := by
      rcases hflat with rfl | rfl <;> simp [reachedPeriods, elapsedPeriods]
    refine iff_of_true ?_ (Or.inr (Or.inl hreached))
    refine decays_of_periods periods periodFrequency (fun _ => cliff) ?_ (fun _ _ => le_rfl)
      (fun _ _ _ _ => le_rfl) ?_
    · intro amountIn bToA point
      simp only [BaseFee.numerator, if_pos hflat]
    · have hnone : periodFrequency = 0 ∨ periods = 0 ∨ linear = true := by tauto
      simp only [BaseFee.scheduleProducts, if_pos hnone]
      simp
  cases linear with
  | true =>
    refine iff_of_true ?_ (Or.inl rfl)
    refine decays_of_periods periods periodFrequency
      (fun period => cliff - min (reductionFactor * period) u64Max) ?_
      (fun _ _ => Nat.sub_le _ _) ?_ ?_
    · intro amountIn bToA point
      simp only [BaseFee.numerator, if_neg hflat, if_true]
    · intro early late hle _
      exact Nat.sub_le_sub_left (min_le_min_right _ (Nat.mul_le_mul_left _ hle)) cliff
    · simp [BaseFee.scheduleProducts]
  | false => exact decays_exponential_iff hflat hcliff hperiods

end ScreenerBot.Direct.Venues.Damm
