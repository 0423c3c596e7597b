import ScreenerBot.Chain.Amount
import Mathlib.Algebra.Order.Floor.Div
import Mathlib.Tactic

/-!
Full-width ratios of `u128` values, through a 256-bit product held as two words.

Each function is stated as the source computes it and then by what it is: a quotient rounded
down or up, refused when it does not fit.
-/
namespace ScreenerBot.Chain

/-- `mul_full`: the high and the low word of a product. -/
def mulFull (a b : ℕ) : ℕ × ℕ :=
  let aHi := a >>> 64
  let aLo := a % 2 ^ 64
  let bHi := b >>> 64
  let bLo := b % 2 ^ 64
  let lowLow := aLo * bLo
  let lowHigh := aLo * bHi
  let highLow := aHi * bLo
  let highHigh := aHi * bHi
  let middle := (lowLow >>> 64) + lowHigh % 2 ^ 64 + highLow % 2 ^ 64
  let low := lowLow % 2 ^ 64 ||| (middle <<< 64) % 2 ^ 128
  let high := highHigh + (lowHigh >>> 64) + (highLow >>> 64) + (middle >>> 64)
  (high, low)

/-- The loop of `div_full` over the bits below `bits`, the highest first. -/
def divBits (low divisor : ℕ) : ℕ → ℕ → ℕ → ℕ
  | 0, _, quotient => quotient
  | bit + 1, remainder, quotient =>
    let carry := remainder >>> 127
    let remainder := (remainder <<< 1) % 2 ^ 128 ||| (low >>> bit) % 2
    if carry = 1 ∨ divisor ≤ remainder then
      divBits low divisor bit ((remainder + 2 ^ 128 - divisor) % 2 ^ 128) (quotient ||| 1 <<< bit)
    else divBits low divisor bit remainder quotient

/-- `div_full`. -/
def divFull (high low divisor : ℕ) : Option ℕ :=
  if divisor = 0 ∨ divisor ≤ high then none else some (divBits low divisor 128 high 0)

/-- `mul_div_floor`. -/
def mulDivFloor (a b denominator : ℕ) : Option ℕ :=
  divFull (mulFull a b).1 (mulFull a b).2 denominator

/-- `mul_div_ceil`. -/
def mulDivCeil (a b denominator : ℕ) : Option ℕ := do
  let floor ← mulDivFloor a b denominator
  if mulFull floor denominator = mulFull a b then some floor else checkedRaw (floor + 1)

/-- `mul_shr128_floor`. -/
def mulShr128Floor (a b : ℕ) : ℕ := (mulFull a b).1

/-- `mul_shr128_ceil`. -/
def mulShr128Ceil (a b : ℕ) : ℕ :=
  if (mulFull a b).2 = 0 then (mulFull a b).1 else min ((mulFull a b).1 + 1) u128Max

/-- `shl128_div_floor`. -/
def shl128DivFloor (numerator denominator : ℕ) : Option ℕ := divFull numerator 0 denominator

/-- `ceil_div`. -/
def ceilDiv (numerator denominator : ℕ) : ℕ :=
  if denominator = 0 then 0 else numerator ⌈/⌉ denominator

theorem lt_pow_of_le_u128Max {a : ℕ} (ha : a ≤ u128Max) : a < 2 ^ 128 := by
  unfold u128Max at ha
  omega

/-- The words are the quotient and the remainder of the product by `2 ^ 128`. -/
theorem mulFull_eq {a b : ℕ} (ha : a ≤ u128Max) (hb : b ≤ u128Max) :
    mulFull a b = (a * b / 2 ^ 128, a * b % 2 ^ 128) := by
  have ha := lt_pow_of_le_u128Max ha
  have hb := lt_pow_of_le_u128Max hb
  simp only [mulFull, Nat.shiftRight_eq_div_pow, Nat.shiftLeft_eq]
  set aHi := a / 2 ^ 64 with haHi
  set aLo := a % 2 ^ 64 with haLo
  set bHi := b / 2 ^ 64 with hbHi
  set bLo := b % 2 ^ 64 with hbLo
  have hprod : a * b = aLo * bLo + (aLo * bHi + aHi * bLo) * 2 ^ 64 + aHi * bHi * 2 ^ 128 := by
    have hA : a = aLo + aHi * 2 ^ 64 := by omega
    have hB : b = bLo + bHi * 2 ^ 64 := by omega
    rw [hA, hB]
    ring
  have hor : ∀ x y : ℕ, x % 2 ^ 64 ||| (y * 2 ^ 64) % 2 ^ 128 = x % 2 ^ 64 + (y % 2 ^ 64) *
      2 ^ 64 := by
    intro x y
    have hy : (y * 2 ^ 64) % 2 ^ 128 = 2 ^ 64 * (y % 2 ^ 64) := by omega
    rw [hy, Nat.or_comm, ← Nat.two_pow_add_eq_or_of_lt (Nat.mod_lt _ (by positivity))]
    ring
  rw [hprod, hor]
  generalize aLo * bLo = ll
  generalize aLo * bHi = lh
  generalize aHi * bLo = hl
  generalize aHi * bHi = hh
  ext <;> simp only [] <;> omega

/-- What the remaining bits add to the quotient. The remainder stays below the divisor. -/
theorem divBits_eq (low divisor : ℕ) (hdivisor : divisor < 2 ^ 128) :
    ∀ (bits remainder quotient : ℕ), remainder < divisor → 2 ^ bits ∣ quotient →
      divBits low divisor bits remainder quotient =
        quotient + (remainder * 2 ^ bits + low % 2 ^ bits) / divisor := by
  intro bits
  induction bits with
  | zero =>
    intro remainder quotient hrem _
    simp [divBits, Nat.div_eq_of_lt hrem, Nat.mod_one]
  | succ bit ih =>
    intro remainder quotient hrem hdvd
    -- The remainder with the next bit brought down, before it is cut to a word.
    set v := 2 * remainder + low / 2 ^ bit % 2 with hv
    have hword : (remainder <<< 1) % 2 ^ 128 ||| (low >>> bit) % 2 = v % 2 ^ 128 := by
      have heven : (remainder * 2 ^ 1) % 2 ^ 128 = 2 ^ 1 * (remainder % 2 ^ 127) := by omega
      rw [Nat.shiftLeft_eq, Nat.shiftRight_eq_div_pow, heven,
        ← Nat.two_pow_add_eq_or_of_lt (Nat.mod_lt _ (by norm_num))]
      omega
    have hcarry : remainder >>> 127 = v / 2 ^ 128 := by
      rw [Nat.shiftRight_eq_div_pow]
      omega
    have hbits : remainder * 2 ^ (bit + 1) + low % 2 ^ (bit + 1) =
        v * 2 ^ bit + low % 2 ^ bit := by
      rw [Nat.mod_pow_succ, pow_succ, hv]
      ring
    have htaken : (v / 2 ^ 128 = 1 ∨ divisor ≤ v % 2 ^ 128) ↔ divisor ≤ v := by omega
    have hquotient : quotient ||| 1 <<< bit = quotient + 2 ^ bit := by
      obtain ⟨q, rfl⟩ := hdvd
      rw [Nat.shiftLeft_eq, Nat.one_mul, Nat.two_pow_add_eq_or_of_lt]
      exact Nat.pow_lt_pow_right (by norm_num) (by omega)
    simp only [divBits, hword, hcarry, htaken, hquotient, hbits]
    split_ifs with hle
    · have hrest : (v % 2 ^ 128 + 2 ^ 128 - divisor) % 2 ^ 128 = v - divisor := by omega
      rw [hrest, ih _ _ (by omega)]
      · have hsplit : v * 2 ^ bit + low % 2 ^ bit =
            (v - divisor) * 2 ^ bit + low % 2 ^ bit + 2 ^ bit * divisor := by
          have hback : v - divisor + divisor = v := Nat.sub_add_cancel hle
          nth_rewrite 1 [← hback]
          ring
        rw [hsplit, Nat.add_mul_div_right _ _ (by omega)]
        ring
      · exact Nat.dvd_add (dvd_trans (pow_dvd_pow 2 (by omega)) hdvd) dvd_rfl
    · have hsmall : v % 2 ^ 128 = v := Nat.mod_eq_of_lt (by omega)
      rw [hsmall, ih _ _ (by omega) (dvd_trans (pow_dvd_pow 2 (by omega)) hdvd)]

/-- The quotient of a double word, refused when it does not fit one word. -/
theorem divFull_eq {high low divisor : ℕ} (hlow : low < 2 ^ 128) (hdivisor : divisor ≤ u128Max) :
    divFull high low divisor =
      if divisor = 0 then none else checkedRaw ((high * 2 ^ 128 + low) / divisor) := by
  unfold divFull
  by_cases hzero : divisor = 0
  · simp [hzero]
  by_cases hhigh : divisor ≤ high
  · have hbig : ¬ (high * 2 ^ 128 + low) / divisor ≤ u128Max := by
      have : 2 ^ 128 ≤ (high * 2 ^ 128 + low) / divisor := by
        rw [Nat.le_div_iff_mul_le (by omega)]
        nlinarith
      unfold u128Max
      omega
    rw [if_pos (Or.inr hhigh), if_neg hzero, checkedRaw, if_neg hbig]
  · have hfits : (high * 2 ^ 128 + low) / divisor ≤ u128Max := by
      have : (high * 2 ^ 128 + low) / divisor < 2 ^ 128 := by
        rw [Nat.div_lt_iff_lt_mul (by omega)]
        nlinarith
      unfold u128Max
      omega
    rw [if_neg (by tauto), if_neg hzero, checkedRaw, if_pos hfits,
      divBits_eq _ _ (lt_pow_of_le_u128Max hdivisor) _ _ _ (by omega) (dvd_zero _),
      Nat.mod_eq_of_lt hlow, Nat.zero_add]

section Ratios
variable {a b d : ℕ}

theorem mulDivFloor_eq (ha : a ≤ u128Max) (hb : b ≤ u128Max) (hd : d ≤ u128Max) :
    mulDivFloor a b d = if d = 0 then none else checkedRaw (a * b / d) := by
  unfold mulDivFloor
  rw [mulFull_eq ha hb, divFull_eq (Nat.mod_lt _ (by norm_num)) hd, Nat.div_add_mod']

theorem mulDivFloor_eq_some {q : ℕ} (ha : a ≤ u128Max) (hb : b ≤ u128Max) (hd : d ≤ u128Max) :
    mulDivFloor a b d = some q ↔ 0 < d ∧ q = a * b / d ∧ q ≤ u128Max := by
  rw [mulDivFloor_eq ha hb hd]
  split_ifs with h
  · simp [h]
  · rw [checkedRaw_eq_some]
    constructor
    · rintro ⟨rfl, hfits⟩
      exact ⟨by omega, rfl, hfits⟩
    · rintro ⟨-, rfl, hfits⟩
      exact ⟨rfl, hfits⟩

/-- The product of two words is told by its own two words. -/
theorem mulFull_inj {c : ℕ} (ha : a ≤ u128Max) (hb : b ≤ u128Max) (hc : c ≤ u128Max)
    (hd : d ≤ u128Max) : mulFull a b = mulFull c d ↔ a * b = c * d := by
  rw [mulFull_eq ha hb, mulFull_eq hc hd, Prod.mk.injEq]
  constructor
  · rintro ⟨hhigh, hlow⟩
    rw [← Nat.div_add_mod' (a * b) (2 ^ 128), hhigh, hlow, Nat.div_add_mod']
  · intro h
    simp [h]

/-- A ceiling is the floor, or one more when the division leaves something. -/
theorem ceilDiv_eq_floor (n : ℕ) (hd : 0 < d) :
    n ⌈/⌉ d = if n / d * d = n then n / d else n / d + 1 := by
  have hdecomp := Nat.div_add_mod' n d
  have hlt := Nat.mod_lt n hd
  apply le_antisymm
  · rw [ceilDiv_le_iff_le_mul hd]
    split_ifs with h
    · rw [mul_comm, h]
    · rw [mul_add, mul_comm d, mul_one]
      omega
  · have hle : n ≤ d * (n ⌈/⌉ d) := (ceilDiv_le_iff_le_mul hd).mp le_rfl
    split_ifs with h
    · apply Nat.div_le_of_le_mul hle
    · by_contra! hlow
      have : d * (n ⌈/⌉ d) ≤ d * (n / d) := Nat.mul_le_mul_left d (by omega)
      rw [mul_comm d (n / d)] at this
      omega

theorem mulDivCeil_eq_some {q : ℕ} (ha : a ≤ u128Max) (hb : b ≤ u128Max) (hd : d ≤ u128Max) :
    mulDivCeil a b d = some q ↔ 0 < d ∧ q = a * b ⌈/⌉ d ∧ q ≤ u128Max := by
  unfold mulDivCeil
  simp only [Option.bind_eq_bind, Option.bind_eq_some_iff, mulDivFloor_eq_some ha hb hd]
  constructor
  · rintro ⟨floor, ⟨hpos, rfl, hfloor⟩, hq⟩
    simp only [mulFull_inj hfloor hd ha hb] at hq
    rw [ceilDiv_eq_floor _ hpos]
    split_ifs at hq ⊢ with h
    · obtain rfl := Option.some.inj hq
      exact ⟨hpos, rfl, hfloor⟩
    · obtain ⟨rfl, hfits⟩ := checkedRaw_eq_some.mp hq
      exact ⟨hpos, rfl, hfits⟩
  · rintro ⟨hpos, hq, hfits⟩
    rw [ceilDiv_eq_floor _ hpos] at hq
    have hfloor : a * b / d ≤ u128Max := by
      split_ifs at hq <;> omega
    refine ⟨a * b / d, ⟨hpos, rfl, hfloor⟩, ?_⟩
    simp only [mulFull_inj hfloor hd ha hb]
    split_ifs at hq ⊢ with h
    · rw [hq]
    · rw [checkedRaw_eq_some]
      exact ⟨hq.symm, hq ▸ hfits⟩

theorem mulShr128Floor_eq (ha : a ≤ u128Max) (hb : b ≤ u128Max) :
    mulShr128Floor a b = a * b / 2 ^ 128 := by
  unfold mulShr128Floor
  rw [mulFull_eq ha hb]

/-- The high word of a product is below the largest word. -/
theorem mulFull_high_fits (ha : a ≤ u128Max) (hb : b ≤ u128Max) :
    a * b / 2 ^ 128 + 1 ≤ u128Max := by
  have hmul : a * b ≤ u128Max * u128Max := Nat.mul_le_mul ha hb
  have hdiv : a * b / 2 ^ 128 ≤ u128Max * u128Max / 2 ^ 128 := Nat.div_le_div_right hmul
  have htop : u128Max * u128Max / 2 ^ 128 + 1 ≤ u128Max := by decide
  omega

/-- The saturation never bites. -/
theorem mulShr128Ceil_eq (ha : a ≤ u128Max) (hb : b ≤ u128Max) :
    mulShr128Ceil a b = a * b ⌈/⌉ 2 ^ 128 := by
  have hfits := mulFull_high_fits ha hb
  have hexact : a * b / 2 ^ 128 * 2 ^ 128 = a * b ↔ a * b % 2 ^ 128 = 0 := by
    constructor
    · intro h
      exact Nat.mod_eq_zero_of_dvd (Dvd.intro_left _ h)
    · intro h
      exact Nat.div_mul_cancel (Nat.dvd_of_mod_eq_zero h)
  unfold mulShr128Ceil
  rw [mulFull_eq ha hb, ceilDiv_eq_floor _ (show 0 < 2 ^ 128 by norm_num)]
  by_cases h : a * b % 2 ^ 128 = 0
  · rw [if_pos h, if_pos (hexact.mpr h)]
  · rw [if_neg h, if_neg (mt hexact.mp h), min_eq_left hfits]

theorem shl128DivFloor_eq_some {q : ℕ} (hd : d ≤ u128Max) :
    shl128DivFloor a d = some q ↔ 0 < d ∧ q = a * 2 ^ 128 / d ∧ q ≤ u128Max := by
  unfold shl128DivFloor
  rw [divFull_eq (by norm_num) hd, Nat.add_zero]
  split_ifs with h
  · simp [h]
  · rw [checkedRaw_eq_some]
    constructor
    · rintro ⟨rfl, hfits⟩
      exact ⟨by omega, rfl, hfits⟩
    · rintro ⟨-, rfl, hfits⟩
      exact ⟨rfl, hfits⟩

/-- Every ratio is the floor or the ceiling of the exact quotient, and none is given exactly where
the divisor is zero or the quotient does not fit. The ceiling by `2 ^ 128` never saturates. -/
theorem wide_ratios_exact (ha : a ≤ u128Max) (hb : b ≤ u128Max) (hd : d ≤ u128Max) :
    (mulDivFloor a b d = if d = 0 ∨ u128Max < a * b / d then none else some (a * b / d)) ∧
    (mulDivCeil a b d = if d = 0 ∨ u128Max < a * b ⌈/⌉ d then none else some (a * b ⌈/⌉ d)) ∧
    (shl128DivFloor a d =
      if d = 0 ∨ u128Max < a * 2 ^ 128 / d then none else some (a * 2 ^ 128 / d)) ∧
    mulShr128Floor a b = a * b / 2 ^ 128 ∧ mulShr128Ceil a b = a * b ⌈/⌉ 2 ^ 128 ∧
    (mulFull a b).1 + 1 ≤ u128Max := by
  have hexact : ∀ (ratio : Option ℕ) (quotient : ℕ),
      (∀ q, ratio = some q ↔ 0 < d ∧ q = quotient ∧ q ≤ u128Max) →
      ratio = if d = 0 ∨ u128Max < quotient then none else some quotient := by
    intro ratio quotient hratio
    split_ifs with hrefused
    · cases hsome : ratio with
      | none => rfl
      | some q =>
        obtain ⟨hpos, rfl, hfits⟩ := (hratio q).mp hsome
        omega
    · exact (hratio quotient).mpr ⟨by omega, rfl, by omega⟩
  refine ⟨hexact _ _ ?_, hexact _ _ ?_, hexact _ _ ?_, mulShr128Floor_eq ha hb,
    mulShr128Ceil_eq ha hb, ?_⟩
  · intro q
    exact mulDivFloor_eq_some ha hb hd
  · intro q
    exact mulDivCeil_eq_some ha hb hd
  · intro q
    exact shl128DivFloor_eq_some hd
  · rw [mulFull_eq ha hb]
    exact mulFull_high_fits ha hb

theorem wide_ratios_at_top :
    mulDivFloor u128Max u128Max u128Max = some u128Max ∧ (mulFull u128Max u128Max).1 < u128Max := by
  obtain ⟨hfloor, -, -, -, -, hhigh⟩ := wide_ratios_exact (le_refl u128Max) (le_refl u128Max)
    (le_refl u128Max)
  refine ⟨?_, hhigh⟩
  rw [hfloor]
  decide

end Ratios
end ScreenerBot.Chain
