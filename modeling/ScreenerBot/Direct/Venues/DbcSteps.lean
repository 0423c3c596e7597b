import ScreenerBot.Direct.Venues.MeteoraDbc
import ScreenerBot.Direct.Venues.TickSteps
import ScreenerBot.Library.PiecewiseMass

/-!
The curve of a DBC pool as a density of base and of quote over the price line, and each step
formula against it.

Quote lies evenly over the square-root price and base over its inverse. The first segment is taken
to reach down without end and the last one up without end.
-/
namespace ScreenerBot.Direct.Venues.Dbc
open ScreenerBot.Chain ScreenerBot.Library ScreenerBot.Swaps

/-- The scale of a step. -/
def q128 : ℕ := 2 ^ 128

theorem q128_pos : 0 < q128 := by
  unfold q128
  norm_num

theorem q128_cast_pos : (0 : ℚ) < q128 := by exact_mod_cast q128_pos

def quoteAt (price : ℕ) : ℚ := price / q128

def baseAt (price : ℕ) : ℚ := -(1 / price)

theorem quoteAt_mono {p q : ℕ} (h : p ≤ q) : quoteAt p ≤ quoteAt q := by
  have := q128_cast_pos
  unfold quoteAt
  gcongr

theorem baseAt_mono {p q : ℕ} (hp : 0 < p) (h : p ≤ q) : baseAt p ≤ baseAt q := by
  have hpq : (0 : ℚ) < p := by exact_mod_cast hp
  unfold baseAt
  gcongr

namespace PoolConfigState
variable (c : PoolConfigState)

def pieces : List (ℕ × ℚ) := c.curve.map fun s => (s.sqrtPrice, (s.liquidity : ℚ))

/-- The exact quote between two prices. -/
def quoteMass (p q : ℕ) : ℚ := pieceMass quoteAt c.pieces p q

/-- The exact base between two prices. -/
def baseMass (p q : ℕ) : ℚ := pieceMass baseAt c.pieces p q

/-- The boundaries ascend, and every value fits a `u128`. -/
structure Valid : Prop where
  ascending : c.boundaries.Pairwise (· ≤ ·)
  boundaries : ∀ b ∈ c.boundaries, b ≤ u128Max
  liquidities : ∀ s ∈ c.curve, s.liquidity ≤ u128Max

/-- The segments before an index end no higher than a price. -/
def Below (i price : ℕ) : Prop := ∀ j < i, ∀ s ∈ c.curve[j]?, s.sqrtPrice ≤ price

variable {c} {i p q r : ℕ}

theorem pieces_nonneg : ∀ piece ∈ c.pieces, 0 ≤ piece.2 := by
  intro piece hpiece
  obtain ⟨s, _, rfl⟩ := List.mem_map.mp hpiece
  exact Nat.cast_nonneg _

theorem quoteMass_anti (h : p ≤ q) : c.quoteMass q r ≤ c.quoteMass p r := by
  apply pieceMass.anti_left pieces_nonneg _ h
  intro x _ y _ hxy
  exact quoteAt_mono hxy

theorem baseMass_nonneg (hp : 0 < p) (h : p ≤ q) : 0 ≤ c.baseMass p q := by
  apply pieceMass.nonneg pieces_nonneg _ h
  intro x hx y _ hxy
  exact baseAt_mono (lt_of_lt_of_le hp hx) hxy

/-- Inside one segment the mass is that of its liquidity. -/
theorem pieceMass_segment {φ : ℕ → ℚ} {segment : CurvePoint} (hsegment : c.curve[i]? = some segment)
    (hbelow : c.Below i p) (hpq : p ≤ q)
    (hend : q ≤ segment.sqrtPrice ∨ i + 1 = c.curve.length) :
    pieceMass φ c.pieces p q = segment.liquidity * (φ q - φ p) := by
  have hpiece : c.pieces[i]? = some (segment.sqrtPrice, (segment.liquidity : ℚ)) := by
    simp [pieces, hsegment]
  apply pieceMass.within φ hpiece
  · intro j hj piece hpiece
    simp only [pieces, List.getElem?_map, Option.mem_def, Option.map_eq_some_iff] at hpiece
    obtain ⟨s, hs, rfl⟩ := hpiece
    exact hbelow j hj s hs
  · exact hpq
  · simpa [pieces] using hend

theorem Below.mono (h : c.Below i p) (hpq : p ≤ q) : c.Below i q := by
  intro j hj s hs
  exact (h j hj s hs).trans hpq

end PoolConfigState

section Formulas
variable {liquidity p t s a : ℕ}

theorem sell_needed (hl : liquidity ≤ u128Max) (hp : p ≤ u128Max)
    (h : inputForMove true liquidity p t = .ok a) :
    p ≤ t ∧ a = 0 ∨ t < p ∧ a = liquidity * (p - t) ⌈/⌉ (p * max t 1) := by
  simp only [inputForMove, ↓reduceIte] at h
  split_ifs at h with hle
  · obtain rfl := Except.ok.inj h
    exact Or.inl ⟨hle, rfl⟩
  · obtain ⟨step1, hstep, ha⟩ := bind_eq_ok.mp h
    rw [okOr_eq_ok, mulDivCeil_eq_some hl (by omega) hp] at hstep
    obtain ⟨_, rfl, _⟩ := hstep
    obtain rfl := Except.ok.inj ha
    rw [ceilDiv, if_neg (by omega), ceilDiv_ceilDiv _ (by omega) (by omega)]
    exact Or.inr ⟨by omega, rfl⟩

theorem buy_needed (hl : liquidity ≤ u128Max) (ht : t ≤ u128Max)
    (h : inputForMove false liquidity p t = .ok a) : a = liquidity * (t - p) ⌈/⌉ q128 := by
  simp only [inputForMove, Bool.false_eq_true, ↓reduceIte] at h
  split_ifs at h with hle
  · obtain rfl := Except.ok.inj h
    simp [Nat.sub_eq_zero_of_le hle]
  · obtain rfl := Except.ok.inj h
    exact mulShr128Ceil_eq hl (by omega)

theorem sell_next (hl : liquidity ≤ u128Max) (hp : p ≤ u128Max)
    (h : nextSqrtPriceFromInput true liquidity p s = .ok a) :
    a = liquidity * p ⌈/⌉ (liquidity + s * p) ∧ a ≤ u128Max := by
  simp only [nextSqrtPriceFromInput, ↓reduceIte] at h
  obtain ⟨product, hproduct, h⟩ := bind_eq_ok.mp h
  obtain ⟨denominator, hdenominator, h⟩ := bind_eq_ok.mp h
  rw [okOr_eq_ok, checkedRaw_eq_some] at hproduct hdenominator
  obtain ⟨rfl, _⟩ := hproduct
  obtain ⟨rfl, hfits⟩ := hdenominator
  rw [okOr_eq_ok, mulDivCeil_eq_some hl hp hfits] at h
  exact h.2

theorem buy_next (hl : liquidity ≤ u128Max)
    (h : nextSqrtPriceFromInput false liquidity p s = .ok a) :
    a = p + s * q128 / liquidity ∧ a ≤ u128Max := by
  simp only [nextSqrtPriceFromInput, Bool.false_eq_true, ↓reduceIte] at h
  obtain ⟨delta, hdelta, h⟩ := bind_eq_ok.mp h
  rw [okOr_eq_ok, shl128DivFloor_eq_some hl] at hdelta
  obtain ⟨_, rfl, _⟩ := hdelta
  rw [okOr_eq_ok, checkedRaw_eq_some] at h
  obtain ⟨rfl, hle⟩ := h
  exact ⟨rfl, hle⟩

/-- A sell pays out no more quote than lies between its prices. -/
theorem sell_out_le (hl : liquidity ≤ u128Max) (hp : p ≤ u128Max) (htp : t ≤ p)
    (h : outputForMove true liquidity p t = .ok a) :
    (a : ℚ) ≤ liquidity * (quoteAt p - quoteAt t) := by
  obtain ⟨out, hout, ha⟩ := bind_eq_ok.mp h
  obtain rfl := Except.ok.inj ha
  obtain rfl := Except.ok.inj hout
  rw [mulShr128Floor_eq hl (by omega)]
  calc ((min (liquidity * (p - t) / 2 ^ 128) u64Max : ℕ) : ℚ)
      ≤ ((liquidity * (p - t) / q128 : ℕ) : ℚ) := by exact_mod_cast min_le_left _ _
    _ ≤ (liquidity * (p - t) : ℕ) / (q128 : ℕ) := Nat.cast_div_le
    _ = liquidity * (quoteAt p - quoteAt t) := by
      unfold quoteAt
      push_cast [htp]
      ring

/-- A buy pays out no more base than lies between its prices. -/
theorem buy_out_le (hl : liquidity ≤ u128Max) (ht : t ≤ u128Max) (hp : 0 < p) (hpt : p ≤ t)
    (h : outputForMove false liquidity p t = .ok a) :
    (a : ℚ) ≤ liquidity * (baseAt t - baseAt p) := by
  have hpq : (0 : ℚ) < p := by exact_mod_cast hp
  have htq : (0 : ℚ) < t := by exact_mod_cast lt_of_lt_of_le hp hpt
  obtain ⟨out, hout, ha⟩ := bind_eq_ok.mp h
  obtain rfl := Except.ok.inj ha
  simp only [wideOutputForMove, Bool.false_eq_true, ↓reduceIte] at hout
  obtain ⟨step1, hstep, hout⟩ := bind_eq_ok.mp hout
  rw [okOr_eq_ok, mulDivFloor_eq_some hl (by omega) ht] at hstep
  obtain ⟨_, rfl, _⟩ := hstep
  obtain rfl := Except.ok.inj hout
  rw [max_eq_left hp, Nat.div_div_eq_div_mul]
  calc ((min (liquidity * (t - p) / (t * p)) u64Max : ℕ) : ℚ)
      ≤ ((liquidity * (t - p) / (t * p) : ℕ) : ℚ) := by exact_mod_cast min_le_left _ _
    _ ≤ (liquidity * (t - p) : ℕ) / (t * p : ℕ) := Nat.cast_div_le
    _ = liquidity * (baseAt t - baseAt p) := by
      unfold baseAt
      push_cast [hpt]
      field_simp
      ring

/-- A buy is charged no less quote than lies between its prices. -/
theorem quote_le_needed (hpt : p ≤ t) :
    (liquidity : ℚ) * (quoteAt t - quoteAt p) ≤ (liquidity * (t - p) ⌈/⌉ q128 : ℕ) := by
  calc (liquidity : ℚ) * (quoteAt t - quoteAt p) = (liquidity * (t - p) : ℕ) / (q128 : ℕ) := by
        unfold quoteAt
        push_cast [hpt]
        ring
    _ ≤ (liquidity * (t - p) ⌈/⌉ q128 : ℕ) := div_le_ceilDiv _ q128_pos

/-- An input moves the price up no further than it pays for. -/
theorem quote_le_spent (hl : 0 < liquidity) :
    (liquidity : ℚ) * (quoteAt (p + s * q128 / liquidity) - quoteAt p) ≤ s := by
  have hlq : (0 : ℚ) < liquidity := by exact_mod_cast hl
  have hfloor : ((s * q128 / liquidity : ℕ) : ℚ) ≤ (s * q128 : ℕ) / (liquidity : ℕ) :=
    Nat.cast_div_le
  calc (liquidity : ℚ) * (quoteAt (p + s * q128 / liquidity) - quoteAt p)
      = liquidity * (s * q128 / liquidity : ℕ) / q128 := by
        unfold quoteAt
        push_cast
        ring
    _ ≤ liquidity * ((s * q128 : ℕ) / (liquidity : ℕ)) / q128 := by
        have := q128_cast_pos
        gcongr
    _ = s := by
        have := q128_cast_pos
        push_cast
        field_simp

theorem buy_stays (hpt : p ≤ t) (h : s < liquidity * (t - p) ⌈/⌉ q128) :
    p + s * q128 / liquidity ≤ t := by
  rw [lt_ceilDiv q128_pos] at h
  have : s * q128 / liquidity ≤ t - p := Nat.div_le_of_le_mul (by linarith)
  omega

theorem sell_stays (htp : t < p) (h : s < liquidity * (p - t) ⌈/⌉ (p * max t 1)) :
    t ≤ liquidity * p ⌈/⌉ (liquidity + s * p) := by
  by_cases ht : t = 0
  · omega
  · rw [max_eq_left (by omega)] at h
    exact falling_stays (by omega) (by omega) h

/-- What a sell of no more base than lies above a price can pay for. -/
theorem sell_above_floor {floor : ℕ} (hl : 0 < liquidity) (hfloor : 0 < floor) (hp : 0 < p)
    (h : (s : ℚ) ≤ liquidity * (baseAt p - baseAt floor)) :
    floor ≤ liquidity * p ⌈/⌉ (liquidity + s * p) := by
  have hpq : (0 : ℚ) < p := by exact_mod_cast hp
  have hfq : (0 : ℚ) < floor := by exact_mod_cast hfloor
  have hexact : (liquidity : ℚ) * (baseAt p - baseAt floor) * (floor * p) =
      liquidity * p - liquidity * floor := by
    unfold baseAt
    field_simp
    ring
  have hscaled : (s : ℚ) * (floor * p) ≤ liquidity * p - liquidity * floor := by
    rw [← hexact]
    gcongr
  have hnat : (liquidity + s * p) * floor ≤ liquidity * p := by
    have : ((liquidity + s * p) * floor : ℚ) ≤ liquidity * p := by linarith
    exact_mod_cast this
  have hreach := le_mul_ceilDiv (liquidity * p) (show 0 < liquidity + s * p by omega)
  exact Nat.le_of_mul_le_mul_left (hnat.trans hreach) (by omega)

/-- A sell that reaches the end of its segment is charged no less base than lies above it. -/
theorem base_le_needed (ht : 0 < t) (htp : t < p) :
    (liquidity : ℚ) * (baseAt p - baseAt t) ≤ (liquidity * (p - t) ⌈/⌉ (p * max t 1) : ℕ) := by
  have hpq : (0 : ℚ) < p := by exact_mod_cast (by omega : 0 < p)
  have htq : (0 : ℚ) < t := by exact_mod_cast ht
  rw [max_eq_left ht]
  calc (liquidity : ℚ) * (baseAt p - baseAt t) = (liquidity * (p - t) : ℕ) / (p * t : ℕ) := by
        unfold baseAt
        push_cast [htp.le]
        field_simp
        ring
    _ ≤ (liquidity * (p - t) ⌈/⌉ (p * t) : ℕ) := div_le_ceilDiv _ (Nat.mul_pos (by omega) ht)

/-- Going below a price costs more base than lies above it. -/
theorem base_lt_needed {floor : ℕ} (hl : 0 < liquidity) (htf : t < floor) (hfp : floor ≤ p) :
    (liquidity : ℚ) * (baseAt p - baseAt floor) <
      (liquidity * (p - t) ⌈/⌉ (p * max t 1) : ℕ) := by
  have hlq : (0 : ℚ) < liquidity := by exact_mod_cast hl
  have hpq : (0 : ℚ) < p := by exact_mod_cast (by omega : 0 < p)
  have hfq : (0 : ℚ) < floor := by exact_mod_cast (by omega : 0 < floor)
  by_cases ht : t = 0
  · -- The whole liquidity is charged for reaching the price zero.
    subst ht
    have hneeded : liquidity * (p - 0) ⌈/⌉ (p * max 0 1) = liquidity := by
      simp only [Nat.sub_zero, zero_le, sup_of_le_right, mul_one]
      rw [ceilDiv_eq_floor _ (by omega), Nat.mul_div_cancel _ (by omega), if_pos rfl]
    have hone : (1 : ℚ) ≤ floor := by exact_mod_cast (by omega : 1 ≤ floor)
    rw [hneeded]
    have hinv : 1 / (floor : ℚ) ≤ 1 := by
      rw [div_le_one hfq]
      exact hone
    have hrest : 0 < 1 / (p : ℚ) := by positivity
    unfold baseAt
    nlinarith
  · have hreach : (liquidity : ℚ) * (baseAt p - baseAt t) ≤
        (liquidity * (p - t) ⌈/⌉ (p * max t 1) : ℕ) := base_le_needed (by omega) (by omega)
    have htq : (0 : ℚ) < t := by exact_mod_cast (by omega : 0 < t)
    have hstrict : baseAt t < baseAt floor := by
      have : (t : ℚ) < floor := by exact_mod_cast htf
      unfold baseAt
      gcongr
    nlinarith

end Formulas
end ScreenerBot.Direct.Venues.Dbc
