import ScreenerBot.Direct.Venues.ClmmTicks
import ScreenerBot.Library.PriceWalk
import ScreenerBot.Library.Rounding

/-!
The step formulas of constant liquidity as stretches of a curve, falling and rising.

A price is a Q64.64 square root; selling side 0 lets it fall. `num` is the liquidity as the
source shifts it, which is the exact product only while the liquidity is below `2 ^ 64`.
-/
namespace ScreenerBot.Direct.Venues
open ScreenerBot.Chain ScreenerBot.Library

/-- One, as a Q64.64 value. -/
def q64 : ℕ := 2 ^ 64

theorem q64_pos : 0 < q64 := by
  unfold q64
  norm_num

theorem q64_cast_pos : (0 : ℚ) < q64 := by exact_mod_cast q64_pos

/-- A square-root price, ordered the way a swap of the direction moves it. -/
structure Price (zeroForOne : Bool) where
  value : ℕ

instance {zeroForOne : Bool} : Preorder (Price zeroForOne) where
  le p q := match zeroForOne with
    | true => q.value ≤ p.value
    | false => p.value ≤ q.value
  le_refl p := by
    cases zeroForOne with
    | true => exact le_refl p.value
    | false => exact le_refl p.value
  le_trans p q r hpq hqr := by
    cases zeroForOne with
    | true => exact Nat.le_trans hqr hpq
    | false => exact Nat.le_trans hpq hqr

def Positive {zeroForOne : Bool} (p : Price zeroForOne) : Prop := 0 < p.value

/-- The step formulas: falling, side 0 comes in and side 1 goes out; rising, the other way. -/
def stretch : (zeroForOne : Bool) → (num liquidity : ℕ) → Stretch (Price zeroForOne)
  | true, num, liquidity =>
    { cost p t := num * (p.value - t.value) ⌈/⌉ (p.value * t.value)
      reach p s := ⟨num * p.value ⌈/⌉ (num + s * p.value)⟩
      pay p t := liquidity * (p.value - t.value) / q64 }
  | false, num, liquidity =>
    { cost p t := liquidity * (t.value - p.value) ⌈/⌉ q64
      reach p s := ⟨p.value + s * q64 / liquidity⟩
      pay p t := num * (t.value - p.value) / (t.value * p.value) }

/-- The exact price an input falls to. -/
def fallsTo (liquidity p : ℕ) (x : ℚ) : ℚ := liquidity * q64 * p / (liquidity * q64 + x * p)

/-- The exact price an input rises to. -/
def risesTo (liquidity p : ℕ) (x : ℚ) : ℚ := p + x * q64 / liquidity

/-- The step formulas between exact rational prices. -/
def exactStretch : (zeroForOne : Bool) → (liquidity : ℕ) → ExactStretch (Price zeroForOne)
  | true, liquidity =>
    { cost p t := liquidity * q64 * ((p.value : ℚ) - t.value) / (p.value * t.value)
      gives p x := liquidity * ((p.value : ℚ) - fallsTo liquidity p.value x) / q64 }
  | false, liquidity =>
    { cost p t := liquidity * ((t.value : ℚ) - p.value) / q64
      gives p x := liquidity * q64 * (risesTo liquidity p.value x - p.value) /
        (risesTo liquidity p.value x * p.value) }

section Formulas
variable (num liquidity s p t : ℕ) (x : ℚ)

@[simp] theorem falling_le_iff {p t : ℕ} : (⟨p⟩ : Price true) ≤ ⟨t⟩ ↔ t ≤ p := Iff.rfl

@[simp] theorem rising_le_iff {p t : ℕ} : (⟨p⟩ : Price false) ≤ ⟨t⟩ ↔ p ≤ t := Iff.rfl

@[simp] theorem falling_cost : (stretch true num liquidity).cost ⟨p⟩ ⟨t⟩ =
    num * (p - t) ⌈/⌉ (p * t) := rfl

@[simp] theorem falling_reach : (stretch true num liquidity).reach ⟨p⟩ s =
    ⟨num * p ⌈/⌉ (num + s * p)⟩ := rfl

@[simp] theorem falling_pay : (stretch true num liquidity).pay ⟨p⟩ ⟨t⟩ =
    liquidity * (p - t) / q64 := rfl

@[simp] theorem rising_cost : (stretch false num liquidity).cost ⟨p⟩ ⟨t⟩ =
    liquidity * (t - p) ⌈/⌉ q64 := rfl

@[simp] theorem rising_reach : (stretch false num liquidity).reach ⟨p⟩ s =
    ⟨p + s * q64 / liquidity⟩ := rfl

@[simp] theorem rising_pay : (stretch false num liquidity).pay ⟨p⟩ ⟨t⟩ =
    num * (t - p) / (t * p) := rfl

@[simp] theorem falling_exact_cost : (exactStretch true liquidity).cost ⟨p⟩ ⟨t⟩ =
    liquidity * q64 * ((p : ℚ) - t) / (p * t) := rfl

@[simp] theorem falling_exact_gives : (exactStretch true liquidity).gives ⟨p⟩ x =
    liquidity * ((p : ℚ) - fallsTo liquidity p x) / q64 := rfl

@[simp] theorem rising_exact_cost : (exactStretch false liquidity).cost ⟨p⟩ ⟨t⟩ =
    liquidity * ((t : ℚ) - p) / q64 := rfl

@[simp] theorem rising_exact_gives : (exactStretch false liquidity).gives ⟨p⟩ x =
    liquidity * q64 * (risesTo liquidity p x - p) / (risesTo liquidity p x * p) := rfl

end Formulas

section Falling
variable {num p t c s k : ℕ}

/-- A price reached by an input lies where the input allows it: `1/c ≤ 1/p + s/num`. -/
theorem reach_spec (hnum : 0 < num) : num * p ≤ (num + s * p) * (num * p ⌈/⌉ (num + s * p)) :=
  le_mul_ceilDiv _ (by positivity)

theorem falling_moves (num p s : ℕ) : num * p ⌈/⌉ (num + s * p) ≤ p := by
  by_cases hzero : num + s * p = 0
  · simp [hzero]
  · rw [ceilDiv_le_iff_le_mul (by omega)]
    exact Nat.mul_le_mul_right p (Nat.le_add_right num _)

theorem falling_stays (hp : 0 < p) (ht : 0 < t) (h : s < num * (p - t) ⌈/⌉ (p * t)) :
    t ≤ num * p ⌈/⌉ (num + s * p) := by
  rw [lt_ceilDiv (by positivity), Nat.mul_sub] at h
  have hnum : 0 < num := by
    by_contra hzero
    obtain rfl : num = 0 := by omega
    simp at h
  have hreach := reach_spec (p := p) (s := s) hnum
  have hlt : (num + s * p) * t ≤ num * p := by
    have : p * t * s < num * p - num * t := h
    have : p * t * s + num * t < num * p := by omega
    nlinarith
  by_contra! hbelow
  have : (num + s * p) * (num * p ⌈/⌉ (num + s * p)) < (num + s * p) * t :=
    Nat.mul_lt_mul_of_pos_left hbelow (by positivity)
  omega

theorem falling_mono (h : s ≤ k) :
    num * p ⌈/⌉ (num + k * p) ≤ num * p ⌈/⌉ (num + s * p) := by
  by_cases hnum : num = 0
  · simp [hnum]
  · rw [ceilDiv_le_iff_le_mul (by positivity)]
    calc num * p ≤ (num + s * p) * (num * p ⌈/⌉ (num + s * p)) := reach_spec (by omega)
      _ ≤ (num + k * p) * (num * p ⌈/⌉ (num + s * p)) := by gcongr

/-- Rounding up twice ends no lower than rounding up once. -/
theorem falling_again (hp : 0 < p) (hc : c = num * p ⌈/⌉ (num + s * p)) :
    num * p ⌈/⌉ (num + (s + k) * p) ≤ num * c ⌈/⌉ (num + k * c) := by
  by_cases hnum : num = 0
  · simp [hnum]
  have hpos : 0 < num := by omega
  rw [ceilDiv_le_iff_le_mul (by positivity)]
  have hfirst : num * p ≤ (num + s * p) * c := hc ▸ reach_spec hpos
  have hsecond : num * c ≤ (num + k * c) * (num * c ⌈/⌉ (num + k * c)) := reach_spec hpos
  generalize num * c ⌈/⌉ (num + k * c) = d at *
  by_cases hlarge : num ≤ k * d
  · calc num * p ≤ k * d * p := Nat.mul_le_mul_right p hlarge
      _ ≤ (num + (s + k) * p) * d := by nlinarith [Nat.zero_le (num * d + s * p * d)]
  · obtain ⟨m, hm⟩ : ∃ m, num = k * d + m := ⟨num - k * d, by omega⟩
    have hprice : m * c ≤ num * d := by
      have : (k * d + m) * c ≤ (num + k * c) * d := hm ▸ hsecond
      nlinarith
    have hscaled : num * (p * m) ≤ num * ((num + s * p) * d) :=
      calc num * (p * m) = num * p * m := by ring
        _ ≤ (num + s * p) * c * m := Nat.mul_le_mul_right m hfirst
        _ = (num + s * p) * (m * c) := by ring
        _ ≤ (num + s * p) * (num * d) := Nat.mul_le_mul_left _ hprice
        _ = num * ((num + s * p) * d) := by ring
    have hcancel : p * m ≤ (num + s * p) * d := Nat.le_of_mul_le_mul_left hscaled hpos
    calc num * p = k * d * p + p * m := by rw [hm]; ring
      _ ≤ k * d * p + (num + s * p) * d := Nat.add_le_add_left hcancel _
      _ = (num + (s + k) * p) * d := by ring

theorem falling_rest (hp : 0 < p) (ht : 0 < t) (hc : c = num * p ⌈/⌉ (num + s * p))
    (htc : t ≤ c) (hcp : c ≤ p) :
    num * (p - t) ⌈/⌉ (p * t) ≤ s + num * (c - t) ⌈/⌉ (c * t) := by
  by_cases hnum : num = 0
  · simp [hnum]
  have hpos : 0 < num := by omega
  have hcpos : 0 < c := by omega
  rw [ceilDiv_le_iff_le_mul (by positivity)]
  have hfirst : num * p ≤ (num + s * p) * c := hc ▸ reach_spec hpos
  have hrest : num * (c - t) ≤ c * t * (num * (c - t) ⌈/⌉ (c * t)) :=
    le_mul_ceilDiv _ (by positivity)
  generalize num * (c - t) ⌈/⌉ (c * t) = k at *
  obtain ⟨a, rfl⟩ : ∃ a, p = c + a := ⟨p - c, by omega⟩
  obtain ⟨b, rfl⟩ : ∃ b, c = t + b := ⟨c - t, by omega⟩
  have hdown : num * a ≤ s * (t + b + a) * (t + b) := by nlinarith
  rw [Nat.add_sub_cancel_left] at hrest
  have hspan : t + b + a - t = a + b := by omega
  rw [hspan]
  have hscaled : num * (a + b) * (t + b) ≤ (t + b + a) * t * (s + k) * (t + b) :=
    calc num * (a + b) * (t + b) = (t + b + a) * (num * b) + t * (num * a) := by ring
      _ ≤ (t + b + a) * ((t + b) * t * k) + t * (s * (t + b + a) * (t + b)) :=
        Nat.add_le_add (Nat.mul_le_mul_left _ hrest) (Nat.mul_le_mul_left _ hdown)
      _ = (t + b + a) * t * (s + k) * (t + b) := by ring
  exact Nat.le_of_mul_le_mul_right hscaled hcpos

/-- The falling formulas agree with each other. -/
theorem falling_lawful (num liquidity : ℕ) : (stretch true num liquidity).Lawful Positive where
  moves s _ := falling_moves num _ s
  stays hp ht _ h := falling_stays hp ht h
  reach_mono _ h := falling_mono h
  reach_again _ _ hp := falling_again hp rfl
  cost_rest hp ht hle h :=
    falling_rest hp ht rfl (falling_stays hp ht h) (falling_moves num _ _)
  pay_mono {p q r} _ _ _ hqr := by
    obtain ⟨p⟩ := p
    obtain ⟨q⟩ := q
    obtain ⟨r⟩ := r
    rw [falling_le_iff] at hqr
    rw [falling_pay, falling_pay]
    gcongr
  pay_add {p q r} _ _ hpq hqr := by
    obtain ⟨p⟩ := p
    obtain ⟨q⟩ := q
    obtain ⟨r⟩ := r
    rw [falling_le_iff] at hpq hqr
    have hspan : p - r = (p - q) + (q - r) := by omega
    rw [falling_pay, falling_pay, falling_pay, hspan, Nat.mul_add]
    exact Nat.div_add_div_le_add_div
  between {p q r} _ hr _ hqr := lt_of_lt_of_le hr hqr

end Falling

section Rising
variable {liquidity p t q r s k : ℕ}

theorem rising_stays (hpt : p ≤ t) (h : s < liquidity * (t - p) ⌈/⌉ q64) :
    p + s * q64 / liquidity ≤ t := by
  rw [lt_ceilDiv q64_pos] at h
  have : s * q64 / liquidity ≤ t - p := Nat.div_le_of_le_mul (by linarith)
  omega

theorem rising_rest (hc : q = p + s * q64 / liquidity) (hqt : q ≤ t) :
    liquidity * (t - p) ⌈/⌉ q64 ≤ s + liquidity * (t - q) ⌈/⌉ q64 := by
  rw [ceilDiv_le_iff_le_mul q64_pos]
  have hrest : liquidity * (t - q) ≤ q64 * (liquidity * (t - q) ⌈/⌉ q64) :=
    le_mul_ceilDiv _ q64_pos
  have hmoved := Nat.mul_div_le (s * q64) liquidity
  generalize s * q64 / liquidity = a at *
  have hspan : t - p = (t - q) + a := by omega
  rw [hspan, Nat.mul_add, Nat.mul_add]
  linarith

theorem rising_pay_mono {num : ℕ} (hp : 0 < p) (hpq : p ≤ q) (hqr : q ≤ r) :
    num * (q - p) / (q * p) ≤ num * (r - p) / (r * p) := by
  rw [Nat.le_div_iff_mul_le (Nat.mul_pos (by omega) hp)]
  have hx := Nat.div_mul_le_self (num * (q - p)) (q * p)
  generalize num * (q - p) / (q * p) = x at *
  obtain ⟨a, rfl⟩ : ∃ a, q = p + a := ⟨q - p, by omega⟩
  obtain ⟨b, rfl⟩ : ∃ b, r = p + a + b := ⟨r - (p + a), by omega⟩
  rw [Nat.add_sub_cancel_left] at hx
  have hspan : p + a + b - p = a + b := by omega
  rw [hspan]
  refine Nat.le_of_mul_le_mul_right (c := p + a) ?_ (by omega)
  calc x * ((p + a + b) * p) * (p + a) = x * ((p + a) * p) * (p + a + b) := by ring
    _ ≤ num * a * (p + a + b) := Nat.mul_le_mul_right _ hx
    _ ≤ num * (a + b) * (p + a) := by nlinarith [Nat.zero_le (num * b * p)]

theorem rising_pay_add {num : ℕ} (hp : 0 < p) (hpq : p ≤ q) (hqr : q ≤ r) :
    num * (q - p) / (q * p) + num * (r - q) / (r * q) ≤ num * (r - p) / (r * p) := by
  rw [Nat.le_div_iff_mul_le (Nat.mul_pos (by omega) hp)]
  have hx := Nat.div_mul_le_self (num * (q - p)) (q * p)
  have hy := Nat.div_mul_le_self (num * (r - q)) (r * q)
  generalize num * (q - p) / (q * p) = x at *
  generalize num * (r - q) / (r * q) = y at *
  obtain ⟨a, rfl⟩ : ∃ a, q = p + a := ⟨q - p, by omega⟩
  obtain ⟨b, rfl⟩ : ∃ b, r = p + a + b := ⟨r - (p + a), by omega⟩
  rw [Nat.add_sub_cancel_left] at hx hy
  have hspan : p + a + b - p = a + b := by omega
  rw [hspan]
  refine Nat.le_of_mul_le_mul_right (c := p + a) ?_ (by omega)
  calc (x + y) * ((p + a + b) * p) * (p + a) =
        x * ((p + a) * p) * (p + a + b) + y * ((p + a + b) * (p + a)) * p := by ring
    _ ≤ num * a * (p + a + b) + num * b * p :=
      Nat.add_le_add (Nat.mul_le_mul_right _ hx) (Nat.mul_le_mul_right _ hy)
    _ = num * (a + b) * (p + a) := by ring

/-- The rising formulas agree with each other. -/
theorem rising_lawful (num liquidity : ℕ) : (stretch false num liquidity).Lawful Positive where
  moves s _ := Nat.le_add_right _ _
  stays _ _ hle h := rising_stays hle h
  reach_mono {p s s'} _ h := by
    obtain ⟨p⟩ := p
    rw [rising_reach, rising_reach, rising_le_iff]
    gcongr
  reach_again {p} s s' _ := by
    obtain ⟨p⟩ := p
    have hsum : s * q64 / liquidity + s' * q64 / liquidity ≤
        (s * q64 + s' * q64) / liquidity := Nat.div_add_div_le_add_div
    show p + s * q64 / liquidity + s' * q64 / liquidity ≤ p + (s + s') * q64 / liquidity
    rw [Nat.add_mul]
    omega
  cost_rest _ _ hle h := rising_rest rfl (rising_stays hle h)
  pay_mono hp _ hpq hqr := rising_pay_mono hp hpq hqr
  pay_add hp _ hpq hqr := rising_pay_add hp hpq hqr
  between hp _ hpq _ := lt_of_lt_of_le hp hpq

theorem stretch_lawful (zeroForOne : Bool) (num liquidity : ℕ) :
    (stretch zeroForOne num liquidity).Lawful Positive := by
  cases zeroForOne with
  | true => exact falling_lawful num liquidity
  | false => exact rising_lawful num liquidity

end Rising

section Exact
variable {liquidity p t : ℕ} {x y : ℚ}

theorem falling_cost_cast (htp : t ≤ p) :
    ((liquidity * q64 * (p - t) : ℕ) : ℚ) / (p * t : ℕ) =
      liquidity * q64 * ((p : ℚ) - t) / (p * t) := by
  push_cast [htp]
  ring

theorem fallsTo_le (hp : 0 < p) (hx : 0 ≤ x) : fallsTo liquidity p x ≤ p := by
  have hpq : (0 : ℚ) < p := by exact_mod_cast hp
  have hQ := q64_cast_pos
  unfold fallsTo
  by_cases hl : liquidity = 0
  · simp [hl]
  · have hlq : (0 : ℚ) < liquidity := by exact_mod_cast Nat.pos_of_ne_zero hl
    rw [div_le_iff₀ (by positivity)]
    nlinarith [mul_nonneg hx (mul_pos hpq hpq).le]

theorem fallsTo_anti (hp : 0 < p) (hx : 0 ≤ x) (hxy : x ≤ y) :
    fallsTo liquidity p y ≤ fallsTo liquidity p x := by
  have hpq : (0 : ℚ) < p := by exact_mod_cast hp
  have hQ := q64_cast_pos
  unfold fallsTo
  by_cases hl : liquidity = 0
  · simp [hl]
  · have hlq : (0 : ℚ) < liquidity := by exact_mod_cast Nat.pos_of_ne_zero hl
    gcongr

/-- The exact cost of reaching a price falls exactly to it. -/
theorem fallsTo_cost (hl : 0 < liquidity) (hp : 0 < p) (ht : 0 < t) :
    fallsTo liquidity p (liquidity * q64 * ((p : ℚ) - t) / (p * t)) = t := by
  have hlq : (0 : ℚ) < liquidity := by exact_mod_cast hl
  have hpq : (0 : ℚ) < p := by exact_mod_cast hp
  have hQ := q64_cast_pos
  have htq : (0 : ℚ) < t := by exact_mod_cast ht
  have hdenom : liquidity * q64 + liquidity * q64 * ((p : ℚ) - t) / (p * t) * p =
      liquidity * q64 * p / t := by
    field_simp
    ring
  unfold fallsTo
  rw [hdenom]
  field_simp

/-- The price the source reaches is never below the exact one. -/
theorem fallsTo_le_reach (p s : ℕ) :
    fallsTo liquidity p s ≤
      (liquidity * q64 * p ⌈/⌉ (liquidity * q64 + s * p) : ℕ) := by
  unfold fallsTo
  by_cases hzero : liquidity * q64 + s * p = 0
  · have hcast : (liquidity : ℚ) * q64 + s * p = 0 := by exact_mod_cast hzero
    rw [hcast, div_zero]
    positivity
  · have h := div_le_ceilDiv (liquidity * q64 * p) (Nat.pos_of_ne_zero hzero)
    push_cast at h
    exact_mod_cast h

theorem falling_pay_le {q : ℕ} {price : ℚ} (hprice : price ≤ q) (hqp : q ≤ p) :
    ((liquidity * (p - q) / q64 : ℕ) : ℚ) ≤ liquidity * ((p : ℚ) - price) / q64 := by
  calc ((liquidity * (p - q) / q64 : ℕ) : ℚ) ≤ (liquidity * (p - q) : ℕ) / (q64 : ℕ) :=
        Nat.cast_div_le
    _ = liquidity * ((p : ℚ) - q) / q64 := by push_cast [hqp]; rfl
    _ ≤ liquidity * ((p : ℚ) - price) / q64 := by gcongr

theorem falling_rounds (liquidity : ℕ) :
    (stretch true (liquidity * q64) liquidity).Rounds Positive (exactStretch true liquidity) where
  cost_le {p t} hp ht hle := by
    obtain ⟨p⟩ := p
    obtain ⟨t⟩ := t
    rw [falling_exact_cost, falling_cost, ← falling_cost_cast hle]
    exact div_le_ceilDiv _ (Nat.mul_pos hp ht)
  cost_tight {p t s} hp ht hle h := by
    obtain ⟨p⟩ := p
    obtain ⟨t⟩ := t
    rw [falling_exact_cost, ← falling_cost_cast hle]
    exact le_div_of_lt_ceilDiv (Nat.mul_pos hp ht) h
  pay_cross {p t} hp ht hle := by
    obtain ⟨p⟩ := p
    obtain ⟨t⟩ := t
    rw [falling_exact_cost, falling_exact_gives, falling_pay]
    by_cases hl : liquidity = 0
    · simp [hl]
    · have := fallsTo_cost (Nat.pos_of_ne_zero hl) hp ht
      exact falling_pay_le this.le hle
  pay_reach {p t s} hp ht hle h := by
    obtain ⟨p⟩ := p
    rw [falling_reach, falling_exact_gives, falling_pay]
    exact falling_pay_le (fallsTo_le_reach _ s) (falling_moves _ _ s)
  cost_nonneg {p t} hp ht hle := by
    obtain ⟨p⟩ := p
    obtain ⟨t⟩ := t
    have hle : (t : ℚ) ≤ p := by exact_mod_cast falling_le_iff.mp hle
    have : (0 : ℚ) ≤ (p : ℚ) - t := by linarith
    rw [falling_exact_cost]
    positivity
  gives_nonneg {p x} hp hx := by
    obtain ⟨p⟩ := p
    have h : fallsTo liquidity p x ≤ p := fallsTo_le hp hx
    have : (0 : ℚ) ≤ (p : ℚ) - fallsTo liquidity p x := by linarith
    rw [falling_exact_gives]
    exact div_nonneg (mul_nonneg (Nat.cast_nonneg _) this) (Nat.cast_nonneg _)
  gives_mono {p x y} hp hx hxy := by
    obtain ⟨p⟩ := p
    have h : fallsTo liquidity p y ≤ fallsTo liquidity p x := fallsTo_anti hp hx hxy
    rw [falling_exact_gives, falling_exact_gives]
    gcongr

/-- What moving to an exact price above pays. -/
theorem rising_pay_le {q : ℕ} {price : ℚ} (hp : 0 < p) (hpq : p ≤ q) (hprice : (q : ℚ) ≤ price) :
    ((liquidity * q64 * (q - p) / (q * p) : ℕ) : ℚ) ≤
      liquidity * q64 * (price - p) / (price * p) := by
  have hpq' : (p : ℚ) ≤ q := by exact_mod_cast hpq
  have hpos : (0 : ℚ) < p := by exact_mod_cast hp
  have hqpos : (0 : ℚ) < q := by linarith
  have hpricepos : 0 < price := by linarith
  calc ((liquidity * q64 * (q - p) / (q * p) : ℕ) : ℚ) ≤
        (liquidity * q64 * (q - p) : ℕ) / (q * p : ℕ) := Nat.cast_div_le
    _ = liquidity * q64 * (1 / p - 1 / q) := by
      push_cast [hpq]
      field_simp
    _ ≤ liquidity * q64 * (1 / p - 1 / price) := by gcongr
    _ = liquidity * q64 * (price - p) / (price * p) := by field_simp

theorem risesTo_mono (hxy : x ≤ y) : risesTo liquidity p x ≤ risesTo liquidity p y := by
  unfold risesTo
  gcongr

theorem le_risesTo (hx : 0 ≤ x) : (p : ℚ) ≤ risesTo liquidity p x := by
  unfold risesTo
  have : 0 ≤ x * q64 / (liquidity : ℚ) := by positivity
  linarith

theorem rising_rounds (liquidity : ℕ) :
    (stretch false (liquidity * q64) liquidity).Rounds Positive (exactStretch false liquidity) where
  cost_le {p t} hp ht hle := by
    obtain ⟨p⟩ := p
    obtain ⟨t⟩ := t
    have h := div_le_ceilDiv (liquidity * (t - p)) q64_pos
    push_cast [rising_le_iff.mp hle] at h
    exact h
  cost_tight {p t s} hp ht hle h := by
    obtain ⟨p⟩ := p
    obtain ⟨t⟩ := t
    have h := le_div_of_lt_ceilDiv q64_pos h
    push_cast [rising_le_iff.mp hle] at h
    exact h
  pay_cross {p t} hp ht hle := by
    obtain ⟨p⟩ := p
    obtain ⟨t⟩ := t
    rw [rising_exact_cost, rising_exact_gives, rising_pay]
    by_cases hl : liquidity = 0
    · simp [hl]
    · have hlq : (0 : ℚ) < liquidity := by exact_mod_cast Nat.pos_of_ne_zero hl
      have hQ := q64_cast_pos
      have hreach : (t : ℚ) ≤ risesTo liquidity p (liquidity * ((t : ℚ) - p) / q64) := by
        unfold risesTo
        apply le_of_eq
        field_simp
        ring
      exact rising_pay_le hp hle hreach
  pay_reach {p t s} hp ht hle h := by
    obtain ⟨p⟩ := p
    rw [rising_reach, rising_exact_gives, rising_pay]
    apply rising_pay_le hp (Nat.le_add_right _ _)
    unfold risesTo
    push_cast
    gcongr
    exact_mod_cast (Nat.cast_div_le : ((s * q64 / liquidity : ℕ) : ℚ) ≤ _)
  cost_nonneg {p t} hp ht hle := by
    obtain ⟨p⟩ := p
    obtain ⟨t⟩ := t
    have hle : (p : ℚ) ≤ t := by exact_mod_cast rising_le_iff.mp hle
    have : (0 : ℚ) ≤ (t : ℚ) - p := by linarith
    rw [rising_exact_cost]
    positivity
  gives_nonneg {p x} hp hx := by
    obtain ⟨p⟩ := p
    have h : (p : ℚ) ≤ risesTo liquidity p x := le_risesTo hx
    have hpos : (0 : ℚ) < p := by exact_mod_cast hp
    rw [rising_exact_gives]
    apply div_nonneg
    · exact mul_nonneg (by positivity) (by linarith)
    · exact mul_nonneg (by linarith) hpos.le
  gives_mono {p x y} hp hx hxy := by
    obtain ⟨p⟩ := p
    have hpos : (0 : ℚ) < p := by exact_mod_cast hp
    have hx' : (p : ℚ) ≤ risesTo liquidity p x := le_risesTo hx
    have hxy' : risesTo liquidity p x ≤ risesTo liquidity p y := risesTo_mono hxy
    have hform : ∀ z : ℚ, (p : ℚ) ≤ z → liquidity * q64 * (z - p) / (z * p) =
        liquidity * q64 * (1 / p - 1 / z) := by
      intro z hz
      have : 0 < z := by linarith
      field_simp
    rw [rising_exact_gives, rising_exact_gives, hform _ hx', hform _ (hx'.trans hxy')]
    have : 0 < risesTo liquidity p x := by linarith
    gcongr

theorem stretch_rounds (zeroForOne : Bool) (liquidity : ℕ) :
    (stretch zeroForOne (liquidity * q64) liquidity).Rounds Positive
      (exactStretch zeroForOne liquidity) := by
  cases zeroForOne with
  | true => exact falling_rounds liquidity
  | false => exact rising_rounds liquidity

end Exact
end ScreenerBot.Direct.Venues
