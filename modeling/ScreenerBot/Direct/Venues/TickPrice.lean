import ScreenerBot.Direct.Venues.ClmmTicks

/-! The price of a tick: a chain of factors, one for each bit, that falls as the bits grow. -/
namespace ScreenerBot.Direct.Venues
open ScreenerBot.Chain ScreenerBot.Library

/-- The factor of a bit. -/
def factorAt (k : ℕ) : ℕ := (magic.getD k (0, 0)).2

/-- The chain over the `k` lowest bits. -/
def priceChain (n : ℕ) : ℕ → ℕ
  | 0 => 2 ^ 64
  | k + 1 => if n.testBit k then priceChain n k * factorAt k / 2 ^ 64 else priceChain n k

theorem factorAt_lt (k : ℕ) : factorAt k < 2 ^ 64 := by
  by_cases hk : k < 19
  · have h : ∀ k < 19, factorAt k < 2 ^ 64 := by decide
    exact h k hk
  · have hnone : magic.getD k (0, 0) = (0, 0) := by
      apply List.getD_eq_default
      change 19 ≤ k
      omega
    rw [factorAt, hnone]
    norm_num

theorem priceChain_le (n k : ℕ) : priceChain n k ≤ 2 ^ 64 := by
  induction k with
  | zero => exact le_refl _
  | succ k ih =>
    rw [priceChain]
    split_ifs
    · apply Nat.div_le_of_le_mul
      exact Nat.mul_le_mul ih (factorAt_lt k).le
    · exact ih

/-- All the lower bits together weigh no more than the next one. -/
theorem factorAt_le_ones : ∀ k < 19, factorAt k ≤ priceChain (2 ^ k - 1) k := by
  decide +kernel

theorem priceChain_congr {n m k : ℕ} (h : ∀ i < k, n.testBit i = m.testBit i) :
    priceChain n k = priceChain m k := by
  induction k with
  | zero => rfl
  | succ k ih => rw [priceChain, priceChain, h k (by omega), ih fun i hi => h i (by omega)]

/-- The next bit multiplies the chain of the lower ones. -/
theorem priceChain_high {n k : ℕ} (hn : n < 2 ^ k) :
    priceChain (2 ^ k + n) (k + 1) = priceChain n k * factorAt k / 2 ^ 64 := by
  have hbit : (2 ^ k + n).testBit k = true := by
    rw [Nat.testBit_two_pow_add_eq, Nat.testBit_lt_two_pow hn]
    rfl
  have hlow : priceChain (2 ^ k + n) k = priceChain n k :=
    priceChain_congr fun i hi => Nat.testBit_two_pow_add_gt hi n
  rw [priceChain, if_pos hbit, hlow]

theorem priceChain_low {n k : ℕ} (hn : n < 2 ^ k) : priceChain n (k + 1) = priceChain n k := by
  rw [priceChain, Nat.testBit_lt_two_pow hn]
  simp

/-- A greater tick has a lower chain. -/
theorem priceChain_anti : ∀ k ≤ 19, ∀ n m : ℕ, n ≤ m → m < 2 ^ k →
    priceChain m k ≤ priceChain n k := by
  intro k
  induction k with
  | zero =>
    intro _ n m _ _
    exact le_refl _
  | succ k ih =>
    intro hk n m hnm hm
    rw [pow_succ] at hm
    by_cases hmk : m < 2 ^ k
    · rw [priceChain_low hmk, priceChain_low (by omega)]
      exact ih (by omega) n m hnm hmk
    · obtain ⟨a, rfl⟩ : ∃ a, m = 2 ^ k + a := ⟨m - 2 ^ k, by omega⟩
      rw [priceChain_high (by omega)]
      by_cases hnk : n < 2 ^ k
      · -- The bit alone already weighs more than all the lower ones.
        rw [priceChain_low hnk]
        calc priceChain a k * factorAt k / 2 ^ 64 ≤ factorAt k := by
              apply Nat.div_le_of_le_mul
              exact Nat.mul_le_mul_right _ (priceChain_le a k)
          _ ≤ priceChain (2 ^ k - 1) k := factorAt_le_ones k (by omega)
          _ ≤ priceChain n k := ih (by omega) n _ (by omega) (by omega)
      · obtain ⟨b, rfl⟩ : ∃ b, n = 2 ^ k + b := ⟨n - 2 ^ k, by omega⟩
        rw [priceChain_high (by omega)]
        apply Nat.div_le_div_right
        exact Nat.mul_le_mul_right _ (ih (by omega) b a (by omega) (by omega))

theorem priceChain_pos {n : ℕ} (hn : n < 2 ^ 19) : 0 < priceChain n 19 := by
  have hlast : 0 < priceChain (2 ^ 19 - 1) 19 := by decide +kernel
  exact lt_of_lt_of_le hlast (priceChain_anti 19 le_rfl n _ (by omega) (by norm_num))

/-- One factor of the source's chain. -/
theorem applyMagic_eq (n k : ℕ) :
    applyMagic n (priceChain n k) (2 ^ k, factorAt k) = some (priceChain n (k + 1)) := by
  have hfits : priceChain n k * factorAt k ≤ u128Max := by
    calc priceChain n k * factorAt k ≤ 2 ^ 64 * (2 ^ 64 - 1) := by
          apply Nat.mul_le_mul (priceChain_le n k)
          have := factorAt_lt k
          omega
      _ ≤ u128Max := by norm_num [u128Max]
  unfold applyMagic
  rw [Nat.and_two_pow, priceChain]
  cases hbit : n.testBit k with
  | true => simp [checkedRaw, hfits, Nat.shiftRight_eq_div_pow]
  | false => simp

theorem foldlM_applyMagic (n : ℕ) : ∀ len k : ℕ,
    (List.range' k len).foldlM (fun r i => applyMagic n r (2 ^ i, factorAt i)) (priceChain n k) =
      some (priceChain n (k + len)) := by
  intro len
  induction len with
  | zero =>
    intro k
    rfl
  | succ len ih =>
    intro k
    have hnext := ih (k + 1)
    rw [List.range'_succ, List.foldlM_cons, applyMagic_eq]
    rw [show k + (len + 1) = k + 1 + len by omega]
    exact hnext

/-- The source's chain is the chain over all nineteen bits. -/
theorem magicChain_eq (n : ℕ) :
    magic.tail.foldlM (applyMagic n) (if n &&& 0x1 ≠ 0 then 0xfffcb933bd6fb800 else 1 <<< 64) =
      some (priceChain n 19) := by
  have hfirst : (if n &&& 0x1 ≠ 0 then 0xfffcb933bd6fb800 else 1 <<< 64) = priceChain n 1 := by
    have hbit := Nat.and_two_pow n 0
    have hzero : priceChain n 0 = 2 ^ 64 := rfl
    rw [pow_zero] at hbit
    rw [hbit, priceChain, hzero]
    cases n.testBit 0 with
    | true => decide
    | false => decide
  have htail : magic.tail = (List.range' 1 18).map fun i => (2 ^ i, factorAt i) := by decide
  rw [hfirst, htail, List.foldlM_map]
  exact foldlM_applyMagic n 18 1

theorem getSqrtPriceAtTick_eq_some {tick : ℤ} {price : ℕ} :
    getSqrtPriceAtTick tick = some price ↔ (minTick ≤ tick ∧ tick ≤ maxTick) ∧
      price = if 0 < tick then u128Max / priceChain tick.natAbs 19
        else priceChain tick.natAbs 19 := by
  unfold getSqrtPriceAtTick
  by_cases hout : tick < minTick ∨ maxTick < tick
  · rw [if_pos hout]
    simp only [reduceCtorEq, false_iff]
    omega
  · have hin : minTick ≤ tick ∧ tick ≤ maxTick := by omega
    have hpos : priceChain tick.natAbs 19 ≠ 0 := by
      have := priceChain_pos (n := tick.natAbs) (by unfold minTick maxTick at hin; omega)
      omega
    rw [if_neg hout]
    simp only [magicChain_eq, Option.bind_eq_bind, Option.bind_some, hpos, ↓reduceIte, hin,
      and_self, true_and]
    split_ifs
    · simp [eq_comm]
    · simp [eq_comm]

/-- A price is positive and fits a word. -/
theorem getSqrtPriceAtTick_bounds {tick : ℤ} {price : ℕ}
    (h : getSqrtPriceAtTick tick = some price) : 0 < price ∧ price ≤ u128Max := by
  obtain ⟨⟨hlow, hhigh⟩, hprice⟩ := getSqrtPriceAtTick_eq_some.mp h
  have hpos := priceChain_pos (n := tick.natAbs)
    (by unfold minTick at hlow; unfold maxTick at hhigh; omega)
  have hle := priceChain_le tick.natAbs 19
  rw [hprice]
  split_ifs
  · constructor
    · apply Nat.div_pos _ hpos
      unfold u128Max
      omega
    · exact Nat.div_le_self _ _
  · unfold u128Max
    omega

/-- A higher tick has no lower price. -/
theorem getSqrtPriceAtTick_mono {a b : ℤ} {p q : ℕ} (ha : getSqrtPriceAtTick a = some p)
    (hb : getSqrtPriceAtTick b = some q) (hab : a ≤ b) : p ≤ q := by
  obtain ⟨⟨halow, hahigh⟩, rfl⟩ := getSqrtPriceAtTick_eq_some.mp ha
  obtain ⟨⟨hblow, hbhigh⟩, rfl⟩ := getSqrtPriceAtTick_eq_some.mp hb
  unfold minTick at halow hblow
  unfold maxTick at hahigh hbhigh
  have hpa := priceChain_pos (n := a.natAbs) (by omega)
  have hpb := priceChain_pos (n := b.natAbs) (by omega)
  by_cases hpositive : 0 < a
  · rw [if_pos hpositive, if_pos (by omega)]
    apply Nat.div_le_div_left _ hpb
    exact priceChain_anti 19 le_rfl _ _ (by omega) (by omega)
  · rw [if_neg hpositive]
    by_cases hcross : 0 < b
    · -- Below the first factor the reciprocal is above one.
      rw [if_pos hcross]
      have hfirst : priceChain b.natAbs 19 ≤ priceChain 1 19 :=
        priceChain_anti 19 le_rfl _ _ (by omega) (by omega)
      have hone : 2 ^ 64 ≤ u128Max / priceChain 1 19 := by decide +kernel
      calc priceChain a.natAbs 19 ≤ 2 ^ 64 := priceChain_le _ _
        _ ≤ u128Max / priceChain 1 19 := hone
        _ ≤ u128Max / priceChain b.natAbs 19 := Nat.div_le_div_left hfirst hpb
    · rw [if_neg hcross]
      exact priceChain_anti 19 le_rfl _ _ (by omega) (by omega)

end ScreenerBot.Direct.Venues
