import ScreenerBot.Direct.Venues.MeteoraDlmm
import ScreenerBot.Direct.Venues.TickWalk

/-!
What a DLMM walk conserves, and the rate it charges.

A fill is put into closed form: a fee off the input, the cost of draining the bin rounded up, a
payment rounded down, and a fee off the output. One of the two fees is always nothing.
-/
namespace ScreenerBot.Direct.Venues.Dlmm
open ScreenerBot.Chain ScreenerBot.Library ScreenerBot.Swaps

theorem maxFeeRate_lt : maxFeeRate < feePrecision := by decide

theorem totalFeeRate_le (m : DlmmMarket) (v : ℕ) : m.totalFeeRate v ≤ maxFeeRate :=
  min_le_right _ _

/-- A fee at a rate the walk charges. -/
def binFee (rate : ℕ) (h : rate ≤ maxFeeRate) : Fee :=
  stepFee rate feePrecision (lt_of_le_of_lt h maxFeeRate_lt)

/-- The input that drains a bin. -/
def costOf (cap price : ℕ) (swapForY : Bool) : ℕ :=
  if swapForY then cap * q64 ⌈/⌉ price else cap * price ⌈/⌉ q64

/-- What an input pays for. -/
def paysFor (amount price : ℕ) (swapForY : Bool) : ℕ :=
  if swapForY then price * amount / q64 else amount * q64 / price

theorem costOf_true (cap price : ℕ) : costOf cap price true = cap * q64 ⌈/⌉ price := if_pos rfl

theorem costOf_false (cap price : ℕ) : costOf cap price false = cap * price ⌈/⌉ q64 :=
  if_neg Bool.false_ne_true

theorem paysFor_true (amount price : ℕ) : paysFor amount price true = price * amount / q64 :=
  if_pos rfl

theorem paysFor_false (amount price : ℕ) : paysFor amount price false = amount * q64 / price :=
  if_neg Bool.false_ne_true

section Price

theorem powBits_le {exp : ℕ} (positions : List ℕ) {remaining squaredBase result power : ℕ}
    (hresult : result ≤ u128Max)
    (h : powBits exp positions remaining squaredBase result = some power) :
    power ≤ u128Max := by
  induction positions generalizing remaining squaredBase result with
  | nil =>
    obtain rfl := Option.some.inj h
    exact hresult
  | cons position rest ih =>
    simp only [powBits] at h
    split_ifs at h with hdone hbit
    · obtain rfl := Option.some.inj h
      exact hresult
    · simp only [Option.bind_eq_bind, Option.bind_eq_some_iff, Option.map_eq_some_iff] at h
      obtain ⟨next, ⟨product, hproduct, rfl⟩, _, _, hrest⟩ := h
      obtain ⟨rfl, hle⟩ := checkedRaw_eq_some.mp hproduct
      apply ih _ hrest
      exact (Nat.shiftRight_le _ _).trans hle
    · simp only [Option.bind_eq_bind, Option.bind_eq_some_iff, Option.some.injEq] at h
      obtain ⟨next, rfl, _, _, hrest⟩ := h
      exact ih hresult hrest

theorem powQ64_bounds {base price : ℕ} {exp : ℤ} (h : powQ64 base exp = some price) :
    0 < price ∧ price ≤ u128Max := by
  have hone : 1 <<< 64 ≤ u128Max := by decide
  unfold powQ64 at h
  by_cases hzero : exp = 0
  · rw [if_pos hzero] at h
    obtain rfl := Option.some.inj h
    exact ⟨by decide, hone⟩
  · by_cases hlarge : 0x80000 ≤ exp.natAbs
    · simp [hzero, hlarge] at h
    · rw [if_neg hzero, if_neg hlarge] at h
      simp only [Option.bind_eq_bind, Option.bind_eq_some_iff] at h
      obtain ⟨result, hresult, h⟩ := h
      have hle := powBits_le _ hone hresult
      by_cases hnone : result = 0
      · simp [hnone] at h
      · rw [if_neg hnone] at h
        split_ifs at h with hinverts
        · obtain rfl := Option.some.inj h
          exact ⟨Nat.div_pos hle (Nat.pos_of_ne_zero hnone), Nat.div_le_self _ _⟩
        · obtain rfl := Option.some.inj h
          exact ⟨Nat.pos_of_ne_zero hnone, hle⟩

theorem getPriceFromId_bounds {id : ℤ} {binStep : UInt16} {price : ℕ}
    (h : getPriceFromId id binStep = some price) : 0 < price ∧ price ≤ u128Max := by
  simp only [getPriceFromId, Option.bind_eq_bind, Option.bind_eq_some_iff] at h
  obtain ⟨base, _, hpower⟩ := h
  exact powQ64_bounds hpower

end Price

section Formulas
variable {amount price rate fee value cap : ℕ} {swapForY feeOnInput : Bool}

theorem u64_le_u128 {a : ℕ} (h : a ≤ u64Max) : a ≤ u128Max := h.trans (by decide)

theorem toU64_eq_some {raw value : ℕ} : toU64 raw = some value ↔ value = raw ∧ raw ≤ u64Max := by
  unfold toU64
  split_ifs with h
  · simp only [Option.some.injEq, h, and_true]
    exact eq_comm
  · simp [h]

theorem mulDiv_up : mulDiv .up = mulDivCeil := rfl

theorem mulDiv_down : mulDiv .down = mulDivFloor := rfl

theorem getAmountIn_up (hcap : cap ≤ u64Max) (hprice : price ≤ u128Max)
    (h : getAmountIn cap price swapForY .up = some value) : value = costOf cap price swapForY := by
  unfold getAmountIn at h
  rw [shift_one, mulDiv_up] at h
  obtain ⟨raw, hraw, hvalue⟩ := Option.bind_eq_some_iff.mp h
  obtain ⟨rfl, _⟩ := toU64_eq_some.mp hvalue
  cases swapForY with
  | true =>
    rw [if_pos rfl] at hraw
    rw [costOf_true]
    exact ((mulDivCeil_eq_some (u64_le_u128 hcap) q64_le hprice).mp hraw).2.1
  | false =>
    rw [if_neg Bool.false_ne_true] at hraw
    rw [costOf_false]
    exact ((mulDivCeil_eq_some (u64_le_u128 hcap) hprice q64_le).mp hraw).2.1

theorem getAmountOut_down (hamount : amount ≤ u64Max) (hprice : price ≤ u128Max)
    (h : getAmountOut amount price swapForY .down = some value) :
    value = paysFor amount price swapForY := by
  unfold getAmountOut at h
  rw [shift_one, mulDiv_down] at h
  obtain ⟨raw, hraw, hvalue⟩ := Option.bind_eq_some_iff.mp h
  obtain ⟨rfl, _⟩ := toU64_eq_some.mp hvalue
  cases swapForY with
  | true =>
    rw [if_pos rfl] at hraw
    rw [paysFor_true]
    exact ((mulDivFloor_eq_some hprice (u64_le_u128 hamount) q64_le).mp hraw).2.1
  | false =>
    rw [if_neg Bool.false_ne_true] at hraw
    rw [paysFor_false]
    exact ((mulDivFloor_eq_some (u64_le_u128 hamount) q64_le hprice).mp hraw).2.1

/-- A fee that fits is the ceiling of its share. -/
theorem feeFromAmount_some (hrate : rate ≤ maxFeeRate) (hamount : amount ≤ u64Max)
    (h : feeFromAmount rate amount = some fee) : fee = amount * rate ⌈/⌉ feePrecision := by
  have hprecision : feePrecision ≤ u128Max := by decide
  have hmax : maxFeeRate ≤ u128Max := by decide
  obtain ⟨raw, hraw, hfee⟩ := Option.bind_eq_some_iff.mp h
  obtain ⟨rfl, _⟩ := toU64_eq_some.mp hfee
  exact ((mulDivCeil_eq_some (u64_le_u128 hamount) (hrate.trans hmax) hprecision).mp hraw).2.1

theorem ceilDiv_precision_le (hrate : rate ≤ maxFeeRate) (amount : ℕ) :
    amount * rate ⌈/⌉ feePrecision ≤ amount := by
  have hlt := lt_of_le_of_lt hrate maxFeeRate_lt
  rw [ceilDiv_le_iff_le_mul (by omega), Nat.mul_comm]
  exact Nat.mul_le_mul_right _ hlt.le

/-- What a fee off an amount leaves of it. -/
theorem feeFromAmount_eq (hrate : rate ≤ maxFeeRate) (hamount : amount ≤ u64Max)
    (h : feeFromAmount rate amount = some fee) : amount - fee = (binFee rate hrate).net amount := by
  have hlt := lt_of_le_of_lt hrate maxFeeRate_lt
  have hceil := ceilDiv_precision_le hrate amount
  rw [feeFromAmount_some hrate hamount h]
  show amount - amount * rate ⌈/⌉ feePrecision = amount * (feePrecision - rate) / feePrecision
  generalize feePrecision = precision at *
  have hpos : 0 < precision := by omega
  apply eq_of_forall_le_iff
  intro c
  rw [Nat.le_div_iff_mul_le hpos]
  constructor
  · intro hc
    have hle : amount * rate ⌈/⌉ precision ≤ amount - c := by omega
    rw [ceilDiv_le_iff_le_mul hpos, Nat.mul_sub] at hle
    rw [Nat.mul_sub]
    have hca : precision * c ≤ precision * amount := Nat.mul_le_mul_left _ (by omega)
    rw [Nat.mul_comm c, Nat.mul_comm amount precision]
    omega
  · intro hc
    have hca : c ≤ amount := by
      have : c * precision ≤ amount * precision :=
        hc.trans (Nat.mul_le_mul_left _ (Nat.sub_le _ _))
      exact Nat.le_of_mul_le_mul_right this hpos
    have hle : amount * rate ⌈/⌉ precision ≤ amount - c := by
      rw [ceilDiv_le_iff_le_mul hpos, Nat.mul_sub]
      rw [Nat.mul_sub, Nat.mul_comm c, Nat.mul_comm amount precision] at hc
      have : amount * rate ≤ precision * amount := by
        rw [Nat.mul_comm]
        exact Nat.mul_le_mul_right _ hlt.le
      omega
    omega

theorem feeFromAmount_le (hrate : rate ≤ maxFeeRate) (hamount : amount ≤ u64Max)
    (h : feeFromAmount rate amount = some fee) : fee ≤ amount := by
  rw [feeFromAmount_some hrate hamount h]
  exact ceilDiv_precision_le hrate amount

/-- An amount with the fee that leaves it. -/
theorem feeFromExcludedAmount_eq (hrate : rate ≤ maxFeeRate) (hamount : amount ≤ u64Max)
    (h : feeFromExcludedAmount rate amount = some fee) :
    amount + fee = (binFee rate hrate).gross amount := by
  have hprecision : feePrecision ≤ u128Max := by decide
  have hmax : maxFeeRate ≤ u128Max := by decide
  have hlt := lt_of_le_of_lt hrate maxFeeRate_lt
  unfold feeFromExcludedAmount at h
  rw [if_neg (by omega)] at h
  obtain ⟨raw, hraw, hfee⟩ := Option.bind_eq_some_iff.mp h
  obtain ⟨rfl, _⟩ := toU64_eq_some.mp hfee
  obtain ⟨_, rfl, _⟩ := (mulDivCeil_eq_some (u64_le_u128 hamount) (hrate.trans hmax)
    ((Nat.sub_le _ _).trans hprecision)).mp hraw
  show amount + amount * rate ⌈/⌉ (feePrecision - rate) =
    amount * feePrecision ⌈/⌉ (feePrecision - rate)
  generalize feePrecision = precision at *
  have hpos : 0 < precision - rate := by omega
  have hsplit : amount * precision = amount * (precision - rate) + amount * rate := by
    rw [← Nat.mul_add, Nat.sub_add_cancel hlt.le]
  apply eq_of_forall_ge_iff
  intro c
  rw [ceilDiv_le_iff_le_mul hpos, hsplit]
  constructor
  · intro hc
    have hle : amount * rate ⌈/⌉ (precision - rate) ≤ c - amount := by omega
    rw [ceilDiv_le_iff_le_mul hpos, Nat.mul_sub] at hle
    have hac : (precision - rate) * amount ≤ (precision - rate) * c :=
      Nat.mul_le_mul_left _ (by omega)
    rw [Nat.mul_comm amount (precision - rate)]
    omega
  · intro hc
    have hac : amount ≤ c := by
      have : (precision - rate) * amount ≤ (precision - rate) * c := by
        rw [Nat.mul_comm amount (precision - rate)] at hc
        omega
      exact Nat.le_of_mul_le_mul_left this hpos
    have hle : amount * rate ⌈/⌉ (precision - rate) ≤ c - amount := by
      rw [ceilDiv_le_iff_le_mul hpos, Nat.mul_sub]
      rw [Nat.mul_comm amount (precision - rate)] at hc
      omega
    omega

end Formulas

/-- The fee of the side that is charged, and none of the other. -/
def sideFee (charged : Bool) (rate : ℕ) (h : rate ≤ maxFeeRate) : Fee :=
  if charged then binFee rate h else binFee 0 (Nat.zero_le _)

section Fees
variable {rate : ℕ} (h : rate ≤ maxFeeRate)

@[simp] theorem sideFee_true : sideFee true rate h = binFee rate h := rfl

@[simp] theorem sideFee_false_net (a : ℕ) : (sideFee false rate h).net a = a := by
  show a * (feePrecision - 0) / feePrecision = a
  exact Nat.mul_div_cancel a (by decide)

@[simp] theorem sideFee_false_gross (a : ℕ) : (sideFee false rate h).gross a = a := by
  show a * feePrecision ⌈/⌉ (feePrecision - 0) = a
  rw [ceilDiv_eq_floor _ (by decide), Nat.sub_zero, Nat.mul_div_cancel a (by decide), if_pos rfl]

theorem sideFee_net_le (charged : Bool) (a : ℕ) : (sideFee charged rate h).net a ≤ a := by
  cases charged with
  | false => simp
  | true =>
    show a * (feePrecision - rate) / feePrecision ≤ a
    apply Nat.div_le_of_le_mul
    rw [Nat.mul_comm]
    exact Nat.mul_le_mul_right _ (Nat.sub_le _ _)

theorem sideFee_gross_pos (charged : Bool) {a : ℕ} (ha : 0 < a) :
    0 < (sideFee charged rate h).gross a := by
  by_contra hzero
  have hle : a ≤ (sideFee charged rate h).net 0 :=
    ((sideFee charged rate h).least a 0).mp (by omega)
  rw [Fee.net_zero] at hle
  omega

end Fees

section Bin
variable {cap price : ℕ} {swapForY : Bool}

theorem costOf_pos (hcap : 0 < cap) (hprice : 0 < price) : 0 < costOf cap price swapForY := by
  have hq := q64_pos
  unfold costOf
  split_ifs
  · rw [lt_ceilDiv hprice]
    positivity
  · rw [lt_ceilDiv hq]
    positivity

/-- An input that does not drain a bin pays for no more than it holds. -/
theorem paysFor_le {amount : ℕ} (hprice : 0 < price) (h : amount < costOf cap price swapForY) :
    paysFor amount price swapForY ≤ cap := by
  unfold costOf at h
  unfold paysFor
  split_ifs at h ⊢
  · rw [lt_ceilDiv hprice] at h
    apply Nat.div_le_of_le_mul
    rw [Nat.mul_comm q64]
    exact h.le
  · rw [lt_ceilDiv q64_pos] at h
    apply Nat.div_le_of_le_mul
    rw [Nat.mul_comm amount, Nat.mul_comm price]
    exact h.le

theorem paysFor_mono {a b : ℕ} (h : a ≤ b) :
    paysFor a price swapForY ≤ paysFor b price swapForY := by
  unfold paysFor
  split_ifs <;> gcongr

/-- What a bin pays for what enters it. -/
def binOut (cap price : ℕ) (swapForY : Bool) (enters : ℕ) : ℕ :=
  if costOf cap price swapForY ≤ enters then cap else paysFor enters price swapForY

theorem binOut_le (hprice : 0 < price) (enters : ℕ) : binOut cap price swapForY enters ≤ cap := by
  unfold binOut
  split_ifs with h
  · exact le_rfl
  · exact paysFor_le hprice (by omega)

theorem binOut_mono {a b : ℕ} (hprice : 0 < price) (h : a ≤ b) :
    binOut cap price swapForY a ≤ binOut cap price swapForY b := by
  by_cases hb : costOf cap price swapForY ≤ b
  · have hcap : binOut cap price swapForY b = cap := if_pos hb
    rw [hcap]
    exact binOut_le hprice a
  · unfold binOut
    rw [if_neg hb, if_neg (by omega)]
    exact paysFor_mono h

theorem tradeBin_ok {excluded inMm left out : ℕ} (hcap : 0 < cap) (hfits : cap ≤ u64Max)
    (hprice : price ≤ u128Max) (hexcluded : excluded ≤ u64Max)
    (h : tradeBin cap price excluded swapForY = .ok (inMm, left, out)) :
    inMm = min (costOf cap price swapForY) excluded ∧ left = excluded - costOf cap price swapForY ∧
      out = binOut cap price swapForY excluded := by
  unfold tradeBin at h
  rw [if_neg hcap.ne'] at h
  obtain ⟨maxIn, hmax, h⟩ := bind_eq_ok.mp h
  rw [okOr_eq_ok] at hmax
  obtain rfl := getAmountIn_up hfits hprice hmax
  unfold binOut
  split_ifs at h ⊢ with hdrains
  · simp only [Except.ok.injEq, Prod.mk.injEq] at h
    obtain ⟨rfl, rfl, rfl⟩ := h
    exact ⟨(min_eq_left hdrains).symm, rfl, rfl⟩
  · obtain ⟨paid, hpaid, h⟩ := bind_eq_ok.mp h
    rw [okOr_eq_ok] at hpaid
    obtain rfl := getAmountOut_down hexcluded hprice hpaid
    simp only [Except.ok.injEq, Prod.mk.injEq] at h
    obtain ⟨rfl, rfl, rfl⟩ := h
    refine ⟨(min_eq_right (by omega)).symm, by omega, rfl⟩

/-- The closed form of a fill. -/
theorem quoteBin_ok {amount consumed out fee rate : ℕ} {feeOnInput : Bool} (hcap : 0 < cap)
    (hfits : cap ≤ u64Max) (hpos : 0 < price) (hprice : price ≤ u128Max) (hrate : rate ≤ maxFeeRate)
    (hamount : amount ≤ u64Max)
    (h : quoteBin cap price amount swapForY feeOnInput rate = .ok (consumed, out, fee)) :
    consumed = (if costOf cap price swapForY < (sideFee feeOnInput rate hrate).net amount
      then (sideFee feeOnInput rate hrate).gross (costOf cap price swapForY) else amount) ∧
    out = (sideFee (!feeOnInput) rate hrate).net
      (binOut cap price swapForY ((sideFee feeOnInput rate hrate).net amount)) ∧
    (if feeOnInput then out else out + fee) =
      binOut cap price swapForY ((sideFee feeOnInput rate hrate).net amount) := by
  obtain ⟨⟨charged, excluded⟩, hcharge, h⟩ := bind_eq_ok.mp h
  obtain ⟨⟨inMm, left, outAmount⟩, htrade, h⟩ := bind_eq_ok.mp h
  obtain ⟨⟨included, inFee⟩, hinclude, h⟩ := bind_eq_ok.mp h
  obtain ⟨⟨excludedOut, outFee⟩, houtput, h⟩ := bind_eq_ok.mp h
  simp only [Except.ok.injEq, Prod.mk.injEq] at h
  obtain ⟨rfl, rfl, rfl⟩ := h
  have hexcluded : excluded = (sideFee feeOnInput rate hrate).net amount := by
    cases feeOnInput with
    | true =>
      obtain ⟨taken, htaken, hcharge⟩ := bind_eq_ok.mp hcharge
      rw [okOr_eq_ok] at htaken
      simp only [Except.ok.injEq, Prod.mk.injEq] at hcharge
      rw [← hcharge.2, feeFromAmount_eq hrate hamount htaken, sideFee_true]
    | false =>
      simp only [chargeInput, Bool.false_eq_true, ↓reduceIte, Except.ok.injEq,
        Prod.mk.injEq] at hcharge
      rw [← hcharge.2, sideFee_false_net]
  have hword : excluded ≤ u64Max := hexcluded ▸ (sideFee_net_le hrate _ _).trans hamount
  obtain ⟨rfl, rfl, rfl⟩ := tradeBin_ok hcap hfits hprice hword htrade
  have hout : binOut cap price swapForY excluded ≤ u64Max := (binOut_le hpos _).trans hfits
  rw [← hexcluded]
  constructor
  · unfold includeFee at hinclude
    by_cases hdrains : costOf cap price swapForY < excluded
    · rw [if_pos (by omega), min_eq_left hdrains.le] at hinclude
      rw [if_pos hdrains]
      cases feeOnInput with
      | true =>
        obtain ⟨again, hagain, hinclude⟩ := bind_eq_ok.mp hinclude
        rw [okOr_eq_ok] at hagain
        simp only [Except.ok.injEq, Prod.mk.injEq] at hinclude
        have hgross := feeFromExcludedAmount_eq hrate (hdrains.le.trans hword) hagain
        have hpaid : (binFee rate hrate).gross (costOf cap price swapForY) ≤ amount := by
          apply ((binFee rate hrate).least _ _).mpr
          rw [sideFee_true] at hexcluded
          omega
        rw [sideFee_true, ← hinclude.1, saturatingAddU64, hgross, min_eq_left (by omega)]
      | false =>
        simp only [Bool.false_eq_true, ↓reduceIte, Except.ok.injEq, Prod.mk.injEq] at hinclude
        rw [sideFee_false_gross, ← hinclude.1]
    · rw [if_neg (by omega)] at hinclude
      rw [if_neg hdrains]
      simp only [Except.ok.injEq, Prod.mk.injEq] at hinclude
      exact hinclude.1.symm
  · cases feeOnInput with
    | true =>
      simp only [chargeOutput, ↓reduceIte, Except.ok.injEq, Prod.mk.injEq] at houtput
      rw [← houtput.1, Bool.not_true, sideFee_false_net]
      exact ⟨rfl, if_pos rfl⟩
    | false =>
      obtain ⟨taken, htaken, houtput⟩ := bind_eq_ok.mp houtput
      rw [okOr_eq_ok] at htaken
      simp only [Except.ok.injEq, Prod.mk.injEq] at houtput
      obtain ⟨rfl, rfl⟩ := houtput
      constructor
      · rw [feeFromAmount_eq hrate hout htaken, Bool.not_false, sideFee_true]
      · exact Nat.sub_add_cancel (feeFromAmount_le hrate hout htaken)

/-- A fill takes something, and no more than it is given. -/
theorem quoteBin_consumed {amount consumed out fee rate : ℕ} {feeOnInput : Bool} (hcap : 0 < cap)
    (hfits : cap ≤ u64Max) (hpos : 0 < price) (hprice : price ≤ u128Max) (hrate : rate ≤ maxFeeRate)
    (hamount : amount ≤ u64Max) (hsome : 0 < amount)
    (h : quoteBin cap price amount swapForY feeOnInput rate = .ok (consumed, out, fee)) :
    0 < consumed ∧ consumed ≤ amount := by
  obtain ⟨hconsumed, _⟩ := quoteBin_ok hcap hfits hpos hprice hrate hamount h
  rw [hconsumed]
  split_ifs with hdrains
  · constructor
    · exact sideFee_gross_pos hrate feeOnInput (costOf_pos hcap hpos)
    · exact ((sideFee feeOnInput rate hrate).least _ _).mpr hdrains.le
  · exact ⟨hsome, le_rfl⟩

/-- What a bin pays out, its fee included, is no more than it holds. -/
theorem quoteBin_out_le {amount consumed out fee rate : ℕ} {feeOnInput : Bool} (hcap : 0 < cap)
    (hfits : cap ≤ u64Max) (hpos : 0 < price) (hprice : price ≤ u128Max) (hrate : rate ≤ maxFeeRate)
    (hamount : amount ≤ u64Max)
    (h : quoteBin cap price amount swapForY feeOnInput rate = .ok (consumed, out, fee)) :
    (if feeOnInput then out else out + fee) ≤ cap := by
  obtain ⟨_, _, hgross⟩ := quoteBin_ok hcap hfits hpos hprice hrate hamount h
  rw [hgross]
  exact binOut_le hpos _

/-- A larger input gets no less, and leaves no less behind. -/
theorem quoteBin_mono {a b ca cb oa ob fa fb rate : ℕ} {feeOnInput : Bool} (hcap : 0 < cap)
    (hfits : cap ≤ u64Max) (hpos : 0 < price) (hprice : price ≤ u128Max) (hrate : rate ≤ maxFeeRate)
    (hb : b ≤ u64Max) (hab : a ≤ b)
    (ha' : quoteBin cap price a swapForY feeOnInput rate = .ok (ca, oa, fa))
    (hb' : quoteBin cap price b swapForY feeOnInput rate = .ok (cb, ob, fb)) :
    oa ≤ ob ∧ a - ca ≤ b - cb := by
  obtain ⟨hca, hoa, _⟩ := quoteBin_ok hcap hfits hpos hprice hrate (hab.trans hb) ha'
  obtain ⟨hcb, hob, _⟩ := quoteBin_ok hcap hfits hpos hprice hrate hb hb'
  have henters := (sideFee feeOnInput rate hrate).net_mono hab
  constructor
  · rw [hoa, hob]
    exact (sideFee (!feeOnInput) rate hrate).net_mono (binOut_mono hpos henters)
  · rw [hca, hcb]
    split_ifs <;> omega

end Bin
end ScreenerBot.Direct.Venues.Dlmm
