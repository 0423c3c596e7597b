import ScreenerBot.Direct.Venues.ConstantProduct

/-!
Fills of the constant-product venues, one after another: the product of the reserves, and what a
larger or a split input yields.

A fill adds to the input reserve what reaches the curve and whatever more of the input the pool
keeps there, and takes from the output reserve what the pool pays.
-/
namespace ScreenerBot.Direct.Venues.ConstantProduct
open ScreenerBot.Chain ScreenerBot.Library ScreenerBot.Swaps

/-- What the three venues have in common. -/
structure ProductVenue (M : Type) where
  side : M → String → Option Bool
  reserves : M → Bool → ℕ
  quote : M → String → UInt64 → Except DirectSwapError VenueQuote
  /-- What of an input moves the curve. -/
  reaches : M → Bool → ℕ → ℕ
  /-- What the output reserve pays for an input. -/
  pays : M → Bool → ℕ → ℕ
  /-- What of the payment arrives. -/
  arrives : M → Bool → ℕ → ℕ
  SameTerms : M → M → Prop

namespace ProductVenue
variable {M : Type} (v : ProductVenue M)

/-- The output of a quote, nothing when it is refused. -/
def yields (m : M) (inputMint : String) (amountIn : UInt64) : ℕ :=
  match v.quote m inputMint amountIn with
  | .ok q => q.expectedOut
  | .error _ => 0

/-- `m'` is `m` after a quoted fill, applied to its reserves. -/
def Filled (m : M) (inputMint : String) (amountIn : UInt64) (m' : M) : Prop :=
  ∃ side q kept, v.side m inputMint = some side ∧ v.quote m inputMint amountIn = .ok q ∧
    v.SameTerms m m' ∧ v.reaches m side amountIn.toNat ≤ kept ∧ kept ≤ amountIn.toNat ∧
    v.reserves m' side = v.reserves m side + kept ∧
    v.reserves m' (!side) = v.reserves m (!side) - v.pays m side amountIn.toNat

def FilledSome (m m' : M) : Prop := ∃ inputMint amountIn, v.Filled m inputMint amountIn m'

/-- No sequence of fills lowers the product of the reserves. -/
def KeepsProduct : Prop :=
  ∀ m m', Relation.ReflTransGen v.FilledSome m m' →
    reserveProduct (v.reserves m) ≤ reserveProduct (v.reserves m')

/-- A quote is always below the reserve it is paid from. -/
def BelowReserve : Prop :=
  ∀ m inputMint amountIn side q, v.side m inputMint = some side →
    v.quote m inputMint amountIn = .ok q → q.expectedOut < v.reserves m (!side)

/-- A larger input never yields less. -/
def RisesWithInput (m : M) : Prop :=
  ∀ inputMint (small large : UInt64), small.toNat ≤ large.toNat →
    v.yields m inputMint small ≤ v.yields m inputMint large

/-- Two fills never yield more than one fill of both inputs. -/
def NoGainBySplitting (m : M) : Prop :=
  ∀ inputMint (first second whole : UInt64) m', v.Filled m inputMint first m' →
    whole.toNat = first.toNat + second.toNat →
    v.yields m inputMint first + v.yields m' inputMint second ≤ v.yields m inputMint whole

/-- What `slack` more raw units than reach the curve would yield. -/
def yieldsMore (m : M) (side : Bool) (slack amountIn : ℕ) : ℕ :=
  v.arrives m side (curveOut (v.reserves m side) (v.reserves m !side)
    (v.reaches m side amountIn + slack))

/-- A larger input yields less by no more than one raw unit of input is worth, and no more is
gained by splitting. -/
def WithinOneUnit (m : M) : Prop :=
  ∀ inputMint side, v.side m inputMint = some side →
    (∀ small large : UInt64, small.toNat ≤ large.toNat →
      v.yields m inputMint small ≤ v.yieldsMore m side 1 large.toNat) ∧
    ∀ (first second whole : UInt64) m', v.Filled m inputMint first m' →
      whole.toNat = first.toNat + second.toNat →
      v.yields m inputMint first + v.yields m' inputMint second ≤
        v.yieldsMore m side 1 whole.toNat

/-- The venue's quotes are points of the curve, its fees taken off before and after. -/
structure Curved : Prop where
  refused : ∀ m mint amount, v.side m mint = none → v.yields m mint amount = 0
  empty : ∀ m mint side amount, v.side m mint = some side →
    v.reserves m side = 0 ∨ v.reserves m (!side) = 0 → ∃ e, v.quote m mint amount = .error e
  yields_eq : ∀ m mint side amount, v.side m mint = some side → 0 < v.reserves m side →
    0 < v.reserves m (!side) → v.yields m mint amount =
      v.arrives m side (curveOut (v.reserves m side) (v.reserves m !side)
        (v.reaches m side amount.toNat))
  pays_eq : ∀ m side (amount : UInt64), 0 < v.reserves m side → 0 < v.reserves m (!side) →
    v.pays m side amount.toNat =
      curveOut (v.reserves m side) (v.reserves m !side) (v.reaches m side amount.toNat)
  arrives_le : ∀ m side amount, v.arrives m side amount ≤ amount
  arrives_sum : ∀ m side, Superadditive 0 (v.arrives m side)
  same : ∀ m m', v.SameTerms m m' →
    v.side m' = v.side m ∧ v.reaches m' = v.reaches m ∧ v.arrives m' = v.arrives m

variable {v} {m m' : M} {inputMint : String} {side : Bool} {amountIn : UInt64}

theorem Curved.positive (h : v.Curved) (hside : v.side m inputMint = some side) {q : VenueQuote}
    (hq : v.quote m inputMint amountIn = .ok q) :
    0 < v.reserves m side ∧ 0 < v.reserves m (!side) := by
  by_contra hempty
  obtain ⟨e, he⟩ := h.empty m inputMint side amountIn hside (by omega)
  rw [he] at hq
  cases hq

/-- A fill moves the reserves along the curve. -/
theorem Curved.fills (h : v.Curved) (hfill : v.Filled m inputMint amountIn m') :
    ∃ side, v.side m inputMint = some side ∧ 0 < v.reserves m side ∧ 0 < v.reserves m (!side) ∧
      v.SameTerms m m' ∧
      Fills (v.reserves m) side (v.reaches m side amountIn.toNat) (v.reserves m') := by
  obtain ⟨side, q, kept, hside, hq, hsame, hreach, -, hin, hout⟩ := hfill
  obtain ⟨hx, hy⟩ := h.positive hside hq
  have hleft := reserveLeft_le (y := v.reserves m !side) (s := v.reaches m side amountIn.toNat) hx
  refine ⟨side, hside, hx, hy, hsame, kept, hreach, hin, ?_⟩
  rw [hout, h.pays_eq m side _ hx hy]
  unfold curveOut
  omega

theorem Curved.keepsProduct (h : v.Curved) : v.KeepsProduct := by
  intro m m' hrun
  induction hrun with
  | refl => exact le_rfl
  | tail _ hfill ih =>
    obtain ⟨inputMint, amountIn, hfill⟩ := hfill
    obtain ⟨side, -, hx, -, -, hfills⟩ := h.fills hfill
    exact ih.trans (hfills.product hx)

theorem Curved.belowReserve (h : v.Curved) : v.BelowReserve := by
  intro m inputMint amountIn side q hside hq
  obtain ⟨hx, hy⟩ := h.positive hside hq
  have hyields := h.yields_eq m inputMint side amountIn hside hx hy
  simp only [yields, hq] at hyields
  rw [hyields]
  exact (h.arrives_le m side _).trans_lt (curveOut_lt hx hy)

/-- A refused quote yields nothing. -/
theorem Curved.yields_empty (h : v.Curved)
    (hempty : ∀ side, v.side m inputMint = some side →
      v.reserves m side = 0 ∨ v.reserves m (!side) = 0) : v.yields m inputMint amountIn = 0 := by
  cases hside : v.side m inputMint with
  | none => exact h.refused m inputMint amountIn hside
  | some side =>
    obtain ⟨e, he⟩ := h.empty m inputMint side amountIn hside (hempty side hside)
    simp [yields, he]

section Slack
variable {slack : ℕ} (h : v.Curved)

include h in

theorem Curved.rises (hside : v.side m inputMint = some side)
    (hreaches : Superadditive slack (v.reaches m side)) {small large : UInt64}
    (hle : small.toNat ≤ large.toNat) :
    v.yields m inputMint small ≤ v.yieldsMore m side slack large.toNat := by
  by_cases hpos : 0 < v.reserves m side ∧ 0 < v.reserves m (!side)
  · rw [h.yields_eq m inputMint side small hside hpos.1 hpos.2]
    exact (h.arrives_sum m side).mono (curveOut_mono hpos.1 (hreaches.within hle))
  · rw [h.yields_empty]
    · exact Nat.zero_le _
    · intro side' hside'
      obtain rfl : side = side' := Option.some.inj (hside.symm.trans hside')
      omega

include h in

theorem Curved.splits (hreaches : Superadditive slack (v.reaches m side))
    (hside : v.side m inputMint = some side) {first second : UInt64} {whole : ℕ}
    (hfill : v.Filled m inputMint first m') (hwhole : whole = first.toNat + second.toNat) :
    v.yields m inputMint first + v.yields m' inputMint second ≤
      v.yieldsMore m side slack whole := by
  obtain ⟨side', hside', hx, hy, hsame, kept, hkept, hin, hout⟩ := h.fills hfill
  obtain rfl : side = side' := Option.some.inj (hside.symm.trans hside')
  obtain ⟨hsides, hreach, harrives⟩ := h.same m m' hsame
  have hy' := reserveLeft_pos (s := v.reaches m side first.toNat) hx hy
  rw [h.yields_eq m inputMint side first hside hx hy,
    h.yields_eq m' inputMint side second (hsides ▸ hside) (by omega) (by omega), hin, hout, hreach,
    harrives]
  calc v.arrives m side (curveOut (v.reserves m side) (v.reserves m !side)
          (v.reaches m side first.toNat)) +
        v.arrives m side (curveOut (v.reserves m side + kept)
          (reserveLeft (v.reserves m side) (v.reserves m !side) (v.reaches m side first.toNat))
          (v.reaches m side second.toNat))
      ≤ v.arrives m side (curveOut (v.reserves m side) (v.reserves m !side)
          (v.reaches m side first.toNat + v.reaches m side second.toNat)) :=
        (h.arrives_sum m side _ _).trans ((h.arrives_sum m side).mono (curveOut_again hx hkept))
    _ ≤ v.yieldsMore m side slack whole := by
        have hsum := hreaches first.toNat second.toNat
        rw [← hwhole] at hsum
        exact (h.arrives_sum m side).mono (curveOut_mono hx hsum)

/-- Where nothing that reaches the curve is lost by splitting, more input yields more. -/
theorem Curved.risesWithInput (h : v.Curved) (m : M)
    (hreaches : ∀ side, Superadditive 0 (v.reaches m side)) : v.RisesWithInput m := by
  intro inputMint small large hle
  cases hside : v.side m inputMint with
  | none =>
    rw [h.refused m inputMint small hside]
    exact Nat.zero_le _
  | some side =>
    by_cases hpos : 0 < v.reserves m side ∧ 0 < v.reserves m (!side)
    · rw [h.yields_eq m inputMint side large hside hpos.1 hpos.2]
      exact h.rises hside (hreaches side) hle
    · rw [h.yields_empty]
      · exact Nat.zero_le _
      · intro side' hside'
        obtain rfl : side = side' := Option.some.inj (hside.symm.trans hside')
        omega

theorem Curved.noGainBySplitting (h : v.Curved) (m : M)
    (hreaches : ∀ side, Superadditive 0 (v.reaches m side)) : v.NoGainBySplitting m := by
  intro inputMint first second whole m' hfill hwhole
  obtain ⟨side, hside, hx, hy, -, -⟩ := h.fills hfill
  rw [h.yields_eq m inputMint side whole hside hx hy]
  exact h.splits (hreaches side) hside hfill hwhole

theorem Curved.withinOneUnit (h : v.Curved) (m : M)
    (hreaches : ∀ side, Superadditive 1 (v.reaches m side)) : v.WithinOneUnit m := by
  intro inputMint side hside
  constructor
  · intro small large hle
    exact h.rises hside (hreaches side) hle
  · intro first second whole m' hfill hwhole
    exact h.splits (hreaches side) hside hfill hwhole

end Slack

end ProductVenue

def ammV4 : ProductVenue AmmV4Market where
  side m := sideOf m.state.coinMint m.state.pcMint
  reserves m := m.reserves
  quote m := m.quote
  reaches m _ := m.swappable
  pays m side amountIn :=
    constantProductOut (m.reserves side) (m.reserves !side) (m.swappable amountIn)
  arrives _ _ := id
  SameTerms m m' := m'.state.coinMint = m.state.coinMint ∧ m'.state.pcMint = m.state.pcMint ∧
    m'.state.swapFeeNumerator = m.state.swapFeeNumerator ∧
    m'.state.swapFeeDenominator = m.state.swapFeeDenominator

theorem ammV4_curved : ammV4.Curved where
  refused m mint amount hside := by
    simp only [ammV4] at hside
    simp [ProductVenue.yields, ammV4, AmmV4Market.quote, forSide, hside]
  empty m mint side amount hside hempty := by
    simp only [ammV4] at hside hempty
    simp [ammV4, AmmV4Market.quote, forSide, hside, hempty]
  yields_eq m mint side amount hside hx hy := by
    simp only [ammV4] at hside hx hy
    simp only [ProductVenue.yields, ammV4, AmmV4Market.quote, forSide, hside, hx.ne',
      hy.ne', or_self,
      ↓reduceIte, id]
    exact constantProductOut_eq hx hy
  pays_eq m side amount hx hy := constantProductOut_eq hx hy
  arrives_le _ _ _ := le_rfl
  arrives_sum _ _ _ _ := le_rfl
  same m m' h := by
    obtain ⟨hcoin, hpc, hnumerator, hdenominator⟩ := h
    refine ⟨?_, ?_, rfl⟩
    · simp only [ammV4, hcoin, hpc]
    · funext side amount
      simp only [ammV4, AmmV4Market.swappable, AmmV4Market.lpFee, hnumerator, hdenominator]

theorem ammV4_reaches (m : AmmV4Market) (side : Bool) : Superadditive 0 (ammV4.reaches m side) :=
  feeAmount_superadditive _ _

def cpmm : ProductVenue CpmmMarket where
  side m := sideOf m.state.mint0 m.state.mint1
  reserves m := m.reserves
  quote m := m.quote
  reaches m := m.swappable
  pays m := m.grossOut
  arrives m side := netOfFee (m.transferFee !side)
  SameTerms m m' := m'.state.mint0 = m.state.mint0 ∧ m'.state.mint1 = m.state.mint1 ∧
    m'.state.creatorFeeEnabled = m.state.creatorFeeEnabled ∧ m'.config = m.config ∧
    m'.transferFee0 = m.transferFee0 ∧ m'.transferFee1 = m.transferFee1

theorem cpmm_reaches (m : CpmmMarket) (side : Bool) : Superadditive 0 (cpmm.reaches m side) :=
  (feeAmount_superadditive m.inputFeeRate feeRateDenominator).comp (netOfFee_superadditive _)

theorem cpmm_curved : cpmm.Curved where
  refused m mint amount hside := by
    simp only [cpmm] at hside
    simp [ProductVenue.yields, cpmm, CpmmMarket.quote, forSide, hside]
  empty m mint side amount hside hempty := by
    simp only [cpmm] at hside hempty
    simp [cpmm, CpmmMarket.quote, forSide, hside, hempty]
  yields_eq m mint side amount hside hx hy := by
    simp only [cpmm] at hside hx hy
    simp only [ProductVenue.yields, cpmm, CpmmMarket.quote, forSide, hside, hx.ne', hy.ne', or_self,
      ↓reduceIte]
    by_cases hreceived : m.receivedByPool side amount.toNat = 0
    · -- Nothing reaches the curve, so the curve yields what the refused quote does.
      have hnone : m.swappable side amount.toNat = 0 := by
        unfold CpmmMarket.swappable
        omega
      have hout : curveOut (m.reserves side) (m.reserves !side) 0 = 0 := by
        rw [curveOut_eq_div hx, mul_zero, Nat.zero_div]
      have harrives := netOfFee_le (m.transferFee !side) 0
      rw [hnone, hout]
      simp only [hreceived, ↓reduceIte]
      omega
    · simp only [hreceived, ↓reduceIte]
      rw [CpmmMarket.grossOut, constantProductOut_eq hx hy]
  pays_eq m side amount hx hy := constantProductOut_eq hx hy
  arrives_le m side amount := netOfFee_le _ _
  arrives_sum m side := netOfFee_superadditive _
  same m m' h := by
    obtain ⟨h0, h1, hcreator, hconfig, hfee0, hfee1⟩ := h
    refine ⟨?_, ?_, ?_⟩
    · simp only [cpmm, h0, h1]
    · funext side amount
      simp only [cpmm, CpmmMarket.swappable, CpmmMarket.lpFee, CpmmMarket.receivedByPool,
        CpmmMarket.inputFeeRate, CpmmMarket.transferFee, hcreator, hconfig, hfee0, hfee1]
    · funext side amount
      simp only [cpmm, CpmmMarket.transferFee, hfee0, hfee1]

def fluxbeam : ProductVenue FluxbeamMarket where
  side m := sideOf m.state.mintA m.state.mintB
  reserves m := m.reserves
  quote m := m.quote
  reaches m _ := m.sourceLessFees
  pays m side amountIn :=
    match m.quoteReserves (m.reserves side) (m.reserves !side) amountIn with
    | .ok q => q.expectedOut
    | .error _ => 0
  arrives _ _ := id
  SameTerms m m' := m'.state = m.state

namespace FluxbeamMarket
variable (m : FluxbeamMarket)

theorem reserves_le (side : Bool) : m.reserves side ≤ u64Max := by
  have hA := m.vaultABalance.toNat_lt
  have hB := m.vaultBBalance.toNat_lt
  unfold reserves u64Max
  split <;> omega

/-- The two divisions never fail: the quote is the curve's output. -/
theorem quoteReserves_eq {x y : ℕ} (hx : 0 < x) (hxmax : x ≤ u64Max) (hymax : y ≤ u64Max)
    {amountIn : ℕ} (hin : amountIn ≤ u64Max) :
    ∃ q, m.quoteReserves x y amountIn = .ok q ∧
      q.expectedOut = curveOut x y (m.sourceLessFees amountIn) := by
  have hu64 : u64Max = 18446744073709551615 := rfl
  have hu128 : u128Max = 340282366920938463463374607431768211455 := rfl
  have hnet : m.sourceLessFees amountIn ≤ amountIn := Nat.sub_le _ _
  unfold quoteReserves
  by_cases hzero : m.sourceLessFees amountIn = 0
  · refine ⟨⟨amountIn, 0, m.lpFee amountIn, 0⟩, by simp [hzero], ?_⟩
    rw [hzero, curveOut_eq_div hx, mul_zero, Nat.zero_div]
  · have hle : reserveLeft x y (m.sourceLessFees amountIn) ≤ y := reserveLeft_le hx
    have hdiv : mulDivCeil y x (x + m.sourceLessFees amountIn) =
        some (reserveLeft x y (m.sourceLessFees amountIn)) := by
      rw [mulDivCeil_eq_some (by omega) (by omega) (by omega), mul_comm y x]
      exact ⟨by omega, rfl, by omega⟩
    simp only [hzero, ↓reduceIte, hdiv, not_lt.mpr hle]
    exact ⟨_, rfl, rfl⟩

/-- One fee component takes the whole of every amount, or is the rounded-up share of it. -/
theorem feeAmount_cases (rate denominator : ℕ) :
    (∀ amount, feeAmount amount rate denominator = amount) ∨
      ∃ r d, 0 < d ∧ ∀ amount, feeAmount amount rate denominator = amount * r ⌈/⌉ d := by
  by_cases hnone : rate = 0 ∨ denominator = 0
  · exact Or.inr ⟨0, 1, Nat.one_pos, fun amount => by simp [feeAmount, hnone]⟩
  · have hd : 0 < denominator := by omega
    rcases ceilDiv_cases rate hd with h | h
    · refine Or.inr ⟨rate, denominator, hd, fun amount => ?_⟩
      rw [feeAmount, if_neg hnone, ceilDiv, if_neg hd.ne']
      exact Nat.min_eq_left (h amount)
    · refine Or.inl fun amount => ?_
      rw [feeAmount, if_neg hnone, ceilDiv, if_neg hd.ne']
      exact Nat.min_eq_right (h amount)

/-- Two components rounded up apart take at most one unit more than the amount, or take all of
every amount. -/
theorem components_cases :
    (∀ amount, m.tradeFee amount + m.ownerFee amount ≤ amount + 1) ∨
      ∀ amount, amount ≤ m.tradeFee amount + m.ownerFee amount := by
  rcases feeAmount_cases m.state.tradeFeeNumerator.toNat m.state.tradeFeeDenominator.toNat with
    htrade | ⟨r, d, hd, htrade⟩
  · refine Or.inr fun amount => ?_
    rw [tradeFee, htrade]
    omega
  rcases feeAmount_cases m.state.ownerTradeFeeNumerator.toNat
    m.state.ownerTradeFeeDenominator.toNat with howner | ⟨s, e, he, howner⟩
  · refine Or.inr fun amount => ?_
    rw [ownerFee, howner]
    omega
  simp only [tradeFee, htrade, ownerFee, howner]
  rcases le_total (r * e + s * d) (d * e) with hrates | hrates
  · refine Or.inl fun amount => ?_
    have htop := mul_ceilDiv_lt (amount * r) hd
    have htop' := mul_ceilDiv_lt (amount * s) he
    generalize amount * r ⌈/⌉ d = t at *
    generalize amount * s ⌈/⌉ e = o at *
    have hboth : d * e * (t + o) < d * e * (amount + 2) := by nlinarith
    have := Nat.lt_of_mul_lt_mul_left hboth
    omega
  · refine Or.inr fun amount => ?_
    have hlow := le_mul_ceilDiv (amount * r) hd
    have hlow' := le_mul_ceilDiv (amount * s) he
    generalize amount * r ⌈/⌉ d = t at *
    generalize amount * s ⌈/⌉ e = o at *
    have hboth : d * e * amount ≤ d * e * (t + o) := by nlinarith
    exact Nat.le_of_mul_le_mul_left hboth (by positivity)

theorem lpFee_le (amount : ℕ) : m.lpFee amount ≤ amount := Nat.min_le_right _ _

theorem sourceLessFees_within : Superadditive 1 m.sourceLessFees := by
  apply Superadditive.of_fee m.lpFee_le
  intro a b
  have htrade := feeAmount_add_le a b
    m.state.tradeFeeNumerator.toNat m.state.tradeFeeDenominator.toNat
  have howner := feeAmount_add_le a b m.state.ownerTradeFeeNumerator.toNat
    m.state.ownerTradeFeeDenominator.toNat
  change m.tradeFee (a + b) ≤ m.tradeFee a + m.tradeFee b at htrade
  change m.ownerFee (a + b) ≤ m.ownerFee a + m.ownerFee b at howner
  unfold lpFee saturatingAddU64
  rcases m.components_cases with h | h
  · have := h a
    have := h b
    omega
  · have := h a
    have := h b
    omega

/-- With one component there is nothing to round up twice. -/
theorem sourceLessFees_superadditive
    (hone : m.state.tradeFeeNumerator = 0 ∨ m.state.ownerTradeFeeNumerator = 0) :
    Superadditive 0 m.sourceLessFees := by
  apply Superadditive.of_fee m.lpFee_le
  intro a b
  have htrade := feeAmount_add_le a b
    m.state.tradeFeeNumerator.toNat m.state.tradeFeeDenominator.toNat
  have howner := feeAmount_add_le a b m.state.ownerTradeFeeNumerator.toNat
    m.state.ownerTradeFeeDenominator.toNat
  change m.tradeFee (a + b) ≤ m.tradeFee a + m.tradeFee b at htrade
  change m.ownerFee (a + b) ≤ m.ownerFee a + m.ownerFee b at howner
  have hle : ∀ amount, m.tradeFee amount ≤ amount := fun amount => feeAmount_le amount _ _
  have hle' : ∀ amount, m.ownerFee amount ≤ amount := fun amount => feeAmount_le amount _ _
  have hnone : (∀ amount, m.tradeFee amount = 0) ∨ ∀ amount, m.ownerFee amount = 0 := by
    rcases hone with h | h
    · exact Or.inl fun amount => by simp [tradeFee, feeAmount, h]
    · exact Or.inr fun amount => by simp [ownerFee, feeAmount, h]
  unfold lpFee saturatingAddU64
  have := hle a
  have := hle b
  have := hle' a
  have := hle' b
  rcases hnone with h | h
  · rw [h, h, h]
    omega
  · rw [h, h, h]
    omega

end FluxbeamMarket

theorem fluxbeam_curved : fluxbeam.Curved where
  refused m mint amount hside := by
    simp only [fluxbeam] at hside
    simp [ProductVenue.yields, fluxbeam, FluxbeamMarket.quote, forSide, hside]
  empty m mint side amount hside hempty := by
    simp only [fluxbeam] at hside hempty
    simp [fluxbeam, FluxbeamMarket.quote, forSide, hside, hempty]
  yields_eq m mint side amount hside hx hy := by
    simp only [fluxbeam] at hside hx hy
    obtain ⟨q, hq, hout⟩ := m.quoteReserves_eq hx (m.reserves_le side) (m.reserves_le !side)
      (Nat.le_of_lt_succ amount.toNat_lt)
    simp only [ProductVenue.yields, fluxbeam, FluxbeamMarket.quote, forSide, hside, hx.ne', hy.ne',
      or_self, ↓reduceIte, hq, id]
    exact hout
  pays_eq m side amount hx hy := by
    simp only [fluxbeam] at hx hy ⊢
    obtain ⟨q, hq, hout⟩ := m.quoteReserves_eq hx (m.reserves_le side) (m.reserves_le !side)
      (Nat.le_of_lt_succ amount.toNat_lt)
    simp only [hq]
    exact hout
  arrives_le _ _ _ := le_rfl
  arrives_sum _ _ _ _ := le_rfl
  same m m' h := by
    refine ⟨?_, ?_, rfl⟩
    · simp only [fluxbeam, show m'.state = m.state from h]
    · funext side amount
      simp only [fluxbeam, FluxbeamMarket.sourceLessFees, FluxbeamMarket.lpFee,
        FluxbeamMarket.tradeFee, FluxbeamMarket.ownerFee, show m'.state = m.state from h]

/-- The laws of the curve hold of every pool and every sequence of fills; where FluxBeam rounds two
fee components up apart, more input and whole inputs may yield one raw unit's worth less. -/
theorem fills_keep_to_curve :
    (cpmm.KeepsProduct ∧ cpmm.BelowReserve ∧
      (∀ m, cpmm.RisesWithInput m) ∧ ∀ m, cpmm.NoGainBySplitting m) ∧
    (ammV4.KeepsProduct ∧ ammV4.BelowReserve ∧
      (∀ m, ammV4.RisesWithInput m) ∧ ∀ m, ammV4.NoGainBySplitting m) ∧
    fluxbeam.KeepsProduct ∧ fluxbeam.BelowReserve ∧ (∀ m, fluxbeam.WithinOneUnit m) ∧
      ∀ m, m.state.tradeFeeNumerator = 0 ∨ m.state.ownerTradeFeeNumerator = 0 →
        fluxbeam.RisesWithInput m ∧ fluxbeam.NoGainBySplitting m := by
  refine ⟨⟨?_, ?_, ?_, ?_⟩, ⟨?_, ?_, ?_, ?_⟩, ?_, ?_, ?_, ?_⟩
  · exact cpmm_curved.keepsProduct
  · exact cpmm_curved.belowReserve
  · exact fun m => cpmm_curved.risesWithInput m (cpmm_reaches m)
  · exact fun m => cpmm_curved.noGainBySplitting m (cpmm_reaches m)
  · exact ammV4_curved.keepsProduct
  · exact ammV4_curved.belowReserve
  · exact fun m => ammV4_curved.risesWithInput m (ammV4_reaches m)
  · exact fun m => ammV4_curved.noGainBySplitting m (ammV4_reaches m)
  · exact fluxbeam_curved.keepsProduct
  · exact fluxbeam_curved.belowReserve
  · exact fun m => fluxbeam_curved.withinOneUnit m fun _ => m.sourceLessFees_within
  · intro m hone
    have hreaches : ∀ side, Superadditive 0 (fluxbeam.reaches m side) :=
      fun _ => m.sourceLessFees_superadditive hone
    exact ⟨fluxbeam_curved.risesWithInput m hreaches, fluxbeam_curved.noGainBySplitting m hreaches⟩

def twoFees (vaultA vaultB : UInt64) : FluxbeamMarket where
  state := ⟨"pool", "a", "b", 25, 10000, 5, 10000⟩
  vaultABalance := vaultA
  vaultBBalance := vaultB

/-- The 2001st unit of an input raises both fees, and is dearer than what it buys. -/
theorem second_fee_unit_costs_more :
    ¬ fluxbeam.RisesWithInput (twoFees 1000000 1000000000) ∧
      ¬ fluxbeam.NoGainBySplitting (twoFees 1000000 1000000000) := by
  constructor
  · intro h
    exact absurd (h "a" 2000 2001 (by decide)) (by decide +kernel)
  · intro h
    have hfill : fluxbeam.Filled (twoFees 1000000 1000000000) "a" 1 (twoFees 1000001 1000000000) :=
      ⟨true, _, 1, rfl, rfl, rfl, by decide +kernel, le_rfl, rfl, rfl⟩
    exact absurd (h "a" 1 2000 2001 _ hfill (by decide)) (by decide +kernel)

end ScreenerBot.Direct.Venues.ConstantProduct
