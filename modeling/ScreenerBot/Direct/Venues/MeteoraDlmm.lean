import ScreenerBot.Chain.WideMath
import ScreenerBot.Direct.Venues.ClmmTicks
import ScreenerBot.Library.Fallible

/-!
The bins of a DLMM pair: the fee rate of a bin, the fill of one bin, and the walk from bin to bin.

`swapForY` spends X and walks down. The source is built without overflow checks, so a product or a
power that it does not check is cut to its width here.
-/
namespace ScreenerBot.Direct.Venues.Dlmm
open ScreenerBot.Chain ScreenerBot.Library ScreenerBot.Swaps

def feePrecision : ℕ := 10 ^ 9

def maxFeeRate : ℕ := 100000000

def basisPointMax : ℕ := 10000

structure VariableParameters where
  volatilityReference : UInt32
  indexReference : ℤ

structure StaticParameters where
  baseFactor : UInt16
  variableFeeControl : UInt32
  maxVolatilityAccumulator : UInt32
  baseFeePowerFactor : UInt8
  collectFeeMode : UInt8

structure LbPairState where
  pool : String
  parameters : StaticParameters
  activeId : ℤ
  binStep : UInt16

structure DecodedBin where
  id : ℤ
  amountX : UInt64
  amountY : UInt64

structure DlmmMarket where
  state : LbPairState
  vParams : VariableParameters
  bins : List DecodedBin

inductive Rounding where
  | up
  | down

def arithmeticOverflow : DirectSwapError := .quoteMath "DLMM bin/fee arithmetic overflowed"

/-- `u64::try_from`. -/
def toU64 (raw : ℕ) : Option ℕ := if raw ≤ u64Max then some raw else none

/-- One round of the loop of `pow_q64` for each bit, the lowest first. -/
def powBits (exp : ℕ) : List ℕ → ℕ → ℕ → ℕ → Option ℕ
  | [], _, _, result => some result
  | position :: rest, remaining, squaredBase, result =>
    let bit := 1 <<< position
    if remaining = 0 then some result
    else do
      let result ←
        if exp &&& bit ≠ 0 then (checkedRaw (result * squaredBase)).map (· >>> 64) else some result
      let squaredBase ← (checkedRaw (squaredBase * squaredBase)).map (· >>> 64)
      powBits exp rest (remaining &&& (u32Max ^^^ bit)) squaredBase result

/-- `pow_q64`. -/
def powQ64 (base : ℕ) (exp : ℤ) : Option ℕ :=
  let one := 1 <<< 64
  if exp = 0 then some one
  else if 0x80000 ≤ exp.natAbs then none
  else do
    let inverts := one ≤ base
    let squaredBase := if inverts then u128Max / base else base
    let result ← powBits exp.natAbs (List.range 20) exp.natAbs squaredBase one
    if result = 0 then none
    else if (decide (exp < 0) != decide inverts) then some (u128Max / result)
    else some result

/-- `get_price_from_id`. -/
def getPriceFromId (id : ℤ) (binStep : UInt16) : Option ℕ := do
  let bps := (binStep.toNat <<< 64) / basisPointMax
  let base ← checkedRaw ((1 <<< 64) + bps)
  powQ64 base id

def mulDiv : Rounding → ℕ → ℕ → ℕ → Option ℕ
  | .up => mulDivCeil
  | .down => mulDivFloor

/-- `get_amount_out`. -/
def getAmountOut (amountIn price : ℕ) (swapForY : Bool) (rounding : Rounding) : Option ℕ :=
  (if swapForY then mulDiv rounding price amountIn (1 <<< 64)
    else mulDiv rounding amountIn (1 <<< 64) price).bind toU64

/-- `get_amount_in`. -/
def getAmountIn (amountOut price : ℕ) (swapForY : Bool) (rounding : Rounding) : Option ℕ :=
  (if swapForY then mulDiv rounding amountOut (1 <<< 64) price
    else mulDiv rounding amountOut price (1 <<< 64)).bind toU64

/-- `fee_from_amount`. -/
def feeFromAmount (rate amountWithFee : ℕ) : Option ℕ :=
  (mulDivCeil amountWithFee rate feePrecision).bind toU64

/-- `fee_from_excluded_amount`. -/
def feeFromExcludedAmount (rate amountExcludingFee : ℕ) : Option ℕ :=
  if feePrecision ≤ rate then none
  else (mulDivCeil amountExcludingFee rate (feePrecision - rate)).bind toU64

/-- What a fill charges, and what of its input is left for the bin. -/
def chargeInput (feeOnInput : Bool) (rate amountIn : ℕ) : Except DirectSwapError (ℕ × ℕ) :=
  if feeOnInput then do
    let fee ← okOr arithmeticOverflow (feeFromAmount rate amountIn)
    .ok (fee, amountIn - fee)
  else .ok (0, amountIn)

/-- What a bin takes of an input without fee, what it leaves, and what it pays out. -/
def tradeBin (cap price excluded : ℕ) (swapForY : Bool) : Except DirectSwapError (ℕ × ℕ × ℕ) :=
  if cap = 0 then .ok (0, excluded, 0)
  else do
    let maxAmountIn ← okOr arithmeticOverflow (getAmountIn cap price swapForY .up)
    if maxAmountIn ≤ excluded then .ok (maxAmountIn, excluded - maxAmountIn, cap)
    else do
      let out ← okOr arithmeticOverflow (getAmountOut excluded price swapForY .down)
      .ok (excluded, 0, out)

/-- What a fill takes with its fee, which is computed again when the bin leaves something. -/
def includeFee (feeOnInput : Bool) (rate amountIn amountInMm amountLeft tradingFee : ℕ) :
    Except DirectSwapError (ℕ × ℕ) :=
  if 0 < amountLeft then
    if feeOnInput then do
      let fee ← okOr arithmeticOverflow (feeFromExcludedAmount rate amountInMm)
      .ok (saturatingAddU64 amountInMm fee, fee)
    else .ok (amountInMm, tradingFee)
  else .ok (amountIn, tradingFee)

/-- What a fill pays out after a fee on the output. -/
def chargeOutput (feeOnInput : Bool) (rate outAmount tradingFee : ℕ) :
    Except DirectSwapError (ℕ × ℕ) :=
  if feeOnInput then .ok (outAmount, tradingFee)
  else do
    let fee ← okOr arithmeticOverflow (feeFromAmount rate outAmount)
    .ok (outAmount - fee, fee)

/-- `quote_bin`: what is consumed, what is paid out, and the fee. -/
def quoteBin (cap price amountIn : ℕ) (swapForY feeOnInput : Bool) (rate : ℕ) :
    Except DirectSwapError (ℕ × ℕ × ℕ) := do
  let (charged, excluded) ← chargeInput feeOnInput rate amountIn
  let (amountInMm, amountLeft, outAmount) ← tradeBin cap price excluded swapForY
  let (included, tradingFee) ← includeFee feeOnInput rate amountIn amountInMm amountLeft charged
  let (excludedOut, tradingFee) ← chargeOutput feeOnInput rate outAmount tradingFee
  .ok (included, excludedOut, tradingFee)

/-- What one bin took and gave. The walk adds these up and keeps none of them. -/
structure Fill where
  bin : DecodedBin
  rate : ℕ
  consumed : ℕ
  out : ℕ
  fee : ℕ

structure WalkState where
  activeId : ℤ
  amountLeft : ℕ
  totalOut : ℕ
  totalFee : ℕ
  fills : List Fill

namespace DlmmMarket
variable (m : DlmmMarket) (swapForY : Bool) (amountIn : ℕ)

/-- `fee_on_input`. -/
def feeOnInput : Bool := if m.state.parameters.collectFeeMode = 1 then !swapForY else true

def baseFee : ℕ :=
  let p := m.state.parameters
  wrapUnsigned 128
    (wrapUnsigned 128 (wrapUnsigned 128 (p.baseFactor.toNat * m.state.binStep.toNat) * 10) *
      wrapUnsigned 128 (10 ^ p.baseFeePowerFactor.toNat))

def variableFee (volatilityAccumulator : ℕ) : ℕ :=
  let p := m.state.parameters
  if 0 < p.variableFeeControl.toNat then
    let square := wrapUnsigned 128 (volatilityAccumulator * m.state.binStep.toNat)
    let square := min (square * square) u128Max
    let vFee := min (p.variableFeeControl.toNat * square) u128Max
    wrapUnsigned 128 (vFee + 99999999999) / 100000000000
  else 0

/-- `total_fee_rate`. -/
def totalFeeRate (volatilityAccumulator : ℕ) : ℕ :=
  min (wrapUnsigned 128 (m.baseFee + m.variableFee volatilityAccumulator)) maxFeeRate

/-- The accumulator at a bin. -/
def volatilityAt (activeId : ℤ) : ℕ :=
  let delta := (m.vParams.indexReference - activeId).natAbs
  min (saturatingAddU64 m.vParams.volatilityReference.toNat (min (delta * basisPointMax) u64Max))
    m.state.parameters.maxVolatilityAccumulator.toNat

/-- The rate of a bin. -/
def rateAt (activeId : ℤ) : ℕ := m.totalFeeRate (m.volatilityAt activeId)

def binAt (activeId : ℤ) : Option DecodedBin := m.bins.find? fun b => b.id = activeId

/-- What a bin holds of the side that goes out. -/
def mmCap (bin : DecodedBin) : ℕ := if swapForY then bin.amountY.toNat else bin.amountX.toNat

/-- The bin is filled, where it holds anything. -/
def fill (bin : DecodedBin) (s : WalkState) : Except DirectSwapError WalkState :=
  if mmCap swapForY bin = 0 then .ok s
  else do
    let rate := m.rateAt s.activeId
    let price ← okOr arithmeticOverflow (getPriceFromId s.activeId m.state.binStep)
    let (consumed, out, fee) ←
      quoteBin (mmCap swapForY bin) price s.amountLeft swapForY (m.feeOnInput swapForY) rate
    .ok
      (if 0 < consumed then
        { s with
          amountLeft := s.amountLeft - consumed
          totalOut := saturatingAddU64 s.totalOut out
          totalFee := saturatingAddU64 s.totalFee fee
          fills := s.fills ++ [⟨bin, rate, consumed, out, fee⟩] }
      else s)

/-- The bin after one, in the direction of the walk. -/
def nextBin (activeId : ℤ) : ℤ := if swapForY then activeId - 1 else activeId + 1

/-- The next bin is chosen, while anything is left. -/
def advance (s : WalkState) : Except DirectSwapError WalkState :=
  if 0 < s.amountLeft then do
    let nextId ← okOr arithmeticOverflow (checkedI32 (nextBin swapForY s.activeId))
    .ok { s with activeId := nextId }
  else .ok s

/-- One turn of the loop. -/
def turn (s : WalkState) : Except DirectSwapError WalkState :=
  match m.binAt s.activeId with
  | none => .error (.insufficientLiquidity m.state.pool amountIn
      "the size travels further than the loaded bin arrays cover")
  | some bin => do
    let s ← m.fill swapForY bin s
    advance swapForY s

variable {m swapForY amountIn} {s s' : WalkState} {bin : DecodedBin}

theorem binAt_some (h : m.binAt s.activeId = some bin) : bin ∈ m.bins ∧ bin.id = s.activeId :=
  ⟨List.mem_of_find?_eq_some h, by simpa using List.find?_some h⟩

theorem turn_ok (h : m.turn swapForY amountIn s = .ok s') :
    ∃ bin mid, m.binAt s.activeId = some bin ∧ m.fill swapForY bin s = .ok mid ∧
      advance swapForY mid = .ok s' := by
  unfold turn at h
  cases hbin : m.binAt s.activeId with
  | none => simp [hbin] at h
  | some bin =>
    simp only [hbin] at h
    obtain ⟨mid, hmid, h⟩ := bind_eq_ok.mp h
    exact ⟨bin, mid, rfl, hmid, h⟩

/-- A fill leaves the state alone, or takes what the bin quotes. -/
theorem fill_ok {mid : WalkState} (h : m.fill swapForY bin s = .ok mid) :
    mmCap swapForY bin = 0 ∧ mid = s ∨ mmCap swapForY bin ≠ 0 ∧ ∃ price consumed out fee,
      getPriceFromId s.activeId m.state.binStep = some price ∧
      quoteBin (mmCap swapForY bin) price s.amountLeft swapForY (m.feeOnInput swapForY)
        (m.rateAt s.activeId) = .ok (consumed, out, fee) ∧
      mid = if 0 < consumed then
        { s with
          amountLeft := s.amountLeft - consumed
          totalOut := saturatingAddU64 s.totalOut out
          totalFee := saturatingAddU64 s.totalFee fee
          fills := s.fills ++ [⟨bin, m.rateAt s.activeId, consumed, out, fee⟩] }
        else s := by
  unfold fill at h
  split_ifs at h with hempty
  · exact Or.inl ⟨hempty, (Except.ok.inj h).symm⟩
  · obtain ⟨price, hprice, h⟩ := bind_eq_ok.mp h
    obtain ⟨⟨consumed, out, fee⟩, hquote, h⟩ := bind_eq_ok.mp h
    rw [okOr_eq_ok] at hprice
    exact Or.inr ⟨hempty, price, consumed, out, fee, hprice, hquote, (Except.ok.inj h).symm⟩

theorem fill_activeId {mid : WalkState} (h : m.fill swapForY bin s = .ok mid) :
    mid.activeId = s.activeId := by
  rcases fill_ok h with ⟨_, rfl⟩ | ⟨_, price, consumed, out, fee, _, _, rfl⟩
  · rfl
  · split_ifs <;> rfl

theorem advance_ok (h : advance swapForY s = .ok s') :
    s.amountLeft = 0 ∧ s' = s ∨
      0 < s.amountLeft ∧ s' = { s with activeId := nextBin swapForY s.activeId } := by
  unfold advance at h
  split_ifs at h with hleft
  · obtain ⟨next, hnext, h⟩ := bind_eq_ok.mp h
    rw [okOr_eq_ok, checkedI32_eq_some] at hnext
    obtain ⟨rfl, _⟩ := hnext
    exact Or.inr ⟨hleft, (Except.ok.inj h).symm⟩
  · exact Or.inl ⟨by omega, (Except.ok.inj h).symm⟩

variable (m swapForY)

/-- Whether a bin is still ahead of a walk. -/
def ahead (activeId : ℤ) (bin : DecodedBin) : Bool :=
  if swapForY then bin.id ≤ activeId else activeId ≤ bin.id

/-- How many turns may still follow. -/
def binsAhead (s : WalkState) : ℕ :=
  if s.amountLeft = 0 then 0 else m.bins.countP (ahead swapForY s.activeId)

variable {m swapForY}

theorem binsAhead_turn (h : m.turn swapForY amountIn s = .ok s') (hleft : s.amountLeft ≠ 0) :
    m.binsAhead swapForY s' < m.binsAhead swapForY s := by
  obtain ⟨bin, mid, hbin, hfill, hadvance⟩ := turn_ok h
  obtain ⟨hmem, hid⟩ := binAt_some hbin
  have hmid := fill_activeId hfill
  have hahead : ahead swapForY s.activeId bin = true := by
    unfold ahead
    split_ifs <;> simp [hid]
  have hcount : 0 < m.bins.countP (ahead swapForY s.activeId) :=
    List.countP_pos_iff.mpr ⟨bin, hmem, hahead⟩
  unfold binsAhead
  rw [if_neg hleft]
  rcases advance_ok hadvance with ⟨hdone, rfl⟩ | ⟨hgoes, rfl⟩
  · rw [if_pos hdone]
    exact hcount
  · rw [if_neg hgoes.ne']
    -- The bin just passed is no longer ahead, and no bin comes in front again.
    have hbehind : ahead swapForY (nextBin swapForY mid.activeId) bin = false := by
      unfold ahead nextBin
      rw [hmid]
      split_ifs <;> simp [hid]
    have hsub : ∀ b, ahead swapForY (nextBin swapForY mid.activeId) b = true →
        ahead swapForY s.activeId b = true := by
      intro b hb
      unfold ahead nextBin at *
      rw [hmid] at hb
      split_ifs at * <;> simp only [decide_eq_true_eq] at * <;> omega
    have hfilter : m.bins.filter (ahead swapForY (nextBin swapForY mid.activeId)) =
        (m.bins.filter (ahead swapForY s.activeId)).filter
          (ahead swapForY (nextBin swapForY mid.activeId)) := by
      rw [List.filter_filter]
      apply List.filter_congr
      intro b _
      cases hb : ahead swapForY (nextBin swapForY mid.activeId) b with
      | false => simp
      | true => simp [hsub b hb]
    rw [List.countP_eq_length_filter, List.countP_eq_length_filter]
    show (m.bins.filter (ahead swapForY (nextBin swapForY mid.activeId))).length < _
    rw [hfilter, List.length_filter_lt_length_iff_exists]
    exact ⟨bin, List.mem_filter.mpr ⟨hmem, hahead⟩, by simp [hbehind]⟩

variable (m swapForY amountIn)

/-- The loop, over as long as something is left. -/
def loop : FallibleLoop DirectSwapError WalkState where
  done s := s.amountLeft = 0
  turn := m.turn swapForY amountIn
  size := m.binsAhead swapForY
  shrinks hgoes h := binsAhead_turn h (of_decide_eq_false hgoes)

def start : WalkState :=
  { activeId := m.state.activeId, amountLeft := amountIn, totalOut := 0, totalFee := 0
    fills := [] }

/-- The state a walk ends in. -/
def reached : Except DirectSwapError WalkState := (m.loop swapForY amountIn).run (m.start amountIn)

/-- `walk`: the output, the fee, and the side the fee was taken from. -/
def walk : Except DirectSwapError (ℕ × ℕ × Bool) := do
  let s ← m.reached swapForY amountIn
  .ok (s.totalOut, s.totalFee, m.feeOnInput swapForY)

end DlmmMarket
end ScreenerBot.Direct.Venues.Dlmm
